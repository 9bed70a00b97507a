import Mathlib.Data.List.Infix

/-!
# Stores that only grow

A store is a list to which elements are added at the end.  `Grows R l₀ l` says that
`l` came out of `l₀` in this way and that `R` allowed each element for the list it was
added to.  What holds of a store through its whole growth is proved one addition at a
time, by `Grows.inv`; and every list the store went through on the way is a prefix of
the last one, so `Grows.of_between` carries a result about the end of a growth to each
moment before it.
-/

namespace PiDriveSync

/-- `l` came out of `l₀` by adding elements that `R` allows. -/
inductive Grows {α : Type} (R : List α → α → Prop) (l₀ : List α) : List α → Prop
  | refl : Grows R l₀ l₀
  | snoc {l : List α} {a : α} (h : Grows R l₀ l) (ha : R l a) : Grows R l₀ (l ++ [a])

namespace Grows

variable {α : Type} {R S : List α → α → Prop} {l₀ l l' : List α}

theorem single {a : α} (ha : R l a) : Grows R l (l ++ [a]) :=
  .snoc .refl ha

theorem trans (h : Grows R l₀ l) (h' : Grows R l l') : Grows R l₀ l' := by
  induction h' with
  | refl => exact h
  | snoc _ ha ih => exact .snoc ih ha

/-- **Induction over a growth.** -/
theorem inv {P : List α → Prop} (h : Grows R l₀ l) (h₀ : P l₀)
    (hstep : ∀ l a, P l → R l a → P (l ++ [a])) : P l := by
  induction h with
  | refl => exact h₀
  | snoc _ ha ih => exact hstep _ _ ih ha

theorem starts_with (h : Grows R l₀ l) : l₀ <+: l := by
  induction h with
  | refl => exact List.prefix_rfl
  | snoc _ _ ih => exact ih.trans (List.prefix_append _ _)

/-- **Every list on the way grew in the same way.** -/
theorem of_between (h : Grows R l₀ l) (h₀ : l₀ <+: l') (hl : l' <+: l) : Grows R l₀ l' := by
  induction h with
  | refl =>
    have heq : l' = l₀ := hl.eq_of_length_le h₀.length_le
    rw [heq]
    exact .refl
  | snoc h ha ih =>
    rcases List.prefix_concat_iff.mp hl with rfl | hl
    · exact .snoc h ha
    · exact ih hl

end Grows
end PiDriveSync
