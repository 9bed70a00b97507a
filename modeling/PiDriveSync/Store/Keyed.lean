import Mathlib.Data.List.Perm.Basic
import Mathlib.Data.List.Nodup
import Mathlib.Data.List.Forall2

/-!
# Lists that say the same in another order

Two lists of different things say the same if their elements look alike under `view` and
`spec`, up to order.  If nothing on either side looks like anything else on it, it is
enough that each element of one side looks like one of the other (`perm_map_of_views`);
that nothing looks alike is read off a key of which there is one at most
(`nodup_map_of_key`).
-/

namespace PiDriveSync

variable {α β γ κ : Type}

/-- A key that no two elements share keeps them apart. -/
theorem nodup_map_of_key [BEq κ] [LawfulBEq κ] {view : α → γ} (key : γ → κ) {l : List α}
    (h : ∀ k, (l.filter fun a => key (view a) == k).length ≤ 1) : (l.map view).Nodup := by
  refine List.Nodup.of_map key ?_
  rw [List.map_map, List.nodup_iff_count_le_one]
  intro k
  rw [List.count_eq_countP, List.countP_map, List.countP_eq_length_filter]
  exact h k

/-- **Each like one of the other, and none like another of its own.** -/
theorem perm_map_of_views {view : α → γ} {spec : β → γ} {l : List α} {m : List β}
    (hl : (l.map view).Nodup) (hm : (m.map spec).Nodup)
    (hlm : ∀ a ∈ l, ∃ b ∈ m, view a = spec b) (hml : ∀ b ∈ m, ∃ a ∈ l, view a = spec b) :
    (l.map view).Perm (m.map spec) := by
  rw [List.perm_ext_iff_of_nodup hl hm]
  intro c
  rw [List.mem_map, List.mem_map]
  constructor
  · rintro ⟨a, ha, rfl⟩
    obtain ⟨b, hb, heq⟩ := hlm a ha
    exact ⟨b, hb, heq.symm⟩
  · rintro ⟨b, hb, rfl⟩
    obtain ⟨a, ha, heq⟩ := hml b hb
    exact ⟨a, ha, heq⟩

/-- Elements that look alike one by one. -/
theorem map_eq_map_of_forall₂ {view : α → γ} {spec : β → γ} {l : List α} {m : List β}
    (h : List.Forall₂ (fun b a => view a = spec b) m l) : l.map view = m.map spec := by
  induction h with
  | nil => rfl
  | cons heq _ ih => rw [List.map_cons, List.map_cons, heq, ih]

end PiDriveSync
