import PiDriveSync.Effects.Logged

/-!
# Entries and what stands in front of them

A log is often right not entry by entry but because of the order of its entries: an
answer is used after it was given.  `Causal P before l` says that each entry of `l` is as
`P` says, given what stands in front of it, first `before` and then the entries of `l`
itself.  It is put together from the left, as logs are, and `Causal.of_split` reads it off
at one place of a finished log.

`LogsCausally log P m` says that what the call `m` adds to the log is of this kind,
whatever stands in front of it; as `LogsOnly`, this is kept by the combinators.
-/

namespace PiDriveSync

/-- Each entry of the list is as `P` says, given what stands in front of it. -/
inductive Causal {T : Type} (P : List T → T → Prop) : List T → List T → Prop
  | nil (before : List T) : Causal P before []
  | cons {before l : List T} {t : T} (ht : P before t) (hl : Causal P (before ++ [t]) l) :
      Causal P before (t :: l)

namespace Causal

variable {T : Type} {P Q : List T → T → Prop} {before l l' : List T}

/-- Entries that need no reason. -/
theorem of_forall (h : ∀ t ∈ l, ∀ before, P before t) (before : List T) : Causal P before l := by
  induction l generalizing before with
  | nil => exact .nil before
  | cons t l ih =>
    refine .cons (h t (List.mem_cons_self ..) before) ?_
    exact ih (fun t' ht' => h t' (List.mem_cons_of_mem _ ht')) _

/-- **One log behind the other.** -/
theorem append (h : Causal P before l) (h' : Causal P (before ++ l) l') :
    Causal P before (l ++ l') := by
  induction h with
  | nil =>
    rw [List.append_nil] at h'
    exact h'
  | cons ht _ ih =>
    refine .cons ht (ih ?_)
    rwa [List.append_assoc]

theorem snoc {t : T} (h : Causal P before l) (ht : P (before ++ l) t) :
    Causal P before (l ++ [t]) :=
  h.append (.cons ht (.nil _))

theorem mono (h : Causal P before l) (hPQ : ∀ before t, P before t → Q before t) :
    Causal Q before l := by
  induction h with
  | nil => exact .nil _
  | cons ht _ ih => exact .cons (hPQ _ _ ht) ih

/-- What is a reason stays one when more stands in front of it. -/
theorem extend (hP : ∀ pre before t, P before t → P (pre ++ before) t) (h : Causal P before l)
    (pre : List T) : Causal P (pre ++ before) l := by
  induction h with
  | nil => exact .nil _
  | cons ht _ ih =>
    refine .cons (hP pre _ _ ht) ?_
    rwa [List.append_assoc]

/-- **One place of the log.** -/
theorem of_split (h : Causal P before l) {pre post : List T} {t : T} (hl : l = pre ++ t :: post) :
    P (before ++ pre) t := by
  induction h generalizing pre with
  | nil => exact absurd hl (by simp)
  | @cons before l t' ht hrest ih =>
    rcases pre with _ | ⟨t'', pre⟩
    · obtain ⟨rfl, -⟩ := List.cons.inj hl
      rwa [List.append_nil]
    · obtain ⟨rfl, htail⟩ := List.cons.inj hl
      have hnext := ih htail
      rwa [List.append_assoc] at hnext

end Causal

namespace Fallible

variable {W T ε ε' α β : Type}

/-- Each entry that the call adds to the log is as `P` says, whatever is in front. -/
def LogsCausally (log : W → List T) (P : List T → T → Prop) (m : Fallible W ε α) : Prop :=
  Logs log m fun _ new => ∀ before, Causal P before new

namespace LogsCausally

variable {log : W → List T} {P : List T → T → Prop}

theorem pure (a : α) : LogsCausally log P (Pure.pure a : Fallible W ε α) :=
  Logs.pure a fun before => .nil before

theorem abort : LogsCausally log P (Fallible.abort : Fallible W ε α) :=
  Logs.abort fun before => .nil before

/-- **Sequencing.** -/
theorem bind {m : Fallible W ε α} {f : α → Fallible W ε β} (hm : LogsCausally log P m)
    (hf : ∀ a, LogsCausally log P (f a)) : LogsCausally log P (m >>= f) :=
  Logs.bind hm
    (fun a _ hnew => (hf a).mono fun _ _ hnew' before => (hnew before).append (hnew' _))
    (fun _ _ h => h) fun _ h => h

theorem attempt {m : Fallible W ε α} (hm : LogsCausally log P m) :
    LogsCausally log P (m.attempt : Fallible W ε' (Except ε α)) :=
  Logs.attempt hm (fun _ _ h => h) (fun _ _ h => h) fun _ h => h

end LogsCausally
end Fallible
end PiDriveSync
