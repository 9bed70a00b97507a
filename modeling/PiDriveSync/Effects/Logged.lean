import PiDriveSync.Effects.Fallible
import Mathlib.Data.List.Infix

/-!
# Calls that write a log

A world may keep a log to which a call only adds.  `Logs log m Q` says that, whatever
world the call `m` is started in, what it adds to the log and how it ends are related
by `Q`.  Nothing is said about the rest of the world, so that a property of this kind
holds whatever the outside answers.

The rules follow the combinators, as those of `Ends` do.  `Logs.bind` hands what was
added so far on to the rest of the call.  `LogsOnly log P m` says of each entry that `m`
adds that it is a `P`; this is kept by the combinators without more ado.
-/

namespace PiDriveSync
namespace Fallible

variable {W T ε ε' α β : Type}

/-- From every world the call ends, and adds to the log, as `Q` says. -/
def Logs (log : W → List T) (m : Fallible W ε α) (Q : Outcome ε α → List T → Prop) : Prop :=
  ∀ w, ∃ new, log (m w).2 = log w ++ new ∧ Q (m w).1 new

namespace Logs

variable {log : W → List T}

theorem mono {m : Fallible W ε α} {Q Q' : Outcome ε α → List T → Prop} (h : Logs log m Q)
    (hQ : ∀ r new, Q r new → Q' r new) : Logs log m Q' := by
  intro w
  obtain ⟨new, hlog, hq⟩ := h w
  exact ⟨new, hlog, hQ _ _ hq⟩

theorem pure (a : α) {Q : Outcome ε α → List T → Prop} (hQ : Q (.ok a) []) :
    Logs log (Pure.pure a : Fallible W ε α) Q :=
  fun _ => ⟨[], (List.append_nil _).symm, hQ⟩

theorem fail (e : ε) {Q : Outcome ε α → List T → Prop} (hQ : Q (.err e) []) :
    Logs log (Fallible.fail e : Fallible W ε α) Q :=
  fun _ => ⟨[], (List.append_nil _).symm, hQ⟩

theorem abort {Q : Outcome ε α → List T → Prop} (hQ : Q .panic []) :
    Logs log (Fallible.abort : Fallible W ε α) Q :=
  fun _ => ⟨[], (List.append_nil _).symm, hQ⟩

/-- **Sequencing.**  The rest of the call starts with what was added so far. -/
theorem bind {m : Fallible W ε α} {f : α → Fallible W ε β} {P : Outcome ε α → List T → Prop}
    {Q : Outcome ε β → List T → Prop} (hm : Logs log m P)
    (hok : ∀ a new, P (.ok a) new → Logs log (f a) fun r new' => Q r (new ++ new'))
    (herr : ∀ e new, P (.err e) new → Q (.err e) new)
    (hpanic : ∀ new, P .panic new → Q .panic new) : Logs log (m >>= f) Q := by
  intro w
  obtain ⟨new, hlog, hP⟩ := hm w
  rw [bind_run]
  rcases h : m w with ⟨a | e | _, w'⟩ <;> rw [h] at hP hlog
  · obtain ⟨new', hlog', hQ⟩ := hok a new hP w'
    exact ⟨new ++ new', by rw [hlog', hlog, List.append_assoc], hQ⟩
  · exact ⟨new, hlog, herr e new hP⟩
  · exact ⟨new, hlog, hpanic new hP⟩

theorem attempt {m : Fallible W ε α} {P : Outcome ε α → List T → Prop}
    {Q : Outcome ε' (Except ε α) → List T → Prop} (hm : Logs log m P)
    (hok : ∀ a new, P (.ok a) new → Q (.ok (.ok a)) new)
    (herr : ∀ e new, P (.err e) new → Q (.ok (.error e)) new)
    (hpanic : ∀ new, P .panic new → Q .panic new) : Logs log m.attempt Q := by
  intro w
  obtain ⟨new, hlog, hP⟩ := hm w
  unfold Fallible.attempt
  rcases h : m w with ⟨a | e | _, w'⟩ <;> rw [h] at hP hlog
  · exact ⟨new, hlog, hok a new hP⟩
  · exact ⟨new, hlog, herr e new hP⟩
  · exact ⟨new, hlog, hpanic new hP⟩

theorem attemptOk {m : Fallible W ε α} {P : Outcome ε α → List T → Prop}
    {Q : Outcome ε' (Option α) → List T → Prop} (hm : Logs log m P)
    (hok : ∀ a new, P (.ok a) new → Q (.ok (some a)) new)
    (herr : ∀ e new, P (.err e) new → Q (.ok none) new)
    (hpanic : ∀ new, P .panic new → Q .panic new) : Logs log m.attemptOk Q := by
  intro w
  obtain ⟨new, hlog, hP⟩ := hm w
  unfold Fallible.attemptOk
  rcases h : m w with ⟨a | e | _, w'⟩ <;> rw [h] at hP hlog
  · exact ⟨new, hlog, hok a new hP⟩
  · exact ⟨new, hlog, herr e new hP⟩
  · exact ⟨new, hlog, hpanic new hP⟩

end Logs

/-! ## Calls that log one kind of entry only -/

/-- Each entry that the call adds to the log is a `P`. -/
def LogsOnly (log : W → List T) (P : T → Prop) (m : Fallible W ε α) : Prop :=
  Logs log m fun _ new => ∀ t ∈ new, P t

namespace LogsOnly

variable {log : W → List T} {P : T → Prop}

theorem pure (a : α) : LogsOnly log P (Pure.pure a : Fallible W ε α) :=
  Logs.pure a (by simp)

theorem fail (e : ε) : LogsOnly log P (Fallible.fail e : Fallible W ε α) :=
  Logs.fail e (by simp)

theorem abort : LogsOnly log P (Fallible.abort : Fallible W ε α) :=
  Logs.abort (by simp)

theorem ofExcept (r : Except ε α) : LogsOnly log P (Fallible.ofExcept r : Fallible W ε α) := by
  cases r with
  | ok a => exact .pure a
  | error e => exact .fail e

theorem unwrapOption (o : Option α) :
    LogsOnly log P (Fallible.unwrapOption o : Fallible W ε α) := by
  cases o with
  | none => exact .abort
  | some a => exact .pure a

theorem unwrapExcept (r : Except ε' α) :
    LogsOnly log P (Fallible.unwrapExcept r : Fallible W ε α) := by
  cases r with
  | ok a => exact .pure a
  | error e => exact .abort

/-- A call that logs one entry. -/
theorem of_single {m : Fallible W ε α} {f : β → T} {R : Outcome ε α → β → Prop}
    (hm : Logs log m fun r new => ∃ b, new = [f b] ∧ R r b) (hP : ∀ b, P (f b)) :
    LogsOnly log P m := by
  refine hm.mono ?_
  rintro r _ ⟨b, rfl, -⟩ t ht
  rw [List.mem_singleton.mp ht]
  exact hP b

/-- A call that logs nothing. -/
theorem of_nothing {m : Fallible W ε α} {R : Outcome ε α → Prop}
    (hm : Logs log m fun r new => new = [] ∧ R r) : LogsOnly log P m := by
  refine hm.mono ?_
  rintro r _ ⟨rfl, -⟩ t ht
  exact absurd ht List.not_mem_nil

/-- **Sequencing.** -/
theorem bind {m : Fallible W ε α} {f : α → Fallible W ε β} (hm : LogsOnly log P m)
    (hf : ∀ a, LogsOnly log P (f a)) : LogsOnly log P (m >>= f) := by
  refine Logs.bind hm (fun a new hnew => ?_) (fun _ _ h => h) fun _ h => h
  refine (hf a).mono fun r new' hnew' t ht => ?_
  rcases List.mem_append.mp ht with ht | ht
  · exact hnew t ht
  · exact hnew' t ht

theorem attempt {m : Fallible W ε α} (hm : LogsOnly log P m) :
    LogsOnly log P (m.attempt : Fallible W ε' (Except ε α)) :=
  Logs.attempt hm (fun _ _ h => h) (fun _ _ h => h) fun _ h => h

theorem attemptOk {m : Fallible W ε α} (hm : LogsOnly log P m) :
    LogsOnly log P (m.attemptOk : Fallible W ε' (Option α)) :=
  Logs.attemptOk hm (fun _ _ h => h) (fun _ _ h => h) fun _ h => h

end LogsOnly
end Fallible
end PiDriveSync
