import Mathlib.Init

/-!
# Calls that answer, fail or panic

A call of type `Fallible W ε α` runs in a world `W`.  It ends with an answer, with
an error its caller may look at, or with a panic, and in all three cases it leaves
a world behind: what was sent before a panic has been sent.

* `attempt`, `attemptOk`: the caller looks at the error, or drops it.
* `unwrapExcept`, `unwrapOption`: an error, or a missing value, is a panic.
* `Ends m w Q`: started in `w`, the call ends with `Q`.  `Ends.bind`,
  `Ends.attempt` and `Ends.attemptOk` carry it through the combinators.
* `Related R m m'`: started in related worlds, two calls end in the same way and leave
  related worlds behind.  This is kept by the combinators as well.
-/

namespace PiDriveSync

/-- How a call ends. -/
inductive Outcome (ε α : Type) where
  | ok (a : α)
  | err (e : ε)
  | panic
  deriving DecidableEq, Repr

/-- Whether the call ended without a panic. -/
def Outcome.returned {ε α : Type} : Outcome ε α → Bool
  | .panic => false
  | _ => true

/-- A call in a world `W`. -/
def Fallible (W ε α : Type) : Type :=
  W → Outcome ε α × W

namespace Fallible

variable {W ε ε' α β : Type}

protected def pure (a : α) : Fallible W ε α :=
  fun w => (.ok a, w)

protected def bind (m : Fallible W ε α) (f : α → Fallible W ε β) : Fallible W ε β :=
  fun w => match m w with
    | (.ok a, w') => f a w'
    | (.err e, w') => (.err e, w')
    | (.panic, w') => (.panic, w')

instance : Monad (Fallible W ε) where
  pure := Fallible.pure
  bind := Fallible.bind

/-- Give up with an error. -/
def fail (e : ε) : Fallible W ε α :=
  fun w => (.err e, w)

/-- Panic. -/
def abort : Fallible W ε α :=
  fun w => (.panic, w)

/-- A pure result; its error is passed on. -/
def ofExcept : Except ε α → Fallible W ε α
  | .ok a => fun w => (.ok a, w)
  | .error e => fun w => (.err e, w)

/-- The value, or a panic. -/
def unwrapOption : Option α → Fallible W ε α
  | some a => fun w => (.ok a, w)
  | none => fun w => (.panic, w)

/-- A pure result; its error is a panic. -/
def unwrapExcept : Except ε' α → Fallible W ε α
  | .ok a => fun w => (.ok a, w)
  | .error _ => fun w => (.panic, w)

/-- Run a call and look at its error. -/
def attempt (m : Fallible W ε α) : Fallible W ε' (Except ε α) :=
  fun w => match m w with
    | (.ok a, w') => (.ok (.ok a), w')
    | (.err e, w') => (.ok (.error e), w')
    | (.panic, w') => (.panic, w')

/-- Run a call and drop its error. -/
def attemptOk (m : Fallible W ε α) : Fallible W ε' (Option α) :=
  fun w => match m w with
    | (.ok a, w') => (.ok (some a), w')
    | (.err _, w') => (.ok none, w')
    | (.panic, w') => (.panic, w')

/-! ## Running -/

@[simp] theorem pure_run (a : α) (w : W) : (pure a : Fallible W ε α) w = (.ok a, w) := rfl

theorem bind_run (m : Fallible W ε α) (f : α → Fallible W ε β) (w : W) :
    (m >>= f) w = match m w with
      | (.ok a, w') => f a w'
      | (.err e, w') => (.err e, w')
      | (.panic, w') => (.panic, w') := rfl

@[simp] theorem ofExcept_ok (a : α) : (ofExcept (.ok a) : Fallible W ε α) = pure a := rfl

@[simp] theorem ofExcept_error (e : ε) : (ofExcept (.error e) : Fallible W ε α) = fail e := rfl

@[simp] theorem unwrapOption_some (a : α) : (unwrapOption (some a) : Fallible W ε α) = pure a :=
  rfl

@[simp] theorem unwrapOption_none : (unwrapOption none : Fallible W ε α) = abort := rfl

@[simp] theorem unwrapExcept_ok (a : α) :
    (unwrapExcept (.ok a : Except ε' α) : Fallible W ε α) = pure a := rfl

@[simp] theorem unwrapExcept_error (e : ε') :
    (unwrapExcept (.error e : Except ε' α) : Fallible W ε α) = abort := rfl

@[simp] theorem pure_bind_eq (a : α) (f : α → Fallible W ε β) : (pure a >>= f) = f a := rfl

@[simp] theorem fail_bind_eq (e : ε) (f : α → Fallible W ε β) :
    ((fail e : Fallible W ε α) >>= f) = fail e := rfl

@[simp] theorem abort_bind_eq (f : α → Fallible W ε β) :
    ((abort : Fallible W ε α) >>= f) = abort := rfl

theorem bind_run_ok {m : Fallible W ε α} {w w' : W} {a : α} (h : m w = (.ok a, w'))
    (f : α → Fallible W ε β) : (m >>= f) w = f a w' := by
  rw [bind_run, h]

theorem bind_run_panic {m : Fallible W ε α} {w w' : W} (h : m w = (.panic, w'))
    (f : α → Fallible W ε β) : (m >>= f) w = (.panic, w') := by
  rw [bind_run, h]

/-! ## How a call ends -/

/-- Started in `w`, the call ends with `Q`. -/
def Ends (m : Fallible W ε α) (w : W) (Q : Outcome ε α → W → Prop) : Prop :=
  Q (m w).1 (m w).2

/-- The first call answers, and the rest ends with `Q`. -/
theorem ends_bind_of_run {m : Fallible W ε α} {f : α → Fallible W ε β} {w w' : W} {a : α}
    {Q : Outcome ε β → W → Prop} (h : m w = (.ok a, w')) (hf : Ends (f a) w' Q) :
    Ends (m >>= f) w Q := by
  rw [Ends, bind_run_ok h]
  exact hf

theorem Ends.mono {m : Fallible W ε α} {w : W} {Q Q' : Outcome ε α → W → Prop}
    (h : Ends m w Q) (hQ : ∀ r w', Q r w' → Q' r w') : Ends m w Q' :=
  hQ _ _ h

/-- **Sequencing.**  The first call ends with `P`; from each of its answers the
rest ends with `Q`, and its errors and panics are final. -/
theorem Ends.bind {m : Fallible W ε α} {f : α → Fallible W ε β} {w : W}
    {P : Outcome ε α → W → Prop} {Q : Outcome ε β → W → Prop} (hm : Ends m w P)
    (hok : ∀ a w', P (.ok a) w' → Ends (f a) w' Q)
    (herr : ∀ e w', P (.err e) w' → Q (.err e) w')
    (hpanic : ∀ w', P .panic w' → Q .panic w') : Ends (m >>= f) w Q := by
  unfold Ends at hm ⊢
  rw [bind_run]
  rcases h : m w with ⟨_ | _ | _, w'⟩ <;> rw [h] at hm
  · exact hok _ _ hm
  · exact herr _ _ hm
  · exact hpanic _ hm

theorem Ends.attempt {m : Fallible W ε α} {w : W} {P : Outcome ε α → W → Prop}
    {Q : Outcome ε' (Except ε α) → W → Prop} (hm : Ends m w P)
    (hok : ∀ a w', P (.ok a) w' → Q (.ok (.ok a)) w')
    (herr : ∀ e w', P (.err e) w' → Q (.ok (.error e)) w')
    (hpanic : ∀ w', P .panic w' → Q .panic w') : Ends m.attempt w Q := by
  unfold Ends Fallible.attempt at *
  rcases h : m w with ⟨_ | _ | _, w'⟩ <;> rw [h] at hm
  · exact hok _ _ hm
  · exact herr _ _ hm
  · exact hpanic _ hm

theorem Ends.attemptOk {m : Fallible W ε α} {w : W} {P : Outcome ε α → W → Prop}
    {Q : Outcome ε' (Option α) → W → Prop} (hm : Ends m w P)
    (hok : ∀ a w', P (.ok a) w' → Q (.ok (some a)) w')
    (herr : ∀ e w', P (.err e) w' → Q (.ok none) w')
    (hpanic : ∀ w', P .panic w' → Q .panic w') : Ends m.attemptOk w Q := by
  unfold Ends Fallible.attemptOk at *
  rcases h : m w with ⟨_ | _ | _, w'⟩ <;> rw [h] at hm
  · exact hok _ _ hm
  · exact herr _ _ hm
  · exact hpanic _ hm

/-! ## Two calls that come to the same -/

/-- Started in related worlds, the two calls end in the same way and leave related
worlds behind. -/
def Related {W' : Type} (R : W → W' → Prop) (m : Fallible W ε α) (m' : Fallible W' ε α) : Prop :=
  ∀ w w', R w w' → (m w).1 = (m' w').1 ∧ R (m w).2 (m' w').2

section Related

variable {W' : Type} {R : W → W' → Prop}

theorem related_pure (a : α) : Related R (pure a : Fallible W ε α) (pure a) :=
  fun _ _ h => ⟨rfl, h⟩

theorem related_fail (e : ε) : Related R (fail e : Fallible W ε α) (fail e) :=
  fun _ _ h => ⟨rfl, h⟩

theorem related_abort : Related R (abort : Fallible W ε α) abort :=
  fun _ _ h => ⟨rfl, h⟩

theorem related_ofExcept (r : Except ε α) :
    Related R (ofExcept r : Fallible W ε α) (ofExcept r) := by
  cases r with
  | ok a => exact related_pure a
  | error e => exact related_fail e

theorem related_unwrapOption (o : Option α) :
    Related R (unwrapOption o : Fallible W ε α) (unwrapOption o) := by
  cases o with
  | none => exact related_abort
  | some a => exact related_pure a

theorem related_unwrapExcept (r : Except ε' α) :
    Related R (unwrapExcept r : Fallible W ε α) (unwrapExcept r) := by
  cases r with
  | ok a => exact related_pure a
  | error e => exact related_abort

/-- **Sequencing keeps two calls related.** -/
theorem Related.bind {m : Fallible W ε α} {m' : Fallible W' ε α} {f : α → Fallible W ε β}
    {f' : α → Fallible W' ε β} (hm : Related R m m') (hf : ∀ a, Related R (f a) (f' a)) :
    Related R (m >>= f) (m' >>= f') := by
  intro w w' hw
  obtain ⟨heq, hR⟩ := hm w w' hw
  rw [bind_run, bind_run]
  rcases h : m w with ⟨r, v⟩
  rcases h' : m' w' with ⟨r', v'⟩
  rw [h, h'] at heq hR
  obtain rfl : r = r' := heq
  cases r with
  | ok a => exact hf a v v' hR
  | err e => exact ⟨rfl, hR⟩
  | panic => exact ⟨rfl, hR⟩

theorem Related.attempt {m : Fallible W ε α} {m' : Fallible W' ε α} (hm : Related R m m') :
    Related R (m.attempt : Fallible W ε' (Except ε α)) m'.attempt := by
  intro w w' hw
  obtain ⟨heq, hR⟩ := hm w w' hw
  unfold Fallible.attempt
  rcases h : m w with ⟨r, v⟩
  rcases h' : m' w' with ⟨r', v'⟩
  rw [h, h'] at heq hR
  obtain rfl : r = r' := heq
  cases r <;> exact ⟨rfl, hR⟩

theorem Related.attemptOk {m : Fallible W ε α} {m' : Fallible W' ε α} (hm : Related R m m') :
    Related R (m.attemptOk : Fallible W ε' (Option α)) m'.attemptOk := by
  intro w w' hw
  obtain ⟨heq, hR⟩ := hm w w' hw
  unfold Fallible.attemptOk
  rcases h : m w with ⟨r, v⟩
  rcases h' : m' w' with ⟨r', v'⟩
  rw [h, h'] at heq hR
  obtain rfl : r = r' := heq
  cases r <;> exact ⟨rfl, hR⟩

end Related

end Fallible
end PiDriveSync
