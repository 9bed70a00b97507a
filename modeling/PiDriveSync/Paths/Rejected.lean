import PiDriveSync.Asked
import PiDriveSync.Provider.Calm

/-!
# Paths outside the watched directory

`cloudPath` answers with an error when its prefix is missing; `createPath` unwraps.  So
a path that is not below the watched directory ends in a panic before anything is asked,
and the watched directory itself, in any spelling, has no components left to count: with
overflow checks this is a panic as well, and without them the count wraps around, and
the upload goes on to the parent of the watched directory.

No such path is turned away with an error (`not_rejectedCleanly`).
-/

namespace PiDriveSync

open UnixPath Fallible

/-- The path is below the watched directory, component by component, and is not that
directory. -/
def StrictlyBelow (path : Str) : Prop :=
  components (str "/var/www/RpiCamera") <+: components path ∧
    components path ≠ components (str "/var/www/RpiCamera")

instance (path : Str) : Decidable (StrictlyBelow path) :=
  inferInstanceAs (Decidable (_ ∧ _))

/-- The call creates something. -/
def IsRequest : Call → Prop
  | .create _ _ => True
  | _ => False

section Client

variable {σ : Type} [Base64]

/-- The upload ends with an error; the drive is neither searched nor written to, and the
cache is as before. -/
def RejectedCleanly (c : Drive3Client σ) (path : Str) (w : World σ) : Prop :=
  (∃ e, (c.uploadFile path w).1 = .err e) ∧
    (∀ call ∈ callsSince w (c.uploadFile path w).2, ¬ IsQuery call ∧ ¬ IsRequest call) ∧
    (c.uploadFile path w).2.cache = w.cache

omit [Base64] in
/-- What `createPath` finds when the path is not strictly below. -/
theorem relComponents_of_not_strictlyBelow {path : Str} (h : ¬ StrictlyBelow path) :
    relComponents path = none ∨ relComponents path = some [] := by
  by_cases hpre : components (str "/var/www/RpiCamera") <+: components path
  · have hsame : components path = components (str "/var/www/RpiCamera") ++ [] := by
      rw [List.append_nil]
      by_contra hne
      exact h ⟨hpre, hne⟩
    exact Or.inr (relComponents_of_components hsame)
  · have hbase : str "/var/www/RpiCamera" = below [] := by decide +kernel
    rw [hbase] at hpre
    left
    rw [relComponents, stripPrefix, if_neg hpre, Option.map_none]

/-- **Outside the watched directory there is a panic**, before anything is asked. -/
theorem uploadFile_outside (c : Drive3Client σ) {path : Str} (h : relComponents path = none)
    (w : World σ) : c.uploadFile path w = (.panic, w) := by
  rw [Drive3Client.uploadFile, createPath_eq, h]
  rfl

/-- **The watched directory itself**: a panic, or the drive is searched. -/
theorem uploadFile_root (c : Drive3Client σ) {path : Str} (h : relComponents path = some []) :
    Logs World.trace (c.uploadFile path) fun r calls =>
      r = .panic ∨ ∃ call ∈ calls, IsQuery call := by
  rw [Drive3Client.uploadFile, createPath_eq, h, createPathOf]
  cases c.machine.overflowChecks with
  | true => exact .abort (Or.inl rfl)
  | false =>
    exact (placeFile_asked (R := fun _ => True) c fun _ _ _ _ _ => trivial).mono fun _ _ h => h.2

/-- **No path is turned away.**  Whatever the client and its outside, an upload of a path
that is not strictly below the watched directory does not end in a clean error. -/
theorem not_rejectedCleanly (c : Drive3Client σ) (path : Str) (h : ¬ StrictlyBelow path)
    (w : World σ) : ¬ RejectedCleanly c path w := by
  rintro ⟨⟨e, herr⟩, hcalls, -⟩
  rcases relComponents_of_not_strictlyBelow h with hnone | hroot
  · rw [uploadFile_outside c hnone] at herr
    exact absurd herr (by simp)
  · rcases logs_callsSince (uploadFile_root c hroot) w with hpanic | ⟨call, hcall, hquery⟩
    · rw [hpanic] at herr
      exact absurd herr (by simp)
    · exact (hcalls call hcall).1 hquery

omit [Base64] in
/-- A directory whose name starts like that of the watched one. -/
theorem not_rejectedCleanly_sibling : ¬ @RejectedCleanly _ standardBase64
    (driveClient calm [] true) (str "/var/www/RpiCamera2/x") (.fresh []) :=
  @not_rejectedCleanly _ standardBase64 (driveClient calm [] true) (str "/var/www/RpiCamera2/x")
    (by decide +kernel) (.fresh [])

omit [Base64] in
/-- The upload of `/var/www/x` panics. -/
theorem outside_panics :
    (@Drive3Client.uploadFile _ standardBase64 (driveClient calm [] true) (str "/var/www/x")
      (.fresh [])).1 = .panic := by
  decide +kernel

end Client

end PiDriveSync
