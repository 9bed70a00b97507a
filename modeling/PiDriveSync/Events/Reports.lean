import PiDriveSync.Events.Watch
import PiDriveSync.Tree.Accounts

/-!
# No file without a report

A file comes to the drive because the watcher has reported its creation, and a report brings
one at most, whatever fails or is lost and however often the process is started again
(`files_reported`).  A report is used up when its event is taken from the queue, or lost with
the queue when the process ends; an upload is not tried a second time.
-/

namespace PiDriveSync

open UnixPath Fallible

/-! ## Uploads -/

section Uploads

variable [Base64]

/-- The upload of a path with a unique id. -/
def Action.uploadsAs (k : Str) : Action → Bool
  | .upload _ path => (SyncableFile.mk path).getUniqueId == .ok k
  | _ => false

/-- **Of a unique id**, a run brings at most one plain object for each upload. -/
theorem plainCarriers_run_le (ω : Schedule) (filters : List Str) (checks : Bool)
    (objs : List Obj) (actions : List Action) (k : Str) :
    (plainCarriers (run ω filters checks objs actions).world.objs k).length ≤
      (plainCarriers objs k).length + actions.countP (Action.uploadsAs k) := by
  induction actions using List.reverseRecOn with
  | nil =>
    obtain ⟨r, w', h, he⟩ := start_ends ω filters checks (.fresh objs) []
    rw [run, List.foldl_nil, he, plainCarriers_eq_of_folders h.growsByFolders]
    exact Nat.le_add_right _ _
  | append_singleton actions a ih =>
    obtain ⟨s', hends, hs'⟩ := step_ends ω filters checks (run ω filters checks objs actions) a
    rw [run_snoc, hs', List.countP_append, List.countP_singleton]
    cases hends with
    | ignored => omega
    | upload disk path halive h =>
      obtain ⟨added, asked, hobjs, -, -, hadded, hasked⟩ := h.filesPaid (k := k)
      rw [World.withDisk_objs] at hobjs
      have hstarted : ∀ r, startedAs k (path, r) = Action.uploadsAs k (.upload disk path) :=
        fun _ => rfl
      rw [hstarted] at hasked
      dsimp only
      omega
    | restart h =>
      rw [plainCarriers_eq_of_folders h.growsByFolders]
      exact ih.trans (Nat.add_le_add_left (Nat.le_add_right _ _) _)
    | expire => exact ih.trans (Nat.add_le_add_left (Nat.le_add_right _ _) _)

end Uploads

/-! ## Reports -/

/-- What the watcher has reported. -/
def reported (hs : List Happening) : List RawEvent :=
  hs.flatMap fun x => match x with
    | .outside _ events => events
    | _ => []

section Reports

variable [Base64] [RegexCrate] (ω : Schedule) (filters : List Str) (checks : Bool)

/-- The event reports the creation, and nothing else, of a path with this unique id, whose
name passes the filters. -/
def reports (k : Str) (e : RawEvent) : Bool :=
  (creationPath e).any fun path =>
    passesAs ω filters checks path && (SyncableFile.mk path).getUniqueId == .ok k

/-- An event is used for one upload, or for none. -/
theorem countP_uploadFor_le (k : Str) (disk : Disk) (e : RawEvent) :
    (uploadActions (uploadFor ω filters checks disk e).toList).countP (Action.uploadsAs k) ≤
      if reports ω filters checks k e then 1 else 0 := by
  cases hcreation : creationPath e with
  | none =>
    rw [uploadFor, hcreation]
    exact Nat.zero_le _
  | some path =>
    rw [uploadFor, reports, hcreation, Option.filter_some, Option.any_some]
    cases hpass : passesAs ω filters checks path with
    | false => exact Nat.zero_le _
    | true =>
      cases hthere : (disk path).isSome with
      | false => exact Nat.zero_le _
      | true => exact (List.countP_singleton ..).le

/-- **What waits in the queue**, or was used, has been reported. -/
theorem countP_intake_le (disk : Disk) (hs : List Happening) (k : Str) :
    (intake ω filters checks disk hs).2.countP (Action.uploadsAs k) +
        (intake ω filters checks disk hs).1.queue.countP (reports ω filters checks k) ≤
      (reported hs).countP (reports ω filters checks k) := by
  induction hs using List.reverseRecOn with
  | nil => exact le_rfl
  | append_singleton hs x ih =>
    have hintake : intake ω filters checks disk (hs ++ [x]) =
        (((intake ω filters checks disk hs).1.step ω filters checks x).1,
          (intake ω filters checks disk hs).2 ++
            ((intake ω filters checks disk hs).1.step ω filters checks x).2) := by
      rw [intake, List.foldl_append]
      rfl
    have hreported : reported (hs ++ [x]) = reported hs ++ reported [x] := List.flatMap_append
    rw [hintake, hreported, List.countP_append, List.countP_append]
    generalize intake ω filters checks disk hs = p at ih ⊢
    cases x with
    | outside disk' events =>
      have hevents : reported [.outside disk' events] = events := List.append_nil _
      rw [hevents, Intake.step, List.countP_append, List.countP_nil]
      omega
    | handle =>
      rw [Intake.step]
      cases hq : p.1.queue with
      | nil =>
        rw [hq] at ih
        simp only [List.countP_nil, hq]
        exact ih.trans (Nat.le_add_right _ _)
      | cons e queue =>
        have hone := countP_uploadFor_le ω filters checks k p.1.disk e
        rw [hq, List.countP_cons] at ih
        dsimp only
        split_ifs
        · rw [List.countP_nil]
          omega
        · omega
    | restart =>
      rw [Intake.step, List.countP_singleton, List.countP_nil]
      exact (Nat.le_add_right _ _).trans (ih.trans (Nat.le_add_right _ _))
    | expire gone =>
      rw [Intake.step, List.countP_singleton]
      exact ih.trans (Nat.le_add_right _ _)

/-- **No file without a report.**  Whatever fails or is lost on the drive, however the files
change, whatever the watcher reports and when, and however often the process is started
again: of a unique id, no more plain objects come to the drive than creations were reported
of paths with this id whose names pass the filters. -/
theorem files_reported (objs : List Obj) (disk : Disk) (hs : List Happening) (k : Str) :
    (plainCarriers (runWatch ω filters checks objs disk hs).world.objs k).length ≤
      (plainCarriers objs k).length + (reported hs).countP (reports ω filters checks k) := by
  have hfollows := follows_run ω filters checks objs disk hs
  have hadded := plainCarriers_run_le ω filters checks objs (intake ω filters checks disk hs).2 k
  have hused := countP_intake_le ω filters checks disk hs k
  rw [hfollows.world, World.withDisk_objs]
  omega

end Reports

end PiDriveSync
