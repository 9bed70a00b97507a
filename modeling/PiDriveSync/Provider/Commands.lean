import PiDriveSync.Provider.Daemon

/-!
# Runs that create directories as well

`createDir` is a call of the client in its own right: the program makes it when it
starts, and a run may make it for any directory and parent.  A `Command` is one of the
actions of a run, or such a call; `obeyed` is a run of commands, and `obeyed_inv` the
induction over it.

A process that is killed in the middle of a call leaves the drive as it is then.  The
same drive is left by the run in which the provider rejects what is asked after that
moment, so that this is one of the schedules.
-/

namespace PiDriveSync

open Fallible

/-- What a run can be told. -/
inductive Command where
  | act (a : Action)
  /-- The client creates a directory. -/
  | createDir (path : Str) (parentId : Option Str)

section Runs

variable [Base64] (ω : Schedule) (filters : List Str) (checks : Bool)

/-- How `createDir` can end for any path. -/
inductive DirEnds (ω : Schedule) (path : Str) (parentId : Option Str) (w : DriveWorld) :
    Outcome SyncerErrors (Option Str) → DriveWorld → Prop
  /-- The path has no unique id, and only the temporary file has been made. -/
  | noUid (e : SyncerErrors) (h : (SyncableFile.mk path).getUniqueId = .error e) :
      DirEnds ω path parentId w (.err e) (w.asked [.tempfile (ω w.tick).tempfile])
  | known (k : Str) (hk : (SyncableFile.mk path).getUniqueId = .ok k)
      {r : Outcome SyncerErrors (Option Str)} {w' : DriveWorld}
      (h : CreateEnds ω path k parentId w r w') : DirEnds ω path parentId w r w'

theorem createDir_dirEnds (path : Str) (parentId : Option Str) (w : DriveWorld) :
    Ends ((driveClient ω filters checks).createDir path parentId) w
      (DirEnds ω path parentId w) := by
  cases hk : (SyncableFile.mk path).getUniqueId with
  | ok k => exact (createDir_ends ω filters checks hk parentId w).mono fun r w' h => .known k hk h
  | error e =>
    have htemp : tempfile (driveClient ω filters checks).machine w =
        (.ok (if (ω w.tick).tempfile then .ok () else .error .invalidPathError),
          w.asked [.tempfile (ω w.tick).tempfile]) := rfl
    rw [Ends, Drive3Client.createDir, bind_run_ok htemp, hk, ofExcept_error, fail_bind_eq]
    exact .noUid e hk

/-- One command is carried out. -/
def Daemon.obey (s : Daemon) : Command → Daemon
  | .act a => s.step ω filters checks a
  | .createDir path parentId =>
    if s.alive then
      let r := (driveClient ω filters checks).createDir path parentId s.world
      ⟨r.2, r.1.returned, s.log⟩
    else s

/-- A run of commands, from a drive with the given objects. -/
def obeyed (objs : List Obj) (commands : List Command) : Daemon :=
  commands.foldl (Daemon.obey ω filters checks) (Daemon.start ω filters checks (.fresh objs) [])

theorem obeyed_snoc (objs : List Obj) (commands : List Command) (command : Command) :
    obeyed ω filters checks objs (commands ++ [command]) =
      (obeyed ω filters checks objs commands).obey ω filters checks command := by
  rw [obeyed, List.foldl_append]
  rfl

/-- A run of actions is one of commands. -/
theorem obeyed_act (objs : List Obj) (actions : List Action) :
    obeyed ω filters checks objs (actions.map .act) = run ω filters checks objs actions := by
  rw [obeyed, List.foldl_map]
  rfl

/-- What one command can do to the daemon. -/
inductive CommandEnds (s : Daemon) : Command → Daemon → Prop
  | act {a : Action} {s' : Daemon} (h : StepEnds ω checks s a s') : CommandEnds s (.act a) s'
  /-- Nobody is there to create. -/
  | ignored (path : Str) (parentId : Option Str) (h : s.alive = false) :
      CommandEnds s (.createDir path parentId) s
  | createDir (path : Str) (parentId : Option Str) (halive : s.alive = true)
      {r : Outcome SyncerErrors (Option Str)} {w' : DriveWorld}
      (h : DirEnds ω path parentId s.world r w') :
      CommandEnds s (.createDir path parentId) ⟨w', r.returned, s.log⟩

theorem obey_ends (s : Daemon) (command : Command) :
    CommandEnds ω checks s command (s.obey ω filters checks command) := by
  cases command with
  | act a =>
    obtain ⟨s', h, he⟩ := step_ends ω filters checks s a
    rw [Daemon.obey, he]
    exact .act h
  | createDir path parentId =>
    rw [Daemon.obey]
    split_ifs with halive
    · exact .createDir path parentId halive
        (createDir_dirEnds ω filters checks path parentId s.world)
    · exact .ignored path parentId (by simpa using halive)

/-- **Induction over runs of commands.** -/
theorem obeyed_inv (P : Daemon → Prop) {objs : List Obj} {commands : List Command}
    (hstart : ∀ r w', StartEnds ω (.fresh objs) r w' → P ⟨w', r.returned, []⟩)
    (hstep : ∀ command ∈ commands, ∀ s s', P s → CommandEnds ω checks s command s' → P s') :
    P (obeyed ω filters checks objs commands) := by
  refine List.foldlRecOn commands _ ?_ ?_
  · obtain ⟨r, w', h, he⟩ := start_ends ω filters checks (.fresh objs) []
    rw [he]
    exact hstart r w' h
  · exact fun s hs command hmem => hstep command hmem s _ hs (obey_ends ω filters checks s command)

end Runs

end PiDriveSync
