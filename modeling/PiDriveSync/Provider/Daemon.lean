import PiDriveSync.Provider.Upload

/-!
# Runs of the daemon against the drive

A `Daemon` is the running program with its drive.  It starts by looking its root
folder up; after that it uploads files, loses cache entries, and may be killed and
started again, in any order.  A panic ends the process: nothing is uploaded until the
next start.

`run_world_inv` is the induction over runs: what starts and uploads preserve, and
what does not depend on the local files or on entries of the cache, holds of the
world of every run.
-/

namespace PiDriveSync

open UnixPath Fallible

/-- The program and everything around it. -/
structure Daemon where
  world : DriveWorld
  /-- Whether the process runs. -/
  alive : Bool
  /-- The uploads so far, and how they ended. -/
  log : List (Str × Outcome SyncerErrors (Option Str))

/-- What can happen to the daemon. -/
inductive Action where
  /-- The daemon uploads a file, with these files on the local disk. -/
  | upload (disk : Disk) (path : Str)
  /-- The process is started again, with an empty cache. -/
  | restart
  /-- Cache entries run out of time, or make room for others. -/
  | expire (gone : Str → Bool)

namespace World

/-- The same world with other files on the local disk. -/
def withDisk (w : DriveWorld) (disk : Disk) : DriveWorld :=
  { w with outside := { w.outside with disk := disk } }

/-- The same world with another cache. -/
def withCache (w : DriveWorld) (cache : Cache) : DriveWorld :=
  { w with cache := cache }

@[simp] theorem withDisk_objs (w : DriveWorld) (disk : Disk) : (w.withDisk disk).objs = w.objs :=
  rfl

@[simp] theorem withDisk_disk (w : DriveWorld) (disk : Disk) : (w.withDisk disk).disk = disk := rfl

@[simp] theorem withDisk_cache (w : DriveWorld) (disk : Disk) :
    (w.withDisk disk).cache = w.cache := rfl

@[simp] theorem withDisk_trace (w : DriveWorld) (disk : Disk) :
    (w.withDisk disk).trace = w.trace := rfl

@[simp] theorem withCache_objs (w : DriveWorld) (cache : Cache) :
    (w.withCache cache).objs = w.objs := rfl

@[simp] theorem withCache_cache (w : DriveWorld) (cache : Cache) :
    (w.withCache cache).cache = cache := rfl

@[simp] theorem withCache_trace (w : DriveWorld) (cache : Cache) :
    (w.withCache cache).trace = w.trace := rfl

/-- The world before the first start. -/
def fresh (objs : List Obj) : DriveWorld :=
  ⟨⟨objs, fun _ => none, 0⟩, [], []⟩

end World

section Runs

variable [Base64] (ω : Schedule) (filters : List Str) (checks : Bool)

/-- Start the program, with an empty cache. -/
def Daemon.start (w : DriveWorld) (log : List (Str × Outcome SyncerErrors (Option Str))) :
    Daemon :=
  let r := startup (driveClient ω filters checks) (w.withCache [])
  ⟨r.2, r.1.returned, log⟩

/-- One thing happens to the daemon. -/
def Daemon.step (s : Daemon) : Action → Daemon
  | .upload disk path =>
    if s.alive then
      let r := (driveClient ω filters checks).uploadFile path (s.world.withDisk disk)
      ⟨r.2, r.1.returned, s.log ++ [(path, r.1)]⟩
    else s
  | .restart => Daemon.start ω filters checks s.world s.log
  | .expire gone => { s with world := s.world.withCache (s.world.cache.filter fun e => !gone e.1) }

/-- A run from a drive with the given objects. -/
def run (objs : List Obj) (actions : List Action) : Daemon :=
  actions.foldl (Daemon.step ω filters checks) (Daemon.start ω filters checks (.fresh objs) [])

theorem run_snoc (objs : List Obj) (actions : List Action) (a : Action) :
    run ω filters checks objs (actions ++ [a]) =
      (run ω filters checks objs actions).step ω filters checks a := by
  rw [run, List.foldl_append]
  rfl

theorem start_ends (w : DriveWorld) (log : List (Str × Outcome SyncerErrors (Option Str))) :
    ∃ r w', StartEnds ω (w.withCache []) r w' ∧
      Daemon.start ω filters checks w log = ⟨w', r.returned, log⟩ :=
  ⟨_, _, startup_ends ω filters checks (w.withCache []), rfl⟩

/-- What one thing that happens can do to the daemon. -/
inductive StepEnds (s : Daemon) : Action → Daemon → Prop
  /-- Nobody is there to upload. -/
  | ignored (disk : Disk) (path : Str) (h : s.alive = false) : StepEnds s (.upload disk path) s
  | upload (disk : Disk) (path : Str) (halive : s.alive = true)
      {r : Outcome SyncerErrors (Option Str)} {w' : DriveWorld}
      (h : UploadEnds ω checks path (s.world.withDisk disk) r w') :
      StepEnds s (.upload disk path) ⟨w', r.returned, s.log ++ [(path, r)]⟩
  | restart {r : Outcome SyncerErrors Unit} {w' : DriveWorld}
      (h : StartEnds ω (s.world.withCache []) r w') : StepEnds s .restart ⟨w', r.returned, s.log⟩
  | expire (gone : Str → Bool) : StepEnds s (.expire gone)
      { s with world := s.world.withCache (s.world.cache.filter fun e => !gone e.1) }

/-- **Nothing else can happen in a step.** -/
theorem step_ends (s : Daemon) (a : Action) :
    ∃ s', StepEnds ω checks s a s' ∧ s.step ω filters checks a = s' := by
  refine ⟨_, ?_, rfl⟩
  cases a with
  | expire gone => exact .expire gone
  | restart => exact .restart (startup_ends ω filters checks (s.world.withCache []))
  | upload disk path =>
    rw [Daemon.step]
    split_ifs with halive
    · exact .upload disk path halive (uploadFile_ends ω filters checks path (s.world.withDisk disk))
    · exact .ignored disk path (by simpa using halive)

/-- **Induction over runs**, for a property of daemons. -/
theorem run_inv (P : Daemon → Prop) {objs : List Obj} {actions : List Action}
    (hstart : ∀ r w', StartEnds ω (.fresh objs) r w' → P ⟨w', r.returned, []⟩)
    (hrestart : ∀ s r w', P s → StartEnds ω (s.world.withCache []) r w' →
      P ⟨w', r.returned, s.log⟩)
    (hexpire : ∀ s cache, cache ⊆ s.world.cache → P s →
      P { s with world := s.world.withCache cache })
    (hupload : ∀ disk path, Action.upload disk path ∈ actions → ∀ s r w', P s → s.alive = true →
      UploadEnds ω checks path (s.world.withDisk disk) r w' →
        P ⟨w', r.returned, s.log ++ [(path, r)]⟩) :
    P (run ω filters checks objs actions) := by
  refine List.foldlRecOn actions _ ?_ ?_
  · obtain ⟨r, w', h, he⟩ := start_ends ω filters checks (.fresh objs) []
    rw [he]
    exact hstart r w' h
  · intro s hs a ha
    obtain ⟨s', hstep, he⟩ := step_ends ω filters checks s a
    rw [he]
    cases hstep with
    | ignored => exact hs
    | upload disk path halive h => exact hupload disk path ha s _ _ hs halive h
    | restart h => exact hrestart s _ _ hs h
    | expire gone => exact hexpire s _ (fun e he => List.mem_of_mem_filter he) hs

/-- **Induction over runs**, for a property of the world that does not depend on the
local files and is not lost with entries of the cache. -/
theorem run_world_inv (I : DriveWorld → Prop) {objs : List Obj} {actions : List Action}
    (hfresh : I (.fresh objs)) (hdisk : ∀ w disk, I w → I (w.withDisk disk))
    (hcache : ∀ w cache, cache ⊆ w.cache → I w → I (w.withCache cache))
    (hstart : ∀ w r w', I w → StartEnds ω w r w' → I w')
    (hupload : ∀ disk path, Action.upload disk path ∈ actions → ∀ w r w', I w →
      UploadEnds ω checks path w r w' → I w') :
    I (run ω filters checks objs actions).world := by
  refine run_inv ω filters checks (fun s => I s.world) ?_ ?_ ?_ ?_
  · exact fun r w' h => hstart _ r w' hfresh h
  · exact fun s r w' hs h => hstart _ r w' (hcache _ _ (by simp) hs) h
  · exact fun s cache hsub hs => hcache _ _ hsub hs
  · exact fun disk path ha s r w' hs _ h => hupload disk path ha _ r w' (hdisk _ _ hs) h

end Runs

/-! ## Uploads of files below the watched directory -/

/-- A path in normal spelling strictly below the watched directory: it is spelled by
directory names and a file name. -/
def IsFilePath (path : Str) (dirs : List Str) (f : Str) : Prop :=
  path = below (dirs ++ [f]) ∧ (∀ c ∈ dirs, IsName c) ∧ IsName f

namespace IsFilePath

variable {path f : Str} {dirs : List Str}

theorem isName (h : IsFilePath path dirs f) : ∀ c ∈ dirs ++ [f], IsName c := by
  intro c hc
  rcases List.mem_append.mp hc with hc | hc
  · exact h.2.1 c hc
  · rw [List.mem_singleton.mp hc]
    exact h.2.2

theorem solid (h : IsFilePath path dirs f) : ∀ c ∈ dirs ++ [f], Solid c :=
  fun c hc => (h.isName c hc).toSolid

theorem relComponents (h : IsFilePath path dirs f) : relComponents path = some (dirs ++ [f]) := by
  rw [h.1]
  exact relComponents_below h.solid

variable [Base64]

theorem getUniqueId (h : IsFilePath path dirs f) :
    (SyncableFile.mk path).getUniqueId = .ok (keyOf (dirs ++ [f])) := by
  rw [h.1]
  exact getUniqueId_below h.solid

/-- The file goes below the folder of its directory, under its own name. -/
theorem placeKeys (h : IsFilePath path dirs f) : PlaceKeys path f (keyOf dirs) := by
  have hdirs : ∀ c ∈ dirs, Solid c := fun c hc => h.solid c (List.mem_append_left _ hc)
  refine ⟨below dirs, ?_, ?_, getUniqueId_below hdirs⟩
  · rw [h.1]
    exact parentPath_below hdirs h.2.2.toSolid
  · rw [h.1]
    exact fileName_below (fun c hc => (hdirs c hc).noSep) h.2.2

end IsFilePath

theorem PlaceKeys.unique [Base64] {path name name' pk pk' : Str} (h : PlaceKeys path name pk)
    (h' : PlaceKeys path name' pk') : name = name' ∧ pk = pk' := by
  obtain ⟨pp, hpp, hname, hpk⟩ := h
  obtain ⟨pp', hpp', hname', hpk'⟩ := h'
  rw [hpp, Except.ok.injEq] at hpp'
  rw [← hpp', hpk, Except.ok.injEq] at hpk'
  rw [hname, Option.some.injEq] at hname'
  exact ⟨hname', hpk'⟩

/-- Every upload of the run is of a path in normal spelling strictly below the watched
directory. -/
def Normal (actions : List Action) : Prop :=
  ∀ disk path, Action.upload disk path ∈ actions → ∃ dirs f, IsFilePath path dirs f

/-- The uploaded paths of a run. -/
def Uploads (actions : List Action) (path : Str) : Prop :=
  ∃ disk, Action.upload disk path ∈ actions

/-- No uploaded path is an ancestor directory of another. -/
def NoClash (actions : List Action) : Prop :=
  ∀ cs ds : List Str, (∀ c ∈ ds, IsName c) → Uploads actions (below cs) →
    Uploads actions (below ds) → cs <+: ds → cs = ds

/-- No object carries a `pi_sync_id`. -/
def Unsynced (objs : List Obj) : Prop :=
  ∀ o ∈ objs, o.syncId = none

theorem carriers_of_unsynced {objs : List Obj} (h : Unsynced objs) (k : Str) :
    carriers objs k = [] := by
  rw [List.eq_nil_iff_forall_not_mem]
  intro o ho
  obtain ⟨hmem, -, hk⟩ := mem_carriers.mp ho
  rw [h o hmem] at hk
  exact absurd hk (by simp)

end PiDriveSync
