import PiDriveSync.Events.Attempts
import PiDriveSync.Events.Content

/-!
# The watcher's queue seen from the drive

The watcher reports what it sees to a queue, and the daemon works it off one event at a
time, while the files change as they like and the process may be started again.  The drive
sees none of this but a run of uploads and starts.  `watch_refines_run` says which: it can be
told from the files and the queue alone (`intake`), whatever the drive answers.

* `handleRawEvent_cases` lists what can become of an event, and `HandleEnds.refines` reads it
  as one upload, or none.
* `startup_otherFiles`: a start does not look at the files.
* `Follows` relates a watch to the daemon, and is kept by each step.

So what is known of all runs of the daemon against the drive is known of the program behind
its queue.
-/

namespace PiDriveSync

open UnixPath Fallible

/-! ## One event -/

/-- The path whose creation, and nothing else, an event reports. -/
def creationPath (e : RawEvent) : Option Str :=
  if e.op = some {.create} then e.path.bind PathBuf.toStr else none

@[simp] theorem creationPath_create (path : Str) :
    creationPath (eventOf .create path) = some path :=
  if_pos rfl

@[simp] theorem creationPath_write (path : Str) : creationPath (eventOf .write path) = none :=
  if_neg (by simp [eventOf])

@[simp] theorem creationPath_closeWrite (path : Str) :
    creationPath (eventOf .closeWrite path) = none :=
  if_neg (by simp [eventOf])

theorem creationPath_eq_some {e : RawEvent} {path : Str} (h : creationPath e = some path) :
    e.op = some {.create} ∧ e.path = some (.utf8 path) := by
  rw [creationPath] at h
  split_ifs at h with hop
  refine ⟨hop, ?_⟩
  rcases hpath : e.path with _ | (path' | bytes)
  · rw [hpath] at h
    exact absurd h (by simp)
  · rw [hpath] at h
    rw [Option.some.inj h]
  · rw [hpath] at h
    exact absurd h (by simp [PathBuf.toStr])

theorem unnamed_eq_true {e : RawEvent} {path : Str} (h : creationPath e = some path)
    (hname : fileName path = none) : unnamed e = true := by
  obtain ⟨hop, hpath⟩ := creationPath_eq_some h
  exact unnamed_iff.mpr ⟨hop, path, hpath, hname⟩

theorem unnamed_eq_false {e : RawEvent}
    (h : ∀ path, creationPath e = some path → fileName path ≠ none) : unnamed e = false := by
  by_contra hunnamed
  obtain ⟨hop, path, hpath, hname⟩ := unnamed_iff.mp (Bool.not_eq_false _ ▸ hunnamed)
  refine h path ?_ hname
  rw [creationPath, if_pos hop, hpath]
  rfl

section Events

variable [Base64] [RegexCrate] (ω : Schedule) (filters : List Str) (checks : Bool)

/-- Whether a path has a file name that passes the filters. -/
def passesAs (path : Str) : Bool :=
  (fileName path).any (driveClient ω filters checks).passes

/-- What becomes of an event. -/
inductive HandleEnds (e : RawEvent) (w : DriveWorld) :
    Outcome SyncerErrors Unit → DriveWorld → Prop
  /-- It does not report a creation. -/
  | other (h : creationPath e = none) : HandleEnds e w (.ok ()) w
  /-- The missing file name is unwrapped. -/
  | nameless (path : Str) (h : creationPath e = some path) (hname : fileName path = none) :
      HandleEnds e w .panic w
  /-- The name is filtered out, or the file is gone. -/
  | skipped (path : Str) (h : creationPath e = some path) (hname : fileName path ≠ none)
      (hskip : passesAs ω filters checks path = false ∨ w.disk path = none) :
      HandleEnds e w (.ok ()) w
  /-- The file is uploaded.  An error is only logged. -/
  | upload (path : Str) {r : Outcome SyncerErrors Unit} (h : creationPath e = some path)
      (hpass : passesAs ω filters checks path = true) (hfile : w.disk path ≠ none)
      (hr : r.returned = ((driveClient ω filters checks).uploadFile path w).1.returned) :
      HandleEnds e w r ((driveClient ω filters checks).uploadFile path w).2

/-- **Nothing else can become of an event.** -/
theorem handleRawEvent_cases (e : RawEvent) (w : DriveWorld) :
    Ends (handleRawEvent (driveClient ω filters checks) e) w
      (HandleEnds ω filters checks e w) := by
  cases hcreation : creationPath e with
  | none =>
    have hother : ∀ path, e.op = some {.create} → e.path ≠ some (.utf8 path) := by
      intro path hop hpath
      rw [creationPath, if_pos hop, hpath] at hcreation
      exact absurd hcreation (by simp [PathBuf.toStr])
    rw [handleRawEvent_eq, handleRawEventBy_other hother]
    exact .other hcreation
  | some path =>
    obtain ⟨hop, hpath⟩ := creationPath_eq_some hcreation
    rw [handleRawEvent_creation _ hpath hop]
    cases hname : fileName path with
    | none =>
      have hpanic : (driveClient ω filters checks).passesFilter path = abort := by
        have hnone : (SyncableFile.mk path).getFilename = none := hname
        rw [Drive3Client.passesFilter, hnone]
        rfl
      rw [hpanic]
      exact .nameless path hcreation hname
    | some f =>
      have hpassesAs : passesAs ω filters checks path =
          (driveClient ω filters checks).passes f := by
        rw [passesAs, hname]
        rfl
      rw [Drive3Client.passesFilter_eq _ hname, pure_bind_eq, ← hpassesAs]
      cases hpass : passesAs ω filters checks path with
      | false => exact .skipped path hcreation (by simp [hname]) (Or.inl hpass)
      | true =>
        have hfile : isFile (driveMachine ω checks) path w = (.ok (w.disk path).isSome, w) := rfl
        rw [if_pos rfl, driveClient_machine]
        refine ends_bind_of_run hfile ?_
        cases hthere : w.disk path with
        | none => exact .skipped path hcreation (by simp [hname]) (Or.inr hthere)
        | some content =>
          have hsome : w.disk path ≠ none := by rw [hthere]; simp
          have hends : ∀ r w', (driveClient ω filters checks).uploadFile path w = (r, w') →
              ∀ r', r'.returned = r.returned → HandleEnds ω filters checks e w r' w' := by
            intro r w' hrun r' hr
            have h := HandleEnds.upload path hcreation hpass hsome
              (r := r') (by rw [hr, hrun])
            rwa [hrun] at h
          rw [Option.isSome_some, if_pos rfl]
          unfold Ends
          rw [bind_run, attempt]
          rcases hrun : (driveClient ω filters checks).uploadFile path w with ⟨_ | _ | _, w'⟩
          all_goals exact hends _ _ hrun _ rfl

end Events

/-! ## Events as uploads -/

/-- The actions that upload these files, from the disk as it is at the time. -/
def uploadActions (uploads : List (Disk × Str)) : List Action :=
  uploads.map fun u => .upload u.1 u.2

theorem uploadActions_snoc (uploads : List (Disk × Str)) (u : Disk × Str) :
    uploadActions (uploads ++ [u]) = uploadActions uploads ++ [.upload u.1 u.2] :=
  List.map_append

/-- The files make no difference to the rest of the world. -/
theorem World.withDisk_congr {w w' : DriveWorld} {disk : Disk} (h : w = w'.withDisk disk)
    (disk' : Disk) : w.withDisk disk' = w'.withDisk disk' := by
  rw [h]
  rfl

section Refines

variable [Base64] [RegexCrate] (ω : Schedule) (filters : List Str) (checks : Bool)

/-- These files are uploaded, one after the other. -/
def Daemon.uploadAll (d : Daemon) (uploads : List (Disk × Str)) : Daemon :=
  (uploadActions uploads).foldl (Daemon.step ω filters checks) d

omit [RegexCrate] in
theorem Daemon.uploadAll_append (d : Daemon) (uploads uploads' : List (Disk × Str)) :
    d.uploadAll ω filters checks (uploads ++ uploads') =
      (d.uploadAll ω filters checks uploads).uploadAll ω filters checks uploads' := by
  rw [uploadAll, uploadActions, List.map_append, List.foldl_append]
  rfl

omit [RegexCrate] in
/-- Nobody is there to upload. -/
theorem Daemon.uploadAll_dead {d : Daemon} (h : d.alive = false) (uploads : List (Disk × Str)) :
    d.uploadAll ω filters checks uploads = d := by
  induction uploads with
  | nil => rfl
  | cons u uploads ih =>
    rw [uploadAll, uploadActions, List.map_cons, List.foldl_cons, Daemon.step, h]
    exact ih

omit [RegexCrate] in
theorem run_uploadActions_append (objs : List Obj) (uploads uploads' : List (Disk × Str)) :
    run ω filters checks objs (uploadActions (uploads ++ uploads')) =
      (run ω filters checks objs (uploadActions uploads)).uploadAll ω filters checks uploads' :=
  Daemon.uploadAll_append ω filters checks _ uploads uploads'

/-- What is uploaded for an event: the file whose creation it reports, if the name passes
the filters and the file is there. -/
def uploadFor (disk : Disk) (e : RawEvent) : Option (Disk × Str) :=
  ((creationPath e).filter fun path =>
    passesAs ω filters checks path && (disk path).isSome).map fun path => (disk, path)

variable {ω filters checks}

/-- **An event is an upload, or nothing that the drive sees.**  The creation of a path
without a name ends the process. -/
theorem HandleEnds.refines {e : RawEvent} {w w' : DriveWorld} {r : Outcome SyncerErrors Unit}
    (h : HandleEnds ω filters checks e w r w') {d : Daemon} (halive : d.alive = true)
    (hw : w = d.world.withDisk w.disk) :
    let d' := d.uploadAll ω filters checks (uploadFor ω filters checks w.disk e).toList
    w' = d'.world.withDisk w.disk ∧ r.returned = (d'.alive && !unnamed e) := by
  intro d'
  -- nothing is uploaded
  have hidle : uploadFor ω filters checks w.disk e = none → r.returned = !unnamed e → w' = w →
      w' = d'.world.withDisk w.disk ∧ r.returned = (d'.alive && !unnamed e) := by
    intro hnone hreturned hsame
    have hd : d' = d := by
      rw [show d' = d.uploadAll ω filters checks (uploadFor ω filters checks w.disk e).toList
        from rfl, hnone]
      rfl
    rw [hd, halive, Bool.true_and, hsame]
    exact ⟨hw, hreturned⟩
  cases h with
  | other hcreation =>
    refine hidle (by rw [uploadFor, hcreation]; rfl) ?_ rfl
    rw [unnamed_eq_false fun path h => absurd (hcreation.symm.trans h) (by simp)]
    rfl
  | nameless path hcreation hname =>
    refine hidle ?_ ?_ rfl
    · have hpass : passesAs ω filters checks path = false := by
        rw [passesAs, hname]
        rfl
      rw [uploadFor, hcreation, Option.filter_some, hpass]
      rfl
    · rw [unnamed_eq_true hcreation hname]
      rfl
  | skipped path hcreation hname hskip =>
    refine hidle ?_ ?_ rfl
    · rw [uploadFor, hcreation, Option.filter_some, if_neg, Option.map_none]
      rcases hskip with hskip | hskip <;> simp [hskip]
    · rw [unnamed_eq_false fun path' h => by rwa [← Option.some.inj (hcreation.symm.trans h)]]
      rfl
  | upload path hcreation hpass hfile hret =>
    have hupload : uploadFor ω filters checks w.disk e = some (w.disk, path) := by
      rw [uploadFor, hcreation, Option.filter_some, hpass,
        Option.isSome_iff_ne_none.mpr hfile]
      rfl
    have hnamed : unnamed e = false := by
      refine unnamed_eq_false fun path' h hname => ?_
      rw [passesAs, Option.some.inj (hcreation.symm.trans h), hname] at hpass
      exact absurd hpass (by simp)
    have hd : d' = d.step ω filters checks (.upload w.disk path) := by
      rw [show d' = d.uploadAll ω filters checks (uploadFor ω filters checks w.disk e).toList
        from rfl, hupload]
      rfl
    have hdisk : _ = w.disk := (uploadFile_ends ω filters checks path w).disk_eq
    rw [hd, Daemon.step, if_pos halive, ← hw, hnamed, hret, Bool.not_false, Bool.and_true]
    refine ⟨?_, rfl⟩
    rw [← hdisk]
    rfl

end Refines

/-! ## A start -/

/-- The same but for the files, which are those of `disk`. -/
def OtherFiles (disk : Disk) (w w' : DriveWorld) : Prop :=
  w = w'.withDisk disk

section Start

variable [Base64] (ω : Schedule) (filters : List Str) (checks : Bool) (disk : Disk)

theorem id_otherFiles (path : Str) :
    Related (OtherFiles disk) ((driveClient ω filters checks).id path)
      ((driveClient ω filters checks).id path) := by
  rintro w w' rfl
  cases hk : (SyncableFile.mk path).getUniqueId with
  | error e =>
    rw [Drive3Client.id, hk]
    exact ⟨rfl, rfl⟩
  | ok k =>
    rw [id_run hk, id_run hk]
    exact ⟨rfl, rfl⟩

theorem createDir_otherFiles (path : Str) (parentId : Option Str) :
    Related (OtherFiles disk) ((driveClient ω filters checks).createDir path parentId)
      ((driveClient ω filters checks).createDir path parentId) := by
  have htempfile : Related (OtherFiles disk) (tempfile (driveMachine ω checks))
      (tempfile (driveMachine ω checks)) := by
    rintro w w' rfl
    exact ⟨rfl, rfl⟩
  have hcreate : ∀ req, Related (OtherFiles disk) (hubCreate (driveHub ω) req [])
      (hubCreate (driveHub ω) req []) := by
    rintro req w w' rfl
    have htick : (w'.withDisk disk).tick = w'.tick := rfl
    rw [hubCreate_run, hubCreate_run, htick]
    cases (ω w'.tick).fault <;> exact ⟨rfl, rfl⟩
  have hinsert : ∀ k v, Related (OtherFiles disk) (cacheInsert k v : Sync DriveState Unit)
      (cacheInsert k v) := by
    rintro k v w w' rfl
    exact ⟨rfl, rfl⟩
  rw [Drive3Client.createDir, driveClient_machine]
  refine htempfile.bind fun made => (related_ofExcept _).bind fun uid => ?_
  simp only [driveClient_getHub, ofExcept_ok, pure_bind_eq]
  refine (related_unwrapExcept _).bind fun _ => (hcreate _).bind ?_
  rintro (e | res)
  · exact related_fail _
  · exact (related_unwrapExcept _).bind fun uid => (related_unwrapOption _).bind fun driveId =>
      (hinsert _ _).bind fun _ => related_pure _

/-- **A start does not look at the files.** -/
theorem startup_otherFiles :
    Related (OtherFiles disk) (startup (driveClient ω filters checks))
      (startup (driveClient ω filters checks)) := by
  rw [startup]
  refine (related_ofExcept _).bind fun _ =>
    (id_otherFiles ω filters checks disk rootRemoteDir).attempt.bind ?_
  rintro (e | _ | i)
  · exact related_pure ()
  · exact (createDir_otherFiles ω filters checks disk rootRemoteDir none).attempt.bind
      fun _ => related_pure ()
  · exact related_pure ()

end Start

/-! ## The watch -/

/-- The program with its drive and the watcher's queue. -/
structure Watch where
  world : DriveWorld
  /-- Whether the process runs. -/
  alive : Bool
  queue : List RawEvent

/-- What can happen while the program watches. -/
inductive Happening where
  /-- The local files change in some way, and the watcher reports something. -/
  | outside (disk : Disk) (events : List RawEvent)
  /-- The daemon takes the first event from the queue and handles it. -/
  | handle
  /-- The process is started again, with an empty cache and a new watcher. -/
  | restart
  /-- Cache entries run out of time, or make room for others. -/
  | expire (gone : Str → Bool)

/-- What there is to a watch without the drive: the files, the events that are taken from the
queue one by one, and whether one of them, since the last start, ends the process for want of
a name. -/
structure Intake where
  disk : Disk
  queue : List RawEvent
  ended : Bool

section Watches

variable [Base64] [RegexCrate] (ω : Schedule) (filters : List Str) (checks : Bool)

def Watch.step (s : Watch) : Happening → Watch
  | .outside disk events =>
    { s with world := s.world.withDisk disk, queue := s.queue ++ events }
  | .handle =>
    match s.alive, s.queue with
    | true, e :: queue =>
      let r := handleRawEvent (driveClient ω filters checks) e s.world
      ⟨r.2, r.1.returned, queue⟩
    | _, _ => s
  | .restart =>
    let d := Daemon.start ω filters checks s.world []
    ⟨d.world, d.alive, []⟩
  | .expire gone => { s with world := s.world.withCache (s.world.cache.filter fun e => !gone e.1) }

/-- The program has just been started. -/
def Watch.start (objs : List Obj) (disk : Disk) : Watch where
  world := (Daemon.start ω filters checks (.fresh objs) []).world.withDisk disk
  alive := (Daemon.start ω filters checks (.fresh objs) []).alive
  queue := []

def runWatch (objs : List Obj) (disk : Disk) (hs : List Happening) : Watch :=
  hs.foldl (Watch.step ω filters checks) (Watch.start ω filters checks objs disk)

/-- One thing happens, and what the drive sees of it. -/
def Intake.step (t : Intake) : Happening → Intake × List Action
  | .outside disk events => (⟨disk, t.queue ++ events, t.ended⟩, [])
  | .handle =>
    match t.queue with
    | [] => (t, [])
    | e :: queue => (⟨t.disk, queue, t.ended || unnamed e⟩,
        if t.ended then [] else uploadActions (uploadFor ω filters checks t.disk e).toList)
  | .restart => (⟨t.disk, [], false⟩, [.restart])
  | .expire gone => (t, [.expire gone])

/-- What the drive sees of a watch. -/
def intake (disk : Disk) (hs : List Happening) : Intake × List Action :=
  hs.foldl (fun p x => ((p.1.step ω filters checks x).1, p.2 ++ (p.1.step ω filters checks x).2))
    (⟨disk, [], false⟩, [])

/-- The watch and the daemon agree on the drive. -/
structure Follows (s : Watch) (t : Intake) (d : Daemon) : Prop where
  disk : s.world.disk = t.disk
  world : s.world = d.world.withDisk t.disk
  alive : s.alive = (d.alive && !t.ended)
  queue : s.alive = true → s.queue = t.queue

variable {ω filters checks} {s : Watch} {t : Intake} {d : Daemon}

/-- **The daemon takes the first event.** -/
theorem Follows.handle (h : Follows s t d) :
    Follows (s.step ω filters checks .handle) (t.step ω filters checks .handle).1
      ((t.step ω filters checks .handle).2.foldl (Daemon.step ω filters checks) d) := by
  cases halive : s.alive with
  | false =>
    have hsame : s.step ω filters checks .handle = s := by rw [Watch.step, halive]
    rw [hsame, Intake.step]
    cases hq : t.queue with
    | nil => exact ⟨h.disk, h.world, h.alive, fun hlives => absurd (halive.symm.trans hlives)
        (by simp)⟩
    | cons e queue =>
      -- nobody uploads, or nothing is to be uploaded
      have hd : (if t.ended then []
          else uploadActions (uploadFor ω filters checks t.disk e).toList).foldl
            (Daemon.step ω filters checks) d = d := by
        split_ifs with hended
        · rfl
        · have hdead : d.alive = false := by
            have hends := h.alive
            rw [halive, Bool.not_eq_true _ |>.mp hended, Bool.not_false, Bool.and_true] at hends
            exact hends.symm
          exact Daemon.uploadAll_dead ω filters checks hdead _
      have hends : s.alive = (d.alive && !(t.ended || unnamed e)) := by
        rw [Bool.not_or, ← Bool.and_assoc, ← h.alive, halive, Bool.false_and]
      rw [hd]
      exact ⟨h.disk, h.world, hends, fun hlives => absurd (halive.symm.trans hlives) (by simp)⟩
  | true =>
    have hboth := h.alive
    rw [halive, eq_comm, Bool.and_eq_true, Bool.not_eq_true'] at hboth
    obtain ⟨hdaemon, hended⟩ := hboth
    cases hq : t.queue with
    | nil =>
      have hsame : s.step ω filters checks .handle = s := by
        rw [Watch.step, halive, h.queue halive, hq]
      rw [hsame, Intake.step, hq]
      exact h
    | cons e queue =>
      have hcases := handleRawEvent_cases ω filters checks e s.world
      unfold Ends at hcases
      rcases hr : handleRawEvent (driveClient ω filters checks) e s.world with ⟨r, w'⟩
      have hends : HandleEnds ω filters checks e s.world r w' := by rwa [hr] at hcases
      have hafter : s.step ω filters checks .handle = ⟨w', r.returned, queue⟩ := by
        rw [Watch.step, halive, h.queue halive, hq]
        simp only [hr]
      obtain ⟨hw', hreturned⟩ := hends.refines hdaemon (by rw [h.disk]; exact h.world)
      rw [h.disk] at hw' hreturned
      rw [hafter, Intake.step, hq]
      simp only [hended, Bool.false_eq_true, if_false, Bool.false_or]
      exact ⟨by rw [hw']; rfl, hw', hreturned, fun _ => rfl⟩

/-- **One step.** -/
theorem Follows.step (h : Follows s t d) (x : Happening) :
    Follows (s.step ω filters checks x) (t.step ω filters checks x).1
      ((t.step ω filters checks x).2.foldl (Daemon.step ω filters checks) d) := by
  cases x with
  | outside disk events =>
    refine ⟨rfl, World.withDisk_congr h.world disk, h.alive, fun halive => ?_⟩
    exact congrArg (· ++ events) (h.queue halive)
  | handle => exact h.handle
  | restart =>
    have hfresh : OtherFiles t.disk (s.world.withCache []) (d.world.withCache []) := by
      rw [h.world]
      rfl
    obtain ⟨hsame, hother⟩ := startup_otherFiles ω filters checks t.disk _ _ hfresh
    refine ⟨?_, hother, ?_, fun _ => rfl⟩
    · exact congrArg World.disk hother
    · rw [Intake.step, Bool.not_false, Bool.and_true]
      exact congrArg Outcome.returned hsame
  | expire gone =>
    refine ⟨h.disk, ?_, h.alive, h.queue⟩
    show s.world.withCache _ = _
    rw [h.world]
    rfl

theorem follows_run (ω : Schedule) (filters : List Str) (checks : Bool) (objs : List Obj)
    (disk : Disk) (hs : List Happening) :
    Follows (runWatch ω filters checks objs disk hs) (intake ω filters checks disk hs).1
      (run ω filters checks objs (intake ω filters checks disk hs).2) := by
  induction hs using List.reverseRecOn with
  | nil => exact ⟨rfl, rfl, (Bool.and_true _).symm, fun _ => rfl⟩
  | append_singleton hs x ih =>
    rw [runWatch, intake, List.foldl_append, List.foldl_append, run, List.foldl_cons,
      List.foldl_nil, List.foldl_cons, List.foldl_nil, List.foldl_append]
    exact ih.step x

/-- **A watch is a run of the daemon against the drive**, whatever fails or is lost, however
the files change, and whatever the watcher reports and when.  Which run it is can be told from
the files and the queue: restarts and losses of the cache are as they are, and an event that
is taken from the queue is the upload of the file whose creation, and nothing else, it reports,
if its name passes the filters and it is there at that time.  The process runs as long as
it does in this run and no path without a name is reported as created. -/
theorem watch_refines_run (ω : Schedule) (filters : List Str) (checks : Bool) (objs : List Obj)
    (disk : Disk) (hs : List Happening) :
    let s := runWatch ω filters checks objs disk hs
    let t := intake ω filters checks disk hs
    let d := run ω filters checks objs t.2
    s.world = d.world.withDisk t.1.disk ∧ s.alive = (d.alive && !t.1.ended) ∧
      (s.alive = true → s.queue = t.1.queue) := by
  have hfollows := follows_run ω filters checks objs disk hs
  exact ⟨hfollows.world, hfollows.alive, hfollows.queue⟩

end Watches

end PiDriveSync
