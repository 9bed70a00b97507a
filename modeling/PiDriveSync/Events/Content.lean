import PiDriveSync.Events.Survival
import PiDriveSync.Tree.Mirror

/-!
# What is in the uploaded files

Programs write files while the daemon works through the events of the watcher.  Only
the event that reports a creation makes the daemon upload the file, and it comes before
the file has content; the events of writing and closing are passed over.

So the object of a file has what was in the file when the event of its creation was
handled (`content_at_creation`), which is where the file begins and need not be where
it ends (`created_before_written`).
-/

namespace PiDriveSync

open UnixPath Fallible

/-! ## Programs, the watcher and the daemon -/

/-- The daemon with its drive and the local disk, the events it has not handled yet, and
the files that are being written. -/
structure System where
  world : DriveWorld
  /-- Whether the process runs. -/
  alive : Bool
  queue : List RawEvent
  opened : List Str

/-- One step of a program or of the daemon. -/
inductive Move where
  /-- A program creates a file, empty and open for writing. -/
  | create (path : Str)
  /-- It appends to the file. -/
  | write (path : Str) (data : Bytes)
  | close (path : Str)
  /-- The daemon takes the first event from the queue and handles it. -/
  | handle

section Runs

variable [Base64] [RegexCrate] (ω : Schedule) (filters : List Str) (checks : Bool)

/-- One step.  A file that is there is not created again, and only open files are written
and closed. -/
def System.step (s : System) : Move → System
  | .create path =>
    if s.world.disk path = none then
      { s with
        world := s.world.withDisk (Function.update s.world.disk path (some []))
        queue := s.queue ++ [eventOf .create path]
        opened := path :: s.opened }
    else s
  | .write path data =>
    match s.world.disk path with
    | some content =>
      if path ∈ s.opened then
        { s with
          world := s.world.withDisk (Function.update s.world.disk path (some (content ++ data)))
          queue := s.queue ++ [eventOf .write path] }
      else s
    | none => s
  | .close path =>
    if path ∈ s.opened then
      { s with
        queue := s.queue ++ [eventOf .closeWrite path]
        opened := s.opened.erase path }
    else s
  | .handle =>
    match s.alive, s.queue with
    | true, e :: queue =>
      let r := handleRawEvent (driveClient ω filters checks) e s.world
      { s with world := r.2, alive := r.1.returned, queue := queue }
    | _, _ => s

/-- The daemon has started, with these files on the disk. -/
def System.start (objs : List Obj) (disk : Disk) : System where
  world := (Daemon.start ω filters checks (.fresh objs) []).world.withDisk disk
  alive := (Daemon.start ω filters checks (.fresh objs) []).alive
  queue := []
  opened := []

/-- The steps of the programs and of the daemon, in some order. -/
def runMoves (objs : List Obj) (disk : Disk) (moves : List Move) : System :=
  moves.foldl (System.step ω filters checks) (System.start ω filters checks objs disk)

theorem runMoves_snoc (objs : List Obj) (disk : Disk) (moves : List Move) (m : Move) :
    runMoves ω filters checks objs disk (moves ++ [m]) =
      (runMoves ω filters checks objs disk moves).step ω filters checks m := by
  rw [runMoves, List.foldl_append]
  rfl

/-! ## One event -/

/-- **The creation of a file is handled**: if it is there and its name passes the
filters, it is uploaded. -/
theorem handle_creation_ends {path : Str} {dirs : List Str} {f : Str}
    (hpath : IsFilePath path dirs f) {w : DriveWorld} (hdisk : w.disk path ≠ none) :
    Ends (handleRawEvent (driveClient ω filters checks) (eventOf .create path)) w fun r w' =>
      (driveClient ω filters checks).passes f = false ∧ r = .ok () ∧ w' = w ∨
      (driveClient ω filters checks).passes f = true ∧
        ∃ r', UploadEnds ω checks path w r' w' ∧ r.returned = r'.returned := by
  have hname : (SyncableFile.mk path).getFilename = some f := hpath.placeKeys.choose_spec.2.1
  have hfile : isFile (driveMachine ω checks) path w = (.ok true, w) := by
    have hsome : (w.disk path).isSome = true := Option.isSome_iff_ne_none.mpr hdisk
    show (Outcome.ok (w.disk path).isSome, w) = (Outcome.ok true, w)
    rw [hsome]
  rw [handleRawEvent_creation _ rfl rfl, driveClient_machine,
    Drive3Client.passesFilter_eq _ hname, pure_bind_eq]
  cases hpass : (driveClient ω filters checks).passes f with
  | false => exact Or.inl ⟨rfl, rfl, rfl⟩
  | true =>
    rw [if_pos rfl]
    refine ends_bind_of_run hfile ?_
    rw [if_pos rfl]
    refine Ends.bind ((uploadFile_ends ω filters checks path w).attempt
      (Q := fun (r : Outcome SyncerErrors (Except SyncerErrors (Option Str))) w' =>
        ∃ r', UploadEnds ω checks path w r' w' ∧ r.returned = r'.returned ∧ ∀ e, r ≠ .err e)
      ?_ ?_ ?_) ?_ ?_ ?_
    · exact fun a w' h => ⟨_, h, rfl, by simp⟩
    · exact fun e w' h => ⟨_, h, rfl, by simp⟩
    · exact fun w' h => ⟨_, h, rfl, by simp⟩
    · rintro a w' ⟨r', h, hr, -⟩
      exact Or.inr ⟨rfl, r', h, hr⟩
    · rintro e w' ⟨-, -, -, he⟩
      exact absurd rfl (he e)
    · rintro w' ⟨r', h, hr, -⟩
      exact Or.inr ⟨rfl, r', h, hr⟩

/-- Other events are passed over. -/
theorem handle_other {op : OpBit} (hop : op ≠ .create) (path : Str) (w : DriveWorld) :
    handleRawEvent (driveClient ω filters checks) (eventOf op path) w = (.ok (), w) := by
  rw [handleRawEvent, eventOf]
  simp only
  rw [if_neg (by simpa using hop)]
  rfl

end Runs

/-! ## The files on the disk -/

/-- The event is about a file that is on the disk, in normal spelling strictly below the
watched directory. -/
def Reports (disk : Disk) (e : RawEvent) : Prop :=
  ∃ op path dirs f, e = eventOf op path ∧ disk path ≠ none ∧ IsFilePath path dirs f

/-- No file gets shorter. -/
def Longer (disk disk' : Disk) : Prop :=
  ∀ path content, disk path = some content → ∃ content', disk' path = some content' ∧
    content <+: content'

theorem Longer.ne_none {disk disk' : Disk} (h : Longer disk disk') {path : Str}
    (hpath : disk path ≠ none) : disk' path ≠ none := by
  obtain ⟨content, hcontent⟩ := Option.ne_none_iff_exists'.mp hpath
  obtain ⟨content', hcontent', -⟩ := h path content hcontent
  rw [hcontent']
  simp

theorem Longer.refl (disk : Disk) : Longer disk disk :=
  fun _ content h => ⟨content, h, List.prefix_rfl⟩

theorem Longer.update {disk : Disk} {path : Str} {content : Bytes}
    (h : ∀ old, disk path = some old → old <+: content) :
    Longer disk (Function.update disk path (some content)) := by
  intro path' old hold
  by_cases hp : path' = path
  · rw [hp] at hold ⊢
    exact ⟨content, Function.update_self .., h old hold⟩
  · exact ⟨old, by rw [Function.update_of_ne hp, hold], List.prefix_rfl⟩

theorem Reports.mono {disk disk' : Disk} (h : Longer disk disk') {e : RawEvent}
    (he : Reports disk e) : Reports disk' e := by
  obtain ⟨op, path, dirs, f, heq, hpath, hfile⟩ := he
  exact ⟨op, path, dirs, f, heq, h.ne_none hpath, hfile⟩

/-! ## What has become of the files -/

section Tracked

variable [Base64] {ω : Schedule} {filters : List Str} {checks : Bool}

theorem PlaceEnds.disk_eq {path : Str} {w w' : DriveWorld}
    {r : Outcome SyncerErrors (Option Str)} (h : PlaceEnds ω path w r w') : w'.disk = w.disk := by
  cases h <;> rfl

theorem UploadEnds.disk_eq {path : Str} {w w' : DriveWorld}
    {r : Outcome SyncerErrors (Option Str)} (h : UploadEnds ω checks path w r w') :
    w'.disk = w.disk := by
  cases h with
  | outside | rootChecked => rfl
  | root _ _ hp => exact hp.disk_eq
  | crashed _ hw => exact hw.disk_eq
  | placed _ hw hp => rw [hp.disk_eq, hw.disk_eq]

variable [RegexCrate]

/-- The file at `path` has a live object with the unique id `k`, and what is in the object
was in the file when the event of its creation was handled.  The file has not lost any
of it. -/
def Transferred (ω : Schedule) (filters : List Str) (checks : Bool) (objs : List Obj)
    (disk : Disk) (moves : List Move) (path k : Str) : Prop :=
  ∃ pre o content, pre ++ [.handle] <+: moves ∧
    (runMoves ω filters checks objs disk pre).queue.head? = some (eventOf .create path) ∧
    (runMoves ω filters checks objs disk pre).world.disk path = some o.content ∧
    o ∈ carriers (runMoves ω filters checks objs disk moves).world.objs k ∧
    (runMoves ω filters checks objs disk moves).world.disk path = some content ∧
    o.content <+: content

/-- The state of the files after some steps.  Each file created since the start, whose
name passes the filters, waits in the queue or has been transferred. -/
structure Tracked (ω : Schedule) (filters : List Str) (checks : Bool) (objs : List Obj)
    (disk : Disk) (moves : List Move) (s : System) : Prop where
  alive : s.alive = true
  cache : CacheSound s.world
  root : carriers s.world.objs (keyOf []) ≠ []
  queued : ∀ e ∈ s.queue, Reports s.world.disk e
  opened : ∀ path ∈ s.opened, s.world.disk path ≠ none ∧ ∃ dirs f, IsFilePath path dirs f
  known : ∀ path dirs f, IsFilePath path dirs f → disk path = none → s.world.disk path ≠ none →
    (driveClient ω filters checks).passes f = true → eventOf .create path ∈ s.queue ∨
      Transferred ω filters checks objs disk moves path (keyOf (dirs ++ [f]))

variable {objs : List Obj} {disk : Disk} {moves : List Move}

theorem Transferred.snoc {m : Move} {path k : Str}
    (h : Transferred ω filters checks objs disk moves path k)
    (hobjs : (runMoves ω filters checks objs disk moves).world.objs <+:
      (runMoves ω filters checks objs disk (moves ++ [m])).world.objs)
    (hdisk : Longer (runMoves ω filters checks objs disk moves).world.disk
      (runMoves ω filters checks objs disk (moves ++ [m])).world.disk) :
    Transferred ω filters checks objs disk (moves ++ [m]) path k := by
  obtain ⟨pre, o, content, hpre, hhead, hthen, ho, hnow, hlonger⟩ := h
  obtain ⟨content', hnow', hlonger'⟩ := hdisk path content hnow
  obtain ⟨hmem, hrest⟩ := mem_carriers.mp ho
  exact ⟨pre, o, content', hpre.trans (List.prefix_append _ _), hhead, hthen,
    mem_carriers.mpr ⟨hobjs.subset hmem, hrest⟩, hnow', hlonger.trans hlonger'⟩

/-- **A step of a program**: files get longer, events are put into the queue, and a new
file comes with the event of its creation. -/
theorem Tracked.program {m : Move} {s : System} {disk' : Disk} {queue : List RawEvent}
    {opened : List Str} (h : Tracked ω filters checks objs disk moves s)
    (hs : s = runMoves ω filters checks objs disk moves)
    (hm : s.step ω filters checks m = ⟨s.world.withDisk disk', s.alive, s.queue ++ queue, opened⟩)
    (hdisk : Longer s.world.disk disk') (hqueue : ∀ e ∈ queue, Reports disk' e)
    (hopened : ∀ path ∈ opened, disk' path ≠ none ∧ ∃ dirs f, IsFilePath path dirs f)
    (hnew : ∀ path, s.world.disk path = none → disk' path ≠ none → eventOf .create path ∈ queue) :
    Tracked ω filters checks objs disk (moves ++ [m]) (s.step ω filters checks m) := by
  have hrun : runMoves ω filters checks objs disk (moves ++ [m]) =
      ⟨s.world.withDisk disk', s.alive, s.queue ++ queue, opened⟩ := by
    rw [runMoves_snoc, ← hs, hm]
  rw [hm]
  refine ⟨h.alive, h.cache.withDisk disk', h.root, ?_, hopened, ?_⟩
  · intro e he
    rcases List.mem_append.mp he with he | he
    · exact (h.queued e he).mono hdisk
    · exact hqueue e he
  · intro path dirs f hpath hbefore hthere hpass
    by_cases hnone : s.world.disk path = none
    · exact Or.inl (List.mem_append_right _ (hnew path hnone hthere))
    · rcases h.known path dirs f hpath hbefore hnone hpass with hq | ht
      · exact Or.inl (List.mem_append_left _ hq)
      · refine Or.inr (ht.snoc ?_ ?_)
        · rw [hrun, ← hs]
          exact List.prefix_rfl
        · rw [hrun, ← hs]
          exact hdisk

/-- A step that is not possible changes nothing. -/
theorem Tracked.idle {m : Move} {s : System} (h : Tracked ω filters checks objs disk moves s)
    (hs : s = runMoves ω filters checks objs disk moves)
    (hsame : s.step ω filters checks m = s) :
    Tracked ω filters checks objs disk (moves ++ [m]) (s.step ω filters checks m) := by
  have hm : s.step ω filters checks m =
      ⟨s.world.withDisk s.world.disk, s.alive, s.queue ++ [], s.opened⟩ := by
    rw [hsame, List.append_nil]
    rfl
  exact h.program hs hm (.refl _) (by simp) h.opened fun _ hnone hthere => absurd hnone hthere

/-- **A file is created.** -/
theorem Tracked.create {s : System} (h : Tracked ω filters checks objs disk moves s)
    (hs : s = runMoves ω filters checks objs disk moves) {path : Str} {dirs : List Str} {f : Str}
    (hfile : IsFilePath path dirs f) : Tracked ω filters checks objs disk (moves ++ [.create path])
      (s.step ω filters checks (.create path)) := by
  by_cases hnone : s.world.disk path = none
  · have hdisk : Longer s.world.disk (Function.update s.world.disk path (some [])) :=
      .update fun old hold => by rw [hnone] at hold; exact absurd hold (by simp)
    have hthere : Function.update s.world.disk path (some []) path ≠ none := by simp
    refine h.program hs (by rw [System.step, if_pos hnone]) hdisk ?_ ?_ ?_
    · intro e he
      rw [List.mem_singleton.mp he]
      exact ⟨.create, path, dirs, f, rfl, hthere, hfile⟩
    · intro path' hpath'
      rcases List.mem_cons.mp hpath' with rfl | hpath'
      · exact ⟨hthere, dirs, f, hfile⟩
      · exact ⟨hdisk.ne_none (h.opened path' hpath').1, (h.opened path' hpath').2⟩
    · intro path' hnone' hthere'
      by_cases hp : path' = path
      · rw [hp]
        exact List.mem_singleton.mpr rfl
      · rw [Function.update_of_ne hp] at hthere'
        exact absurd hnone' hthere'
  · exact h.idle hs (by rw [System.step, if_neg hnone])

/-- **A file is written.** -/
theorem Tracked.write {s : System} (h : Tracked ω filters checks objs disk moves s)
    (hs : s = runMoves ω filters checks objs disk moves) (path : Str) (data : Bytes) :
    Tracked ω filters checks objs disk (moves ++ [.write path data])
      (s.step ω filters checks (.write path data)) := by
  cases hold : s.world.disk path with
  | none => exact h.idle hs (by rw [System.step, hold])
  | some content =>
    by_cases hopen : path ∈ s.opened
    · obtain ⟨-, dirs, f, hfile⟩ := h.opened path hopen
      have hdisk : Longer s.world.disk
          (Function.update s.world.disk path (some (content ++ data))) :=
        .update fun old hold' => by
          rw [hold, Option.some.injEq] at hold'
          rw [← hold']
          exact List.prefix_append _ _
      refine h.program hs (by rw [System.step, hold]; exact if_pos hopen) hdisk ?_ ?_ ?_
      · intro e he
        rw [List.mem_singleton.mp he]
        exact ⟨.write, path, dirs, f, rfl, by simp, hfile⟩
      · exact fun path' hpath' =>
          ⟨hdisk.ne_none (h.opened path' hpath').1, (h.opened path' hpath').2⟩
      · intro path' hnone' hthere'
        by_cases hp : path' = path
        · rw [hp, hold] at hnone'
          exact absurd hnone' (by simp)
        · rw [Function.update_of_ne hp] at hthere'
          exact absurd hnone' hthere'
    · exact h.idle hs (by rw [System.step, hold]; exact if_neg hopen)

/-- **A file is closed.** -/
theorem Tracked.close {s : System} (h : Tracked ω filters checks objs disk moves s)
    (hs : s = runMoves ω filters checks objs disk moves) (path : Str) :
    Tracked ω filters checks objs disk (moves ++ [.close path])
      (s.step ω filters checks (.close path)) := by
  by_cases hopen : path ∈ s.opened
  · obtain ⟨hthere, dirs, f, hfile⟩ := h.opened path hopen
    have hstep : s.step ω filters checks (.close path) =
        ⟨s.world.withDisk s.world.disk, s.alive, s.queue ++ [eventOf .closeWrite path],
          s.opened.erase path⟩ := by
      rw [System.step, if_pos hopen]
      rfl
    refine h.program hs hstep (.refl _) ?_ ?_ (fun _ hnone hthere => absurd hnone hthere)
    · intro e he
      rw [List.mem_singleton.mp he]
      exact ⟨.closeWrite, path, dirs, f, rfl, hthere, hfile⟩
    · exact fun path' hpath' => h.opened path' (List.mem_of_mem_erase hpath')
  · exact h.idle hs (by rw [System.step, if_neg hopen])

omit [Base64] [RegexCrate] in
theorem eventOf_create_inj {op : OpBit} {path path' : Str}
    (h : eventOf op path = eventOf .create path') : op = .create ∧ path = path' := by
  obtain ⟨hp, hop⟩ : path = path' ∧ op = .create := by simpa [eventOf] using h
  exact ⟨hop, hp⟩

omit [RegexCrate] [Base64] in
theorem IsFilePath.unique {path f f' : Str} {dirs dirs' : List Str} (h : IsFilePath path dirs f)
    (h' : IsFilePath path dirs' f') : dirs = dirs' ∧ f = f' := by
  have hsame : dirs ++ [f] = dirs' ++ [f'] :=
    below_inj h.solid h'.solid (h.1.symm.trans h'.1)
  obtain ⟨hdirs, hf⟩ := List.append_inj' hsame rfl
  exact ⟨hdirs, List.singleton_inj.mp hf⟩

/-- **An event has been handled**, and if it was that of the creation of a file whose name
passes the filters, the file has been transferred. -/
theorem Tracked.handled {s : System} (h : Tracked ω filters checks objs disk moves s)
    (hs : s = runMoves ω filters checks objs disk moves) {op : OpBit} {path : Str}
    {queue : List RawEvent} {w' : DriveWorld} (hq : s.queue = eventOf op path :: queue)
    (hstep : s.step ω filters checks .handle = ⟨w', true, queue, s.opened⟩)
    (hcache : CacheSound w') (hobjs : s.world.objs <+: w'.objs) (hdisk : w'.disk = s.world.disk)
    (hnew : op = .create → ∀ dirs f, IsFilePath path dirs f →
      (driveClient ω filters checks).passes f = true →
      Transferred ω filters checks objs disk (moves ++ [.handle]) path (keyOf (dirs ++ [f]))) :
    Tracked ω filters checks objs disk (moves ++ [.handle]) (s.step ω filters checks .handle) := by
  have hrun : runMoves ω filters checks objs disk (moves ++ [.handle]) =
      ⟨w', true, queue, s.opened⟩ := by rw [runMoves_snoc, ← hs, hstep]
  rw [hstep]
  refine ⟨rfl, hcache, fun hnone => h.root (carriers_eq_nil_of_starts hobjs hnone), ?_, ?_, ?_⟩
  · intro e he
    rw [hdisk]
    exact h.queued e (by rw [hq]; exact List.mem_cons_of_mem _ he)
  · rw [hdisk]
    exact h.opened
  · intro path' dirs f hfile hbefore hthere hpass
    rw [hdisk] at hthere
    rcases h.known path' dirs f hfile hbefore hthere hpass with hmem | ht
    · rw [hq] at hmem
      rcases List.mem_cons.mp hmem with heq | hmem
      · obtain ⟨hop, rfl⟩ := eventOf_create_inj heq.symm
        exact Or.inr (hnew hop dirs f hfile hpass)
      · exact Or.inl hmem
    · refine Or.inr (ht.snoc ?_ ?_)
      · rw [hrun, ← hs]
        exact hobjs
      · rw [hrun, ← hs, hdisk]
        exact .refl _

/-- **The daemon handles an event.**  Only that of a creation changes anything, and then
the file is on the drive. -/
theorem Tracked.handle (hω : Quiet ω) {s : System}
    (h : Tracked ω filters checks objs disk moves s)
    (hs : s = runMoves ω filters checks objs disk moves) :
    Tracked ω filters checks objs disk (moves ++ [.handle]) (s.step ω filters checks .handle) := by
  cases hq : s.queue with
  | nil => exact h.idle hs (by rw [System.step, h.alive, hq])
  | cons e queue =>
    obtain ⟨op, path, dirs, f, rfl, hthere, hfile⟩ := h.queued e (by rw [hq]; simp)
    -- the step, once the outcome of handling the event is known
    have hstep : ∀ r w', handleRawEvent (driveClient ω filters checks) (eventOf op path) s.world =
        (r, w') → s.step ω filters checks .handle = ⟨w', r.returned, queue, s.opened⟩ := by
      intro r w' hr
      rw [System.step, h.alive, hq]
      simp only [hr]
    by_cases hop : op = .create
    · rw [hop] at hstep hq
      have hends := handle_creation_ends ω filters checks hfile hthere
      unfold Ends at hends
      rcases hr : handleRawEvent (driveClient ω filters checks) (eventOf .create path) s.world with
        ⟨r, w'⟩
      rw [hr] at hends
      have hafter := hstep r w' hr
      rcases hends with ⟨hpass, rfl, rfl⟩ | ⟨-, r', hupload, hreturned⟩
      · -- the name is filtered out
        refine h.handled hs hq hafter h.cache List.prefix_rfl rfl fun _ dirs' f' hfile' hpass' => ?_
        obtain ⟨-, rfl⟩ := hfile.unique hfile'
        rw [hpass] at hpass'
        exact absurd hpass' (by simp)
      · -- the file is uploaded
        obtain ⟨mid, o, rfl, -, hobjs, -, hlive, -, hkey, -, hcontent, -⟩ :=
          hupload.quiet hω h.cache hfile hthere h.root
        rw [hreturned] at hafter
        refine h.handled hs hq hafter (hupload.cacheSound h.cache) hupload.starts_with
          hupload.disk_eq fun _ dirs' f' hfile' _ => ?_
        obtain ⟨rfl, rfl⟩ := hfile.unique hfile'
        refine ⟨moves, o, o.content, List.prefix_rfl, ?_, ?_, ?_, ?_, List.prefix_rfl⟩
        · rw [← hs, hq]
          rfl
        · rw [← hs, hcontent]
        · rw [runMoves_snoc, ← hs, hafter]
          refine mem_carriers.mpr ⟨?_, hlive, hkey⟩
          rw [hobjs]
          exact List.mem_append_right _ (List.mem_singleton.mpr rfl)
        · rw [runMoves_snoc, ← hs, hafter, ← hcontent]
          exact congrFun hupload.disk_eq path
    · have hafter := hstep _ _ (handle_other ω filters checks hop path s.world)
      exact h.handled hs hq hafter h.cache List.prefix_rfl rfl fun hc => absurd hc hop

theorem tracked_start (hω : Quiet ω) (filters : List Str) (checks : Bool) (objs : List Obj)
    (disk : Disk) :
    Tracked ω filters checks objs disk [] (System.start ω filters checks objs disk) := by
  obtain ⟨r, w', h, he⟩ := start_ends ω filters checks (.fresh objs) []
  obtain ⟨rfl, hroot⟩ := h.quiet hω
  have hcache : CacheSound w' := h.cacheSound fun _ _ hv => absurd hv (by simp)
  rw [System.start, he]
  exact ⟨rfl, hcache.withDisk disk, hroot, by simp, by simp,
    fun path _ _ _ hbefore hthere => absurd hbefore hthere⟩

/-- **Every run.** -/
theorem tracked_run (hω : Quiet ω) (filters : List Str) (checks : Bool) (objs : List Obj)
    (disk : Disk) (moves : List Move)
    (hmoves : ∀ path, Move.create path ∈ moves → ∃ dirs f, IsFilePath path dirs f) :
    Tracked ω filters checks objs disk moves (runMoves ω filters checks objs disk moves) := by
  induction moves using List.reverseRecOn with
  | nil => exact tracked_start hω filters checks objs disk
  | append_singleton moves m ih =>
    have hpre := ih fun path hpath => hmoves path (List.mem_append_left _ hpath)
    rw [runMoves_snoc]
    cases m with
    | create path =>
      obtain ⟨dirs, f, hfile⟩ := hmoves path (by simp)
      exact hpre.create rfl hfile
    | write path data => exact hpre.write rfl path data
    | close path => exact hpre.close rfl path
    | handle => exact hpre.handle hω rfl

end Tracked

/-- **What is on the drive when the queue is empty**: every file that a program has
created, and whose name passes the filters, has been transferred with what was in it when
the event of its creation was handled. -/
theorem content_at_creation [Base64] [RegexCrate] (ω : Schedule) (hω : Quiet ω)
    (filters : List Str) (checks : Bool) (objs : List Obj) (disk : Disk) (moves : List Move)
    (hmoves : ∀ path, Move.create path ∈ moves → ∃ dirs f, IsFilePath path dirs f) :
    let s := runMoves ω filters checks objs disk moves
    s.queue = [] → ∀ path dirs f, IsFilePath path dirs f → disk path = none →
      s.world.disk path ≠ none → (driveClient ω filters checks).passes f = true →
      Transferred ω filters checks objs disk moves path (keyOf (dirs ++ [f])) := by
  intro s hempty path dirs f hpath hbefore hthere hpass
  have htracked := tracked_run hω filters checks objs disk moves hmoves
  rcases htracked.known path dirs f hpath hbefore hthere hpass with hmem | ht
  · rw [show (runMoves ω filters checks objs disk moves).queue = [] from hempty] at hmem
    exact absurd hmem List.not_mem_nil
  · exact ht

/-- A file is created, written and closed before the daemon comes to it. -/
def writtenFirst : List Move :=
  [.create (below [str "f"]), .write (below [str "f"]) [1, 2], .close (below [str "f"]), .handle,
    .handle, .handle]

theorem content_at_creation_calm :
    @Transferred standardBase64 literalRegex calm [[]] true [] (fun _ => none) writtenFirst
      (below [str "f"]) (@keyOf standardBase64 [str "f"]) :=
  @content_at_creation standardBase64 literalRegex calm
    ⟨fun _ => rfl, fun _ => rfl, fun _ => rfl⟩ [[]] true [] (fun _ => none) writtenFirst (by
      intro path hpath
      have hp : path = below [str "f"] := by simpa [writtenFirst] using hpath
      exact ⟨[], str "f", hp, by simp, by decide +kernel⟩)
    (List.eq_nil_of_length_eq_zero (by decide +kernel)) (below [str "f"]) [] (str "f")
    ⟨rfl, by simp, by decide +kernel⟩ rfl (by decide +kernel) (by decide +kernel)

/-- The daemon handles the creation between two writes.  In the end the file is closed and
the queue is empty, and what is on the drive is not what is in the file. -/
theorem created_before_written :
    let s := @runMoves standardBase64 literalRegex calm [[]] true [] (fun _ => none)
      [.create (below [str "f"]), .write (below [str "f"]) [1], .handle,
        .write (below [str "f"]) [2], .close (below [str "f"]), .handle, .handle, .handle]
    s.opened = [] ∧ s.queue.length = 0 ∧ s.world.disk (below [str "f"]) = some [1, 2] ∧
      (carriers s.world.objs (@keyOf standardBase64 [str "f"])).map Obj.content = [[1]] := by
  decide +kernel

end PiDriveSync
