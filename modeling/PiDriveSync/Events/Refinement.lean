import PiDriveSync.Events.Watch

/-!
# Every new file is uploaded once

Here the files change as files of programs do that create them, append to them and close
them.  Then the uploads that the drive sees are of the files that are new in the run and
whose names pass the filters, from the first one on, each once and in the order in which
they came to the disk; once the queue is empty none of them is left out
(`moves_refine_run`).

* `newFiles` are the files that come to the disk in a run, as a file that is there is not
  created again, and `filesToSync` those with a passing name.
* `System.program_cases` lists what a program can do to the files and the queue, and
  `HandleEnds.refines` what the daemon makes of an event.
* `Refined` is kept by both, and so holds along every run.
-/

namespace PiDriveSync

open UnixPath Fallible

/-! ## One step of a program -/

theorem Longer.trans {disk disk' disk'' : Disk} (h : Longer disk disk')
    (h' : Longer disk' disk'') : Longer disk disk'' := by
  intro path content hcontent
  obtain ⟨content', hcontent', hlonger⟩ := h path content hcontent
  obtain ⟨content'', hcontent'', hlonger'⟩ := h' path content' hcontent'
  exact ⟨content'', hcontent'', hlonger.trans hlonger'⟩

/-- The path that a program asks to create. -/
def Move.created : Move → Option Str
  | .create path => some path
  | _ => none

theorem Move.created_eq_some {m : Move} {path : Str} :
    m.created = some path ↔ m = .create path := by
  cases m <;> simp [Move.created]

/-- The file that comes to the disk with a step of a program. -/
def Move.creates (m : Move) (disk : Disk) : List Str :=
  m.created.toList.filter fun path => (disk path).isNone

/-- The files that come to the disk with some steps, in this order: a creation has an
effect the first time, and if the file was not there before. -/
def newFiles (disk : Disk) (moves : List Move) : List Str :=
  ((moves.filterMap Move.created).filter fun path => (disk path).isNone).eraseDups

theorem newFiles_snoc (disk : Disk) (moves : List Move) (m : Move) :
    newFiles disk (moves ++ [m]) = newFiles disk moves ++
      m.created.toList.filter fun path =>
        (disk path).isNone && !(newFiles disk moves).contains path := by
  have hone : [m].filterMap Move.created = m.created.toList := by cases m <;> rfl
  have hseen : ∀ path, (newFiles disk moves).contains path =
      ((moves.filterMap Move.created).filter fun p => (disk p).isNone).contains path := by
    intro path
    rw [Bool.eq_iff_iff, List.contains_iff_mem, List.contains_iff_mem, newFiles,
      List.mem_eraseDups]
  rw [newFiles, List.filterMap_append, List.filter_append, List.eraseDups_append, hone,
    List.removeAll, List.filter_filter]
  simp only [hseen, Bool.and_comm, List.elem_eq_contains]
  -- one path at most, so no repetition
  congr 1
  cases m.created with
  | none => rfl
  | some path =>
    rw [Option.toList_some, List.filter_singleton, Bool.cond_eq_ite]
    split_ifs <;> rfl

/-- The daemon brings no file to the disk. -/
theorem newFiles_handle (disk : Disk) (moves : List Move) :
    newFiles disk (moves ++ [.handle]) = newFiles disk moves := by
  rw [newFiles_snoc]
  exact List.append_nil _

theorem mem_newFiles {disk : Disk} {moves : List Move} {path : Str} :
    path ∈ newFiles disk moves ↔ .create path ∈ moves ∧ disk path = none := by
  rw [newFiles, List.mem_eraseDups, List.mem_filter, List.mem_filterMap, Option.isNone_iff_eq_none]
  simp only [Move.created_eq_some, exists_eq_right]

/-- No file comes twice. -/
theorem nodup_newFiles (disk : Disk) (moves : List Move) : (newFiles disk moves).Nodup := by
  induction moves using List.reverseRecOn with
  | nil => exact List.nodup_nil
  | append_singleton moves m ih =>
    rw [newFiles_snoc]
    refine ih.append (List.Nodup.filter _ ?_) fun path hpath hnew => ?_
    · cases m.created <;> simp
    · have hfresh := (List.mem_filter.mp hnew).2
      simp [hpath] at hfresh

section Steps

variable [Base64] [RegexCrate] (ω : Schedule) (filters : List Str) (checks : Bool)

/-- The files are `disk'` after a step of a program, and `queue` is reported.  Files get longer
and none goes; a new one comes with the event of its creation, and no other event reports a
creation. -/
structure Written (m : Move) (disk disk' : Disk) (queue : List RawEvent) : Prop where
  longer : Longer disk disk'
  there : ∀ path, disk' path ≠ none ↔ disk path ≠ none ∨ path ∈ m.creates disk
  created : queue.filterMap creationPath = m.creates disk

/-- **What a program does.** -/
theorem System.program_cases (s : System) {m : Move} (hm : m ≠ .handle) :
    ∃ disk' queue opened,
      s.step ω filters checks m = ⟨s.world.withDisk disk', s.alive, s.queue ++ queue, opened⟩ ∧
      Written m s.world.disk disk' queue := by
  -- a step that is not possible
  have hidle : s.step ω filters checks m = s → m.creates s.world.disk = [] →
      ∃ disk' queue opened,
        s.step ω filters checks m = ⟨s.world.withDisk disk', s.alive, s.queue ++ queue, opened⟩ ∧
        Written m s.world.disk disk' queue := by
    intro hsame hnothing
    refine ⟨s.world.disk, [], s.opened, ?_, .refl _, ?_, ?_⟩
    · rw [hsame, List.append_nil]
      rfl
    · simp [hnothing]
    · rw [hnothing, List.filterMap_nil]
  cases m with
  | create path =>
    by_cases hnone : s.world.disk path = none
    · have hcreates : (Move.create path).creates s.world.disk = [path] := by
        simp [Move.creates, Move.created, hnone]
      refine ⟨Function.update s.world.disk path (some []), [eventOf .create path],
        path :: s.opened, by rw [System.step, if_pos hnone], .update fun old hold => ?_, ?_, ?_⟩
      · rw [hnone] at hold
        exact absurd hold (by simp)
      · intro path'
        rw [hcreates, List.mem_singleton]
        by_cases hp : path' = path
        · simp [hp]
        · rw [Function.update_of_ne hp, or_iff_left hp]
      · rw [hcreates, List.filterMap_cons_some (creationPath_create path), List.filterMap_nil]
    · exact hidle (by rw [System.step, if_neg hnone]) (by simp [Move.creates, Move.created, hnone])
  | write path data =>
    cases hold : s.world.disk path with
    | none => exact hidle (by rw [System.step, hold]) rfl
    | some content =>
      by_cases hopen : path ∈ s.opened
      · refine ⟨Function.update s.world.disk path (some (content ++ data)),
          [eventOf .write path], s.opened, ?_, .update fun old hold' => ?_, ?_, ?_⟩
        · rw [System.step, hold]
          exact if_pos hopen
        · rw [hold, Option.some.injEq] at hold'
          rw [← hold']
          exact List.prefix_append _ _
        · intro path'
          rw [or_iff_left (by simp [Move.creates, Move.created])]
          by_cases hp : path' = path
          · simp [hp, hold]
          · rw [Function.update_of_ne hp]
        · rw [List.filterMap_cons_none (creationPath_write path)]
          rfl
      · exact hidle (by rw [System.step, hold]; exact if_neg hopen) rfl
  | close path =>
    by_cases hopen : path ∈ s.opened
    · refine ⟨s.world.disk, [eventOf .closeWrite path], s.opened.erase path, ?_, .refl _, ?_, ?_⟩
      · rw [System.step, if_pos hopen]
        rfl
      · exact fun path' => (or_iff_left (by simp [Move.creates, Move.created])).symm
      · rw [List.filterMap_cons_none (creationPath_closeWrite path)]
        rfl
    · exact hidle (by rw [System.step, if_neg hopen]) rfl
  | handle => exact absurd rfl hm

end Steps

/-! ## The files of a run -/

section Files

variable [RegexCrate] (ω : Schedule) (filters : List Str) (checks : Bool) (disk : Disk)
  (moves : List Move)

/-- The files that are to come to the drive: those that are new in the run and whose names
pass the filters, in the order in which they came to the disk. -/
def filesToSync : List Str :=
  (newFiles disk moves).filter (passesAs ω filters checks)

variable {ω filters checks disk moves}

theorem mem_filesToSync {path : Str} : path ∈ filesToSync ω filters checks disk moves ↔
    (.create path ∈ moves ∧ disk path = none) ∧ passesAs ω filters checks path = true := by
  rw [filesToSync, List.mem_filter, mem_newFiles]

theorem nodup_filesToSync : (filesToSync ω filters checks disk moves).Nodup :=
  (nodup_newFiles disk moves).filter _

end Files

/-! ## Runs -/

/-- The files whose creation was reported, in order: those whose event has been handled, and
those whose event waits in the queue. -/
def createdPaths (handled : List Str) (queue : List RawEvent) : List Str :=
  handled ++ queue.filterMap creationPath

section Runs

variable [Base64] [RegexCrate] (ω : Schedule) (filters : List Str) (checks : Bool)

/-- Where things stand after some steps: the creations of `handled` have been handled, and
what this did to the drive is the run of `uploads`. -/
structure Refined (objs : List Obj) (disk : Disk) (moves : List Move) (s : System)
    (handled : List Str) (uploads : List (Disk × Str)) : Prop where
  world : s.world =
    (run ω filters checks objs (uploadActions uploads)).world.withDisk s.world.disk
  alive : s.alive = true → (run ω filters checks objs (uploadActions uploads)).alive = true
  longer : Longer disk s.world.disk
  there : ∀ path, s.world.disk path ≠ none ↔ disk path ≠ none ∨ path ∈ newFiles disk moves
  created : createdPaths handled s.queue = newFiles disk moves
  paths : uploads.map Prod.snd = handled.filter (passesAs ω filters checks)
  disks : ∀ u ∈ uploads, u.1 u.2 ≠ none ∧ Longer u.1 s.world.disk

variable {ω filters checks} {objs : List Obj} {disk : Disk} {moves : List Move} {s : System}
  {handled : List Str} {uploads : List (Disk × Str)}

theorem refined_start (ω : Schedule) (filters : List Str) (checks : Bool) (objs : List Obj)
    (disk : Disk) :
    Refined ω filters checks objs disk [] (System.start ω filters checks objs disk) [] [] where
  world := rfl
  alive := id
  longer := .refl disk
  there := fun _ => (or_iff_left List.not_mem_nil).symm
  created := rfl
  paths := rfl
  disks := fun _ hu => absurd hu List.not_mem_nil

/-- A program brings the file to the disk that is new with its step. -/
theorem Refined.newFiles_step (h : Refined ω filters checks objs disk moves s handled uploads)
    (m : Move) : newFiles disk (moves ++ [m]) = newFiles disk moves ++ m.creates s.world.disk := by
  rw [newFiles_snoc, Move.creates]
  congr 1
  refine List.filter_congr fun path _ => ?_
  have hthere := h.there path
  rw [← not_iff_not, not_or, not_not, not_not] at hthere
  rw [Bool.eq_iff_iff, Bool.and_eq_true, Bool.not_eq_true', Option.isNone_iff_eq_none,
    Option.isNone_iff_eq_none, hthere, ← Bool.not_eq_true, List.contains_iff_mem]

/-- **A step of a program** leaves the drive as it is. -/
theorem Refined.program (h : Refined ω filters checks objs disk moves s handled uploads)
    {m : Move} (hm : m ≠ .handle) :
    Refined ω filters checks objs disk (moves ++ [m]) (s.step ω filters checks m) handled
      uploads := by
  obtain ⟨disk', queue, opened, hstep, hwritten⟩ := s.program_cases ω filters checks hm
  rw [hstep]
  refine ⟨World.withDisk_congr h.world disk', h.alive, h.longer.trans hwritten.longer, ?_, ?_,
    h.paths, fun u hu => ?_⟩
  · intro path
    rw [h.newFiles_step, List.mem_append, ← or_assoc, ← h.there]
    exact hwritten.there path
  · rw [h.newFiles_step, createdPaths, List.filterMap_append, ← List.append_assoc,
      hwritten.created, ← h.created]
    rfl
  · obtain ⟨hfile, hbefore⟩ := h.disks u hu
    exact ⟨hfile, hbefore.trans hwritten.longer⟩

/-- **The first event is gone**, and the drive is where the uploads bring it. -/
theorem Refined.after_event (h : Refined ω filters checks objs disk moves s handled uploads)
    {e : RawEvent} {queue : List RawEvent} {w' : DriveWorld} {alive : Bool}
    (hq : s.queue = e :: queue) (hdisk : w'.disk = s.world.disk) (uploads' : List (Disk × Str))
    (hworld : w' =
      (run ω filters checks objs (uploadActions uploads')).world.withDisk s.world.disk)
    (halive : alive = true → (run ω filters checks objs (uploadActions uploads')).alive = true)
    (hpaths : uploads'.map Prod.snd =
      (handled ++ (creationPath e).toList).filter (passesAs ω filters checks))
    (hdisks : ∀ u ∈ uploads', u.1 u.2 ≠ none ∧ Longer u.1 s.world.disk) :
    Refined ω filters checks objs disk (moves ++ [.handle]) ⟨w', alive, queue, s.opened⟩
      (handled ++ (creationPath e).toList) uploads' := by
  refine ⟨by rw [hdisk]; exact hworld, halive, by rw [hdisk]; exact h.longer, ?_, ?_,
    hpaths, by rw [hdisk]; exact hdisks⟩
  · rw [newFiles_handle, hdisk]
    exact h.there
  · rw [newFiles_handle, ← h.created, createdPaths, createdPaths, hq, List.filterMap_cons]
    cases creationPath e <;> simp

/-- **The daemon takes the first event**: an upload, or nothing that the drive sees. -/
theorem Refined.handle (h : Refined ω filters checks objs disk moves s handled uploads) :
    ∃ handled' uploads', Refined ω filters checks objs disk (moves ++ [.handle])
      (s.step ω filters checks .handle) handled' uploads' := by
  by_cases hstep : s.alive = true ∧ s.queue ≠ []
  · obtain ⟨halive, hne⟩ := hstep
    obtain ⟨e, queue, hq⟩ := List.exists_cons_of_ne_nil hne
    have hcases := handleRawEvent_cases ω filters checks e s.world
    unfold Ends at hcases
    rcases hr : handleRawEvent (driveClient ω filters checks) e s.world with ⟨r, w'⟩
    have hends : HandleEnds ω filters checks e s.world r w' := by rwa [hr] at hcases
    have hafter : s.step ω filters checks .handle = ⟨w', r.returned, queue, s.opened⟩ := by
      rw [System.step, halive, hq]
      simp only [hr]
    obtain ⟨hworld, hreturned⟩ := hends.refines (h.alive halive) h.world
    rw [← run_uploadActions_append] at hworld hreturned
    -- what waits in the queue is on the disk
    have hthere : ∀ path, creationPath e = some path → s.world.disk path ≠ none := by
      intro path hpath
      refine (h.there path).mpr (Or.inr ?_)
      rw [← h.created, createdPaths, hq, List.filterMap_cons_some hpath]
      simp
    have hupload : (uploadFor ω filters checks s.world.disk e).toList =
        ((creationPath e).toList.filter (passesAs ω filters checks)).map fun path =>
          (s.world.disk, path) := by
      cases hcreation : creationPath e with
      | none => rw [uploadFor, hcreation]; rfl
      | some path =>
        rw [uploadFor, hcreation, Option.filter_some,
          Option.isSome_iff_ne_none.mpr (hthere path hcreation), Bool.and_true]
        cases hpass : passesAs ω filters checks path <;> simp [hpass]
    rw [hafter]
    refine ⟨_, _, h.after_event hq (by rw [hworld]; rfl) _ hworld ?_ ?_ ?_⟩
    · intro hlives
      rw [hlives] at hreturned
      exact (Bool.and_eq_true_iff.mp hreturned.symm).1
    · rw [List.map_append, h.paths, hupload, List.map_map, List.filter_append]
      simp
    · intro u hu
      rcases List.mem_append.mp hu with hu | hu
      · exact h.disks u hu
      · rw [hupload, List.mem_map] at hu
        obtain ⟨path, hpath, rfl⟩ := hu
        exact ⟨hthere path (Option.mem_toList.mp (List.mem_filter.mp hpath).1), .refl _⟩
  · have hsame : s.step ω filters checks .handle = s := by
      rw [System.step]
      split
      · exact absurd ⟨‹_›, by simp [*]⟩ hstep
      · rfl
    rw [hsame]
    refine ⟨handled, uploads, { h with there := ?_, created := ?_ }⟩
    · rw [newFiles_handle]
      exact h.there
    · rw [newFiles_handle]
      exact h.created

/-- The uploaded files are the first ones of those to sync. -/
theorem Refined.paths_prefix (h : Refined ω filters checks objs disk moves s handled uploads) :
    uploads.map Prod.snd <+: filesToSync ω filters checks disk moves := by
  rw [h.paths, filesToSync, ← h.created]
  exact (List.prefix_append _ _).filter _

/-- Once the queue is empty, all of them have been uploaded. -/
theorem Refined.paths_eq (h : Refined ω filters checks objs disk moves s handled uploads)
    (hempty : s.queue = []) : uploads.map Prod.snd = filesToSync ω filters checks disk moves := by
  rw [h.paths, filesToSync, ← h.created, createdPaths, hempty, List.filterMap_nil,
    List.append_nil]

theorem Refined.paths_nodup (h : Refined ω filters checks objs disk moves s handled uploads) :
    (uploads.map Prod.snd).Nodup :=
  h.paths_prefix.sublist.nodup nodup_filesToSync

theorem Refined.of_mem_paths (h : Refined ω filters checks objs disk moves s handled uploads)
    {path : Str} (hpath : path ∈ uploads.map Prod.snd) :
    (.create path ∈ moves ∧ disk path = none) ∧ passesAs ω filters checks path = true :=
  mem_filesToSync.mp (h.paths_prefix.subset hpath)

theorem refined_run (ω : Schedule) (filters : List Str) (checks : Bool) (objs : List Obj)
    (disk : Disk) (moves : List Move) :
    ∃ handled uploads, Refined ω filters checks objs disk moves
      (runMoves ω filters checks objs disk moves) handled uploads := by
  induction moves using List.reverseRecOn with
  | nil => exact ⟨[], [], refined_start ω filters checks objs disk⟩
  | append_singleton moves m ih =>
    obtain ⟨handled, uploads, h⟩ := ih
    rw [runMoves_snoc]
    by_cases hm : m = .handle
    · rw [hm]
      exact h.handle
    · exact ⟨handled, uploads, h.program hm⟩

/-- **A run of the daemon behind its queue is a run of uploads.**  Whatever fails or is
lost, and however the steps of the programs and of the daemon lie, the drive and the cache
are as after the uploads of certain files, one after the other.  These are the first ones of
the files to sync, each once and in the order in which they came to the disk; each is
uploaded with something that the file began with.  When the queue is empty, all of them have
been uploaded. -/
theorem moves_refine_run (ω : Schedule) (filters : List Str) (checks : Bool) (objs : List Obj)
    (disk : Disk) (moves : List Move) :
    let s := runMoves ω filters checks objs disk moves
    ∃ uploads : List (Disk × Str),
      s.world = (run ω filters checks objs (uploadActions uploads)).world.withDisk s.world.disk ∧
      (s.alive = true → (run ω filters checks objs (uploadActions uploads)).alive = true) ∧
      uploads.map Prod.snd <+: filesToSync ω filters checks disk moves ∧
      (uploads.map Prod.snd).Nodup ∧
      (∀ u ∈ uploads, disk u.2 = none ∧ passesAs ω filters checks u.2 = true ∧
        u.1 u.2 ≠ none ∧ Longer u.1 s.world.disk) ∧
      (s.queue = [] → uploads.map Prod.snd = filesToSync ω filters checks disk moves) := by
  intro s
  obtain ⟨handled, uploads, h⟩ := refined_run ω filters checks objs disk moves
  refine ⟨uploads, h.world, h.alive, h.paths_prefix, h.paths_nodup, fun u hu => ?_, h.paths_eq⟩
  obtain ⟨⟨-, hnone⟩, hpass⟩ := h.of_mem_paths (List.mem_map_of_mem hu)
  exact ⟨hnone, hpass, h.disks u hu⟩

end Runs

end PiDriveSync
