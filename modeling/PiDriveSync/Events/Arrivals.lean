import PiDriveSync.Events.Refinement

/-!
# Where the files on the drive come from

Programs create and write files in any order while the daemon works through the events of
the watcher, and calls may fail, or take effect without an answer.  In every such run the
files that the daemon adds to the drive stem from files that are new in the run, one from
each at most, and in the order in which they came to the disk (`files_arrive_in_order`):
the queue is worked off from the front, and an event adds one file at most.

A file on the drive has the name and the unique id of the file it stems from, and begins
as that file does; a folder is the root folder or that of a directory above such a file.
-/

namespace PiDriveSync

open UnixPath Fallible

/-! ## What an upload adds -/

section Uploads

variable [Base64]

/-- A folder for one of the directories above `path`. -/
def DirectoryAbove (path : Str) (o : Obj) : Prop :=
  o.isFolder = true ∧ ∃ done d rest f, relComponents path = some (done ++ d :: rest ++ [f]) ∧
    o.name = fileName (below (done ++ [d])) ∧ o.syncId = some (keyOf (done ++ [d]))

/-- A plain object for the file at `path`, with what the file begins with. -/
structure FileFrom (disk : Disk) (path : Str) (o : Obj) : Prop where
  plain : o.isFolder = false
  name : o.name = fileName path
  uid : ∃ k, (SyncableFile.mk path).getUniqueId = .ok k ∧ o.syncId = some k
  content : ∃ content, disk path = some content ∧ o.content <+: content

theorem FileFrom.mono {disk disk' : Disk} (h : Longer disk disk') {path : Str} {o : Obj}
    (ho : FileFrom disk path o) : FileFrom disk' path o := by
  obtain ⟨content, hcontent, hbegins⟩ := ho.content
  obtain ⟨content', hcontent', hlonger⟩ := h path content hcontent
  exact ⟨ho.plain, ho.name, ho.uid, content', hcontent', hbegins.trans hlonger⟩

variable {ω : Schedule} {w w' : DriveWorld} {path : Str}

/-- One directory adds its folder, or nothing. -/
theorem EnsureEnds.above {done rest : List Str} {d f : Str} {r : Outcome SyncerErrors Unit}
    (hrel : relComponents path = some (done ++ d :: rest ++ [f]))
    (h : EnsureEnds ω (below (done ++ [d])) (keyOf (done ++ [d])) (keyOf done) w r w') :
    ∃ folders, w'.objs = w.objs ++ folders ∧ ∀ o ∈ folders, DirectoryAbove path o := by
  cases h with
  | hit | found | orphan => exact ⟨[], (List.append_nil _).symm, by simp⟩
  | create g r _ miss hk hpk hcreate =>
    rcases hcreate.objs_cases with hobjs | ⟨n, hobjs⟩
    · exact ⟨[], by rw [hobjs, List.append_nil]; rfl, by simp⟩
    · refine ⟨_, hobjs, fun o ho => ?_⟩
      rw [List.mem_singleton.mp ho]
      exact ⟨newObj_folder_isFolder, done, d, rest, f, hrel, rfl, newObj_folder_syncId⟩

/-- **The walk.** -/
theorem WalkEnds.above {done dirs : List Str} {f : Str} {r : Outcome SyncerErrors Unit}
    (hrel : relComponents path = some (done ++ dirs ++ [f])) (h : WalkEnds ω done dirs w r w') :
    ∃ folders, w'.objs = w.objs ++ folders ∧ ∀ o ∈ folders, DirectoryAbove path o := by
  induction h with
  | nil => exact ⟨[], (List.append_nil _).symm, by simp⟩
  | stop h => exact h.above hrel
  | cons h _ ih =>
    obtain ⟨folders, hobjs, habove⟩ := h.above hrel
    obtain ⟨folders', hobjs', habove'⟩ := ih (by rw [hrel]; simp)
    refine ⟨folders ++ folders', by rw [hobjs', hobjs, List.append_assoc], ?_⟩
    exact List.forall_mem_append.mpr ⟨habove, habove'⟩

/-- **The file**: one object, or none. -/
theorem PlaceEnds.fileFrom {r : Outcome SyncerErrors (Option Str)} (h : PlaceEnds ω path w r w') :
    ∃ file : Option Obj, w'.objs = w.objs ++ file.toList ∧ ∀ o ∈ file, FileFrom w.disk path o := by
  -- the object that is made, with what was read the second time
  have hmade : ∀ (m : Moment) (p : Option Str) (name pk k : Str) (content : Bytes),
      PlaceKeys path name pk → (SyncableFile.mk path).getUniqueId = .ok k →
      readAt (ω (w.tick + 2)) w.disk path = some content →
      FileFrom w.disk path (newObj m w.objs (fileRequest name p k) content) := by
    intro m p name pk k content hkeys hk hread
    obtain ⟨-, -, hname, -⟩ := hkeys
    rw [readAt] at hread
    split_ifs at hread
    exact ⟨newObj_file_isFolder, hname.symm, ⟨k, hk, newObj_file_syncId⟩, content, hread,
      List.prefix_rfl⟩
  cases h with
  | unnamed | unanswered | noUid | unreadable | vanished | rejected =>
    exact ⟨none, (List.append_nil _).symm, by simp⟩
  | made name pk k content o hkeys _ hk _ hread _ ho
  | lost name pk k content o hkeys _ hk _ hread _ ho =>
    refine ⟨some o, rfl, fun o' ho' => ?_⟩
    rw [← Option.some.inj ho', ho]
    exact hmade _ _ _ _ _ _ hkeys hk hread

/-- **An upload** adds folders for directories above the file, and behind them the file or
nothing. -/
theorem UploadEnds.fileFrom {checks : Bool} {r : Outcome SyncerErrors (Option Str)}
    (h : UploadEnds ω checks path w r w') :
    ∃ (folders : List Obj) (file : Option Obj), w'.objs = w.objs ++ (folders ++ file.toList) ∧
      (∀ o ∈ folders, DirectoryAbove path o) ∧ ∀ o ∈ file, FileFrom w.disk path o := by
  cases h with
  | outside | rootChecked => exact ⟨[], none, (List.append_nil _).symm, by simp, by simp⟩
  | root _ _ hp =>
    obtain ⟨file, hobjs, hfile⟩ := hp.fileFrom
    exact ⟨[], file, hobjs, by simp, hfile⟩
  | crashed hrel hw =>
    obtain ⟨folders, hobjs, habove⟩ := hw.above hrel
    exact ⟨folders, none, by rw [hobjs, Option.toList_none, List.append_nil], habove, by simp⟩
  | placed hrel hw hp =>
    obtain ⟨folders, hobjs, habove⟩ := hw.above hrel
    obtain ⟨file, hobjs', hfile⟩ := hp.fileFrom
    refine ⟨folders, file, by rw [hobjs', hobjs, List.append_assoc], habove, ?_⟩
    rwa [hw.disk_eq] at hfile

end Uploads

/-! ## Runs of uploads -/

section Runs

variable [Base64] {ω : Schedule} {checks : Bool}

/-- What some uploads have brought to the drive: objects for the files `stored`, in this
order, and folders. -/
structure Brought (uploads stored : List (Disk × Str)) (added : List Obj) : Prop where
  order : stored.Sublist uploads
  files : List.Forall₂ (fun u o => FileFrom u.1 u.2 o) stored (added.filter fun o => !o.isFolder)
  folders : ∀ o ∈ added, o.isFolder = true →
    o.name = fileName (below []) ∧ o.syncId = some (keyOf []) ∨
      ∃ u ∈ uploads, DirectoryAbove u.2 o

/-- A start brings the root folder, or nothing. -/
theorem StartEnds.brought {w w' : DriveWorld} {r : Outcome SyncerErrors Unit}
    (h : StartEnds ω w r w') : ∃ added, w'.objs = w.objs ++ added ∧ Brought [] [] added := by
  have hnothing : Brought [] [] [] := ⟨List.Sublist.refl _, .nil, by simp⟩
  cases h with
  | known | unanswered => exact ⟨[], (List.append_nil _).symm, hnothing⟩
  | create hf hnone r _ hcreate =>
    rcases hcreate.objs_cases with hobjs | ⟨n, hobjs⟩
    · exact ⟨[], by rw [hobjs, List.append_nil]; rfl, hnothing⟩
    · refine ⟨_, hobjs, List.Sublist.refl _, ?_, fun o ho _ => ?_⟩
      · simp [newObj_folder_isFolder]
      · rw [List.mem_singleton.mp ho]
        exact Or.inl ⟨rfl, newObj_folder_syncId⟩

/-- **One more upload**: its file comes behind all others. -/
theorem Brought.upload {uploads stored : List (Disk × Str)} {added : List Obj}
    (h : Brought uploads stored added) {u : Disk × Str} {folders : List Obj} {file : Option Obj}
    (hfolders : ∀ o ∈ folders, DirectoryAbove u.2 o) (hfile : ∀ o ∈ file, FileFrom u.1 u.2 o) :
    ∃ stored', Brought (uploads ++ [u]) stored' (added ++ (folders ++ file.toList)) := by
  have hplain : folders.filter (fun o => !o.isFolder) = [] := by
    rw [List.filter_eq_nil_iff]
    intro o ho
    simp [(hfolders o ho).1]
  have hall : ∀ o ∈ added ++ (folders ++ file.toList), o.isFolder = true →
      o.name = fileName (below []) ∧ o.syncId = some (keyOf []) ∨
        ∃ u' ∈ uploads ++ [u], DirectoryAbove u'.2 o := by
    intro o ho hfolder
    rcases List.mem_append.mp ho with ho | ho
    · refine (h.folders o ho hfolder).imp_right ?_
      rintro ⟨u', hu', habove⟩
      exact ⟨u', List.mem_append_left _ hu', habove⟩
    · rcases List.mem_append.mp ho with ho | ho
      · exact Or.inr ⟨u, List.mem_append_right _ (by simp), hfolders o ho⟩
      · rw [(hfile o (Option.mem_toList.mp ho)).plain] at hfolder
        exact absurd hfolder (by simp)
  cases hf : file with
  | none =>
    subst hf
    refine ⟨stored, h.order.trans (List.sublist_append_left _ _), ?_, hall⟩
    rw [Option.toList_none, List.append_nil, List.filter_append, hplain, List.append_nil]
    exact h.files
  | some o =>
    subst hf
    have hfrom : FileFrom u.1 u.2 o := hfile o rfl
    have hlast : [o].filter (fun o => !o.isFolder) = [o] := by simp [hfrom.plain]
    refine ⟨stored ++ [u], h.order.append (List.Sublist.refl _), ?_, hall⟩
    rw [Option.toList_some, List.filter_append, List.filter_append, hplain, hlast,
      List.nil_append]
    exact List.rel_append h.files (.cons hfrom .nil)

theorem brought_run (ω : Schedule) (filters : List Str) (checks : Bool) (objs : List Obj)
    (uploads : List (Disk × Str)) :
    ∃ stored added, (run ω filters checks objs (uploadActions uploads)).world.objs =
      objs ++ added ∧ Brought uploads stored added := by
  induction uploads using List.reverseRecOn with
  | nil =>
    obtain ⟨r, w', h, he⟩ := start_ends ω filters checks (.fresh objs) []
    obtain ⟨added, hobjs, hbrought⟩ := h.brought
    refine ⟨[], added, ?_, hbrought⟩
    rw [uploadActions, List.map_nil, run, List.foldl_nil, he]
    exact hobjs
  | append_singleton uploads u ih =>
    obtain ⟨stored, added, hobjs, h⟩ := ih
    obtain ⟨s', hends, hs'⟩ := step_ends ω filters checks
      (run ω filters checks objs (uploadActions uploads)) (.upload u.1 u.2)
    rw [uploadActions_snoc, run_snoc, hs']
    cases hends with
    | ignored =>
      refine ⟨stored, added, hobjs, h.order.trans (List.sublist_append_left _ _), h.files, ?_⟩
      intro o ho hfolder
      refine (h.folders o ho hfolder).imp_right ?_
      rintro ⟨u', hu', habove⟩
      exact ⟨u', List.mem_append_left _ hu', habove⟩
    | upload _ _ halive hupload =>
      obtain ⟨folders, file, hobjs', hfolders, hfile⟩ := hupload.fileFrom
      obtain ⟨stored', h'⟩ := h.upload hfolders hfile
      refine ⟨stored', _, ?_, h'⟩
      rw [hobjs', World.withDisk_objs, hobjs, List.append_assoc]

end Runs

/-! ## The daemon behind its queue -/

/-- **Files arrive in the order in which they came to the disk**, and each at most once,
whatever fails or is lost and however the steps of the programs and of the daemon lie.  The
plain objects that come to the drive stem, one by one, from different files that are new in
the run, and whose names pass the filters: each object has the name and the unique id of
its file and what the file begins with.  The folders that come are the root folder and those
of directories above such files. -/
theorem files_arrive_in_order [Base64] [RegexCrate] (ω : Schedule) (filters : List Str)
    (checks : Bool) (objs : List Obj) (disk : Disk) (moves : List Move) :
    let s := runMoves ω filters checks objs disk moves
    ∃ stored added, s.world.objs = objs ++ added ∧
      stored.Sublist (filesToSync ω filters checks disk moves) ∧ stored.Nodup ∧
      (∀ path ∈ stored, disk path = none ∧ passesAs ω filters checks path = true) ∧
      List.Forall₂ (FileFrom s.world.disk) stored (added.filter fun o => !o.isFolder) ∧
      ∀ o ∈ added, o.isFolder = true →
        o.name = fileName (below []) ∧ o.syncId = some (keyOf []) ∨
          ∃ path, .create path ∈ moves ∧ disk path = none ∧
            passesAs ω filters checks path = true ∧ DirectoryAbove path o := by
  intro s
  obtain ⟨handled, uploads, h⟩ := refined_run ω filters checks objs disk moves
  obtain ⟨stored, added, hobjs, hbrought⟩ := brought_run ω filters checks objs uploads
  have hpaths : (stored.map Prod.snd).Sublist (uploads.map Prod.snd) := hbrought.order.map _
  refine ⟨stored.map Prod.snd, added, ?_, hpaths.trans h.paths_prefix.sublist, ?_, ?_, ?_, ?_⟩
  · rw [h.world, World.withDisk_objs, hobjs]
  · exact hpaths.nodup h.paths_nodup
  · exact fun path hpath => (h.of_mem_paths (hpaths.subset hpath)).imp_left And.right
  · rw [List.forall₂_map_left_iff]
    have hfiles := (List.forall₂_and_left _ _).mpr
      ⟨fun u hu => (h.disks u (hbrought.order.subset hu)).2, hbrought.files⟩
    exact hfiles.imp fun u o hu => hu.2.mono hu.1
  · intro o ho hfolder
    refine (hbrought.folders o ho hfolder).imp_right ?_
    rintro ⟨u, hu, habove⟩
    obtain ⟨⟨hmem, hnone⟩, hpass⟩ := h.of_mem_paths (List.mem_map_of_mem hu)
    exact ⟨u.2, hmem, hnone, hpass, habove⟩

end PiDriveSync
