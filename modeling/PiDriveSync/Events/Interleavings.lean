import PiDriveSync.Events.Refinement
import PiDriveSync.Tree.Confluence

/-!
# The tree on the drive does not depend on the interleaving

When the daemon comes to an event, the file it is about may have been written, or may be
written later, and other files may have been created meanwhile.  `interleavings_agree` says
that this decides what is in the objects on the drive and nothing else: once the queue is
empty, the drive has an entry for each of `filesToSync` and for each directory above one,
and so any two runs that create the same files end with the same tree.

The run is a run of uploads (`PiDriveSync.Events.Refinement`), and these bring the drive to
the entries that they ask for (`PiDriveSync.Tree.Confluence`).
-/

namespace PiDriveSync

open UnixPath Fallible

/-! ## Entries without content -/

/-- The entry without what is in the file. -/
def Entry.shape (e : Entry) : Entry :=
  { e with content := [] }

/-- What is on a drive, but for the content of the files. -/
def shapes (objs : List Obj) : List Entry :=
  (entries objs).map Entry.shape

section Shapes

variable [Base64]

/-- The entries that the drive is to have for some files, but for their content. -/
def shapesFor (paths : List Str) : List Entry :=
  mirrorOf (paths.map fun path => (path, none))

theorem shapesFor_perm {paths paths' : List Str} (h : paths.Perm paths') :
    (shapesFor paths).Perm (shapesFor paths') :=
  mirrorOf_perm (h.map _)

/-- The content makes no difference to the rest of an entry. -/
theorem map_shape_mirrorOf (files : List (Str × Option Bytes)) :
    (mirrorOf files).map Entry.shape = shapesFor (files.map Prod.fst) := by
  have hdirs : directoriesFor (files.map fun u => (u.1, none)) = directoriesFor files := by
    rw [directoriesFor, directoriesFor, List.flatMap_map]
  rw [shapesFor, List.map_map]
  show _ = mirrorOf (files.map fun u => (u.1, none))
  rw [mirrorOf, mirrorOf, hdirs, List.map_append, List.map_map, List.map_map, List.map_map]
  rfl

end Shapes

/-! ## Actions that upload -/

@[simp] theorem uploadsIn_uploadActions (uploads : List (Disk × Str)) :
    uploadsIn (uploadActions uploads) = uploads := by
  rw [uploadsIn, uploadActions, List.filterMap_map]
  exact List.filterMap_some

theorem mem_uploadActions {uploads : List (Disk × Str)} {disk : Disk} {path : Str} :
    Action.upload disk path ∈ uploadActions uploads ↔ (disk, path) ∈ uploads := by
  rw [uploadActions, List.mem_map]
  constructor
  · rintro ⟨u, hu, heq⟩
    obtain ⟨rfl, rfl⟩ := Action.upload.inj heq
    exact hu
  · exact fun hu => ⟨_, hu, rfl⟩

theorem uploadedFiles_uploadActions (uploads : List (Disk × Str)) :
    (uploadedFiles (uploadActions uploads)).map Prod.fst = uploads.map Prod.snd := by
  rw [uploadedFiles, uploadsIn_uploadActions, List.map_map]
  rfl

/-! ## The end of a run -/

/-- The files that programs create have normal spellings strictly below the watched
directory. -/
def NormalMoves (moves : List Move) : Prop :=
  ∀ path, Move.create path ∈ moves → ∃ dirs f, IsFilePath path dirs f

/-- No file that a program creates is an ancestor directory of another. -/
def NoClashMoves (moves : List Move) : Prop :=
  ∀ cs ds : List Str, (∀ c ∈ ds, IsName c) → Move.create (below cs) ∈ moves →
    Move.create (below ds) ∈ moves → cs <+: ds → cs = ds

/-- Files none of which is an ancestor directory of another. -/
theorem noClashMoves_of (files : List (List Str)) {moves : List Move}
    (hfiles : ∀ cs ∈ files, cs ≠ [] ∧ ∀ c ∈ cs, IsName c)
    (hapart : ∀ cs ∈ files, ∀ ds ∈ files, cs <+: ds → cs = ds)
    (hmoves : ∀ path, Move.create path ∈ moves → ∃ cs ∈ files, path = below cs) :
    NoClashMoves moves := by
  have huploads : ∀ cs, Move.create (below cs) ∈ moves → Uploads (uploadsOf files) (below cs) := by
    intro cs hcs
    obtain ⟨cs', hcs', heq⟩ := hmoves _ hcs
    rw [heq]
    exact ⟨everyFile, List.mem_map_of_mem hcs'⟩
  exact fun cs ds hds hcs hds' =>
    noClash_uploadsOf hfiles hapart cs ds hds (huploads cs hcs) (huploads ds hds')

section Ends

variable [Base64] [RegexCrate]

/-- **Once the queue is empty**, the tree on the drive is that of the files to sync. -/
theorem shapes_run {ω : Schedule} (hω : Quiet ω) (filters : List Str) (checks : Bool)
    {objs : List Obj} (hobjs : Unsynced objs) (disk : Disk) {moves : List Move}
    (hmoves : NormalMoves moves) (hclash : NoClashMoves moves)
    (hempty : (runMoves ω filters checks objs disk moves).queue = []) :
    (shapes (runMoves ω filters checks objs disk moves).world.objs).Perm
      (shapesFor (filesToSync ω filters checks disk moves)) := by
  obtain ⟨handled, uploads, h⟩ := refined_run ω filters checks objs disk moves
  have hcreate : ∀ {path : Str}, Uploads (uploadActions uploads) path → .create path ∈ moves := by
    rintro path ⟨disk', hmem⟩
    exact (h.of_mem_paths (List.mem_map_of_mem (mem_uploadActions.mp hmem))).1.1
  have hnormal : Normal (uploadActions uploads) :=
    fun disk' path hmem => hmoves path (hcreate ⟨disk', hmem⟩)
  have hnoClash : NoClash (uploadActions uploads) :=
    fun cs ds hds hcs hds' hpre => hclash cs ds hds (hcreate hcs) (hcreate hds') hpre
  have hpresent : Present (uploadActions uploads) :=
    fun disk' path hmem => (h.disks _ (mem_uploadActions.mp hmem)).1
  have hshapes :=
    (entries_run hω filters checks hobjs hnormal hnoClash hpresent).map Entry.shape
  rw [map_shape_mirrorOf, uploadedFiles_uploadActions] at hshapes
  rw [shapes, h.world, World.withDisk_objs, ← h.paths_eq hempty]
  exact hshapes

end Ends

/-- **Interleavings agree on the tree.**  Two runs start with the same files on the disk and
drives without synced objects, and nothing goes wrong.  Programs create the same files, in
any order and spread in any way over the steps of the daemon, and write what they like; the
files lie strictly below the watched directory, and none where a directory above another is.
Once both queues are empty, both drives have one folder for each directory above a file to
sync and one object for each such file, with the same names, unique ids and parents. -/
theorem interleavings_agree [Base64] [RegexCrate] (ω ω' : Schedule) (hω : Quiet ω)
    (hω' : Quiet ω') (filters : List Str) (checks checks' : Bool) (objs objs' : List Obj)
    (hobjs : Unsynced objs) (hobjs' : Unsynced objs') (disk : Disk) (moves moves' : List Move)
    (hmoves : NormalMoves moves) (hclash : NoClashMoves moves)
    (hsame : ∀ path, Move.create path ∈ moves ↔ .create path ∈ moves') :
    let s := runMoves ω filters checks objs disk moves
    let s' := runMoves ω' filters checks' objs' disk moves'
    s.queue = [] → s'.queue = [] →
      (shapes s.world.objs).Perm (shapesFor (filesToSync ω filters checks disk moves)) ∧
        (shapes s.world.objs).Perm (shapes s'.world.objs) := by
  intro s s' hempty hempty'
  have hmoves' : NormalMoves moves' := fun path hpath => hmoves path ((hsame path).mpr hpath)
  have hclash' : NoClashMoves moves' := fun cs ds hds hcs hds' hpre =>
    hclash cs ds hds ((hsame _).mpr hcs) ((hsame _).mpr hds') hpre
  have hfirst := shapes_run hω filters checks hobjs disk hmoves hclash hempty
  have hsecond := shapes_run hω' filters checks' hobjs' disk hmoves' hclash' hempty'
  have hfiles : (filesToSync ω filters checks disk moves).Perm
      (filesToSync ω' filters checks' disk moves') := by
    refine (List.perm_ext_iff_of_nodup nodup_filesToSync nodup_filesToSync).mpr fun path => ?_
    rw [mem_filesToSync, mem_filesToSync, hsame]
    exact Iff.rfl
  exact ⟨hfirst, (hfirst.trans (shapesFor_perm hfiles)).trans hsecond.symm⟩

/-- Two files, once handled one by one and once behind both creations. -/
theorem interleavings_agree_early :
    let f := below [str "a", str "f"]
    let g := below [str "a", str "b", str "g"]
    let moves := [.create f, .write f [1], .handle, .create g, .write g [4], .handle, .handle,
      .handle]
    let moves' := [.create g, .write g [4], .create f, .write f [2, 3], .handle, .handle, .handle,
      .handle]
    let files := @filesToSync literalRegex calm [] true (fun _ => none) moves
    let s := @runMoves standardBase64 literalRegex calm [] true [] (fun _ => none) moves
    let s' := @runMoves standardBase64 literalRegex calm [] true [] (fun _ => none) moves'
    (shapes s.world.objs).Perm (@shapesFor standardBase64 files) ∧
      (shapes s.world.objs).Perm (shapes s'.world.objs) :=
  @interleavings_agree standardBase64 literalRegex calm calm
    ⟨fun _ => rfl, fun _ => rfl, fun _ => rfl⟩ ⟨fun _ => rfl, fun _ => rfl, fun _ => rfl⟩
    [] true true [] [] (by simp [Unsynced]) (by simp [Unsynced]) (fun _ => none) _ _
    (by
      intro path hpath
      have hp : path = below [str "a", str "f"] ∨ path = below [str "a", str "b", str "g"] := by
        simpa using hpath
      rcases hp with rfl | rfl
      · exact ⟨[str "a"], str "f", rfl, by decide +kernel, by decide +kernel⟩
      · exact ⟨[str "a", str "b"], str "g", rfl, by decide +kernel, by decide +kernel⟩)
    (noClashMoves_of [[str "a", str "f"], [str "a", str "b", str "g"]]
      (by decide +kernel) (by decide +kernel) (by simp))
    (by simp [or_comm])
    (List.eq_nil_of_length_eq_zero (by decide +kernel))
    (List.eq_nil_of_length_eq_zero (by decide +kernel))

end PiDriveSync
