import PiDriveSync.Store.Keyed
import PiDriveSync.Tree.Mirror

/-!
# What is on the drive depends on the uploads alone

`mirrorOf` is what the program is for: given the files uploaded, with what was in them, it
lists the entries that the drive is to have, one for each directory and one for each
upload.  `entries` reads them off a drive, leaving out the ids of the objects and their
order, which are the drive's own choice.

`drives_agree` says that the one is the other, up to order, whenever nothing goes wrong and
no uploaded path is a directory above another.  So two runs that upload the same, in any
order, with restarts and losses of the cache at any time, end with the same entries.  Without
the second condition the order matters: a file that stands where a directory is keeps the
folder of the directory from being made.
-/

namespace PiDriveSync

open UnixPath Fallible

/-! ## Entries -/

/-- What there is to know of an object with a `pi_sync_id`, but for its id. -/
structure Entry where
  key : Option Str
  name : Option Str
  folder : Bool
  content : Bytes
  /-- The unique ids of its parents. -/
  parents : List (Option Str)
  deriving DecidableEq, Repr

/-- The unique id of the object with an id. -/
def syncIdOf (objs : List Obj) (i : Str) : Option Str :=
  (objs.find? fun o => o.id == i).bind Obj.syncId

def entryOf (objs : List Obj) (o : Obj) : Entry where
  key := o.syncId
  name := o.name
  folder := o.isFolder
  content := o.content
  parents := o.parents.map (syncIdOf objs)

def synced (objs : List Obj) : List Obj :=
  objs.filter fun o => o.syncId.isSome

/-- The entries of a drive. -/
def entries (objs : List Obj) : List Entry :=
  (synced objs).map (entryOf objs)

theorem mem_synced {objs : List Obj} {o : Obj} :
    o ∈ synced objs ↔ o ∈ objs ∧ o.syncId ≠ none := by
  simp [synced, Option.isSome_iff_ne_none]

/-- A synced object is found under its id. -/
theorem syncIdOf_id {objs : List Obj} (hids : SyncedIds objs) {p : Obj} (hp : p ∈ objs)
    (hne : p.syncId ≠ none) : syncIdOf objs p.id = p.syncId := by
  rw [syncIdOf]
  cases hfind : objs.find? fun o => o.id == p.id with
  | none => exact absurd (List.find?_eq_none.mp hfind p hp) (by simp)
  | some q =>
    have hid : q.id = p.id := by simpa using List.find?_some hfind
    rw [Option.bind_some, hids q (List.mem_of_find?_eq_some hfind) p hp hne hid]

/-! ## What the drive is to have -/

/-- The uploaded files of a run, with what was in them. -/
def uploadedFiles (actions : List Action) : List (Str × Option Bytes) :=
  (uploadsIn actions).map fun u => (u.2, u.1 u.2)

/-- The directories above some files, and the root. -/
def directoriesFor (files : List (Str × Option Bytes)) : List (List Str) :=
  ([] :: files.flatMap fun u => (directoriesOf u.1).inits).dedup

section Mirror

variable [Base64]

def folderEntry (cs : List Str) : Entry where
  key := some (keyOf cs)
  name := some (dirName cs)
  folder := true
  content := []
  parents := if cs = [] then [] else [some (keyOf cs.dropLast)]

def fileEntry (u : Str × Option Bytes) : Entry where
  key := some (keyOf ((relComponents u.1).getD []))
  name := ((relComponents u.1).getD []).getLast?
  folder := false
  content := u.2.getD []
  parents := [some (keyOf (directoriesOf u.1))]

/-- The entries that the drive is to have. -/
def mirrorOf (files : List (Str × Option Bytes)) : List Entry :=
  (directoriesFor files).map folderEntry ++ files.map fileEntry

omit [Base64] in
/-- The order of the uploads makes no difference. -/
theorem directoriesFor_perm {files files' : List (Str × Option Bytes)} (h : files.Perm files') :
    (directoriesFor files).Perm (directoriesFor files') :=
  (List.Perm.cons [] (h.flatMap_right _)).dedup

theorem mirrorOf_perm {files files' : List (Str × Option Bytes)} (h : files.Perm files') :
    (mirrorOf files).Perm (mirrorOf files') :=
  ((directoriesFor_perm h).map _).append (h.map _)

end Mirror

/-! ## Runs with the same uploads -/

section Same

theorem mem_uploadedFiles {actions : List Action} {path : Str} {content : Option Bytes} :
    (path, content) ∈ uploadedFiles actions ↔
      ∃ disk, Action.upload disk path ∈ actions ∧ disk path = content := by
  simp only [uploadedFiles, uploadsIn, List.mem_map, List.mem_filterMap, Prod.exists,
    Prod.mk.injEq]
  constructor
  · rintro ⟨disk, path', ⟨a, ha, heq⟩, rfl, rfl⟩
    cases a with
    | upload disk' path'' =>
      obtain ⟨rfl, rfl⟩ := Prod.mk.inj (Option.some.inj heq)
      exact ⟨disk', ha, rfl⟩
    | restart | expire => exact absurd heq (by simp)
  · rintro ⟨disk, h, rfl⟩
    exact ⟨disk, path, ⟨_, h, rfl⟩, rfl, rfl⟩

variable {actions actions' : List Action}

theorem uploads_iff {path : Str} :
    Uploads actions path ↔ ∃ content, (path, content) ∈ uploadedFiles actions := by
  constructor
  · rintro ⟨disk, h⟩
    exact ⟨disk path, mem_uploadedFiles.mpr ⟨disk, h, rfl⟩⟩
  · rintro ⟨content, h⟩
    obtain ⟨disk, h, -⟩ := mem_uploadedFiles.mp h
    exact ⟨disk, h⟩

variable (hsame : (uploadedFiles actions).Perm (uploadedFiles actions'))

include hsame

theorem uploads_of_perm {path : Str} (h : Uploads actions' path) : Uploads actions path := by
  obtain ⟨content, h⟩ := uploads_iff.mp h
  exact uploads_iff.mpr ⟨content, hsame.mem_iff.mpr h⟩

theorem Normal.of_perm (h : Normal actions) : Normal actions' := by
  intro disk path hmem
  obtain ⟨disk', hmem'⟩ := uploads_of_perm hsame ⟨disk, hmem⟩
  exact h disk' path hmem'

theorem NoClash.of_perm (h : NoClash actions) : NoClash actions' :=
  fun cs ds hds hcs' hds' hpre =>
    h cs ds hds (uploads_of_perm hsame hcs') (uploads_of_perm hsame hds') hpre

theorem Present.of_perm (h : Present actions) : Present actions' := by
  intro disk path hmem
  have hfile := hsame.mem_iff.mpr (mem_uploadedFiles.mpr ⟨disk, hmem, rfl⟩)
  obtain ⟨disk', hmem', heq⟩ := mem_uploadedFiles.mp hfile
  rw [← heq]
  exact h disk' path hmem'

end Same

/-! ## The entries of a run -/

section Run

variable [Base64]

omit [Base64] in
/-- **The directories above the uploaded files** are those of the run. -/
theorem mem_directoriesFor {actions : List Action} (hnormal : Normal actions) {cs : List Str} :
    cs ∈ directoriesFor (uploadedFiles actions) ↔ IsDir (Files actions) cs := by
  rw [directoriesFor, List.mem_dedup, List.mem_cons, List.mem_flatMap, IsDir]
  refine or_congr_right ⟨?_, ?_⟩
  · rintro ⟨⟨path, content⟩, hmem, hcs⟩
    have hup : Uploads actions path := uploads_iff.mpr ⟨content, hmem⟩
    obtain ⟨dirs, f, hpath, hfile⟩ := files_of_uploads hnormal hup
    rw [directoriesOf_eq hpath.relComponents, List.mem_inits] at hcs
    obtain ⟨rest, rfl⟩ := hcs
    cases rest with
    | nil => exact ⟨f, [], by simpa using hfile⟩
    | cons d rest => exact ⟨d, rest ++ [f], by simpa using hfile⟩
  · rintro ⟨d, rest, -, hnames, hup⟩
    obtain ⟨content, hmem⟩ := uploads_iff.mp hup
    refine ⟨_, hmem, ?_⟩
    rw [directoriesOf, relComponents_below fun c hc => (hnames c hc).toSolid, Option.getD_some,
      List.mem_inits, List.dropLast_append_of_ne_nil (List.cons_ne_nil _ _)]
    exact List.prefix_append _ _

/-- Folders are empty. -/
def EmptyFolders (objs : List Obj) : Prop :=
  ∀ o ∈ objs, o.isFolder = true → o.syncId ≠ none → o.content = []

theorem emptyFolders_of_grows {ω : Schedule} {U : Str → Prop} {objs objs' : List Obj}
    (h : Grows (Adds ω U) objs objs') (hobjs : Unsynced objs) : EmptyFolders objs' := by
  refine h.inv (P := EmptyFolders) (fun o ho _ hne => absurd (hobjs o ho) hne) ?_
  intro l o hl ho p hp hfold hne
  rcases List.mem_append.mp hp with hp | hp
  · exact hl p hp hfold hne
  · rw [List.mem_singleton.mp hp] at hfold ⊢
    cases ho with
    | root | folder => rfl
    | file => exact absurd hfold (by simp)

variable {F : List Str → Prop} {objs : List Obj}

/-- The entry of a folder is the one of its directory. -/
theorem entryOf_folder (hids : SyncedIds objs) (hempty : EmptyFolders objs) {cs : List Str}
    {o : Obj} (ho : o ∈ objs) (h : LiveFolder cs o) (hangs : HangsBelow objs cs o) :
    entryOf objs o = folderEntry cs := by
  have hcontent : o.content = [] := hempty o ho h.folder (by rw [h.key]; simp)
  have hparents : o.parents.map (syncIdOf objs) =
      if cs = [] then [] else [some (keyOf cs.dropLast)] := by
    cases hangs with
    | root hnone =>
      rw [hnone]
      rfl
    | @dir cs d _ p hp hfolder hpar =>
      rw [hpar, if_neg (by simp), List.dropLast_concat, List.map_singleton,
        syncIdOf_id hids hp (by rw [hfolder.key]; simp), hfolder.key]
  rw [entryOf, folderEntry, h.key, h.name, h.folder, hcontent, hparents]

/-- The entry of a file is the one of its upload. -/
theorem entryOf_file (hids : SyncedIds objs) {u : Disk × Str} {o : Obj} (h : ObjectOf objs u o) :
    entryOf objs o = fileEntry (u.2, u.1 u.2) := by
  obtain ⟨dirs, f, hpath, hfile⟩ := h
  obtain ⟨p, hp, hfolder, hpar⟩ := hfile.parent
  have hdirs : directoriesOf u.2 = dirs := directoriesOf_eq hpath.relComponents
  have hparent : syncIdOf objs p.id = some (keyOf dirs) := by
    rw [syncIdOf_id hids hp (by rw [hfolder.key]; simp), hfolder.key]
  rw [entryOf, fileEntry, hfile.key, hfile.name, hfile.plain, hpar, hfile.content, hdirs,
    List.map_singleton, hparent, hpath.relComponents]
  simp

/-- Nothing synced is in the trash. -/
theorem liveFolders_eq_filter (htree : Tree F objs) (k : Str) :
    liveFolders objs k = ((synced objs).filter Obj.isFolder).filter fun o =>
      (entryOf objs o).key == some k := by
  simp only [liveFolders, carriers, synced, List.filter_filter]
  refine List.filter_congr fun o ho => ?_
  by_cases hk : o.syncId = some k
  · have hlive : o.trashed = false := by
      cases htree.synced o ho (by rw [hk]; simp) with
      | folder _ h _ => exact h.live
      | file _ live => exact live
    simp [entryOf, hk, hlive]
  · have hne : (o.syncId == some k) = false := beq_eq_false_iff_ne.mpr hk
    simp [entryOf, hne]

/-- **The folders** are those of the directories, and no two are of one directory. -/
theorem folders_perm (hF : FileSet F) (htree : Tree F objs) (hone : AtMostOne objs)
    (hempty : EmptyFolders objs) {dirs : List (List Str)} (hnodup : dirs.Nodup)
    (hdirs : ∀ cs, cs ∈ dirs ↔ IsDir F cs)
    (hthere : ∀ cs, IsDir F cs → carriers objs (keyOf cs) ≠ []) :
    (((synced objs).filter Obj.isFolder).map (entryOf objs)).Perm (dirs.map folderEntry) := by
  have hfolder : ∀ o ∈ (synced objs).filter Obj.isFolder, o ∈ objs ∧ ∃ cs, IsDir F cs ∧
      LiveFolder cs o ∧ HangsBelow objs cs o := by
    intro o ho
    obtain ⟨hmem, hfold⟩ := List.mem_filter.mp ho
    obtain ⟨hobj, hne⟩ := mem_synced.mp hmem
    refine ⟨hobj, ?_⟩
    cases htree.synced o hobj hne with
    | folder hdir hlive hangs => exact ⟨_, hdir, hlive, hangs⟩
    | file _ _ plain => exact absurd plain (by rw [hfold]; simp)
  refine perm_map_of_views ?_ ?_ ?_ ?_
  · have hkey : ∀ k, (((synced objs).filter Obj.isFolder).filter fun o =>
        (entryOf objs o).key == k).length ≤ 1 := by
      intro k
      cases k with
      | none =>
        rw [List.filter_eq_nil_iff.mpr fun o ho => ?_]
        · exact Nat.zero_le 1
        · obtain ⟨-, cs, -, hlive, -⟩ := hfolder o ho
          simp [entryOf, hlive.key]
      | some k =>
        rw [← liveFolders_eq_filter htree k]
        exact hone k
    exact nodup_map_of_key Entry.key hkey
  · refine List.Nodup.map_on (fun cs hcs ds hds heq => ?_) hnodup
    have hkeys : keyOf cs = keyOf ds := Option.some.inj (congrArg Entry.key heq)
    exact (keyOf_inj (hF.solid_of_isDir ((hdirs cs).mp hcs))
      (hF.solid_of_isDir ((hdirs ds).mp hds))).mp hkeys
  · intro o ho
    obtain ⟨hobj, cs, hdir, hlive, hangs⟩ := hfolder o ho
    exact ⟨cs, (hdirs cs).mpr hdir, entryOf_folder htree.ids hempty hobj hlive hangs⟩
  · intro cs hcs
    have hdir := (hdirs cs).mp hcs
    obtain ⟨o, ho, hlive, hangs⟩ := htree.exists_folder hF hone hdir (hthere cs hdir)
    have hin : o ∈ liveFolders objs (keyOf cs) := by
      rw [ho]
      exact List.mem_singleton.mpr rfl
    obtain ⟨hcarrier, hfold⟩ := mem_liveFolders.mp hin
    obtain ⟨hobj, -, hkey⟩ := mem_carriers.mp hcarrier
    exact ⟨o, List.mem_filter.mpr ⟨mem_synced.mpr ⟨hobj, by rw [hkey]; simp⟩, hfold⟩,
      entryOf_folder htree.ids hempty hobj hlive hangs⟩

omit [Base64] in
/-- The entries are those of the folders and those of the files. -/
theorem entries_perm (objs : List Obj) : (entries objs).Perm
    (((synced objs).filter Obj.isFolder).map (entryOf objs) ++
      (plainSynced objs).map (entryOf objs)) := by
  have hplain : plainSynced objs = (synced objs).filter fun o => !o.isFolder := by
    rw [plainSynced, synced, List.filter_filter]
    exact List.filter_congr fun o _ => Bool.and_comm _ _
  rw [entries, hplain, ← List.map_append]
  exact ((List.filter_append_perm _ _).map _).symm

variable {ω : Schedule} (hω : Quiet ω) (filters : List Str) (checks : Bool)

include hω

/-- **The drive has what it is to have.** -/
theorem entries_run {objs : List Obj} (hobjs : Unsynced objs) {actions : List Action}
    (hnormal : Normal actions) (hclash : NoClash actions) (hpresent : Present actions) :
    (entries (run ω filters checks objs actions).world.objs).Perm
      (mirrorOf (uploadedFiles actions)) := by
  have hmirrored := mirrored_run hω filters checks hobjs hnormal hclash hpresent List.prefix_rfl
  have hgrows := run_grows ω filters checks objs actions
  have htree : Tree (Files actions) (run ω filters checks objs actions).world.objs :=
    tree_run ω filters checks hobjs hnormal hclash hgrows.starts_with List.prefix_rfl
  have hone : AtMostOne (run ω filters checks objs actions).world.objs := by
    refine atMostOne_of_grows hω.faultless hgrows fun k => ?_
    rw [liveFolders_of_unsynced hobjs]
    exact Nat.zero_le 1
  have hfolders := folders_perm (fileSet_files hclash) htree hone
    (emptyFolders_of_grows hgrows hobjs) (List.nodup_dedup _)
    (fun _ => mem_directoriesFor hnormal) hmirrored.there
  have hfiles : (plainSynced (run ω filters checks objs actions).world.objs).map
      (entryOf (run ω filters checks objs actions).world.objs) =
        (uploadedFiles actions).map fileEntry := by
    rw [uploadedFiles, List.map_map]
    exact map_eq_map_of_forall₂ (hmirrored.files.imp fun u o h => entryOf_file htree.ids h)
  refine (entries_perm _).trans ?_
  rw [hfiles, mirrorOf]
  exact hfolders.append_right _

end Run

/-- **Runs that upload the same end with the same.**  Two runs from drives without synced
objects, under schedules in which nothing goes wrong, upload the same files with the same
content, in any order, with any restarts and losses of the cache in between, any ids and
orders of the drive, and any filters.  The paths have normal spellings strictly below the
watched directory, none is a directory above another, and the files are there.  Then both
drives have the entries that the uploads ask for, and so the same. -/
theorem drives_agree [Base64] (ω ω' : Schedule) (hω : Quiet ω) (hω' : Quiet ω')
    (filters filters' : List Str) (checks checks' : Bool) (objs objs' : List Obj)
    (hobjs : Unsynced objs) (hobjs' : Unsynced objs') (actions actions' : List Action)
    (hnormal : Normal actions) (hclash : NoClash actions) (hpresent : Present actions)
    (hsame : (uploadedFiles actions).Perm (uploadedFiles actions')) :
    (entries (run ω filters checks objs actions).world.objs).Perm
        (mirrorOf (uploadedFiles actions)) ∧
      (entries (run ω filters checks objs actions).world.objs).Perm
        (entries (run ω' filters' checks' objs' actions').world.objs) := by
  have hfirst := entries_run hω filters checks hobjs hnormal hclash hpresent
  have hsecond := entries_run hω' filters' checks' hobjs' (hnormal.of_perm hsame)
    (hclash.of_perm hsame) (hpresent.of_perm hsame)
  exact ⟨hfirst, (hfirst.trans (mirrorOf_perm hsame)).trans hsecond.symm⟩

/-- Two files in either order, once with a restart in between. -/
theorem drives_agree_reversed :
    let actions := uploadsOf [[str "a", str "f"], [str "a", str "b", str "g"]]
    let actions' := uploadsOf [[str "a", str "b", str "g"]] ++ .restart ::
      uploadsOf [[str "a", str "f"]]
    (entries (@run standardBase64 calm [] true [] actions).world.objs).Perm
        (@mirrorOf standardBase64 (uploadedFiles actions)) ∧
      (entries (@run standardBase64 calm [] true [] actions).world.objs).Perm
        (entries (@run standardBase64 calm [str "f"] false [] actions').world.objs) :=
  @drives_agree standardBase64 calm calm ⟨fun _ => rfl, fun _ => rfl, fun _ => rfl⟩
    ⟨fun _ => rfl, fun _ => rfl, fun _ => rfl⟩ [] [str "f"] true false [] []
    (by simp [Unsynced]) (by simp [Unsynced]) _ _
    (normal_uploadsOf (by decide +kernel))
    (noClash_uploadsOf (by decide +kernel) (by decide +kernel)) (by
      intro disk path h
      obtain ⟨cs, -, heq⟩ := List.mem_map.mp h
      rw [← (Action.upload.inj heq).1]
      simp [everyFile])
    (List.Perm.swap ..)

end PiDriveSync
