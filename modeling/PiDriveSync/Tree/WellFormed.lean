import PiDriveSync.Provider.Additions
import PiDriveSync.Provider.Calm

/-!
# The folder tree is well formed, whatever fails

In a run on paths in normal spelling, none of which is used both as a file and as a
directory, `Tree` holds of every list of objects the drive goes through: what carries
a `pi_sync_id` is the folder of a directory or an uploaded file, and a folder has the
parent its directory asks for.

The argument is one addition at a time.  A folder is asked for below an object that a
lookup of its parent directory came back with, so that object carries the id of the
parent directory; as no file has the id of a directory, it is a folder.  What failed
before, whether an answer was lost and what the cache says play no part in this.
-/

namespace PiDriveSync

open UnixPath Fallible

/-! ## Files and directories -/

/-- A directory of a run that uploads the files `F`: the root, or an ancestor of a
file. -/
def IsDir (F : List Str → Prop) (cs : List Str) : Prop :=
  cs = [] ∨ ∃ d rest, F (cs ++ d :: rest)

theorem IsDir.parent {F : List Str → Prop} {cs : List Str} {d : Str} (h : IsDir F (cs ++ [d])) :
    IsDir F cs := by
  rcases h with h | ⟨e, rest, h⟩
  · exact absurd h (by simp)
  · rw [List.append_assoc] at h
    exact Or.inr ⟨d, e :: rest, h⟩

/-- The files of a run: names, at least one, and no file is above another. -/
structure FileSet (F : List Str → Prop) : Prop where
  names : ∀ cs, F cs → ∀ c ∈ cs, IsName c
  nonempty : ∀ cs, F cs → cs ≠ []
  apart : ∀ cs ds, F cs → F ds → cs <+: ds → cs = ds

namespace FileSet

variable {F : List Str → Prop}

theorem solid (hF : FileSet F) {cs : List Str} (h : F cs) : ∀ c ∈ cs, Solid c :=
  fun c hc => (hF.names cs h c hc).toSolid

theorem solid_of_isDir (hF : FileSet F) {cs : List Str} (h : IsDir F cs) :
    ∀ c ∈ cs, Solid c := by
  rcases h with rfl | ⟨d, rest, h⟩
  · simp
  · exact fun c hc => hF.solid h c (List.mem_append_left _ hc)

/-- No file is a directory. -/
theorem not_isDir (hF : FileSet F) {cs : List Str} (h : F cs) : ¬ IsDir F cs := by
  rintro (rfl | ⟨d, rest, hd⟩)
  · exact hF.nonempty [] h rfl
  · have heq := hF.apart cs _ h hd (List.prefix_append _ _)
    exact absurd (List.self_eq_append_right.mp heq) (by simp)

end FileSet

/-! ## The tree -/

variable [Base64]

/-- The name of a directory. -/
def dirName (cs : List Str) : Str :=
  cs.getLastD driveRootFolder

/-- A folder outside the trash with the unique id and the name of a directory. -/
structure LiveFolder (cs : List Str) (o : Obj) : Prop where
  live : o.trashed = false
  folder : o.isFolder = true
  key : o.syncId = some (keyOf cs)
  name : o.name = some (dirName cs)

/-- The parents that the folder of a directory has to have. -/
inductive HangsBelow (objs : List Obj) : List Str → Obj → Prop
  | root {o : Obj} (h : o.parents = []) : HangsBelow objs [] o
  | dir {cs : List Str} {d : Str} {o p : Obj} (hp : p ∈ objs) (hfolder : LiveFolder cs p)
      (h : o.parents = [p.id]) : HangsBelow objs (cs ++ [d]) o

theorem HangsBelow.mono {objs objs' : List Obj} (hsub : objs ⊆ objs') {cs : List Str} {o : Obj}
    (h : HangsBelow objs cs o) : HangsBelow objs' cs o := by
  cases h with
  | root h => exact .root h
  | dir hp hfolder h => exact .dir (hsub hp) hfolder h

/-- What carries a `pi_sync_id`: the folder of a directory, or an uploaded file. -/
inductive Synced (F : List Str → Prop) (objs : List Obj) : Obj → Prop
  | folder {cs : List Str} {o : Obj} (hdir : IsDir F cs) (h : LiveFolder cs o)
      (hangs : HangsBelow objs cs o) : Synced F objs o
  | file {cs : List Str} {o : Obj} (hfile : F cs) (live : o.trashed = false)
      (plain : o.isFolder = false) (key : o.syncId = some (keyOf cs)) : Synced F objs o

/-- The drive holds a well formed tree. -/
structure Tree (F : List Str → Prop) (objs : List Obj) : Prop where
  ids : SyncedIds objs
  synced : ∀ o ∈ objs, o.syncId ≠ none → Synced F objs o

theorem Synced.mono {F : List Str → Prop} {objs objs' : List Obj} (hsub : objs ⊆ objs') {o : Obj}
    (h : Synced F objs o) : Synced F objs' o := by
  cases h with
  | folder hdir h hangs => exact .folder hdir h (hangs.mono hsub)
  | file hfile live plain key => exact .file hfile live plain key

namespace Tree

variable {F : List Str → Prop} {objs : List Obj}

/-- **Only folders carry the id of a directory**, and they hang where they should. -/
theorem hangs_of_dir (hF : FileSet F) (h : Tree F objs) {cs : List Str} (hcs : IsDir F cs)
    {o : Obj} (ho : o ∈ objs) (hk : o.syncId = some (keyOf cs)) :
    LiveFolder cs o ∧ HangsBelow objs cs o := by
  have hsynced := h.synced o ho (by rw [hk]; simp)
  cases hsynced with
  | folder hdir hfolder hangs =>
    have hkey := hfolder.key
    rw [hk, Option.some.injEq, keyOf_inj (hF.solid_of_isDir hcs) (hF.solid_of_isDir hdir)] at hkey
    rw [hkey]
    exact ⟨hfolder, hangs⟩
  | file hfile live plain key =>
    rw [hk, Option.some.injEq, keyOf_inj (hF.solid_of_isDir hcs) (hF.solid hfile)] at key
    rw [key] at hcs
    exact absurd hcs (hF.not_isDir hfile)

theorem of_unsynced (h : Unsynced objs) : Tree F objs where
  ids := fun _ _ p hp hne => absurd (h p hp) hne
  synced := fun o ho hne => absurd (h o ho) hne

/-- One more object under a new id. -/
theorem snoc (h : Tree F objs) {o : Obj} (hid : ∀ p ∈ objs, p.id ≠ o.id)
    (ho : Synced F objs o) : Tree F (objs ++ [o]) where
  ids := h.ids.snoc hid
  synced := by
    intro p hp hne
    refine Synced.mono (List.subset_append_left _ _) ?_
    rcases List.mem_append.mp hp with hp | hp
    · exact h.synced p hp hne
    · rw [List.mem_singleton.mp hp]
      exact ho

/-- **One addition keeps the tree.** -/
theorem adds (hF : FileSet F) {ω : Schedule} {U : Str → Prop}
    (hU : ∀ path, U path → ∃ dirs f, IsFilePath path dirs f ∧ F (dirs ++ [f]))
    (h : Tree F objs) {o : Obj} (ho : Adds ω U objs o) : Tree F (objs ++ [o]) := by
  cases ho with
  | root n t hf hnone =>
    have hname : fileName (below []) = some driveRootFolder := by decide +kernel
    exact h.snoc newObj_id_notMem (.folder (Or.inl rfl)
      ⟨rfl, by simp, by simp, by simp [hname, dirName]⟩ (.root (by simp)))
  | @folder path done rest d f g n t s hpath hrel hk hpk =>
    obtain ⟨dirs, f', hfile, hin⟩ := hU path hpath
    have hcomps := hfile.relComponents
    rw [hrel, Option.some.injEq] at hcomps
    -- the directory is above the file that is being uploaded
    have hdir : IsDir F (done ++ [d]) := by
      rw [← hcomps] at hin
      cases rest with
      | nil => exact Or.inr ⟨f, [], by simpa using hin⟩
      | cons e rest => exact Or.inr ⟨e, rest ++ [f], by simpa using hin⟩
    have hname : fileName (below (done ++ [d])) = some (dirName (done ++ [d])) := by
      have hnames : ∀ c ∈ done ++ d :: rest ++ [f], IsName c := hcomps ▸ hfile.isName
      rw [fileName_below (fun c hc => (hnames c (by simp [hc])).noSep) (hnames d (by simp))]
      simp [dirName]
    obtain ⟨p, hp, hpid⟩ := mem_of_lookup hpk
    obtain ⟨hpmem, -, hpkey⟩ := mem_carriers.mp hp
    obtain ⟨hpfolder, -⟩ := h.hangs_of_dir hF hdir.parent hpmem hpkey
    exact h.snoc newObj_id_notMem (.folder hdir ⟨rfl, by simp, by simp, by simp [hname]⟩
      (.dir hpmem hpfolder (by simp [hpid])))
  | @file path name pk k content n t hpath hkeys hk hf =>
    obtain ⟨dirs, f, hfile, hin⟩ := hU path hpath
    rw [hfile.getUniqueId, Except.ok.injEq] at hk
    exact h.snoc newObj_id_notMem (.file hin rfl rfl (by simp [hk]))

end Tree

/-! ## Following parents -/

/-- `Climbs objs n o r`: following parents from `o` for `n` steps, one gets to `r`. -/
inductive Climbs (objs : List Obj) : ℕ → Obj → Obj → Prop
  | zero (o : Obj) : Climbs objs 0 o o
  | succ {n : ℕ} {o p r : Obj} (hp : p ∈ objs) (hid : p.id ∈ o.parents) (h : Climbs objs n p r) :
      Climbs objs (n + 1) o r

namespace Tree

variable {F : List Str → Prop} {objs : List Obj}

/-- From the folder of a directory one gets to a root folder. -/
theorem climbs_to_root (hF : FileSet F) (h : Tree F objs) {cs : List Str} (hcs : IsDir F cs)
    {o : Obj} (ho : o ∈ objs) (hfolder : LiveFolder cs o) :
    ∃ r ∈ objs, Climbs objs cs.length o r ∧ LiveFolder [] r := by
  induction cs using List.reverseRecOn generalizing o with
  | nil => exact ⟨o, ho, .zero o, hfolder⟩
  | append_singleton cs d ih =>
    obtain ⟨-, hangs⟩ := h.hangs_of_dir hF hcs ho hfolder.key
    generalize hcd : cs ++ [d] = cd at hangs
    cases hangs with
    | root => exact absurd hcd (by simp)
    | @dir cs' d' _ p hp hpfolder hpar =>
      obtain ⟨rfl, -⟩ := List.append_inj' hcd rfl
      obtain ⟨r, hr, hclimb, hroot⟩ := ih hcs.parent hp hpfolder
      refine ⟨r, hr, ?_, hroot⟩
      rw [List.length_append, List.length_singleton]
      exact .succ hp (by simp [hpar]) hclimb

/-- However one climbs from the folder of a directory, the root comes after as many
steps as the directory lies below it, and not before. -/
theorem climbs_length (hF : FileSet F) (h : Tree F objs) {n : ℕ} {o r : Obj}
    (hclimb : Climbs objs n o r) {cs : List Str} (hcs : IsDir F cs) (ho : o ∈ objs)
    (hfolder : LiveFolder cs o) (hr : r.syncId = some (keyOf [])) : n = cs.length := by
  induction hclimb generalizing cs with
  | zero o =>
    have hkey := hfolder.key
    rw [hr, Option.some.injEq, keyOf_inj (by simp) (hF.solid_of_isDir hcs)] at hkey
    rw [← hkey, List.length_nil]
  | @succ n o p r hp hid hrest ih =>
    obtain ⟨-, hangs⟩ := h.hangs_of_dir hF hcs ho hfolder.key
    cases hangs with
    | root hpar => simp [hpar] at hid
    | @dir cs' d _ q hq hqfolder hpar =>
      rw [hpar, List.mem_singleton] at hid
      have hpq : p = q := h.ids p hp q hq (by simp [hqfolder.key]) hid
      rw [ih hcs.parent hp (hpq ▸ hqfolder) hr]
      simp

end Tree

/-! ## Every run -/

/-- The files of a run, by their components below the watched directory. -/
def Files (actions : List Action) (cs : List Str) : Prop :=
  cs ≠ [] ∧ (∀ c ∈ cs, IsName c) ∧ Uploads actions (below cs)

omit [Base64] in
theorem fileSet_files {actions : List Action} (hclash : NoClash actions) :
    FileSet (Files actions) where
  names := fun _ h => h.2.1
  nonempty := fun _ h => h.1
  apart := fun cs ds hcs hds hpre => hclash cs ds hds.2.1 hcs.2.2 hds.2.2 hpre

omit [Base64] in
theorem files_of_uploads {actions : List Action} (hnormal : Normal actions) {path : Str}
    (h : Uploads actions path) :
    ∃ dirs f, IsFilePath path dirs f ∧ Files actions (dirs ++ [f]) := by
  obtain ⟨disk, hmem⟩ := h
  obtain ⟨dirs, f, hfile⟩ := hnormal disk path hmem
  exact ⟨dirs, f, hfile, by simp, hfile.isName, disk, by rwa [← hfile.1]⟩

theorem tree_run (ω : Schedule) (filters : List Str) (checks : Bool) {objs : List Obj}
    {actions : List Action} (hobjs : Unsynced objs) (hnormal : Normal actions)
    (hclash : NoClash actions) {objs' : List Obj} (h₀ : objs <+: objs')
    (h : objs' <+: (run ω filters checks objs actions).world.objs) :
    Tree (Files actions) objs' := by
  refine ((run_grows ω filters checks objs actions).of_between h₀ h).inv
    (.of_unsynced hobjs) ?_
  intro l o hl ho
  exact hl.adds (fileSet_files hclash) (fun path hp => files_of_uploads hnormal hp) ho

/-- Each folder of a directory strictly below the root has one parent, which is a live
folder of the parent directory, and from it one gets to a root folder in as many steps
as the directory lies below the root. -/
def WellFormedTree (objs : List Obj) : Prop :=
  ∀ o ∈ objs, o.isFolder = true → ∀ (cs : List Str) (d : Str), (∀ c ∈ cs ++ [d], IsName c) →
    o.syncId = some (keyOf (cs ++ [d])) →
      (∃ p ∈ objs, o.parents = [p.id] ∧ LiveFolder cs p ∧ ∀ q ∈ objs, q.id = p.id → q = p) ∧
      (∃ r ∈ objs, Climbs objs (cs.length + 1) o r ∧ LiveFolder [] r) ∧
      ∀ n r, Climbs objs n o r → r.syncId = some (keyOf []) → n = cs.length + 1

/-- **The folder tree is well formed whatever fails**: in every list of objects that
the drive goes through in a run, with calls that fail with or without effect, panics
and restarts. -/
theorem wellFormedTree_run (ω : Schedule) (filters : List Str) (checks : Bool) (objs : List Obj)
    (actions : List Action) (hobjs : Unsynced objs) (hnormal : Normal actions)
    (hclash : NoClash actions) (objs' : List Obj) (h₀ : objs <+: objs')
    (h : objs' <+: (run ω filters checks objs actions).world.objs) : WellFormedTree objs' := by
  have hF := fileSet_files hclash
  have htree := tree_run ω filters checks hobjs hnormal hclash h₀ h
  intro o ho hfold cs d hnames hkey
  have hsolid : ∀ c ∈ cs ++ [d], Solid c := fun c hc => (hnames c hc).toSolid
  -- the object is a folder of a directory of the run
  have hdir : IsDir (Files actions) (cs ++ [d]) := by
    have hsynced := htree.synced o ho (by rw [hkey]; simp)
    cases hsynced with
    | folder hdir' hfolder hangs =>
      have hkey' := hfolder.key
      rw [hkey, Option.some.injEq, keyOf_inj hsolid (hF.solid_of_isDir hdir')] at hkey'
      rwa [hkey']
    | file hfile live plain key =>
      rw [hfold] at plain
      exact absurd plain (by simp)
  obtain ⟨hfolder, hangs⟩ := htree.hangs_of_dir hF hdir ho hkey
  refine ⟨?_, ?_, ?_⟩
  · generalize hcd : cs ++ [d] = cd at hangs
    cases hangs with
    | root => exact absurd hcd (by simp)
    | @dir cs' d' _ p hp hpfolder hpar =>
      obtain ⟨rfl, -⟩ := List.append_inj' hcd rfl
      exact ⟨p, hp, hpar, hpfolder,
        fun q hq hid => htree.ids q hq p hp (by simp [hpfolder.key]) hid⟩
  · obtain ⟨r, hr, hclimb, hroot⟩ := htree.climbs_to_root hF hdir ho hfolder
    rw [List.length_append, List.length_singleton] at hclimb
    exact ⟨r, hr, hclimb, hroot⟩
  · intro n r hclimb hr
    rw [htree.climbs_length hF hclimb hdir ho hfolder hr]
    simp

omit [Base64] in
/-- Two files, and the answer to the creation of the first folder lost on the way. -/
theorem wellFormedTree_run_lostReply :
    @WellFormedTree standardBase64 (@run standardBase64 (calmBut 7 .lost) [] true []
      (uploadsOf [[str "a", str "f"], [str "a", str "b", str "g"]])).world.objs :=
  @wellFormedTree_run standardBase64 (calmBut 7 .lost) [] true [] _
    (by simp [Unsynced])
    (normal_uploadsOf (by decide +kernel))
    (noClash_uploadsOf (by decide +kernel) (by decide +kernel)) _
    List.nil_prefix List.prefix_rfl

end PiDriveSync
