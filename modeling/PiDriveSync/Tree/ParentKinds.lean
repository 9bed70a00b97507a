import PiDriveSync.Provider.Calm
import PiDriveSync.Provider.Record

/-!
# Files as parents

Files and folders share their unique ids, and a lookup does not ask for a folder.  When
a path was uploaded as a file and is a directory later, the lookup of the directory
comes back with the file, and the file becomes a parent.

`parents_are_folders` says that this is all that can go wrong in a run without
failures: if, at the start of each upload that a live process makes, the lookups whose
answers it will use have folders only to choose from, then every parent in a request is a
folder.
-/

namespace PiDriveSync

open UnixPath Fallible

/-- The id of a synced folder. -/
def IsFolderId (objs : List Obj) (i : Str) : Prop :=
  ∃ o ∈ objs, o.id = i ∧ o.isFolder = true ∧ o.syncId ≠ none

theorem IsFolderId.mono {objs objs' : List Obj} {i : Str} (h : IsFolderId objs i)
    (hsub : objs ⊆ objs') : IsFolderId objs' i := by
  obtain ⟨o, ho, hrest⟩ := h
  exact ⟨o, hsub ho, hrest⟩

/-- Every parent in a request so far is a folder. -/
def FolderParents (w : DriveWorld) : Prop :=
  ∀ req ∈ requests w.trace, ∀ p ∈ req.parents.getD [], IsFolderId w.objs p

/-- What stands for a directory is a folder. -/
def OnlyFolders (objs : List Obj) (k : Str) : Prop :=
  ∀ o ∈ carriers objs k, o.isFolder = true

/-- The lookups whose answers an upload will use have folders only to choose from: that
of the parent directory, and that of a directory above one that has no object yet. -/
def ParentsKnown [Base64] (objs : List Obj) (path : Str) : Prop :=
  (∀ done d rest f, relComponents path = some (done ++ d :: rest ++ [f]) →
    carriers objs (keyOf (done ++ [d])) = [] → OnlyFolders objs (keyOf done)) ∧
  ∀ name pk, PlaceKeys path name pk → OnlyFolders objs pk

theorem parentsKnown_of_folders [Base64] {objs : List Obj} (h : ∀ o ∈ objs, o.isFolder = true)
    (path : Str) : ParentsKnown objs path :=
  ⟨fun _ _ _ _ _ _ o ho => h o (mem_carriers.mp ho).1,
    fun _ _ _ o ho => h o (mem_carriers.mp ho).1⟩

theorem OnlyFolders.grows {objs objs' : List Obj} {k : Str} (h : OnlyFolders objs k)
    (hgrows : GrowsByFolders objs objs') : OnlyFolders objs' k := by
  refine hgrows.inv (P := fun l => OnlyFolders l k) h fun l o hl ho p hp => ?_
  rw [carriers_append] at hp
  rcases List.mem_append.mp hp with hp | hp
  · exact hl p hp
  · rw [List.mem_singleton.mp (mem_carriers.mp hp).1]
    exact ho

/-- A lookup among folders finds a folder. -/
theorem OnlyFolders.isFolderId {objs : List Obj} {k : Str} (h : OnlyFolders objs k) {m : Moment}
    {i : Str} (hi : pick m objs k = some i) : IsFolderId objs i := by
  obtain ⟨o, ho, hid⟩ := mem_of_pick hi
  obtain ⟨hmem, -, hk⟩ := mem_carriers.mp ho
  exact ⟨o, hmem, hid, h o ho, by rw [hk]; simp⟩

namespace FolderParents

variable {w w' : DriveWorld}

/-- Nothing is asked for, and nothing taken away. -/
theorem of_idle (h : FolderParents w) (hreq : requests w'.trace = requests w.trace)
    (hobjs : w.objs ⊆ w'.objs) : FolderParents w' := by
  intro req hmem p hp
  rw [hreq] at hmem
  exact (h req hmem p hp).mono hobjs

/-- One more request, for folders that are on the drive. -/
theorem of_request (h : FolderParents w) {req : File}
    (hreq : requests w'.trace = requests w.trace ++ [req]) (hobjs : w.objs ⊆ w'.objs)
    (hparents : ∀ p ∈ req.parents.getD [], IsFolderId w.objs p) : FolderParents w' := by
  intro req' hmem p hp
  rw [hreq] at hmem
  rcases List.mem_append.mp hmem with hmem | hmem
  · exact (h req' hmem p hp).mono hobjs
  · rw [List.mem_singleton.mp hmem] at hp
    exact (hparents p hp).mono hobjs

end FolderParents

variable {ω : Schedule} {w w' : DriveWorld}

theorem CreateEnds.folderParents {path k : Str} {parentId : Option Str}
    {r : Outcome SyncerErrors (Option Str)} (hw : FolderParents w)
    (hparents : ∀ p ∈ parentId, IsFolderId w.objs p) (h : CreateEnds ω path k parentId w r w') :
    FolderParents w' := by
  have hreq : ∀ p ∈ (folderRequest path parentId k).parents.getD [], IsFolderId w.objs p := by
    intro p hp
    cases parentId with
    | none => simp [folderRequest] at hp
    | some g =>
      have hpg : p = g := by simpa [folderRequest] using hp
      exact hparents p (by rw [hpg]; rfl)
  cases h with
  | noTempfile => exact hw.of_idle (by simp) (fun _ ho => ho)
  | rejected => exact hw.of_request (by simp) (fun _ ho => ho) hreq
  | made | lost => exact hw.of_request (by simp) (List.subset_append_left _ _) hreq

/-- **One directory.** -/
theorem EnsureEnds.folderParents (hω : Faultless ω) {path k pk : Str}
    {r : Outcome SyncerErrors Unit} (hw : FolderParents w)
    (hparents : carriers w.objs k = [] → OnlyFolders w.objs pk)
    (h : EnsureEnds ω path k pk w r w') : FolderParents w' := by
  cases h with
  | hit | found | orphan => exact hw.of_idle (by simp) (fun _ ho => ho)
  | create g r _ miss hk hpk h =>
    have hnone : carriers w.objs k = [] := by
      rcases lookup_eq_none.mp hk with hf | hnone
      · exact absurd (hω _) hf
      · exact hnone
    rw [lookup, if_pos (hω _)] at hpk
    have hasked : FolderParents (((w.looked (ω w.tick) k).sought ω k).sought ω pk) :=
      hw.of_idle (by simp) (fun _ ho => ho)
    refine CreateEnds.folderParents hasked (fun p hp => ?_) h
    rw [← Option.some.inj hp]
    exact (hparents hnone).isFolderId hpk

variable [Base64]

/-- What a walk that started on the drive `start` keeps. -/
structure FoldersSince (start : List Obj) (w : DriveWorld) : Prop where
  parents : FolderParents w
  grows : GrowsByFolders start w.objs

/-- In the course of a walk over `dirs` below `done`, a directory without an object has
folders only above it. -/
def WalkKnown (start : List Obj) (done dirs : List Str) : Prop :=
  ∀ l d rest, dirs = l ++ d :: rest → carriers start (keyOf (done ++ l ++ [d])) = [] →
    OnlyFolders start (keyOf (done ++ l))

theorem WalkKnown.rest {start : List Obj} {done dirs : List Str} {d : Str}
    (h : WalkKnown start done (d :: dirs)) : WalkKnown start (done ++ [d]) dirs := by
  intro l e rest hdirs hnone
  have honly := h (d :: l) e rest (by rw [hdirs]; rfl) (by simpa using hnone)
  simpa using honly

/-- One directory of the walk. -/
theorem EnsureEnds.foldersSince (hω : Faultless ω) {start : List Obj} {done dirs : List Str}
    {path d : Str} {r : Outcome SyncerErrors Unit}
    (h : EnsureEnds ω path (keyOf (done ++ [d])) (keyOf done) w r w')
    (hknown : WalkKnown start done (d :: dirs)) (hw : FoldersSince start w) :
    FoldersSince start w' := by
  have honly : carriers w.objs (keyOf (done ++ [d])) = [] → OnlyFolders w.objs (keyOf done) := by
    intro hnone
    have hstart := hknown [] d dirs rfl (by
      rw [List.append_nil]
      exact carriers_eq_nil_of_starts hw.grows.starts_with hnone)
    rw [List.append_nil] at hstart
    exact hstart.grows hw.grows
  exact ⟨h.folderParents hω hw.parents honly, hw.grows.trans h.growsByFolders⟩

/-- **The walk.** -/
theorem WalkEnds.foldersSince (hω : Faultless ω) {start : List Obj} {done dirs : List Str}
    {r : Outcome SyncerErrors Unit} (h : WalkEnds ω done dirs w r w')
    (hknown : WalkKnown start done dirs) (hw : FoldersSince start w) : FoldersSince start w' := by
  induction h with
  | nil => exact hw
  | stop h => exact h.foldersSince hω hknown hw
  | cons h _ ih => exact ih hknown.rest (h.foldersSince hω hknown hw)

theorem PlaceEnds.folderParents (hω : Faultless ω) {path : Str}
    {r : Outcome SyncerErrors (Option Str)} (h : PlaceEnds ω path w r w') (hw : FolderParents w)
    (hparents : ∀ name pk, PlaceKeys path name pk → OnlyFolders w.objs pk) : FolderParents w' := by
  cases h with
  | unnamed => exact hw
  | unanswered | noUid | unreadable | vanished => exact hw.of_idle (by simp) (fun _ ho => ho)
  | rejected _ _ _ _ _ _ _ _ _ hc => exact absurd (hω _) (by rw [hc]; simp)
  | lost _ _ _ _ _ _ _ _ _ _ hc => exact absurd (hω _) (by rw [hc]; simp)
  | made name pk k content o hkeys hf hk _ _ _ _ =>
    refine hw.of_request (show _ = _ ++ [fileRequest name (pick (ω w.tick) w.objs pk) k] by
      simp [World.opened]) (List.subset_append_left _ _) fun p hp => ?_
    cases hpick : pick (ω w.tick) w.objs pk with
    | none => simp [fileRequest, hpick] at hp
    | some g =>
      have hpg : p = g := by simpa [fileRequest, hpick] using hp
      rw [hpg]
      exact (hparents name pk hkeys).isFolderId hpick

/-- **An upload.** -/
theorem UploadEnds.folderParents (hω : Faultless ω) {checks : Bool} {path : Str}
    {r : Outcome SyncerErrors (Option Str)} (h : UploadEnds ω checks path w r w')
    (hw : FolderParents w) (hknown : ParentsKnown w.objs path) : FolderParents w' := by
  obtain ⟨hdirs, hfile⟩ := hknown
  have hstart : FoldersSince w.objs w := ⟨hw, .refl⟩
  have hwalk : ∀ {dirs : List Str} {f : Str}, relComponents path = some (dirs ++ [f]) →
      WalkKnown w.objs [] dirs := by
    intro dirs f hrel l d rest hl hnone
    rw [hl] at hrel
    exact hdirs l d rest f hrel hnone
  cases h with
  | outside | rootChecked => exact hw
  | root _ _ hp => exact hp.folderParents hω hw hfile
  | crashed hrel h => exact (h.foldersSince hω (hwalk hrel) hstart).parents
  | placed hrel h hp =>
    have hw₁ := h.foldersSince hω (hwalk hrel) hstart
    exact hp.folderParents hω hw₁.parents fun name pk hkeys => (hfile name pk hkeys).grows hw₁.grows

theorem StartEnds.folderParents {r : Outcome SyncerErrors Unit} (h : StartEnds ω w r w')
    (hw : FolderParents w) : FolderParents w' := by
  have hasked : FolderParents (w.sought ω (keyOf [])) := hw.of_idle (by simp) (fun _ ho => ho)
  cases h with
  | known | unanswered => exact hasked
  | create _ _ _ _ h => exact CreateEnds.folderParents hasked (by simp) h

/-- **When parents are folders.**  In a run without failures, every parent in a request
designates a folder if each upload finds folders only where it looks for parents.  A
process that has panicked makes no uploads. -/
theorem parents_are_folders (ω : Schedule) (hω : Faultless ω) (filters : List Str) (checks : Bool)
    (objs : List Obj) (hobjs : Unsynced objs) (actions : List Action)
    (hknown : ∀ pre disk path, pre ++ [.upload disk path] <+: actions →
      (run ω filters checks objs pre).alive = true →
        ParentsKnown (run ω filters checks objs pre).world.objs path) :
    let s := run ω filters checks objs actions
    ∀ req ∈ requests s.world.trace, ∀ p ∈ req.parents.getD [],
      ∃ o ∈ s.world.objs, o.id = p ∧ o.isFolder = true ∧ ∀ q ∈ s.world.objs, q.id = p → q = o := by
  have hall : FolderParents (run ω filters checks objs actions).world := by
    induction actions using List.reverseRecOn with
    | nil =>
      obtain ⟨r, w', hstart, he⟩ := start_ends ω filters checks (.fresh objs) []
      rw [show run ω filters checks objs [] = _ from he]
      exact hstart.folderParents fun req hreq => by simp [World.fresh, World.withCache] at hreq
    | append_singleton pre a ih =>
      have hpre := ih fun pre' disk path h =>
        hknown pre' disk path (h.trans (List.prefix_append _ _))
      obtain ⟨s', hstep, he⟩ := step_ends ω filters checks (run ω filters checks objs pre) a
      rw [run_snoc, he]
      cases hstep with
      | ignored | expire => exact hpre
      | restart h => exact h.folderParents hpre
      | upload disk path halive h =>
        exact h.folderParents hω hpre (hknown pre disk path List.prefix_rfl halive)
  intro s req hreq p hp
  obtain ⟨o, ho, hid, hfolder, hsynced⟩ := hall req hreq p hp
  have hids : SyncedIds s.world.objs := syncedIds_run ω filters checks actions hobjs
  exact ⟨o, ho, hid, hfolder, fun q hq hqid => hids q hq o ho hsynced (hqid.trans hid.symm)⟩

omit [Base64] in
/-- One file in a directory. -/
theorem parents_are_folders_calm :
    let s := @run standardBase64 calm [] true [] (uploadsOf [[str "a", str "f"]])
    ∀ req ∈ requests s.world.trace, ∀ p ∈ req.parents.getD [],
      ∃ o ∈ s.world.objs, o.id = p ∧ o.isFolder = true ∧
        ∀ q ∈ s.world.objs, q.id = p → q = o :=
  @parents_are_folders standardBase64 calm (fun _ => rfl) [] true [] (by simp [Unsynced]) _ (by
    intro pre disk path hpre _
    have hlen := hpre.length_le
    have hnil : pre = [] := by
      rw [List.length_append, uploadsOf, List.length_map] at hlen
      exact List.eq_nil_of_length_eq_zero (by simpa using hlen)
    rw [hnil]
    exact @parentsKnown_of_folders standardBase64 _ (by decide +kernel) path)

omit [Base64] in
/-- The path `a` is uploaded as a file, and then `a/b`: the request for `b` has the file
`a` for a parent. -/
theorem file_becomes_parent :
    let s := @run standardBase64 calm [] true [] (uploadsOf [[str "a"], [str "a", str "b"]])
    ∃ req ∈ requests s.world.trace, ∃ p ∈ req.parents.getD [],
      ∃ o ∈ s.world.objs, o.id = p ∧ o.isFolder = false := by
  decide +kernel

end PiDriveSync
