import PiDriveSync.Cache.Sound
import PiDriveSync.Tree.Duplicates
import PiDriveSync.Tree.WellFormed

/-!
# The drive mirrors the uploads

When nothing goes wrong, the drive holds one folder for each directory above an
uploaded file, and one object for each upload, where it belongs and with what was in
the file.

The tree is `Tree` of `PiDriveSync.Tree.WellFormed`, and that a directory has no second
folder is read off the additions.  What is left is that nothing is missing and nothing
panics: `WalkEnds.quiet` goes down the directories with the invariant that all those
behind have an object, so that the lookup of a parent never comes back empty.
-/

namespace PiDriveSync

open UnixPath Fallible

/-- Nothing goes wrong, on the drive or on the machine. -/
structure Quiet (ω : Schedule) : Prop where
  faultless : Faultless ω
  tempfile : ∀ t, (ω t).tempfile = true
  readable : ∀ t, (ω t).readable = true

/-- Every file is there when it is uploaded. -/
def Present (actions : List Action) : Prop :=
  ∀ disk path, Action.upload disk path ∈ actions → disk path ≠ none

/-- The uploads of a run, with the files on the disk at the time. -/
def uploadsIn (actions : List Action) : List (Disk × Str) :=
  actions.filterMap fun a => match a with
    | .upload disk path => some (disk, path)
    | _ => none

/-- The uploaded files on the drive. -/
def plainSynced (objs : List Obj) : List Obj :=
  objs.filter fun o => o.syncId.isSome && !o.isFolder

variable [Base64]

/-- The object of the file `f` in the directory `dirs`, uploaded from `disk`. -/
structure FileOf (objs : List Obj) (disk : Disk) (path : Str) (dirs : List Str) (f : Str)
    (o : Obj) : Prop where
  live : o.trashed = false
  plain : o.isFolder = false
  key : o.syncId = some (keyOf (dirs ++ [f]))
  name : o.name = some f
  parent : ∃ p ∈ objs, LiveFolder dirs p ∧ o.parents = [p.id]
  content : disk path = some o.content

/-- The object of an upload. -/
def ObjectOf (objs : List Obj) (u : Disk × Str) (o : Obj) : Prop :=
  ∃ dirs f, IsFilePath u.2 dirs f ∧ FileOf objs u.1 u.2 dirs f o

theorem ObjectOf.mono {objs objs' : List Obj} (hsub : objs ⊆ objs') {u : Disk × Str} {o : Obj}
    (h : ObjectOf objs u o) : ObjectOf objs' u o := by
  obtain ⟨dirs, f, hpath, hfile⟩ := h
  obtain ⟨p, hp, hrest⟩ := hfile.parent
  exact ⟨dirs, f, hpath, { hfile with parent := ⟨p, hsub hp, hrest⟩ }⟩

/-- The drive mirrors the uploads of a run: one folder for each directory, with its
name and below the folder of its parent directory; no other folders; and one object for
each upload. -/
structure Mirrors (actions : List Action) (objs : List Obj) : Prop where
  folder : ∀ cs, IsDir (Files actions) cs →
    ∃ o, liveFolders objs (keyOf cs) = [o] ∧ LiveFolder cs o ∧ HangsBelow objs cs o
  dir : ∀ o ∈ objs, o.isFolder = true → o.syncId ≠ none →
    ∃ cs, IsDir (Files actions) cs ∧ LiveFolder cs o
  files : List.Forall₂ (ObjectOf objs) (uploadsIn actions) (plainSynced objs)

/-! ## No second folder -/

theorem atMostOne_of_grows {ω : Schedule} (hω : Faultless ω) {U : Str → Prop}
    {objs objs' : List Obj} (h : Grows (Adds ω U) objs objs') (hobjs : AtMostOne objs) :
    AtMostOne objs' := by
  refine h.inv (P := AtMostOne) hobjs fun l o hl ho k => ?_
  have hk := hl k
  have hone : ∀ k', o.syncId = some k' → k' = k → carriers l k' = [] →
      (liveFolders (l ++ [o]) k).length ≤ 1 := by
    rintro k' - rfl hnone
    rw [liveFolders_append, liveFolders_eq_nil hnone, List.nil_append]
    exact List.length_filter_le _ _ |>.trans (List.length_filter_le _ _)
  have hother : o.isFolder = false ∨ o.syncId ≠ some k →
      (liveFolders (l ++ [o]) k).length ≤ 1 := by
    intro ho
    have hnone : liveFolders [o] k = [] := by
      rcases ho with ho | ho <;> simp [liveFolders, carriers, ho]
    rwa [liveFolders_append, hnone, List.append_nil]
  cases ho with
  | root n t hf hnone =>
    by_cases hkey : keyOf [] = k
    · exact hone _ newObj_folder_syncId hkey hnone
    · exact hother (Or.inr (by simpa using hkey))
  | @folder path done rest d f g n t s hpath hrel hlookup hpk =>
    by_cases hkey : keyOf (done ++ [d]) = k
    · refine hone _ newObj_folder_syncId hkey ?_
      rcases lookup_eq_none.mp hlookup with hf | hnone
      · exact absurd (hω _) hf
      · exact hnone
    · exact hother (Or.inr (by simpa using hkey))
  | file => exact hother (Or.inl newObj_file_isFolder)

/-! ## Nothing is missing -/

section Quiet

variable {ω : Schedule} {w w' : DriveWorld}

omit [Base64] in
/-- One directory, whose parent directory has an object. -/
theorem EnsureEnds.quiet (hω : Quiet ω) (hw : CacheSound w) {path k pk : Str}
    {r : Outcome SyncerErrors Unit} (hpk : carriers w.objs pk ≠ [])
    (h : EnsureEnds ω path k pk w r w') : r = .ok () ∧ carriers w'.objs k ≠ [] := by
  cases h with
  | hit v hv => exact ⟨rfl, hw.carriers_ne_nil (mem_of_left hv)⟩
  | found v _ hv =>
    obtain ⟨o, ho, -⟩ := mem_of_lookup hv
    exact ⟨rfl, List.ne_nil_of_mem ho⟩
  | orphan _ _ hnone =>
    rcases lookup_eq_none.mp hnone with hf | hnone
    · exact absurd (hω.faultless _) hf
    · exact absurd hnone hpk
  | create g r _ _ _ _ h =>
    rcases h.of_faultless hω.faultless with ⟨ht, -⟩ | ⟨o, rfl, ho, -⟩
    · exact absurd (hω.tempfile _) (by rw [ht]; simp)
    · exact ⟨rfl, List.ne_nil_of_mem ho⟩

/-- **The walk** does not panic, and every directory on it has an object after it. -/
theorem WalkEnds.quiet (hω : Quiet ω) (hw : CacheSound w) {done dirs : List Str}
    {r : Outcome SyncerErrors Unit} (hdone : carriers w.objs (keyOf done) ≠ [])
    (h : WalkEnds ω done dirs w r w') :
    r = .ok () ∧ ∀ l, l <+: dirs → carriers w'.objs (keyOf (done ++ l)) ≠ [] := by
  induction h with
  | nil =>
    refine ⟨rfl, fun l hl => ?_⟩
    rwa [List.prefix_nil.mp hl, List.append_nil]
  | stop h => exact absurd (h.quiet hω hw hdone).1 (by simp)
  | @cons done dirs d w w₁ w' r h rest ih =>
    obtain ⟨-, hhead⟩ := h.quiet hω hw hdone
    obtain ⟨hr, hrest⟩ := ih (h.cacheSound hw) hhead
    refine ⟨hr, fun l hl => ?_⟩
    cases l with
    | nil =>
      intro hnone
      rw [List.append_nil] at hnone
      have hpre := (h.growsByFolders.trans rest.growsByFolders).starts_with
      exact hdone (carriers_eq_nil_of_starts hpre hnone)
    | cons e l =>
      obtain ⟨rfl, hpre⟩ := List.cons_prefix_cons.mp hl
      have hnext := hrest l hpre
      rwa [List.append_assoc] at hnext

/-- **The file** goes below its directory. -/
theorem PlaceEnds.quiet (hω : Quiet ω) {path : Str} {dirs : List Str} {f : Str}
    (hpath : IsFilePath path dirs f) (hdisk : w.disk path ≠ none)
    (hparent : carriers w.objs (keyOf dirs) ≠ []) {r : Outcome SyncerErrors (Option Str)}
    (h : PlaceEnds ω path w r w') :
    ∃ o, r = .ok (some o.id) ∧ w'.objs = w.objs ++ [o] ∧ o.trashed = false ∧ o.isFolder = false ∧
      o.syncId = some (keyOf (dirs ++ [f])) ∧ o.name = some f ∧
      w.disk path = some o.content ∧ ∃ p ∈ carriers w.objs (keyOf dirs), o.parents = [p.id] := by
  have hread : ∀ t, readAt (ω t) w.disk path = w.disk path := by
    intro t
    rw [readAt, if_pos (hω.readable t)]
  cases h with
  | unnamed h => exact absurd hpath.placeKeys (h _ _)
  | unanswered _ _ _ hf => exact absurd (hω.faultless _) hf
  | noUid _ _ e _ _ hk => exact absurd hk (by rw [hpath.getUniqueId]; simp)
  | unreadable _ _ _ _ _ _ hnone => exact absurd ((hread _).symm.trans hnone) hdisk
  | vanished _ _ _ _ _ _ _ hnone => exact absurd ((hread _).symm.trans hnone) hdisk
  | rejected _ _ _ _ _ _ _ _ _ hc => exact absurd (hω.faultless _) (by rw [hc]; simp)
  | lost _ _ _ _ _ _ _ _ _ _ hc => exact absurd (hω.faultless _) (by rw [hc]; simp)
  | made name pk k content o hkeys hf hk _ hagain hc ho =>
    obtain ⟨rfl, rfl⟩ := hkeys.unique hpath.placeKeys
    rw [hpath.getUniqueId, Except.ok.injEq] at hk
    cases hpick : pick (ω w.tick) w.objs (keyOf dirs) with
    | none => exact absurd (pick_eq_none.mp hpick) hparent
    | some g =>
      obtain ⟨p, hp, hid⟩ := mem_of_pick hpick
      rw [hpick] at ho
      refine ⟨o, rfl, rfl, ?_, ?_, ?_, ?_, ?_, p, hp, ?_⟩
      · rw [ho, newObj_trashed]
      · rw [ho, newObj_file_isFolder]
      · rw [ho, newObj_file_syncId, hk]
      · rw [ho, newObj_name, fileRequest_name]
      · rw [← hread, hagain, ho, newObj_content]
      · rw [ho, newObj_file_parents, hid]
        rfl

omit [Base64] in
theorem EnsureEnds.disk_eq {path k pk : Str} {r : Outcome SyncerErrors Unit}
    (h : EnsureEnds ω path k pk w r w') : w'.disk = w.disk := by
  cases h with
  | hit | found | orphan => rfl
  | create _ _ _ _ _ _ h => cases h <;> rfl

theorem WalkEnds.disk_eq {done dirs : List Str} {r : Outcome SyncerErrors Unit}
    (h : WalkEnds ω done dirs w r w') : w'.disk = w.disk := by
  induction h with
  | nil => rfl
  | cons h _ ih => rw [ih, h.disk_eq]
  | stop h => exact h.disk_eq

/-- **An upload**: the directories, and then the file. -/
theorem UploadEnds.quiet (hω : Quiet ω) (hw : CacheSound w) {checks : Bool} {path : Str}
    {dirs : List Str} {f : Str} (hpath : IsFilePath path dirs f) (hdisk : w.disk path ≠ none)
    (hroot : carriers w.objs (keyOf []) ≠ []) {r : Outcome SyncerErrors (Option Str)}
    (h : UploadEnds ω checks path w r w') :
    ∃ mid o, r = .ok (some o.id) ∧ GrowsByFolders w.objs mid ∧ w'.objs = mid ++ [o] ∧
      (∀ l, l <+: dirs → carriers mid (keyOf l) ≠ []) ∧ o.trashed = false ∧ o.isFolder = false ∧
      o.syncId = some (keyOf (dirs ++ [f])) ∧ o.name = some f ∧ w.disk path = some o.content ∧
      ∃ p ∈ carriers mid (keyOf dirs), o.parents = [p.id] := by
  have hrel := hpath.relComponents
  cases h with
  | outside h => exact absurd (hrel.symm.trans h) (by simp)
  | rootChecked h => exact absurd (hrel.symm.trans h) (by simp)
  | root h => exact absurd (hrel.symm.trans h) (by simp)
  | @crashed dirs' f' h _ hwalk => exact absurd (hwalk.quiet hω hw hroot).1 (by simp)
  | @placed dirs' f' h w₁ _ _ hwalk hplace =>
    obtain ⟨rfl, -⟩ := List.append_inj' (Option.some.inj (hrel.symm.trans h)) rfl
    obtain ⟨-, hdirs⟩ := hwalk.quiet hω hw hroot
    rw [← hwalk.disk_eq] at hdisk ⊢
    obtain ⟨o, hr, hobjs, hrest⟩ :=
      hplace.quiet hω hpath hdisk (hdirs dirs List.prefix_rfl)
    exact ⟨w₁.objs, o, hr, hwalk.growsByFolders, hobjs, hdirs, hrest⟩

/-- **A start**: the root folder is there after it. -/
theorem StartEnds.quiet (hω : Quiet ω) {r : Outcome SyncerErrors Unit} (h : StartEnds ω w r w') :
    r = .ok () ∧ carriers w'.objs (keyOf []) ≠ [] := by
  cases h with
  | known v hv =>
    obtain ⟨o, ho, -⟩ := mem_of_lookup hv
    exact ⟨rfl, List.ne_nil_of_mem ho⟩
  | unanswered hf => exact absurd (hω.faultless _) hf
  | create _ _ _ _ h =>
    rcases h.of_faultless hω.faultless with ⟨ht, -⟩ | ⟨o, rfl, ho, -⟩
    · exact absurd (hω.tempfile _) (by rw [ht]; simp)
    · exact ⟨rfl, List.ne_nil_of_mem ho⟩

end Quiet

/-! ## Runs -/

omit [Base64] in
theorem uploads_snoc {pre : List Action} {a : Action} {path : Str} :
    Uploads (pre ++ [a]) path ↔ Uploads pre path ∨ ∃ disk, a = .upload disk path := by
  simp only [Uploads, List.mem_append, List.mem_singleton]
  constructor
  · rintro ⟨disk, h | h⟩
    · exact Or.inl ⟨disk, h⟩
    · exact Or.inr ⟨disk, h.symm⟩
  · rintro (⟨disk, h⟩ | ⟨disk, h⟩)
    · exact ⟨disk, Or.inl h⟩
    · exact ⟨disk, Or.inr h.symm⟩

omit [Base64] in
theorem plainSynced_of_folders {objs objs' : List Obj} (h : GrowsByFolders objs objs') :
    plainSynced objs' = plainSynced objs := by
  refine h.inv (P := fun l => plainSynced l = plainSynced objs) rfl fun l o hl ho => ?_
  simp only [plainSynced, List.filter_append] at hl ⊢
  simp [hl, ho]

/-- What has come of a run so far. -/
structure Mirrored (actions : List Action) (s : Daemon) : Prop where
  alive : s.alive = true
  there : ∀ cs, IsDir (Files actions) cs → carriers s.world.objs (keyOf cs) ≠ []
  files : List.Forall₂ (ObjectOf s.world.objs) (uploadsIn actions) (plainSynced s.world.objs)
  log : s.log = List.zipWith (fun u o => (u.2, .ok (some o.id))) (uploadsIn actions)
    (plainSynced s.world.objs)

namespace Mirrored

variable {pre : List Action} {s s' : Daemon}

/-- Nothing is uploaded, and only folders come in. -/
theorem idle (h : Mirrored pre s) {a : Action} (ha : ∀ disk path, a ≠ .upload disk path)
    (halive : s'.alive = true) (hlog : s'.log = s.log)
    (hgrows : GrowsByFolders s.world.objs s'.world.objs) : Mirrored (pre ++ [a]) s' where
  alive := halive
  there := by
    intro cs hcs hnone
    refine h.there cs ?_ (carriers_eq_nil_of_starts hgrows.starts_with hnone)
    rcases hcs with rfl | ⟨d, rest, hne, hnames, hup⟩
    · exact Or.inl rfl
    · rcases uploads_snoc.mp hup with hup | ⟨disk, rfl⟩
      · exact Or.inr ⟨d, rest, hne, hnames, hup⟩
      · exact absurd rfl (ha disk _)
  files := by
    have huploads : uploadsIn (pre ++ [a]) = uploadsIn pre := by
      cases a with
      | upload disk path => exact absurd rfl (ha disk path)
      | restart | expire => simp [uploadsIn]
    rw [huploads, plainSynced_of_folders hgrows]
    exact h.files.imp fun _ _ ho => ho.mono hgrows.starts_with.subset
  log := by
    have huploads : uploadsIn (pre ++ [a]) = uploadsIn pre := by
      cases a with
      | upload disk path => exact absurd rfl (ha disk path)
      | restart | expire => simp [uploadsIn]
    rw [huploads, plainSynced_of_folders hgrows, hlog, h.log]

end Mirrored

/-- The log and the files after one more upload. -/
theorem Mirrored.upload {pre : List Action} {s : Daemon} (hs : Mirrored pre s) {disk : Disk}
    {path : Str} {dirs : List Str} {f : Str} (hpath : IsFilePath path dirs f) {w' : DriveWorld}
    {mid : List Obj} {o : Obj} (hgrows : GrowsByFolders s.world.objs mid)
    (hobjs : w'.objs = mid ++ [o]) (hdirs : ∀ l, l <+: dirs → carriers mid (keyOf l) ≠ [])
    (hkey : o.syncId ≠ none) (hplain : o.isFolder = false)
    (ho : ObjectOf w'.objs (disk, path) o) :
    Mirrored (pre ++ [.upload disk path]) ⟨w', true, s.log ++ [(path, .ok (some o.id))]⟩ := by
  have huploads : uploadsIn (pre ++ [.upload disk path]) = uploadsIn pre ++ [(disk, path)] := by
    simp [uploadsIn]
  have hplains : plainSynced w'.objs = plainSynced s.world.objs ++ [o] := by
    rw [← plainSynced_of_folders hgrows, hobjs]
    simp [plainSynced, hplain, Option.isSome_iff_ne_none.mpr hkey]
  have hsub : s.world.objs ⊆ w'.objs := by
    rw [hobjs]
    exact (hgrows.starts_with.trans (List.prefix_append _ _)).subset
  have hlen : (uploadsIn pre).length = (plainSynced s.world.objs).length := hs.files.length_eq
  refine ⟨rfl, fun cs hcs hnone => ?_, ?_, ?_⟩
  · have hmid : carriers mid (keyOf cs) = [] :=
      carriers_eq_nil_of_starts (by rw [hobjs]; exact List.prefix_append _ _) hnone
    rcases hcs with rfl | ⟨d, rest, hne, hnames, hup⟩
    · exact hdirs [] List.nil_prefix hmid
    · rcases uploads_snoc.mp hup with hup | ⟨disk', heq⟩
      · exact hs.there cs (Or.inr ⟨d, rest, hne, hnames, hup⟩)
          (carriers_eq_nil_of_starts hgrows.starts_with hmid)
      · -- the directory is above the new file
        have hbelow : cs ++ d :: rest = dirs ++ [f] := by
          have hpaths := (Action.upload.inj heq).2
          rw [hpath.1] at hpaths
          exact (below_inj hpath.solid (fun c hc => (hnames c hc).toSolid) hpaths).symm
        refine hdirs cs ?_ hmid
        have hpre : cs <+: dirs ++ [f] := ⟨d :: rest, hbelow⟩
        rcases List.prefix_concat_iff.mp hpre with heq | hpre
        · have hlen := congrArg List.length hbelow
          rw [heq] at hlen
          simp at hlen
        · exact hpre
  · show List.Forall₂ (ObjectOf w'.objs) _ (plainSynced w'.objs)
    rw [huploads, hplains]
    exact List.rel_append (hs.files.imp fun _ _ ho => ho.mono hsub) (.cons ho .nil)
  · show s.log ++ _ = List.zipWith _ _ (plainSynced w'.objs)
    rw [huploads, hplains, List.zipWith_append hlen, hs.log]
    rfl

section Runs

variable {ω : Schedule} (hω : Quiet ω) (filters : List Str) (checks : Bool)

include hω

theorem mirrored_start {objs : List Obj} (hobjs : Unsynced objs) :
    Mirrored [] (run ω filters checks objs []) := by
  obtain ⟨r, w', hstart, he⟩ := start_ends ω filters checks (.fresh objs) []
  rw [show run ω filters checks objs [] = _ from he]
  obtain ⟨rfl, hroot⟩ := hstart.quiet hω
  have hplain : plainSynced w'.objs = [] := by
    rw [plainSynced_of_folders hstart.growsByFolders, plainSynced, List.filter_eq_nil_iff]
    intro o ho
    simp [hobjs o ho]
  refine ⟨rfl, fun cs hcs => ?_, ?_, ?_⟩
  · rcases hcs with rfl | ⟨d, rest, -, -, disk, hmem⟩
    · exact hroot
    · simp at hmem
  · show List.Forall₂ (ObjectOf w'.objs) _ (plainSynced w'.objs)
    rw [hplain]
    exact .nil
  · show [] = List.zipWith _ _ (plainSynced w'.objs)
    rw [hplain]
    rfl

/-- **A step.** -/
theorem Mirrored.step {F : List Str → Prop} (hF : FileSet F) {pre : List Action} {s : Daemon}
    (hs : Mirrored pre s) (hsound : CacheSound s.world) {a : Action}
    (htree : Tree F (s.step ω filters checks a).world.objs)
    (ha : ∀ disk path, a = .upload disk path →
      disk path ≠ none ∧ ∃ dirs f, IsFilePath path dirs f ∧ F (dirs ++ [f])) :
    Mirrored (pre ++ [a]) (s.step ω filters checks a) := by
  obtain ⟨s', hstep, he⟩ := step_ends ω filters checks s a
  rw [he] at htree ⊢
  cases hstep with
  | ignored _ _ hdead => exact absurd (hdead.symm.trans hs.alive) (by simp)
  | expire gone => exact hs.idle (by simp) hs.alive rfl .refl
  | restart hstart =>
    obtain ⟨rfl, -⟩ := hstart.quiet hω
    exact hs.idle (by simp) rfl rfl hstart.growsByFolders
  | @upload disk path _ _ w' hend =>
    obtain ⟨hdisk, dirs, f, hpath, hfile⟩ := ha disk path rfl
    obtain ⟨mid, o, rfl, hgrows, hnew, hdirs, hlive, hplain, hkey, hname, hcontent, p, hp,
      hparent⟩ := hend.quiet hω (hsound.withDisk disk) hpath hdisk (hs.there [] (Or.inl rfl))
    refine hs.upload hpath hgrows hnew hdirs (by rw [hkey]; simp) hplain
      ⟨dirs, f, hpath, hlive, hplain, hkey, hname, ?_, hcontent⟩
    -- what carries the id of the directory is its folder
    obtain ⟨hpmem, -, hpkey⟩ := mem_carriers.mp hp
    have hpmem' : p ∈ w'.objs := by
      rw [hnew]
      exact List.mem_append_left _ hpmem
    exact ⟨p, hpmem', (htree.hangs_of_dir hF (Or.inr ⟨f, [], hfile⟩) hpmem' hpkey).1, hparent⟩

theorem mirrored_run {objs : List Obj} (hobjs : Unsynced objs) {actions : List Action}
    (hnormal : Normal actions) (hclash : NoClash actions) (hpresent : Present actions)
    {pre : List Action} (hpre : pre <+: actions) :
    Mirrored pre (run ω filters checks objs pre) := by
  induction pre using List.reverseRecOn with
  | nil => exact mirrored_start hω filters checks hobjs
  | append_singleton pre a ih =>
    have htree : Tree (Files actions) (run ω filters checks objs (pre ++ [a])).world.objs := by
      obtain ⟨rest, rfl⟩ := hpre
      exact tree_run ω filters checks hobjs hnormal hclash (run_grows ..).starts_with
        (run_starts_with ..)
    rw [run_snoc] at htree ⊢
    refine (ih ((List.prefix_append _ _).trans hpre)).step hω filters checks
      (fileSet_files hclash) (cacheSound_run ω filters checks objs pre) htree ?_
    rintro disk path rfl
    have hmem : Action.upload disk path ∈ actions := hpre.subset (by simp)
    exact ⟨hpresent disk path hmem, files_of_uploads hnormal ⟨disk, hmem⟩⟩

end Runs

/-- A directory with an object has one folder, and it hangs where it should. -/
theorem Tree.exists_folder {F : List Str → Prop} (hF : FileSet F) {objs : List Obj}
    (h : Tree F objs) (hone : AtMostOne objs) {cs : List Str} (hcs : IsDir F cs)
    (hthere : carriers objs (keyOf cs) ≠ []) :
    ∃ o, liveFolders objs (keyOf cs) = [o] ∧ LiveFolder cs o ∧ HangsBelow objs cs o := by
  obtain ⟨o, ho⟩ := List.exists_mem_of_ne_nil _ hthere
  obtain ⟨hmem, -, hkey⟩ := mem_carriers.mp ho
  obtain ⟨hfolder, hangs⟩ := h.hangs_of_dir hF hcs hmem hkey
  have hin : o ∈ liveFolders objs (keyOf cs) := mem_liveFolders.mpr ⟨ho, hfolder.folder⟩
  obtain ⟨p, hp⟩ := List.length_eq_one_iff.mp
    (Nat.le_antisymm (hone (keyOf cs)) (List.length_pos_of_mem hin))
  rw [hp] at hin ⊢
  rw [List.mem_singleton.mp hin] at hfolder hangs
  exact ⟨p, rfl, hfolder, hangs⟩

/-- **The drive mirrors the uploads.**  In a run in which nothing goes wrong, no step
panics, each upload returns the id of its object, and in the end there is one folder
for each directory and one object for each upload. -/
theorem mirrors_run (ω : Schedule) (hω : Quiet ω) (filters : List Str) (checks : Bool)
    (objs : List Obj) (hobjs : Unsynced objs) (actions : List Action) (hnormal : Normal actions)
    (hclash : NoClash actions) (hpresent : Present actions) :
    let s := run ω filters checks objs actions
    (∀ pre, pre <+: actions → (run ω filters checks objs pre).alive = true) ∧
      s.log = List.zipWith (fun u o => (u.2, .ok (some o.id))) (uploadsIn actions)
        (plainSynced s.world.objs) ∧
      Mirrors actions s.world.objs := by
  intro s
  have hall := fun pre (hpre : pre <+: actions) =>
    mirrored_run hω filters checks hobjs hnormal hclash hpresent hpre
  have hs : Mirrored actions s := hall actions List.prefix_rfl
  have hgrows := run_grows ω filters checks objs actions
  have htree : Tree (Files actions) s.world.objs :=
    tree_run ω filters checks hobjs hnormal hclash hgrows.starts_with List.prefix_rfl
  have hone : AtMostOne s.world.objs := by
    refine atMostOne_of_grows hω.faultless hgrows fun k => ?_
    rw [liveFolders_of_unsynced hobjs]
    exact Nat.zero_le _
  refine ⟨fun pre hpre => (hall pre hpre).alive, hs.log, fun cs hcs => ?_, ?_, hs.files⟩
  · exact htree.exists_folder (fileSet_files hclash) hone hcs (hs.there cs hcs)
  · intro o ho hfold hsynced
    cases htree.synced o ho hsynced with
    | folder hdir hfolder _ => exact ⟨_, hdir, hfolder⟩
    | file _ _ plain => exact absurd plain (by rw [hfold]; simp)

omit [Base64] in
/-- Two files, one of them in a directory of its own. -/
theorem mirrors_run_calm :
    let actions := uploadsOf [[str "a", str "f"], [str "a", str "b", str "g"]]
    let s := @run standardBase64 calm [] true [] actions
    (∀ pre, pre <+: actions → (@run standardBase64 calm [] true [] pre).alive = true) ∧
      s.log = List.zipWith (fun u o => (u.2, .ok (some o.id))) (uploadsIn actions)
        (plainSynced s.world.objs) ∧
      @Mirrors standardBase64 actions s.world.objs :=
  @mirrors_run standardBase64 calm ⟨fun _ => rfl, fun _ => rfl, fun _ => rfl⟩ [] true []
    (by simp [Unsynced]) _ (normal_uploadsOf (by decide +kernel))
    (noClash_uploadsOf (by decide +kernel) (by decide +kernel)) (by
      intro disk path h
      obtain ⟨cs, -, heq⟩ := List.mem_map.mp h
      rw [← (Action.upload.inj heq).1]
      simp [everyFile])

end PiDriveSync
