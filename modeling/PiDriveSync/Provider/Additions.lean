import PiDriveSync.Provider.Daemon
import PiDriveSync.Store.Growth

/-!
# What a run adds to the drive

Nothing in the client takes an object off the drive or changes one, so the drive only
grows.  `Adds` lists the three kinds of objects that come in: the root folder, the
folder of a directory on the way to an uploaded file, and a file.  Each constructor
says what the client had been told when it asked for the object: for a folder, that no
object came back for it and which object came back for its parent.

`run_grows` puts this together for whole runs, whatever goes wrong in them.
-/

namespace PiDriveSync

open UnixPath Fallible

/-! ## The objects that requests make -/

section Objects

variable {m : Moment} {objs : List Obj} {req : File} {content : Bytes}

theorem newObj_id_notMem : ∀ o ∈ objs, o.id ≠ (newObj m objs req content).id := by
  intro o ho heq
  have hfresh := m.ids.fresh_notMem (objs.map Obj.id)
  exact hfresh (List.mem_map.mpr ⟨o, ho, heq⟩)

@[simp] theorem newObj_trashed : (newObj m objs req content).trashed = false := rfl

@[simp] theorem newObj_content : (newObj m objs req content).content = content := rfl

@[simp] theorem newObj_name : (newObj m objs req content).name = req.name := rfl

@[simp] theorem folderRequest_name {path k : Str} {p : Option Str} :
    (folderRequest path p k).name = fileName path := rfl

@[simp] theorem fileRequest_name {name k : Str} {p : Option Str} :
    (fileRequest name p k).name = some name := rfl

@[simp] theorem newObj_folder_syncId {path k : Str} {p : Option Str} :
    (newObj m objs (folderRequest path p k) content).syncId = some k := by
  simp [newObj, Obj.ofRequest, Obj.syncId, Obj.property, folderRequest]

@[simp] theorem newObj_file_syncId {name k : Str} {p : Option Str} :
    (newObj m objs (fileRequest name p k) content).syncId = some k := by
  simp [newObj, Obj.ofRequest, Obj.syncId, Obj.property, fileRequest]

@[simp] theorem newObj_folder_isFolder {path k : Str} {p : Option Str} :
    (newObj m objs (folderRequest path p k) content).isFolder = true := by
  simp [newObj, Obj.ofRequest, Obj.isFolder, folderRequest]

@[simp] theorem newObj_file_isFolder {name k : Str} {p : Option Str} :
    (newObj m objs (fileRequest name p k) content).isFolder = false := rfl

@[simp] theorem newObj_folder_parents {path k : Str} {p : Option Str} :
    (newObj m objs (folderRequest path p k) content).parents = p.toList := by
  cases p <;> rfl

@[simp] theorem newObj_file_parents {name k : Str} {p : Option Str} :
    (newObj m objs (fileRequest name p k) content).parents = p.toList := by
  cases p <;> rfl

/-- A folder that was just made carries its unique id. -/
theorem mem_carriers_of_made {path k : Str} {p : Option Str} {o : Obj}
    (ho : o = newObj m objs (folderRequest path p k) content) (before : List Obj) :
    o ∈ carriers (before ++ [o]) k := by
  refine mem_carriers.mpr ⟨List.mem_append_right _ (List.mem_singleton.mpr rfl), ?_⟩
  rw [ho]
  exact ⟨newObj_trashed, newObj_folder_syncId⟩

end Objects

/-! ## Additions -/

/-- What can be added to a drive by a client that starts, and uploads the paths in
`U`. -/
inductive Adds [Base64] (ω : Schedule) (U : Str → Prop) (objs : List Obj) : Obj → Prop
  /-- The root folder, when a start finds none. -/
  | root (n t : ℕ) (hf : (ω t).fault = .none) (hnone : carriers objs (keyOf []) = []) :
      Adds ω U objs (newObj (ω n) objs (folderRequest (below []) none (keyOf [])) [])
  /-- The folder of a directory above an uploaded file, when no object came back for
  the directory and `g` came back for its parent. -/
  | folder {path : Str} {done rest : List Str} {d f g : Str} (n t s : ℕ) (hpath : U path)
      (hrel : relComponents path = some (done ++ d :: rest ++ [f]))
      (hk : lookup (ω t) objs (keyOf (done ++ [d])) = none)
      (hpk : lookup (ω s) objs (keyOf done) = some g) :
      Adds ω U objs (newObj (ω n) objs
        (folderRequest (below (done ++ [d])) (some g) (keyOf (done ++ [d]))) [])
  /-- An uploaded file, below what came back for its parent directory. -/
  | file {path name pk k : Str} {content : Bytes} (n t : ℕ) (hpath : U path)
      (hkeys : PlaceKeys path name pk) (hk : (SyncableFile.mk path).getUniqueId = .ok k)
      (hf : (ω t).fault = .none) :
      Adds ω U objs (newObj (ω n) objs (fileRequest name (pick (ω t) objs pk) k) content)

/-- The objects with a `pi_sync_id` are known by their ids. -/
def SyncedIds (objs : List Obj) : Prop :=
  ∀ o ∈ objs, ∀ p ∈ objs, p.syncId ≠ none → o.id = p.id → o = p

theorem SyncedIds.snoc {objs : List Obj} (h : SyncedIds objs) {o : Obj}
    (hid : ∀ p ∈ objs, p.id ≠ o.id) : SyncedIds (objs ++ [o]) := by
  intro p hp q hq hne heq
  rcases List.mem_append.mp hp with hp | hp <;> rcases List.mem_append.mp hq with hq | hq
  · exact h p hp q hq hne heq
  · rw [List.mem_singleton.mp hq] at heq
    exact absurd heq (hid p hp)
  · rw [List.mem_singleton.mp hp] at heq
    exact absurd heq.symm (hid q hq)
  · rw [List.mem_singleton.mp hp, List.mem_singleton.mp hq]

section Runs

variable [Base64] {ω : Schedule} {U : Str → Prop} {checks : Bool}

theorem Adds.id_notMem {objs : List Obj} {o : Obj} (h : Adds ω U objs o) :
    ∀ p ∈ objs, p.id ≠ o.id := by
  cases h <;> exact newObj_id_notMem

/-- Ids stay apart, whatever is added. -/
theorem SyncedIds.grows {objs objs' : List Obj} (h : SyncedIds objs)
    (hgrows : Grows (Adds ω U) objs objs') : SyncedIds objs' :=
  hgrows.inv h fun _ _ hl ho => hl.snoc ho.id_notMem

omit [Base64] in
/-- A creation adds the folder asked for, or nothing. -/
theorem CreateEnds.objs_cases {path k : Str} {parentId : Option Str} {w w' : DriveWorld}
    {r : Outcome SyncerErrors (Option Str)} (h : CreateEnds ω path k parentId w r w') :
    w'.objs = w.objs ∨
      ∃ n, w'.objs = w.objs ++ [newObj (ω n) w.objs (folderRequest path parentId k) []] := by
  cases h with
  | noTempfile | rejected => exact Or.inl rfl
  | made o ht hf ho | lost o ht hf ho => exact Or.inr ⟨w.tick + 1, by rw [ho]; rfl⟩

/-- The drive grows by folders. -/
abbrev GrowsByFolders (objs objs' : List Obj) : Prop :=
  Grows (fun _ o => o.isFolder = true) objs objs'

omit [Base64] in
theorem CreateEnds.growsByFolders {path k : Str} {parentId : Option Str} {w w' : DriveWorld}
    {r : Outcome SyncerErrors (Option Str)} (h : CreateEnds ω path k parentId w r w') :
    GrowsByFolders w.objs w'.objs := by
  rcases h.objs_cases with hobjs | ⟨n, hobjs⟩
  · rw [hobjs]
    exact .refl
  · rw [hobjs]
    exact .single newObj_folder_isFolder

omit [Base64] in
theorem EnsureEnds.growsByFolders {path k pk : Str} {w w' : DriveWorld}
    {r : Outcome SyncerErrors Unit} (h : EnsureEnds ω path k pk w r w') :
    GrowsByFolders w.objs w'.objs := by
  cases h with
  | hit | found | orphan => exact .refl
  | create _ _ _ _ _ _ h => exact h.growsByFolders

theorem WalkEnds.growsByFolders {done dirs : List Str} {w w' : DriveWorld}
    {r : Outcome SyncerErrors Unit} (h : WalkEnds ω done dirs w r w') :
    GrowsByFolders w.objs w'.objs := by
  induction h with
  | nil => exact .refl
  | cons h _ ih => exact h.growsByFolders.trans ih
  | stop h => exact h.growsByFolders

theorem StartEnds.growsByFolders {w w' : DriveWorld} {r : Outcome SyncerErrors Unit}
    (h : StartEnds ω w r w') : GrowsByFolders w.objs w'.objs := by
  cases h with
  | known | unanswered => exact .refl
  | create _ _ _ _ h => exact h.growsByFolders

theorem EnsureEnds.grows {path : Str} {done rest : List Str} {d f : Str} {w w' : DriveWorld}
    {r : Outcome SyncerErrors Unit} (hpath : U path)
    (hrel : relComponents path = some (done ++ d :: rest ++ [f]))
    (h : EnsureEnds ω (below (done ++ [d])) (keyOf (done ++ [d])) (keyOf done) w r w') :
    Grows (Adds ω U) w.objs w'.objs := by
  cases h with
  | hit | found | orphan => exact .refl
  | create g r _ miss hk hpk hcreate =>
    rcases hcreate.objs_cases with hobjs | ⟨n, hobjs⟩
    · rw [hobjs]
      exact .refl
    · rw [hobjs]
      exact .single (.folder n _ _ hpath hrel hk hpk)

theorem WalkEnds.grows {path : Str} {done dirs : List Str} {f : Str} {w w' : DriveWorld}
    {r : Outcome SyncerErrors Unit} (hpath : U path)
    (hrel : relComponents path = some (done ++ dirs ++ [f])) (h : WalkEnds ω done dirs w r w') :
    Grows (Adds ω U) w.objs w'.objs := by
  induction h with
  | nil => exact .refl
  | cons h _ ih =>
    refine (h.grows hpath hrel).trans (ih ?_)
    rw [hrel]
    simp
  | stop h => exact h.grows hpath hrel

theorem PlaceEnds.grows {path : Str} {w w' : DriveWorld}
    {r : Outcome SyncerErrors (Option Str)} (hpath : U path) (h : PlaceEnds ω path w r w') :
    Grows (Adds ω U) w.objs w'.objs := by
  cases h with
  | unnamed | unanswered | noUid | unreadable | vanished | rejected => exact .refl
  | made name pk k content o hkeys hf hk _ _ _ ho =>
    rw [ho]
    exact .single (.file _ _ hpath hkeys hk hf)
  | lost name pk k content o hkeys hf hk _ _ _ ho =>
    rw [ho]
    exact .single (.file _ _ hpath hkeys hk hf)

/-- **What an upload adds.** -/
theorem UploadEnds.grows {path : Str} {w w' : DriveWorld}
    {r : Outcome SyncerErrors (Option Str)} (hpath : U path) (h : UploadEnds ω checks path w r w') :
    Grows (Adds ω U) w.objs w'.objs := by
  cases h with
  | outside | rootChecked => exact .refl
  | root _ _ hp => exact hp.grows hpath
  | crashed hrel hw => exact hw.grows hpath hrel
  | placed hrel hw hp => exact (hw.grows hpath hrel).trans (hp.grows hpath)

/-- **What a start adds.** -/
theorem StartEnds.grows {w w' : DriveWorld} {r : Outcome SyncerErrors Unit}
    (h : StartEnds ω w r w') : Grows (Adds ω U) w.objs w'.objs := by
  cases h with
  | known | unanswered => exact .refl
  | create hf hnone r _ hcreate =>
    rcases hcreate.objs_cases with hobjs | ⟨n, hobjs⟩
    · rw [hobjs]
      exact .refl
    · rw [hobjs]
      exact .single (.root n _ hf hnone)

/-- **An upload with success**: after the walk over the directories comes the file, below
what the lookup of its directory came back with. -/
theorem UploadEnds.of_ok {path : Str} {dirs : List Str} {f i : Str}
    (hpath : IsFilePath path dirs f) {w w' : DriveWorld}
    (h : UploadEnds ω checks path w (.ok (some i)) w') :
    ∃ w₁ t content req o, WalkEnds ω [] dirs w (.ok ()) w₁ ∧
      req = fileRequest f (pick (ω w₁.tick) w₁.objs (keyOf dirs)) (keyOf (dirs ++ [f])) ∧
      o = newObj (ω t) w₁.objs req content ∧ i = o.id ∧ w'.objs = w₁.objs ++ [o] ∧
      w'.trace = w₁.trace ++ (queryCalls (ω w₁.tick) w₁.objs (keyOf dirs) ++
        [.openFile path true, .openFile path true, .create req (.ok o.toFile)]) := by
  have hrel := hpath.relComponents
  cases h with
  | root h => exact absurd (hrel.symm.trans h) (by simp)
  | @placed dirs' f' h w₁ _ _ hwalk hplace =>
    obtain ⟨rfl, -⟩ := List.append_inj' (Option.some.inj (hrel.symm.trans h)) rfl
    cases hplace with
    | made name pk k content o hkeys hf hk hread hagain hc ho =>
      obtain ⟨rfl, rfl⟩ := hkeys.unique hpath.placeKeys
      rw [hpath.getUniqueId, Except.ok.injEq] at hk
      refine ⟨w₁, w₁.tick + 3, content, _, o, hwalk, rfl, by rw [hk]; exact ho, rfl, rfl, ?_⟩
      rw [hk]
      simp [World.opened]

/-- Nothing leaves the drive in an upload. -/
theorem UploadEnds.starts_with {path : Str} {w w' : DriveWorld}
    {r : Outcome SyncerErrors (Option Str)} (h : UploadEnds ω checks path w r w') :
    w.objs <+: w'.objs :=
  (h.grows (U := fun _ => True) trivial).starts_with

theorem StartEnds.starts_with {w w' : DriveWorld} {r : Outcome SyncerErrors Unit}
    (h : StartEnds ω w r w') : w.objs <+: w'.objs :=
  h.growsByFolders.starts_with

/-- **What a run adds**, whatever goes wrong in it. -/
theorem run_grows (ω : Schedule) (filters : List Str) (checks : Bool) (objs : List Obj)
    (actions : List Action) :
    Grows (Adds ω (Uploads actions)) objs (run ω filters checks objs actions).world.objs := by
  refine run_world_inv ω filters checks
    (fun w => Grows (Adds ω (Uploads actions)) objs w.objs) .refl ?_ ?_ ?_ ?_
  · exact fun _ _ h => h
  · exact fun _ _ _ h => h
  · exact fun w r w' hw h => hw.trans h.grows
  · exact fun disk path ha w r w' hw h => hw.trans (h.grows ⟨disk, ha⟩)

/-- A step leaves everything on the drive. -/
theorem step_starts_with (ω : Schedule) (filters : List Str) (checks : Bool) (s : Daemon)
    (a : Action) : s.world.objs <+: (s.step ω filters checks a).world.objs := by
  obtain ⟨s', hstep, he⟩ := step_ends ω filters checks s a
  rw [he]
  cases hstep with
  | ignored | expire => exact List.prefix_rfl
  | restart h => exact h.starts_with
  | upload _ _ _ h => exact h.starts_with

/-- What was on the drive in the course of a run is there at its end. -/
theorem run_starts_with (ω : Schedule) (filters : List Str) (checks : Bool) (objs : List Obj)
    (pre rest : List Action) :
    (run ω filters checks objs pre).world.objs <+:
      (run ω filters checks objs (pre ++ rest)).world.objs := by
  induction rest using List.reverseRecOn with
  | nil => rw [List.append_nil]
  | append_singleton rest a ih =>
    rw [← List.append_assoc, run_snoc]
    exact ih.trans (step_starts_with ..)

theorem syncedIds_run (ω : Schedule) (filters : List Str) (checks : Bool) {objs : List Obj}
    (actions : List Action) (hobjs : Unsynced objs) :
    SyncedIds (run ω filters checks objs actions).world.objs :=
  SyncedIds.grows (fun _ _ p hp hne => absurd (hobjs p hp) hne)
    (run_grows ω filters checks objs actions)

end Runs

end PiDriveSync
