import PiDriveSync.Cache.Sound
import PiDriveSync.Provider.Calm
import PiDriveSync.Tree.Walk

/-!
# Files without a parent

The error of a folder creation is logged and dropped, and so is that of `createPath`.
The upload goes on, the lookup of the parent directory comes back empty, and the file
is created with no parent at all.

`placed_iff` says when a file that was uploaded with success is where it belongs: when
its directory had a live object before, or else the directory is below the watched one and
no creation of its folder was refused on the way.  The folder of the watched directory
itself is made at a start only.  Failed queries do no harm here: they end in a panic, or
in a second folder.
-/

namespace PiDriveSync

open UnixPath Fallible

variable [Base64]

/-- The object with the id `i` has one parent, which is a live object of the directory
`cs`. -/
def PlacedBelow (objs : List Obj) (i : Str) (cs : List Str) : Prop :=
  ∃ o ∈ objs, o.id = i ∧ (∀ q ∈ objs, q.id = i → q = o) ∧
    ∃ p ∈ carriers objs (keyOf cs), o.parents = [p.id] ∧ ∀ q ∈ objs, q.id = p.id → q = p

section Newest

variable {m m' : Moment} {objs : List Obj} {req : File} {name k : Str} {content : Bytes}
  {cs : List Str}

omit [Base64] in
/-- The newest object is the only one with its id. -/
theorem newObj_unique : ∀ q ∈ objs ++ [newObj m objs req content],
    q.id = (newObj m objs req content).id → q = newObj m objs req content := by
  intro q hq hid
  rcases List.mem_append.mp hq with hq | hq
  · exact absurd hid (newObj_id_notMem q hq)
  · exact List.mem_singleton.mp hq

omit [Base64] in
/-- What was there with a unique id is still the only one with its id. -/
theorem SyncedIds.unique_of_mem_carriers (hids : SyncedIds objs) {p : Obj}
    (hp : p ∈ carriers objs k) :
    ∀ q ∈ objs ++ [newObj m objs req content], q.id = p.id → q = p := by
  intro q hq hid
  obtain ⟨hmem, -, hkey⟩ := mem_carriers.mp hp
  exact hids.snoc newObj_id_notMem q hq p (List.mem_append_left _ hmem) (by rw [hkey]; simp) hid

/-- The newest object is placed below a directory exactly when the lookup of the
directory came back with something. -/
theorem placedBelow_newObj (hids : SyncedIds objs) :
    PlacedBelow (objs ++ [newObj m objs (fileRequest name (pick m' objs (keyOf cs)) k) content])
      (newObj m objs (fileRequest name (pick m' objs (keyOf cs)) k) content).id cs ↔
      carriers objs (keyOf cs) ≠ [] := by
  have hmem : ∀ {o : Obj}, o ∈ objs ++ [o] :=
    List.mem_append_right _ (List.mem_singleton.mpr rfl)
  constructor
  · rintro ⟨o, _, _, honly, p, _, hparents, _⟩ hnone
    rw [← honly _ hmem rfl, newObj_file_parents, pick_eq_none.mpr hnone] at hparents
    exact absurd hparents (by simp)
  · intro hne
    cases hp : pick m' objs (keyOf cs) with
    | none => exact absurd (pick_eq_none.mp hp) hne
    | some g =>
      obtain ⟨p, hpc, rfl⟩ := mem_of_pick hp
      refine ⟨_, hmem, rfl, newObj_unique, p, ?_, rfl, hids.unique_of_mem_carriers hpc⟩
      rw [carriers_append]
      exact List.mem_append_left _ hpc

end Newest

variable {ω : Schedule} {checks : Bool} {w w' : DriveWorld}

/-- Nothing hinders the upload of a file in the directory `dirs` that starts on the drive
`objs` and makes these calls: the directory has an object already, or it is below the
watched one and no creation of its folder is refused. -/
def Unhindered (objs : List Obj) (calls : List Call) (dirs : List Str) : Prop :=
  carriers objs (keyOf dirs) ≠ [] ∨
    dirs ≠ [] ∧ ∀ req ∈ refused calls, ¬ RequestFor (keyOf dirs) req

instance (objs : List Obj) (calls : List Call) (dirs : List Str) :
    Decidable (Unhindered objs calls dirs) :=
  inferInstanceAs (Decidable (_ ∨ _))

/-! ## The directory -/

omit [Base64] in
/-- A creation that returns makes the folder, or is refused. -/
theorem CreateEnds.carriers_iff (hω : NoneLost ω) {path k : Str} {parentId : Option Str}
    {r : Outcome SyncerErrors (Option Str)} (hr : r.returned = true)
    (h : CreateEnds ω path k parentId w r w') :
    ∃ calls, w'.trace = w.trace ++ calls ∧ (carriers w'.objs k ≠ [] ↔
      carriers w.objs k ≠ [] ∨ ∀ req ∈ refused calls, ¬ RequestFor k req) := by
  cases h with
  | noTempfile => exact absurd hr (by simp [Outcome.returned])
  | lost _ _ hf => exact absurd hf (hω _)
  | made o ht hf ho =>
    refine ⟨[.tempfile true, .create (folderRequest path parentId k) (.ok o.toFile)],
      List.append_assoc .., iff_of_true ?_ (Or.inr ?_)⟩
    · exact List.ne_nil_of_mem (mem_carriers_of_made ho _)
    · exact fun req hreq => absurd hreq List.not_mem_nil
  | rejected ht hf =>
    refine ⟨[.tempfile true, .create (folderRequest path parentId k)
      (.error (ω (w.tick + 1)).error)], List.append_assoc .., Iff.symm (or_iff_left ?_)⟩
    exact fun hfree => hfree _ (List.mem_singleton.mpr rfl) (by simp)

omit [Base64] in
/-- **The directory itself.**  It has an object after its turn exactly when it had one
before, or its folder was not refused. -/
theorem EnsureEnds.carriers_iff (hω : NoneLost ω) (hw : CacheSound w) {path k pk : Str}
    (h : EnsureEnds ω path k pk w (.ok ()) w') :
    ∃ calls, w'.trace = w.trace ++ calls ∧ (carriers w'.objs k ≠ [] ↔
      carriers w.objs k ≠ [] ∨ ∀ req ∈ refused calls, ¬ RequestFor k req) := by
  generalize hr : (Outcome.ok () : Outcome SyncerErrors Unit) = r at h
  cases h with
  | hit v hv =>
    have hne : carriers w.objs k ≠ [] := hw.carriers_ne_nil (mem_of_left hv)
    exact ⟨_, rfl, iff_of_true hne (Or.inl hne)⟩
  | found v miss hv =>
    obtain ⟨o, ho, -⟩ := mem_of_lookup hv
    have hne : carriers w.objs k ≠ [] := List.ne_nil_of_mem ho
    exact ⟨_, List.append_assoc .., iff_of_true hne (Or.inl hne)⟩
  | orphan => exact absurd hr (by simp)
  | create g r _ miss _ _ hcreate =>
    have hreturned : r.returned = true := by
      by_contra hnot
      rw [if_neg hnot] at hr
      exact absurd hr (by simp)
    obtain ⟨calls, htrace, hiff⟩ := hcreate.carriers_iff hω hreturned
    refine ⟨.containsKey k false :: (queryCalls (ω (w.tick + 1)) w.objs k ++
      (queryCalls (ω (w.tick + 2)) w.objs pk ++ calls)), ?_, ?_⟩
    · rw [htrace]
      simp [any_left_eq_false.mpr miss]
    · have hrefused : refused (.containsKey k false :: (queryCalls (ω (w.tick + 1)) w.objs k ++
          (queryCalls (ω (w.tick + 2)) w.objs pk ++ calls))) = refused calls := by
        show refused (_ ++ (_ ++ _)) = _
        rw [refused_append, refused_append, refused_queryCalls, refused_queryCalls,
          List.nil_append, List.nil_append]
      rw [hrefused]
      exact hiff

/-- **The walk to the directory.** -/
theorem WalkEnds.unhindered_iff (hω : NoneLost ω) (hw : CacheSound w) {dirs : List Str}
    (hsolid : ∀ c ∈ dirs, Solid c) (h : WalkEnds ω [] dirs w (.ok ()) w') :
    ∃ calls, w'.trace = w.trace ++ calls ∧
      (carriers w'.objs (keyOf dirs) ≠ [] ↔ Unhindered w.objs calls dirs) := by
  rcases dirs.eq_nil_or_concat' with rfl | ⟨ds, d, rfl⟩
  · cases h
    exact ⟨[], (List.append_nil _).symm, by simp [Unhindered]⟩
  · obtain ⟨w₁, hwalk, ⟨hobjs, calls, htrace, -, hcalls⟩, hlast⟩ := walk_comes_to hsolid h
    obtain ⟨calls', htrace', hiff⟩ := hlast.carriers_iff hω (hwalk.cacheSound hw)
    refine ⟨calls ++ calls', by rw [htrace', htrace, List.append_assoc], ?_⟩
    -- what is refused above the directory is not for it
    have habove : ∀ req ∈ refused calls, ¬ RequestFor (keyOf (ds ++ [d])) req :=
      fun req hreq => hcalls req (requests_of_refused hreq)
    have hbelow : ds ++ [d] ≠ [] := by simp
    rw [hiff, hobjs, Unhindered, refused_append, List.forall_mem_append, and_iff_right habove,
      and_iff_right hbelow]

/-! ## The file -/

/-- **One upload.**  The file is where it belongs exactly when nothing hindered it. -/
theorem UploadEnds.placedBelow_iff (hω : NoneLost ω) (hw : CacheSound w) {path : Str}
    {dirs : List Str} {f i : Str} (hpath : IsFilePath path dirs f) (hids : SyncedIds w.objs)
    (h : UploadEnds ω checks path w (.ok (some i)) w') :
    PlacedBelow w'.objs i dirs ↔ Unhindered w.objs (callsSince w w') dirs := by
  have hrel := hpath.relComponents
  have hdirs : ∀ c ∈ dirs, Solid c := fun c hc => hpath.solid c (List.mem_append_left _ hc)
  obtain ⟨w₁, t, content, req, o, hwalk, hreq, ho, rfl, hobjs, htrace⟩ := h.of_ok hpath
  have hids₁ : SyncedIds w₁.objs := hids.grows (hwalk.grows (U := fun _ => True) trivial hrel)
  obtain ⟨calls, hcalls, hiff⟩ := hwalk.unhindered_iff hω hw hdirs
  have hplaced : PlacedBelow (w₁.objs ++ [o]) o.id dirs ↔ carriers w₁.objs (keyOf dirs) ≠ [] := by
    rw [ho, hreq]
    exact placedBelow_newObj hids₁
  -- the file is asked for with success
  have hall : refused (callsSince w w') = refused calls := by
    rw [callsSince, htrace, hcalls, List.append_assoc, List.drop_left, refused_append,
      refused_append, refused_queryCalls, List.nil_append]
    exact List.append_nil _
  rw [hobjs, hplaced, hiff, Unhindered, Unhindered, hall]

/-- **When an uploaded file is where it belongs**, in every run in which no answer is
lost: its directory had an object when the upload started, or it is not the watched one
and the provider refused no creation of its folder during the upload. -/
theorem placed_iff (ω : Schedule) (hω : NoneLost ω) (filters : List Str) (checks : Bool)
    (objs : List Obj) (hobjs : Unsynced objs) (actions : List Action) (disk : Disk) (path : Str)
    (dirs : List Str) (f i : Str) (hpath : IsFilePath path dirs f) :
    let s := run ω filters checks objs actions
    let s' := run ω filters checks objs (actions ++ [.upload disk path])
    s'.log = s.log ++ [(path, .ok (some i))] →
      (PlacedBelow s'.world.objs i dirs ↔
        Unhindered s.world.objs (callsSince s.world s'.world) dirs) := by
  intro s s' hok
  have hids : SyncedIds s.world.objs := syncedIds_run ω filters checks actions hobjs
  have hsound : CacheSound s.world := cacheSound_run ω filters checks objs actions
  obtain ⟨t, hstep, he⟩ := step_ends ω filters checks s (.upload disk path)
  rw [show s' = t from (run_snoc ..).trans he] at hok ⊢
  cases hstep with
  | ignored => exact absurd (List.self_eq_append_right.mp hok) (by simp)
  | @upload _ _ _ r w' hend =>
    have hr : r = .ok (some i) := by simpa using hok
    rw [hr] at hend
    exact UploadEnds.placedBelow_iff (w := s.world.withDisk disk) hω (hsound.withDisk disk) hpath
      hids hend

omit [Base64] in
/-- A quiet run: the folder of the directory is made on the way. -/
theorem placed_calm :
    @PlacedBelow standardBase64 (@run standardBase64 calm [] true []
      (uploadsOf [[str "a", str "f"]])).world.objs (str "iii") [str "a"] :=
  (@placed_iff standardBase64 calm (by simp [NoneLost, calm]) [] true [] (by simp [Unsynced]) []
    everyFile (below [str "a", str "f"]) [str "a"] (str "f") (str "iii")
    ⟨rfl, by decide +kernel, by decide +kernel⟩ (by decide +kernel)).mpr (by decide +kernel)

omit [Base64] in
/-- The creation of the folder `a` is refused.  The upload of `a/f` goes on, and ends
with success. -/
theorem refused_folder_orphans_file :
    let s := @run standardBase64 (calmBut 7 .rejected) [] true []
      (uploadsOf [[str "a", str "f"]])
    s.log = [(below [str "a", str "f"], .ok (some (str "ii")))] ∧
      (∃ o ∈ s.world.objs, o.id = str "ii" ∧ o.parents = []) ∧
      ¬ @PlacedBelow standardBase64 s.world.objs (str "ii") [str "a"] := by
  unfold PlacedBelow
  decide +kernel

end PiDriveSync
