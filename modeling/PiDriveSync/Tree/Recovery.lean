import PiDriveSync.Tree.Duplicates
import PiDriveSync.Tree.ParentKinds
import PiDriveSync.Tree.Placement
import PiDriveSync.Tree.Trash

/-!
# Directories whose folder went to the trash

A lookup passes over the trash, so the client sees that a folder is gone, if it looks:
`createPath` asks its cache first and takes an entry for the folder.

`recovered_iff` says when a file that was uploaded with success is in a folder of its
directory: always, in a run without failures, except when the directory has nothing
outside the trash and the cache answers for it all the same.  What happens to the
directories above does no harm here.  If the walk gets to the directory itself, it is
created again, or the upload ends in a panic.
-/

namespace PiDriveSync

open UnixPath Fallible

variable {ω : Schedule} {w w' : DriveWorld}

/-! ## The directory itself -/

/-- A creation does not ask the cache. -/
theorem CreateEnds.hits_eq_nil {path k : Str} {parentId : Option Str}
    {r : Outcome SyncerErrors (Option Str)} (h : CreateEnds ω path k parentId w r w') :
    ∃ calls, w'.trace = w.trace ++ calls ∧ hits calls = [] := by
  cases h with
  | noTempfile => exact ⟨_, rfl, rfl⟩
  | rejected | made | lost => exact ⟨_, List.append_assoc .., rfl⟩

/-- **The directory itself.**  The cache answers for it, and nothing changes; or it has
an object afterwards. -/
theorem EnsureEnds.settled (hω : Faultless ω) {path k pk : Str}
    (h : EnsureEnds ω path k pk w (.ok ()) w') :
    ∃ calls, w'.trace = w.trace ++ calls ∧
      (k ∈ hits calls ∧ w'.objs = w.objs ∨ k ∉ hits calls ∧ carriers w'.objs k ≠ []) := by
  generalize hr : (Outcome.ok () : Outcome SyncerErrors Unit) = r at h
  cases h with
  | hit v hv =>
    have hany : ((left (ω w.tick) w.cache).any fun e => e.1 == k) = true :=
      List.any_eq_true.mpr ⟨_, hv, beq_self_eq_true k⟩
    refine ⟨_, rfl, Or.inl ⟨?_, rfl⟩⟩
    rw [hany]
    exact List.mem_singleton.mpr rfl
  | found v miss hv =>
    obtain ⟨o, ho, -⟩ := mem_of_lookup hv
    refine ⟨.containsKey k false :: queryCalls (ω (w.tick + 1)) w.objs k, ?_, Or.inr ⟨?_, ?_⟩⟩
    · simp [any_left_eq_false.mpr miss]
    · exact (hits_queryCalls (ω (w.tick + 1)) w.objs k ▸ List.not_mem_nil)
    · exact List.ne_nil_of_mem ho
  | orphan => exact absurd hr (by simp)
  | create g r _ miss _ _ h =>
    obtain ⟨calls, htrace, hcalls⟩ := h.hits_eq_nil
    refine ⟨.containsKey k false :: (queryCalls (ω (w.tick + 1)) w.objs k ++
      queryCalls (ω (w.tick + 2)) w.objs pk ++ calls), ?_, Or.inr ⟨?_, ?_⟩⟩
    · rw [htrace]
      simp [any_left_eq_false.mpr miss]
    · show k ∉ hits (_ ++ _ ++ _)
      rw [hits_append, hits_append, hits_queryCalls, hits_queryCalls, hcalls]
      exact List.not_mem_nil
    · rcases h.of_faultless hω with ⟨-, rfl, -⟩ | ⟨o, -, ho, -⟩
      · exact absurd hr (by simp [Outcome.returned])
      · exact List.ne_nil_of_mem ho

variable [Base64]

/-! ## The file -/

/-- The object with the id `i` has one parent, which is a live folder of the directory
`cs`. -/
def InFolder (objs : List Obj) (i : Str) (cs : List Str) : Prop :=
  ∃ o ∈ objs, o.id = i ∧ (∀ q ∈ objs, q.id = i → q = o) ∧
    ∃ p ∈ liveFolders objs (keyOf cs), o.parents = [p.id] ∧ ∀ q ∈ objs, q.id = p.id → q = p

theorem inFolder_iff_placedBelow {objs : List Obj} {i : Str} {cs : List Str}
    (h : OnlyFolders objs (keyOf cs)) : InFolder objs i cs ↔ PlacedBelow objs i cs := by
  constructor
  · rintro ⟨o, ho, hid, honly, p, hp, hrest⟩
    exact ⟨o, ho, hid, honly, p, (mem_liveFolders.mp hp).1, hrest⟩
  · rintro ⟨o, ho, hid, honly, p, hp, hrest⟩
    exact ⟨o, ho, hid, honly, p, mem_liveFolders.mpr ⟨hp, h p hp⟩, hrest⟩

/-- The cache answered for a directory that has nothing outside the trash. -/
def StaleHit (objs : List Obj) (calls : List Call) (cs : List Str) : Prop :=
  carriers objs (keyOf cs) = [] ∧ keyOf cs ∈ hits calls

instance (objs : List Obj) (calls : List Call) (cs : List Str) :
    Decidable (StaleHit objs calls cs) :=
  inferInstanceAs (Decidable (_ ∧ _))

/-- **The walk to a directory**: the directory has an object after it, unless the
cache answered for it and it had none. -/
theorem WalkEnds.carriers_iff (hω : Faultless ω) {dirs : List Str} (hsolid : ∀ c ∈ dirs, Solid c)
    (hroot : HasRoot w.objs) (h : WalkEnds ω [] dirs w (.ok ()) w') :
    ∃ calls, w'.trace = w.trace ++ calls ∧
      (carriers w'.objs (keyOf dirs) ≠ [] ↔ ¬ StaleHit w.objs calls dirs) := by
  rcases dirs.eq_nil_or_concat' with rfl | ⟨ds, d, rfl⟩
  · cases h
    obtain ⟨o, ho, -⟩ := hroot
    have hne : carriers w.objs (keyOf []) ≠ [] := List.ne_nil_of_mem ho
    refine ⟨[], (List.append_nil _).symm, ?_⟩
    constructor
    · exact fun _ hstale => hne hstale.1
    · exact fun _ => hne
  · obtain ⟨w₁, -, ⟨hobjs, calls, htrace, hcalls, -⟩, hlast⟩ := walk_comes_to hsolid h
    obtain ⟨calls', htrace', hsettled⟩ := hlast.settled hω
    refine ⟨calls ++ calls', by rw [htrace', htrace, List.append_assoc], ?_⟩
    rw [StaleHit, hits_append, List.mem_append]
    rcases hsettled with ⟨hhit, hsame⟩ | ⟨hmiss, hne⟩
    · rw [hsame, hobjs]
      constructor
      · exact fun hne hstale => hne hstale.1
      · exact fun hfresh hnone => hfresh ⟨hnone, Or.inr hhit⟩
    · constructor
      · exact fun _ hstale => hstale.2.elim hcalls hmiss
      · exact fun _ => hne

/-- **One upload.** -/
theorem UploadEnds.inFolder_iff (hω : Faultless ω) {checks : Bool} {path : Str}
    {dirs : List Str} {f i : Str} (hpath : IsFilePath path dirs f) (hids : SyncedIds w.objs)
    (hroot : HasRoot w.objs) (honly : OnlyFolders w.objs (keyOf dirs))
    (h : UploadEnds ω checks path w (.ok (some i)) w') :
    InFolder w'.objs i dirs ↔ ¬ StaleHit w.objs (callsSince w w') dirs := by
  have hrel := hpath.relComponents
  have hdirs : ∀ c ∈ dirs, Solid c := fun c hc => hpath.solid c (List.mem_append_left _ hc)
  obtain ⟨w₁, t, content, req, o, hwalk, hreq, ho, rfl, hobjs, htrace⟩ := h.of_ok hpath
  have hids₁ : SyncedIds w₁.objs := hids.grows (hwalk.grows (U := fun _ => True) trivial hrel)
  obtain ⟨calls, hcalls, hiff⟩ := hwalk.carriers_iff hω hdirs hroot
  -- the file does not stand for its directory
  have hother : o.syncId ≠ some (keyOf dirs) := by
    rw [ho, hreq, newObj_file_syncId, Ne, Option.some.injEq, keyOf_inj hpath.solid hdirs]
    simp
  have honly' : OnlyFolders (w₁.objs ++ [o]) (keyOf dirs) := by
    intro p hp
    rw [carriers_append, show carriers [o] (keyOf dirs) = [] by simp [carriers, hother],
      List.append_nil] at hp
    exact honly.grows hwalk.growsByFolders p hp
  have hplaced : PlacedBelow (w₁.objs ++ [o]) o.id dirs ↔ carriers w₁.objs (keyOf dirs) ≠ [] := by
    rw [ho, hreq]
    exact placedBelow_newObj hids₁
  have hall : hits (callsSince w w') = hits calls := by
    rw [callsSince, htrace, hcalls, List.append_assoc, List.drop_left, hits_append, hits_append,
      hits_queryCalls, List.nil_append]
    exact List.append_nil _
  rw [hobjs, inFolder_iff_placedBelow honly', hplaced, hiff, StaleHit, StaleHit, hall]

/-- **When a file comes into a folder of its directory**, in every run in which no call
fails and folders go to the trash in between, as long as no uploaded file stands where
the directory is. -/
theorem recovered_iff (ω : Schedule) (hω : Faultless ω) (filters : List Str) (checks : Bool)
    (objs : List Obj) (hobjs : Unsynced objs) (events : List Event) (disk : Disk) (path : Str)
    (dirs : List Str) (f i : Str) (hpath : IsFilePath path dirs f) :
    let s := runEvents ω filters checks objs events
    let s' := runEvents ω filters checks objs (events ++ [.act (.upload disk path)])
    OnlyFolders s.world.objs (keyOf dirs) → s'.log = s.log ++ [(path, .ok (some i))] →
      (InFolder s'.world.objs i dirs ↔
        ¬ StaleHit s.world.objs (callsSince s.world s'.world) dirs) := by
  intro s s' honly hok
  have hs : Rooted s := rooted_runEvents hω filters hobjs events
  obtain ⟨t, hstep, he⟩ := step_ends ω filters checks s (.upload disk path)
  rw [show s' = t from (runEvents_snoc ..).trans he] at hok ⊢
  cases hstep with
  | ignored => exact absurd (List.self_eq_append_right.mp hok) (by simp)
  | @upload _ _ halive r w' h =>
    have hr : r = .ok (some i) := by simpa using hok
    rw [hr] at h
    have hroot : HasRoot s.world.objs := by
      rcases hs.root with hroot | ⟨hdead, -⟩
      · exact hroot
      · exact absurd (hdead.symm.trans halive) (by simp)
    exact UploadEnds.inFolder_iff (w := s.world.withDisk disk) hω hpath hs.ids hroot honly h

omit [Base64] in
/-- The folder `a` goes to the trash, and its entry is gone from the cache when `a/g` is
uploaded: the folder is created again. -/
theorem recovered_calm :
    let events : List Event := [.act (.upload everyFile (below [str "a", str "f"])),
      .trash (str "ii"), .act (.expire fun _ => true)]
    @InFolder standardBase64 (@runEvents standardBase64 calm [] true [] (events ++
      [.act (.upload everyFile (below [str "a", str "g"]))])).world.objs (str "iiiii") [str "a"] :=
  (@recovered_iff standardBase64 calm (fun _ => rfl) [] true [] (by simp [Unsynced]) _ everyFile
    (below [str "a", str "g"]) [str "a"] (str "g") (str "iiiii")
    ⟨rfl, by decide +kernel, by decide +kernel⟩ (by unfold OnlyFolders; decide +kernel)
    (by decide +kernel)).mpr (by decide +kernel)

omit [Base64] in
/-- The folder `a` goes to the trash with `a/f`, and its entry stays in the cache.  The
upload of `a/g` takes the folder for present, and ends with success. -/
theorem trashed_folder_not_recreated :
    let s := @runEvents standardBase64 calm [] true []
      [.act (.upload everyFile (below [str "a", str "f"])), .trash (str "ii"),
        .act (.upload everyFile (below [str "a", str "g"]))]
    s.log = [(below [str "a", str "f"], .ok (some (str "iii"))),
      (below [str "a", str "g"], .ok (some (str "iiii")))] ∧
      (∃ o ∈ s.world.objs, o.id = str "iiii" ∧ o.parents = []) ∧
      ¬ @InFolder standardBase64 s.world.objs (str "iiii") [str "a"] := by
  unfold InFolder
  decide +kernel

end PiDriveSync
