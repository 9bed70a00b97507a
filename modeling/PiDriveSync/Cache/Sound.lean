import PiDriveSync.Provider.Additions

/-!
# What the cache says is on the drive

As nothing leaves the drive, an entry of the cache that was right when it was put in
stays right.  Entries are put in for the answer to a lookup and for the answer to a
creation, and in both cases the id belongs to an object that carries the key.
-/

namespace PiDriveSync

open UnixPath Fallible

/-- Each entry of the cache is the id of a live object that carries its key. -/
def CacheSound (w : DriveWorld) : Prop :=
  ∀ k v, (k, v) ∈ w.cache → ∃ o ∈ carriers w.objs k, o.id = v

namespace CacheSound

variable {w : DriveWorld}

theorem carriers_ne_nil (h : CacheSound w) {k v : Str} (hv : (k, v) ∈ w.cache) :
    carriers w.objs k ≠ [] := by
  obtain ⟨o, ho, -⟩ := h k v hv
  exact List.ne_nil_of_mem ho

theorem of_subset (h : CacheSound w) {w' : DriveWorld} (hcache : w'.cache ⊆ w.cache)
    (hobjs : w.objs <+: w'.objs) : CacheSound w' := by
  intro k v hv
  obtain ⟨o, ho, hid⟩ := h k v (hcache hv)
  obtain ⟨hmem, hlive⟩ := mem_carriers.mp ho
  exact ⟨o, mem_carriers.mpr ⟨hobjs.subset hmem, hlive⟩, hid⟩

theorem looked (h : CacheSound w) (m : Moment) (k : Str) : CacheSound (w.looked m k) :=
  h.of_subset (fun _ he => mem_of_left he) List.prefix_rfl

theorem sought (h : CacheSound w) (ω : Schedule) (k : Str) : CacheSound (w.sought ω k) :=
  h.of_subset (fun _ he => he) List.prefix_rfl

theorem asked (h : CacheSound w) (calls : List Call) : CacheSound (w.asked calls) :=
  h.of_subset (fun _ he => he) List.prefix_rfl

theorem added (h : CacheSound w) (o : Obj) : CacheSound (w.added o) :=
  h.of_subset (fun _ he => he) (List.prefix_append _ _)

theorem withDisk (h : CacheSound w) (disk : Disk) : CacheSound (w.withDisk disk) :=
  h.of_subset (fun _ he => he) List.prefix_rfl

theorem withCache (h : CacheSound w) {cache : Cache} (hsub : cache ⊆ w.cache) :
    CacheSound (w.withCache cache) :=
  h.of_subset hsub List.prefix_rfl

/-- A new entry for an object that carries its key. -/
theorem remembered (h : CacheSound w) {k : Str} {o : Obj} (ho : o ∈ carriers w.objs k) :
    CacheSound (w.remembered k o.id) := by
  intro k' v hv
  rcases mem_remember.mp hv with heq | ⟨hv, -⟩
  · obtain ⟨rfl, rfl⟩ := Prod.mk.inj heq
    exact ⟨o, ho, rfl⟩
  · exact h k' v hv

end CacheSound

variable {ω : Schedule} {w w' : DriveWorld}

theorem CreateEnds.cacheSound {path k : Str} {parentId : Option Str}
    {r : Outcome SyncerErrors (Option Str)} (hw : CacheSound w)
    (h : CreateEnds ω path k parentId w r w') : CacheSound w' := by
  cases h with
  | noTempfile => exact hw.asked _
  | rejected => exact (hw.asked _).asked _
  | lost o => exact ((hw.asked _).asked _).added o
  | made o ht hf ho =>
    exact (((hw.asked _).asked _).added o).remembered (mem_carriers_of_made ho _)

theorem EnsureEnds.cacheSound {path k pk : Str} {r : Outcome SyncerErrors Unit}
    (hw : CacheSound w) (h : EnsureEnds ω path k pk w r w') : CacheSound w' := by
  cases h with
  | hit => exact hw.looked _ _
  | found v _ hv =>
    obtain ⟨o, ho, rfl⟩ := mem_of_lookup hv
    exact ((hw.looked _ _).sought _ _).remembered ho
  | orphan => exact ((hw.looked _ _).sought _ _).sought _ _
  | create g r _ _ _ _ h => exact h.cacheSound (((hw.looked _ _).sought _ _).sought _ _)

variable [Base64]

theorem WalkEnds.cacheSound {done dirs : List Str} {r : Outcome SyncerErrors Unit}
    (hw : CacheSound w) (h : WalkEnds ω done dirs w r w') : CacheSound w' := by
  induction h with
  | nil => exact hw
  | cons h _ ih => exact ih (h.cacheSound hw)
  | stop h => exact h.cacheSound hw

/-- The file itself leaves the cache alone. -/
theorem PlaceEnds.cache_eq {path : Str} {r : Outcome SyncerErrors (Option Str)}
    (h : PlaceEnds ω path w r w') : w'.cache = w.cache := by
  cases h <;> rfl

theorem PlaceEnds.cacheSound {path : Str} {r : Outcome SyncerErrors (Option Str)}
    (hw : CacheSound w) (h : PlaceEnds ω path w r w') : CacheSound w' := by
  have hgrows : Grows (Adds ω fun _ => True) w.objs w'.objs := h.grows trivial
  refine hw.of_subset ?_ hgrows.starts_with
  rw [h.cache_eq]
  exact fun _ he => he

theorem UploadEnds.cacheSound {checks : Bool} {path : Str}
    {r : Outcome SyncerErrors (Option Str)} (hw : CacheSound w)
    (h : UploadEnds ω checks path w r w') : CacheSound w' := by
  cases h with
  | outside | rootChecked => exact hw
  | root _ _ hp => exact hp.cacheSound hw
  | crashed _ h => exact h.cacheSound hw
  | placed _ h hp => exact hp.cacheSound (h.cacheSound hw)

theorem StartEnds.cacheSound {r : Outcome SyncerErrors Unit} (hw : CacheSound w)
    (h : StartEnds ω w r w') : CacheSound w' := by
  cases h with
  | known | unanswered => exact hw.sought _ _
  | create _ _ _ _ h => exact h.cacheSound (hw.sought _ _)

/-- **The cache is right in every run**, whatever goes wrong in it. -/
theorem cacheSound_run (ω : Schedule) (filters : List Str) (checks : Bool) (objs : List Obj)
    (actions : List Action) : CacheSound (run ω filters checks objs actions).world := by
  refine run_world_inv ω filters checks CacheSound ?_ ?_ ?_ ?_ ?_
  · exact fun _ _ hv => absurd hv (by simp [World.fresh])
  · exact fun w disk hw => hw.withDisk disk
  · exact fun w cache hsub hw => hw.withCache hsub
  · exact fun w r w' hw h => h.cacheSound hw
  · exact fun disk path _ w r w' hw h => h.cacheSound hw

end PiDriveSync
