import PiDriveSync.Provider.Record

/-!
# Folders that go to the trash

The owner of the drive moves a folder to the trash, with everything beneath it.
Nothing but the flag of the trash changes, and the root folder stays where it is: it is
not to be moved itself, and it is beneath nothing.  So in a run without failures the
daemon always has a root folder to work below (`rooted_runEvents`).
-/

namespace PiDriveSync

open UnixPath Fallible

/-! ## The trash -/

/-- Whether an object has the id `i`, or is at most `n` levels below the object that
has. -/
def isBeneath (objs : List Obj) (i : Str) : ℕ → Obj → Bool
  | 0, o => o.id == i
  | n + 1, o => o.id == i || objs.any fun p => o.parents.contains p.id && isBeneath objs i n p

/-- An object in the trash. -/
def Obj.toTrash (o : Obj) : Obj :=
  { o with trashed := true }

/-- The drive after the object `i` was moved to the trash, with everything beneath it:
nothing is deeper below it than there are objects. -/
def trashFolder (objs : List Obj) (i : Str) : List Obj :=
  objs.map fun o => if isBeneath objs i objs.length o then o.toTrash else o

/-- Only the flag of the trash is touched. -/
theorem trash_or_same {objs : List Obj} {i : Str} {o : Obj} (h : o ∈ trashFolder objs i) :
    ∃ p ∈ objs, o = p ∨ o = p.toTrash := by
  obtain ⟨p, hp, rfl⟩ := List.mem_map.mp h
  refine ⟨p, hp, ?_⟩
  split_ifs
  · exact Or.inr rfl
  · exact Or.inl rfl

/-- What has no parents is beneath itself only. -/
theorem isBeneath_of_parents_nil {objs : List Obj} {i : Str} {o : Obj} (h : o.parents = [])
    (n : ℕ) : isBeneath objs i n o = (o.id == i) := by
  cases n with
  | zero => rfl
  | succ n => simp [isBeneath, h]

theorem SyncedIds.trashFolder {objs : List Obj} (h : SyncedIds objs) (i : Str) :
    SyncedIds (trashFolder objs i) := by
  intro o ho p hp hne hid
  obtain ⟨o₀, ho₀, rfl⟩ := List.mem_map.mp ho
  obtain ⟨p₀, hp₀, rfl⟩ := List.mem_map.mp hp
  have hids : ∀ q : Obj, (if isBeneath objs i objs.length q then q.toTrash else q).id = q.id := by
    intro q
    split_ifs <;> rfl
  have hkeys : ∀ q : Obj,
      (if isBeneath objs i objs.length q then q.toTrash else q).syncId = q.syncId := by
    intro q
    split_ifs <;> rfl
  rw [hids, hids] at hid
  rw [hkeys] at hne
  rw [h o₀ ho₀ p₀ hp₀ hne hid]

/-! ## The root folder -/

variable [Base64]

/-- The user may move it to the trash: a folder, and not the root folder. -/
def trashable (objs : List Obj) (i : Str) : Bool :=
  objs.any fun o => o.id == i && o.isFolder && o.syncId != some (keyOf [])

/-- There is a root folder, outside the trash and below nothing. -/
def HasRoot (objs : List Obj) : Prop :=
  ∃ o ∈ carriers objs (keyOf []), o.parents = []

theorem HasRoot.mono {objs objs' : List Obj} (h : HasRoot objs) (hsub : objs ⊆ objs') :
    HasRoot objs' := by
  obtain ⟨o, ho, hparents⟩ := h
  obtain ⟨hmem, hrest⟩ := mem_carriers.mp ho
  exact ⟨o, mem_carriers.mpr ⟨hsub hmem, hrest⟩, hparents⟩

/-- **The root folder stays.** -/
theorem HasRoot.trashFolder {objs : List Obj} (h : HasRoot objs) (hids : SyncedIds objs) {i : Str}
    (hi : trashable objs i = true) : HasRoot (trashFolder objs i) := by
  obtain ⟨o, ho, hparents⟩ := h
  obtain ⟨hmem, hlive, hkey⟩ := mem_carriers.mp ho
  obtain ⟨t, ht, htrash⟩ := List.any_eq_true.mp hi
  simp only [Bool.and_eq_true, beq_iff_eq, bne_iff_ne] at htrash
  have hid : o.id ≠ i := by
    intro hid
    have hsame : t = o := hids t ht o hmem (by rw [hkey]; simp) (htrash.1.1.trans hid.symm)
    rw [hsame] at htrash
    exact htrash.2 hkey
  have hstays : (if isBeneath objs i objs.length o then o.toTrash else o) = o := by
    rw [isBeneath_of_parents_nil hparents, if_neg (by simpa using hid)]
  refine ⟨o, mem_carriers.mpr ⟨?_, hlive, hkey⟩, hparents⟩
  exact List.mem_map.mpr ⟨o, hmem, hstays⟩

/-! ## Runs with a trash -/

/-- What can happen: something to the daemon, or a folder goes to the trash. -/
inductive Event where
  | act (a : Action)
  | trash (i : Str)

/-- The same world with other objects on the drive. -/
def World.withObjs (w : DriveWorld) (objs : List Obj) : DriveWorld :=
  { w with outside := { w.outside with objs := objs } }

/-- One thing happens. -/
def Daemon.event (ω : Schedule) (filters : List Str) (checks : Bool) (s : Daemon) :
    Event → Daemon
  | .act a => s.step ω filters checks a
  | .trash i =>
    if trashable s.world.objs i then
      { s with world := s.world.withObjs (trashFolder s.world.objs i) }
    else s

/-- A run from a drive with the given objects. -/
def runEvents (ω : Schedule) (filters : List Str) (checks : Bool) (objs : List Obj)
    (events : List Event) : Daemon :=
  events.foldl (Daemon.event ω filters checks) (Daemon.start ω filters checks (.fresh objs) [])

theorem runEvents_snoc (ω : Schedule) (filters : List Str) (checks : Bool) (objs : List Obj)
    (events : List Event) (e : Event) :
    runEvents ω filters checks objs (events ++ [e]) =
      (runEvents ω filters checks objs events).event ω filters checks e := by
  rw [runEvents, List.foldl_append]
  rfl

/-- What holds in the course of a run without failures. -/
structure Rooted (s : Daemon) : Prop where
  ids : SyncedIds s.world.objs
  /-- The daemon runs below a root folder; without one nobody has been running yet. -/
  root : HasRoot s.world.objs ∨ s.alive = false ∧ carriers s.world.objs (keyOf []) = []

variable {ω : Schedule} {checks : Bool}

/-- **A start.** -/
theorem StartEnds.rooted (hω : Faultless ω) {w w' : DriveWorld} {r : Outcome SyncerErrors Unit}
    (h : StartEnds ω w r w') (hids : SyncedIds w.objs)
    (hroot : HasRoot w.objs ∨ carriers w.objs (keyOf []) = [])
    (log : List (Str × Outcome SyncerErrors (Option Str))) :
    Rooted ⟨w', r.returned, log⟩ where
  ids := hids.grows (h.grows (U := fun _ => True))
  root := by
    rcases hroot with hroot | hnone
    · exact Or.inl (hroot.mono h.starts_with.subset)
    · cases h with
      | known v hv =>
        rw [lookup, if_pos (hω _), pick_eq_none.mpr hnone] at hv
        exact absurd hv (by simp)
      | unanswered hf => exact absurd (hω _) hf
      | create _ _ r _ h =>
        rcases h.of_faultless hω with ⟨-, rfl, hobjs⟩ | ⟨o, -, ho, hparents⟩
        · refine Or.inr ⟨rfl, ?_⟩
          show carriers w'.objs (keyOf []) = []
          rw [hobjs]
          exact hnone
        · exact Or.inl ⟨o, ho, hparents⟩

/-- **One step.** -/
theorem Rooted.event (hω : Faultless ω) (filters : List Str) {s : Daemon} (hs : Rooted s)
    (e : Event) : Rooted (s.event ω filters checks e) := by
  cases e with
  | trash i =>
    rw [Daemon.event]
    split_ifs with hi
    · refine ⟨hs.ids.trashFolder i, ?_⟩
      rcases hs.root with hroot | ⟨halive, hnone⟩
      · exact Or.inl (hroot.trashFolder hs.ids hi)
      · refine Or.inr ⟨halive, List.eq_nil_iff_forall_not_mem.mpr fun o ho => ?_⟩
        obtain ⟨hmem, hlive, hkey⟩ := mem_carriers.mp ho
        obtain ⟨p, hp, rfl | rfl⟩ := trash_or_same hmem
        · exact List.ne_nil_of_mem (mem_carriers.mpr ⟨hp, hlive, hkey⟩) hnone
        · exact absurd hlive (by simp [Obj.toTrash])
    · exact hs
  | act a =>
    rw [Daemon.event]
    obtain ⟨s', hstep, he⟩ := step_ends ω filters checks s a
    rw [he]
    cases hstep with
    | ignored => exact hs
    | expire gone => exact ⟨hs.ids, hs.root⟩
    | restart h => exact h.rooted hω hs.ids (hs.root.imp_right And.right) s.log
    | upload disk path halive h =>
      have hids : SyncedIds (s.world.withDisk disk).objs := hs.ids
      refine ⟨hids.grows (h.grows (U := fun _ => True) trivial), ?_⟩
      rcases hs.root with hroot | ⟨hdead, -⟩
      · have hstart : HasRoot (s.world.withDisk disk).objs := hroot
        exact Or.inl (hstart.mono h.starts_with.subset)
      · exact absurd (hdead.symm.trans halive) (by simp)

theorem rooted_runEvents (hω : Faultless ω) (filters : List Str) {objs : List Obj}
    (hobjs : Unsynced objs) (events : List Event) :
    Rooted (runEvents ω filters checks objs events) := by
  induction events using List.reverseRecOn with
  | nil =>
    obtain ⟨r, w', h, he⟩ := start_ends ω filters checks (.fresh objs) []
    rw [show runEvents ω filters checks objs [] = _ from he]
    exact h.rooted hω (fun _ _ p hp hne => absurd (hobjs p hp) hne)
      (Or.inr (carriers_of_unsynced hobjs _)) []
  | append_singleton events e ih =>
    rw [runEvents_snoc]
    exact ih.event hω filters e

end PiDriveSync
