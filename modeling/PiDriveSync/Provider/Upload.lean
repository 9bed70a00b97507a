import PiDriveSync.Provider.Behaviour

/-!
# Everything an upload, and a start, can do to the drive

`WalkEnds` puts the directories of `createPath` one behind the other and stops at the
first panic; `UploadEnds` puts the file behind them.  `StartEnds` is what the program
does before it watches.  As for the parts, `uploadFile_ends` and `startup_ends` say
that nothing else can happen.
-/

namespace PiDriveSync

open UnixPath Fallible

section

variable [Base64] (ω : Schedule) (filters : List Str) (checks : Bool)

/-! ## The walk over the directories -/

/-- How the walk over `dirs` below `done` can end. -/
inductive WalkEnds (ω : Schedule) :
    List Str → List Str → DriveWorld → Outcome SyncerErrors Unit → DriveWorld → Prop
  | nil (done : List Str) (w : DriveWorld) : WalkEnds ω done [] w (.ok ()) w
  | cons {done dirs : List Str} {d : Str} {w w₁ w' : DriveWorld}
      {r : Outcome SyncerErrors Unit}
      (h : EnsureEnds ω (below (done ++ [d])) (keyOf (done ++ [d])) (keyOf done) w (.ok ()) w₁)
      (rest : WalkEnds ω (done ++ [d]) dirs w₁ r w') : WalkEnds ω done (d :: dirs) w r w'
  | stop {done dirs : List Str} {d : Str} {w w' : DriveWorld}
      (h : EnsureEnds ω (below (done ++ [d])) (keyOf (done ++ [d])) (keyOf done) w .panic w') :
      WalkEnds ω done (d :: dirs) w .panic w'

omit [Base64] in
/-- The body of the loop never passes an error on. -/
theorem EnsureEnds.ok_or_panic {path k pk : Str} {w w' : DriveWorld}
    {r : Outcome SyncerErrors Unit} (h : EnsureEnds ω path k pk w r w') :
    r = .ok () ∨ r = .panic := by
  cases h with
  | hit => exact Or.inl rfl
  | found => exact Or.inl rfl
  | orphan => exact Or.inr rfl
  | create g r =>
    cases r.returned with
    | false => exact Or.inr rfl
    | true => exact Or.inl rfl

theorem ensureAll_ends {done dirs : List Str} (hdone : ∀ c ∈ done, Solid c)
    (hdirs : ∀ c ∈ dirs, Solid c) (w : DriveWorld) :
    Ends (ensureAll (driveClient ω filters checks) done dirs) w (WalkEnds ω done dirs w) := by
  induction dirs generalizing done w with
  | nil => exact .nil done w
  | cons d dirs ih =>
    have hsnoc : ∀ c ∈ done ++ [d], Solid c := by
      intro c hc
      rcases List.mem_append.mp hc with hc | hc
      · exact hdone c hc
      · exact hdirs c (List.mem_cons.mpr (Or.inl (List.mem_singleton.mp hc)))
    have hk : (SyncableFile.mk (dirPrefix done ++ d)).getUniqueId = .ok (keyOf (done ++ [d])) := by
      rw [dirPrefix_append]
      exact getUniqueId_below hsnoc
    have hfirst := ensureDir_ends ω filters checks hk (getUniqueId_dirPrefix hdone) w
    rw [dirPrefix_append] at hfirst
    refine Ends.bind hfirst ?_ ?_ ?_
    · intro _ w₁ h
      exact (ih hsnoc (fun c hc => hdirs c (List.mem_cons_of_mem _ hc)) w₁).mono
        fun r w' hrest => .cons h hrest
    · intro e w' h
      rcases h.ok_or_panic with h | h <;> exact absurd h (by simp)
    · intro w' h
      exact .stop h

/-! ## An upload -/

/-- How an upload can end. -/
inductive UploadEnds (ω : Schedule) (checks : Bool) (path : Str) (w : DriveWorld) :
    Outcome SyncerErrors (Option Str) → DriveWorld → Prop
  /-- The path is not below the watched directory: a panic. -/
  | outside (h : relComponents path = none) : UploadEnds ω checks path w .panic w
  /-- The path is the watched directory: a panic when arithmetic is checked. -/
  | rootChecked (h : relComponents path = some []) (hc : checks = true) :
      UploadEnds ω checks path w .panic w
  | root (h : relComponents path = some []) (hc : checks = false)
      {r : Outcome SyncerErrors (Option Str)} {w' : DriveWorld} (hp : PlaceEnds ω path w r w') :
      UploadEnds ω checks path w r w'
  /-- The walk over the directories panics. -/
  | crashed {dirs : List Str} {f : Str} (h : relComponents path = some (dirs ++ [f]))
      {w' : DriveWorld} (hw : WalkEnds ω [] dirs w .panic w') :
      UploadEnds ω checks path w .panic w'
  | placed {dirs : List Str} {f : Str} (h : relComponents path = some (dirs ++ [f]))
      {w₁ w' : DriveWorld} {r : Outcome SyncerErrors (Option Str)}
      (hw : WalkEnds ω [] dirs w (.ok ()) w₁) (hp : PlaceEnds ω path w₁ r w') :
      UploadEnds ω checks path w r w'

theorem WalkEnds.ok_or_panic {ω : Schedule} {done dirs : List Str} {w w' : DriveWorld}
    {r : Outcome SyncerErrors Unit} (h : WalkEnds ω done dirs w r w') :
    r = .ok () ∨ r = .panic := by
  induction h with
  | nil => exact Or.inl rfl
  | cons _ _ ih => exact ih
  | stop => exact Or.inr rfl

/-- **Nothing else can happen in an upload.** -/
theorem uploadFile_ends (path : Str) (w : DriveWorld) :
    Ends ((driveClient ω filters checks).uploadFile path) w (UploadEnds ω checks path w) := by
  rw [Drive3Client.uploadFile, createPath_eq]
  rcases hrel : relComponents path with _ | cs
  · exact .outside hrel
  · rcases cs.eq_nil_or_concat' with rfl | ⟨dirs, f, rfl⟩
    · cases checks with
      | true => exact .rootChecked hrel rfl
      | false => exact (placeFile_ends ω filters false path w).mono fun r w' h => .root hrel rfl h
    · have hsolid := solid_of_relComponents hrel
      have hwalk : Ends (ensureAll (driveClient ω filters checks) [] dirs) w
          (WalkEnds ω [] dirs w) :=
        ensureAll_ends ω filters checks (by simp)
          (fun c hc => hsolid c (List.mem_append_left _ hc)) w
      have hpath : createPathOf (driveClient ω filters checks) (some (dirs ++ [f])) =
          (do ensureAll (driveClient ω filters checks) [] dirs; pure true) := by
        obtain ⟨d, cs, hcons⟩ := List.exists_cons_of_ne_nil
          (show dirs ++ [f] ≠ [] by simp)
        rw [hcons, createPathOf, ← hcons, List.dropLast_concat]
      have hcreate : Ends (createPathOf (driveClient ω filters checks) (some (dirs ++ [f]))) w
          (fun r w' => (r = .ok true ∧ WalkEnds ω [] dirs w (.ok ()) w') ∨
            (r = .panic ∧ WalkEnds ω [] dirs w .panic w')) := by
        rw [hpath]
        refine Ends.bind hwalk ?_ ?_ ?_
        · exact fun _ w' h => Or.inl ⟨rfl, h⟩
        · intro e w' h
          rcases h.ok_or_panic with h | h <;> exact absurd h (by simp)
        · exact fun w' h => Or.inr ⟨rfl, h⟩
      have hwalked : Ends (createPathOf (driveClient ω filters checks)
          (some (dirs ++ [f]))).attemptOk w
          (fun (r : Outcome SyncerErrors (Option Bool)) w' =>
            (r = .ok (some true) ∧ WalkEnds ω [] dirs w (.ok ()) w') ∨
              (r = .panic ∧ WalkEnds ω [] dirs w .panic w')) := by
        refine Ends.attemptOk hcreate ?_ ?_ ?_ <;> simp
      refine Ends.bind hwalked ?_ (by simp) ?_
      · rintro a w₁ (⟨-, h⟩ | ⟨h, -⟩)
        · exact (placeFile_ends ω filters checks path w₁).mono fun r w' hp => .placed hrel h hp
        · exact absurd h (by simp)
      · rintro w' (⟨h, -⟩ | ⟨-, h⟩)
        · exact absurd h (by simp)
        · exact .crashed hrel h

/-! ## The start -/

/-- How the program can start, from an empty cache.  It goes on to watch unless the
creation of the root folder panics. -/
inductive StartEnds (ω : Schedule) (w : DriveWorld) :
    Outcome SyncerErrors Unit → DriveWorld → Prop
  /-- The drive has the root folder. -/
  | known (v : Str) (hv : lookup (ω w.tick) w.objs (keyOf []) = some v) :
      StartEnds ω w (.ok ()) (w.sought ω (keyOf []))
  /-- The drive does not answer. -/
  | unanswered (hf : (ω w.tick).fault ≠ .none) : StartEnds ω w (.ok ()) (w.sought ω (keyOf []))
  /-- There is no root folder yet. -/
  | create (hf : (ω w.tick).fault = .none) (hnone : carriers w.objs (keyOf []) = [])
      (r : Outcome SyncerErrors (Option Str)) (w' : DriveWorld)
      (h : CreateEnds ω (below []) (keyOf []) none (w.sought ω (keyOf [])) r w') :
      StartEnds ω w (if r.returned then .ok () else .panic) w'

theorem startup_ends (w : DriveWorld) :
    Ends (startup (driveClient ω filters checks)) w (StartEnds ω w) := by
  have hroot : rootRemoteDir = below [] := by decide +kernel
  have hk : (SyncableFile.mk (below [])).getUniqueId = .ok (keyOf []) := getUniqueId_below (by simp)
  have hid : (((driveClient ω filters checks).id (below [])).attempt :
      Sync DriveState (Except SyncerErrors (Option Str))) w =
      (.ok (if (ω w.tick).fault = .none then .ok (pick (ω w.tick) w.objs (keyOf []))
        else .error .providerError), w.sought ω (keyOf [])) := by
    unfold Fallible.attempt
    rw [id_run hk]
    split_ifs <;> rfl
  rw [startup, driveClient_getHub, ofExcept_ok, pure_bind_eq, hroot]
  unfold Ends
  rw [bind_run_ok hid]
  by_cases hf : (ω w.tick).fault = .none
  · rw [if_pos hf]
    cases hp : pick (ω w.tick) w.objs (keyOf []) with
    | some v => exact .known v (by rw [lookup, if_pos hf, hp])
    | none =>
      have hcreate := createDir_ends ω filters checks hk none (w.sought ω (keyOf []))
      have hattempt : Ends (((driveClient ω filters checks).createDir (below []) none).attempt :
          Sync DriveState (Except SyncerErrors (Option Str))) (w.sought ω (keyOf []))
          (fun r w' => StartEnds ω w (if r.returned then .ok () else .panic) w' ∧
            ∀ e, r ≠ .err e) := by
        have hend := fun r w' h => StartEnds.create hf (pick_eq_none.mp hp) r w' h
        refine Ends.attempt hcreate ?_ ?_ ?_
        · exact fun a w' h => ⟨hend _ _ h, by simp⟩
        · exact fun e w' h => ⟨hend _ _ h, by simp⟩
        · exact fun w' h => ⟨hend _ _ h, by simp⟩
      refine Ends.bind hattempt ?_ ?_ ?_
      · exact fun a w' h => h.1
      · exact fun e w' h => absurd rfl (h.2 e)
      · exact fun w' h => h.1
  · rw [if_neg hf]
    exact .unanswered hf

end

end PiDriveSync
