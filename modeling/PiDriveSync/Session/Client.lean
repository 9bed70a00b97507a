import PiDriveSync.Session.Grammar

/-!
# The client speaks the grammar

Each part of the client is taken through its branches once, for an arbitrary hub and
machine, and every branch is a constructor of its family.  `uploadFile_asks` and
`startup_asks` are what the modules after this one use.
-/

namespace PiDriveSync

open UnixPath Fallible

section Client

variable {σ : Type} [Base64] (c : Drive3Client σ)

omit [Base64] in
/-- A client has a hub, or none. -/
theorem getHub_cases : (∃ hub, c.hub = .ok hub ∧ c.getHub = .ok hub) ∨
    (∀ hub, c.hub ≠ .ok hub) ∧ c.getHub = .error .noAppSecret := by
  cases h : c.hub with
  | ok hub => exact Or.inl ⟨hub, rfl, by rw [Drive3Client.getHub, h]⟩
  | error e => exact Or.inr ⟨by simp, by rw [Drive3Client.getHub, h]⟩

theorem id_asks {path k : Str} (h : (SyncableFile.mk path).getUniqueId = .ok k) :
    Logs World.trace (c.id path) (IdAsks c k) := by
  rw [Drive3Client.id, h, ofExcept_ok, pure_bind_eq]
  rcases getHub_cases c with ⟨hub, hhub, hget⟩ | ⟨hoff, hget⟩
  · rw [hget, ofExcept_ok, pure_bind_eq]
    refine (hubList_logs hub _).bind ?_ (by simp) (by simp)
    rintro reply _ ⟨_, rfl, ⟨⟩⟩
    rcases reply with e | _ | files
    · exact .fail _ (.failed hub hhub e)
    · exact .pure _ (.nothing hub hhub none rfl)
    · rcases files.eq_nil_or_concat' with rfl | ⟨files, file, rfl⟩
      · exact .pure _ (.nothing hub hhub (some []) rfl)
      · have hlast : lastFile (.ok (some (files ++ [file]))) = some file := by simp [lastFile]
        simp only [List.getLast?_concat, List.dropLast_concat]
        cases hi : file.id with
        | none => exact .abort (.nameless hub hhub _ file hlast hi)
        | some i =>
          have hend := IdAsks.found (k := k) hub hhub _ file i hlast hi
          rw [warning, Option.getD_some, List.length_append, List.length_singleton] at hend
          rw [unwrapOption_some, pure_bind_eq]
          by_cases hmore : 1 < files.length
          · rw [if_pos hmore]
            rw [if_pos (by omega)] at hend
            refine (warnMoreThanOne_logs k).bind ?_ (by simp) (by simp)
            rintro _ _ ⟨rfl, -⟩
            exact .pure _ hend
          · rw [if_neg hmore]
            rw [if_neg (by omega)] at hend
            exact .pure _ hend
  · rw [hget, ofExcept_error, fail_bind_eq]
    exact .fail _ (.offline hoff)

/-- A lookup whose error is dropped. -/
theorem attemptOk_id_asks {path k : Str} (h : (SyncableFile.mk path).getUniqueId = .ok k) :
    Logs World.trace ((c.id path).attemptOk : Sync σ (Option (Option Str))) fun r calls =>
      (∃ o, r = .ok (some o) ∧ IdAsks c k (.ok o) calls) ∨
        (∃ e, r = .ok none ∧ IdAsks c k (.err e) calls) ∨
        r = .panic ∧ IdAsks c k .panic calls :=
  (id_asks c h).attemptOk (fun o _ hc => Or.inl ⟨o, rfl, hc⟩)
    (fun e _ hc => Or.inr (Or.inl ⟨e, rfl, hc⟩)) fun _ hc => Or.inr (Or.inr ⟨rfl, hc⟩)

theorem createDir_asks {path k : Str} (h : (SyncableFile.mk path).getUniqueId = .ok k)
    (parentId : Option Str) :
    Logs World.trace (c.createDir path parentId) (CreateAsks c path k parentId) := by
  rw [Drive3Client.createDir]
  refine (tempfile_logs c.machine).bind ?_ (by simp) (by simp)
  rintro _ _ ⟨made, rfl, ⟨⟩⟩
  rw [h, ofExcept_ok, pure_bind_eq]
  rcases getHub_cases c with ⟨hub, -, hget⟩ | ⟨hoff, hget⟩
  · rw [hget, ofExcept_ok, pure_bind_eq]
    cases made with
    | false => exact .abort .noTempfile
    | true =>
      rw [if_pos rfl, unwrapExcept_ok, pure_bind_eq]
      refine (hubCreate_logs hub _ _).bind ?_ (by simp) (by simp)
      rintro reply _ ⟨_, rfl, ⟨⟩⟩
      rcases reply with e | file
      · exact .fail _ (.failed e)
      · simp only [unwrapExcept_ok, pure_bind_eq]
        cases hi : file.id with
        | none => exact .abort (.nameless file hi)
        | some i =>
          rw [unwrapOption_some, pure_bind_eq]
          refine (cacheInsert_logs k i).bind ?_ (by simp) (by simp)
          rintro _ _ ⟨rfl, -⟩
          exact .pure _ (.made file i hi)
  · rw [hget, ofExcept_error, fail_bind_eq]
    exact .fail _ (.offline made hoff)

/-- In `createPath`, an error and an answer without an object come to the same. -/
theorem lookup_asks {path k : Str} (h : (SyncableFile.mk path).getUniqueId = .ok k) :
    Logs World.trace ((c.id path).attemptOk : Sync σ (Option (Option Str))) fun r calls =>
      (∃ i, r = .ok (some (some i)) ∧ IdAsks c k (.ok (some i)) calls) ∨
        (∃ answer, r = .ok answer ∧ (answer.bind fun o => o) = none ∧
          ∃ r', IdAsks c k r' calls ∧ Unanswered r') ∨
        r = .panic ∧ IdAsks c k .panic calls := by
  refine (attemptOk_id_asks c h).mono ?_
  rintro r calls (⟨_ | i, rfl, hc⟩ | ⟨e, rfl, hc⟩ | hc)
  · exact Or.inr (Or.inl ⟨_, rfl, rfl, _, hc, Or.inl rfl⟩)
  · exact Or.inl ⟨i, rfl, hc⟩
  · exact Or.inr (Or.inl ⟨_, rfl, rfl, _, hc, Or.inr ⟨e, rfl⟩⟩)
  · exact Or.inr (Or.inr hc)

/-- The creation of a folder, when its error is looked at. -/
theorem attempt_createDir_asks {path k : Str} (h : (SyncableFile.mk path).getUniqueId = .ok k)
    (parentId : Option Str) :
    Logs World.trace ((c.createDir path parentId).attempt :
      Sync σ (Except SyncerErrors (Option Str))) fun r calls =>
        ∃ r', CreateAsks c path k parentId r' calls ∧ r.returned = r'.returned ∧
          ∀ e, r ≠ .err e :=
  (createDir_asks c h parentId).attempt (fun _ _ hc => ⟨_, hc, rfl, by simp⟩)
    (fun _ _ hc => ⟨_, hc, rfl, by simp⟩) fun _ hc => ⟨_, hc, rfl, by simp⟩

/-- **One directory.** -/
theorem ensureDir_asks {lastDir d k pk : Str}
    (hk : (SyncableFile.mk (lastDir ++ d)).getUniqueId = .ok k)
    (hpk : (SyncableFile.mk lastDir).getUniqueId = .ok pk) :
    Logs World.trace (c.ensureDir lastDir d) (EnsureAsks c (lastDir ++ d) k pk) := by
  rw [Drive3Client.ensureDir, hk, ofExcept_ok, pure_bind_eq, unwrapExcept_ok, pure_bind_eq]
  refine (containsKey_logs c.machine k).bind ?_ (by simp) (by simp)
  rintro hit _ ⟨_, rfl, ⟨⟩⟩
  cases hit with
  | true => exact .pure _ .hit
  | false =>
    refine (lookup_asks c hk).bind ?_ (by simp) ?_
    · rintro answer calls (⟨i, heq, h⟩ | ⟨_, heq, hnone, r, h, hr⟩ | ⟨heq, -⟩)
      · rw [Outcome.ok.inj heq]
        refine (cacheInsert_logs k i).mono ?_
        rintro _ _ ⟨rfl, rfl⟩
        simpa using EnsureAsks.found i calls h
      · obtain rfl := Outcome.ok.inj heq
        simp only [hnone]
        refine (lookup_asks c hpk).bind ?_ (by simp) ?_
        · rintro answer' calls' (⟨g, heq', h'⟩ | ⟨_, heq', hnone', r', h', hr'⟩ | ⟨heq', -⟩)
          · rw [Outcome.ok.inj heq']
            simp only [Option.bind_some, unwrapOption_some, pure_bind_eq]
            -- however the creation ends, nothing is asked after it
            have hend : ∀ r₁ r₂ made, CreateAsks c (lastDir ++ d) k (some g) r₁ made →
                r₂ = (if r₁.returned then .ok () else .panic) →
                EnsureAsks c (lastDir ++ d) k pk r₂
                  ([.containsKey k false] ++ (calls ++ (calls' ++ made))) := by
              rintro r₁ r₂ made hmade rfl
              exact .create g r r₁ calls calls' made h hr h' hmade
            refine (attempt_createDir_asks c hk (some g)).bind ?_ ?_ ?_
            · rintro answer made ⟨r₁, hmade, hreturned, -⟩
              have hok : (.ok () : Outcome SyncerErrors Unit) =
                  if r₁.returned then .ok () else .panic := by
                rw [← hreturned]
                rfl
              rcases answer with e | _ | i
              · exact .pure _ (by simpa using hend r₁ _ made hmade hok)
              · exact .pure _ (by simpa using hend r₁ _ made hmade hok)
              · refine (cacheInsert_logs k i).mono ?_
                rintro _ _ ⟨rfl, rfl⟩
                simpa using hend r₁ _ made hmade hok
            · rintro e made ⟨-, -, -, hno⟩
              exact absurd rfl (hno e)
            · rintro made ⟨r₁, hmade, hreturned, -⟩
              refine hend r₁ _ made hmade ?_
              rw [← hreturned]
              rfl
          · obtain rfl := Outcome.ok.inj heq'
            rw [hnone']
            refine .abort ?_
            rw [List.append_nil]
            refine .orphan r r' calls calls' h hr h' ?_
            rintro g rfl
            rcases hr' with hr' | ⟨e, hr'⟩ <;> exact absurd hr' (by simp)
          · exact absurd heq' (by simp)
        · rintro calls' (⟨g, heq', -⟩ | ⟨_, heq', -⟩ | ⟨-, h'⟩)
          · exact absurd heq' (by simp)
          · exact absurd heq' (by simp)
          · exact .orphan r _ calls calls' h hr h' (by simp)
      · exact absurd heq (by simp)
    · rintro calls (⟨i, heq, -⟩ | ⟨_, heq, -⟩ | ⟨-, h⟩)
      · exact absurd heq (by simp)
      · exact absurd heq (by simp)
      · exact .crashed calls h

/-- **The walk.** -/
theorem ensureAll_asks {done dirs : List Str} (hdone : ∀ c ∈ done, Solid c)
    (hdirs : ∀ c ∈ dirs, Solid c) :
    Logs World.trace (ensureAll c done dirs) (WalkAsks c done dirs) := by
  induction dirs generalizing done with
  | nil => exact .pure _ (.nil done)
  | cons d dirs ih =>
    have hsnoc : ∀ c ∈ done ++ [d], Solid c := by
      intro c hc
      rcases List.mem_append.mp hc with hc | hc
      · exact hdone c hc
      · exact hdirs c (List.mem_cons.mpr (Or.inl (List.mem_singleton.mp hc)))
    have hk : (SyncableFile.mk (dirPrefix done ++ d)).getUniqueId = .ok (keyOf (done ++ [d])) := by
      rw [dirPrefix_append]
      exact getUniqueId_below hsnoc
    have hfirst := ensureDir_asks c hk (getUniqueId_dirPrefix hdone)
    rw [dirPrefix_append] at hfirst
    refine hfirst.bind ?_ ?_ ?_
    · intro _ calls h
      exact (ih hsnoc fun c hc => hdirs c (List.mem_cons_of_mem _ hc)).mono
        fun r calls' hrest => .cons h hrest
    · exact fun e calls h => absurd h.ok_or_panic (by simp)
    · exact fun calls h => .stop h

/-! ### The file -/

/-- Without a name, or a parent with a unique id, nothing is asked. -/
theorem placeFile_unnamed {path : Str} (h : ∀ name pk, ¬ PlaceKeys path name pk) :
    Logs World.trace (c.placeFile path) (PlaceAsks c path) := by
  rw [Drive3Client.placeFile]
  cases hpp : (SyncableFile.mk path).parentPath with
  | error e => exact .abort (.unnamed h)
  | ok pp =>
    rw [unwrapExcept_ok, pure_bind_eq, SyncableFile.localPath]
    cases hname : fileName path with
    | none => exact .abort (.unnamed h)
    | some name =>
      rw [unwrapOption_some, pure_bind_eq, pure_bind_eq]
      have hfails : ∃ e, c.id pp = fail e :=
        id_fails c fun k hub hk _ => h name k ⟨pp, hpp, hname, hk⟩
      obtain ⟨e, he⟩ := hfails
      rw [he]
      exact .abort (.unnamed h)

/-- **The file.** -/
theorem placeFile_asks (path : Str) :
    Logs World.trace (c.placeFile path) (PlaceAsks c path) := by
  by_cases hunnamed : ∀ name pk, ¬ PlaceKeys path name pk
  · exact placeFile_unnamed c hunnamed
  · push Not at hunnamed
    obtain ⟨name, pk, hkeys⟩ := hunnamed
    obtain ⟨pp, hpp, hname, hpk⟩ := hkeys
    have hkeys : PlaceKeys path name pk := ⟨pp, hpp, hname, hpk⟩
    rw [Drive3Client.placeFile, hpp, unwrapExcept_ok, pure_bind_eq, SyncableFile.localPath, hname,
      unwrapOption_some, pure_bind_eq, pure_bind_eq]
    refine (attemptOk_id_asks c hpk).bind ?_ (by simp) ?_
    · rintro answer calls (⟨parentId, heq, h⟩ | ⟨e, heq, h⟩ | ⟨heq, -⟩)
      · rw [Outcome.ok.inj heq, unwrapOption_some, pure_bind_eq]
        cases hk : (SyncableFile.mk path).getUniqueId with
        | error e =>
          rw [ofExcept_error, fail_bind_eq]
          refine .fail e ?_
          rw [List.append_nil]
          exact .noUid name pk hkeys parentId calls h e hk
        | ok k =>
          -- the drive has answered, so there is a hub
          obtain ⟨hub, hhub⟩ := h.online
          have hget : c.getHub = .ok hub := by rw [Drive3Client.getHub, hhub]
          rw [ofExcept_ok, pure_bind_eq]
          refine Logs.mono (Q := FileAsks path name k parentId) ?_ fun r calls' h' =>
            .file name pk k hkeys hk parentId r calls calls' h h'
          refine (openFile_logs c.machine path).bind ?_ (by simp) (by simp)
          rintro opened _ ⟨_, rfl, ⟨⟩⟩
          cases opened with
          | none => exact .fail _ .unreadable
          | some _ =>
            simp only [hget, ofExcept_ok, pure_bind_eq]
            refine (openFile_logs c.machine path).bind ?_ (by simp) (by simp)
            rintro opened _ ⟨_, rfl, ⟨⟩⟩
            cases opened with
            | none => exact .abort .vanished
            | some content =>
              rw [unwrapOption_some, pure_bind_eq]
              refine (hubCreate_logs hub _ content).bind ?_ (by simp) (by simp)
              rintro reply _ ⟨_, rfl, ⟨⟩⟩
              rcases reply with e | file
              · exact .fail _ (.failed e)
              · cases hi : file.id with
                | none =>
                  simp only [hi, unwrapOption_none, abort_bind_eq]
                  exact .abort (.nameless file hi)
                | some i =>
                  simp only [hi, unwrapOption_some, pure_bind_eq]
                  exact .pure _ (.made file i hi)
      · rw [Outcome.ok.inj heq]
        refine .abort ?_
        rw [List.append_nil]
        exact .unanswered name pk hkeys _ calls h (by simp)
      · exact absurd heq (by simp)
    · rintro calls (⟨o, heq, -⟩ | ⟨e, heq, -⟩ | ⟨-, h⟩)
      · exact absurd heq (by simp)
      · exact absurd heq (by simp)
      · exact .unanswered name pk hkeys _ calls h (by simp)

/-- **Every upload is in the grammar.** -/
theorem uploadFile_asks (path : Str) :
    Logs World.trace (c.uploadFile path) (UploadAsks c path) := by
  rw [Drive3Client.uploadFile, createPath_eq]
  rcases hrel : relComponents path with _ | cs
  · exact fun _ => ⟨[], (List.append_nil _).symm, .outside hrel⟩
  · rcases cs.eq_nil_or_concat' with rfl | ⟨dirs, f, rfl⟩
    · rw [createPathOf]
      cases hc : c.machine.overflowChecks with
      | true => exact .abort (.rootChecked hrel hc)
      | false => exact (placeFile_asks c path).mono fun r calls h => .root hrel hc h
    · have hsolid := solid_of_relComponents hrel
      obtain ⟨d, cs, hcons⟩ := List.exists_cons_of_ne_nil (show dirs ++ [f] ≠ [] by simp)
      rw [hcons, createPathOf, ← hcons, List.dropLast_concat]
      have hwalk : Logs World.trace (ensureAll c [] dirs) (WalkAsks c [] dirs) :=
        ensureAll_asks c (by simp) fun c hc => hsolid c (List.mem_append_left _ hc)
      have hpath : Logs World.trace ((ensureAll c [] dirs >>= fun _ => pure true).attemptOk :
          Sync σ (Option Bool)) fun r calls =>
            (∃ o, r = .ok o ∧ WalkAsks c [] dirs (.ok ()) calls) ∨
              r = .panic ∧ WalkAsks c [] dirs .panic calls := by
        refine (hwalk.bind (Q := fun r calls => (∃ b, r = .ok b ∧ WalkAsks c [] dirs (.ok ()) calls)
          ∨ r = .panic ∧ WalkAsks c [] dirs .panic calls) ?_ ?_ ?_).attemptOk ?_ ?_ ?_
        · exact fun _ calls hw => .pure _ (Or.inl ⟨_, rfl, by rwa [List.append_nil]⟩)
        · exact fun e calls hw => absurd hw.ok_or_panic (by simp)
        · exact fun calls hw => Or.inr ⟨rfl, hw⟩
        · rintro b calls (⟨_, -, hw⟩ | ⟨heq, -⟩)
          · exact Or.inl ⟨_, rfl, hw⟩
          · exact absurd heq (by simp)
        · rintro e calls (⟨_, heq, -⟩ | ⟨heq, -⟩) <;> exact absurd heq (by simp)
        · rintro calls (⟨_, heq, -⟩ | ⟨-, hw⟩)
          · exact absurd heq (by simp)
          · exact Or.inr ⟨rfl, hw⟩
      refine hpath.bind ?_ ?_ ?_
      · rintro o calls (⟨_, -, hw⟩ | ⟨heq, -⟩)
        · exact (placeFile_asks c path).mono fun r calls' hp => .placed hrel hw hp
        · exact absurd heq (by simp)
      · rintro e calls (⟨_, heq, -⟩ | ⟨heq, -⟩) <;> exact absurd heq (by simp)
      · rintro calls (⟨_, heq, -⟩ | ⟨-, hw⟩)
        · exact absurd heq (by simp)
        · exact .crashed hrel hw

/-- **Every start is in the grammar.** -/
theorem startup_asks : Logs World.trace (startup c) (StartAsks c) := by
  have hroot : rootRemoteDir = below [] := by decide +kernel
  have hk : (SyncableFile.mk (below [])).getUniqueId = .ok (keyOf []) := getUniqueId_below (by simp)
  rw [startup, hroot]
  rcases getHub_cases c with ⟨hub, -, hget⟩ | ⟨hoff, hget⟩
  · rw [hget, ofExcept_ok, pure_bind_eq]
    refine ((id_asks c hk).attempt (Q := fun r calls => ∃ r', IdAsks c (keyOf []) r' calls ∧
      ((∃ o, r' = .ok o ∧ r = .ok (.ok o)) ∨ (∃ e, r' = .err e ∧ r = .ok (.error e)) ∨
        r' = .panic ∧ r = .panic)) ?_ ?_ ?_).bind ?_ ?_ ?_
    · exact fun o _ hc => ⟨_, hc, Or.inl ⟨o, rfl, rfl⟩⟩
    · exact fun e _ hc => ⟨_, hc, Or.inr (Or.inl ⟨e, rfl, rfl⟩)⟩
    · exact fun _ hc => ⟨_, hc, Or.inr (Or.inr ⟨rfl, rfl⟩)⟩
    · rintro answer calls ⟨r, h, ⟨o, rfl, heq⟩ | ⟨e, rfl, heq⟩ | ⟨-, heq⟩⟩
      · rw [Outcome.ok.inj heq]
        cases o with
        | some i =>
          refine .pure _ ?_
          rw [List.append_nil]
          exact .known i calls h
        | none =>
          refine (attempt_createDir_asks c hk none).bind ?_ ?_ ?_
          · rintro _ made ⟨r', hmade, hreturned, -⟩
            refine .pure _ ?_
            have hend := StartAsks.create r' calls made h hmade
            rw [← hreturned] at hend
            simpa [Outcome.returned] using hend
          · rintro e made ⟨-, -, -, hno⟩
            exact absurd rfl (hno e)
          · rintro made ⟨r', hmade, hreturned, -⟩
            have hend := StartAsks.create r' calls made h hmade
            rw [← hreturned] at hend
            exact hend
      · rw [Outcome.ok.inj heq]
        refine .pure _ ?_
        rw [List.append_nil]
        exact .failed e calls h
      · exact absurd heq (by simp)
    · rintro e calls ⟨r, -, ⟨o, -, heq⟩ | ⟨e', -, heq⟩ | ⟨-, heq⟩⟩ <;> exact absurd heq (by simp)
    · rintro calls ⟨r, h, ⟨o, -, heq⟩ | ⟨e', -, heq⟩ | ⟨rfl, -⟩⟩
      · exact absurd heq (by simp)
      · exact absurd heq (by simp)
      · exact .crashed calls h
  · rw [hget, ofExcept_error, fail_bind_eq]
    exact .fail _ (.offline hoff)

end Client

end PiDriveSync
