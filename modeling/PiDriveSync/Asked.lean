import PiDriveSync.CreatePath
import PiDriveSync.Effects.Logged

/-!
# What the client asks

Every call of the client adds what it asks, with the answers, to the trace of the world.
The hub and the machine are arbitrary here.

* `id_asked`: a lookup asks one query, the one for the unique id of its path.
* `uploadFile_requests`, `createDir_requests`: a request for a folder carries the unique id
  of the folder's path, and a request for a file that of the file's path.
-/

namespace PiDriveSync

open UnixPath Fallible

/-- The calls noted down on the way from `w` to `w'`. -/
def callsSince {σ : Type} (w w' : World σ) : List Call :=
  w'.trace.drop w.trace.length

theorem callsSince_of_trace {σ : Type} {w w' : World σ} {calls : List Call}
    (h : w'.trace = w.trace ++ calls) : callsSince w w' = calls := by
  rw [callsSince, h, List.drop_left]

/-- What a call says of the entries it adds, it says of the calls since it was started. -/
theorem logs_callsSince {σ α : Type} {m : Sync σ α} {Q : Outcome SyncerErrors α → List Call → Prop}
    (h : Logs World.trace m Q) (w : World σ) : Q (m w).1 (callsSince w (m w).2) := by
  obtain ⟨calls, htrace, hQ⟩ := h w
  rwa [callsSince_of_trace htrace]

section Machine

variable {σ : Type} (hub : Hub σ) (machine : Machine σ)

theorem tempfile_logs : Logs World.trace (tempfile machine) fun r calls =>
    ∃ made : Bool, calls = [.tempfile made] ∧
      r = .ok (if made then .ok () else .error .invalidPathError) :=
  fun _ => ⟨_, rfl, _, rfl, rfl⟩

theorem openFile_logs (path : Str) : Logs World.trace (openFile machine path) fun r calls =>
    ∃ content : Option Bytes, calls = [.openFile path content.isSome] ∧ r = .ok content :=
  fun _ => ⟨_, rfl, _, rfl, rfl⟩

theorem hubList_logs (q : Str) : Logs World.trace (hubList hub q) fun r calls =>
    ∃ reply, calls = [.list q reply] ∧ r = .ok reply :=
  fun _ => ⟨_, rfl, _, rfl, rfl⟩

theorem hubCreate_logs (req : File) (content : Bytes) :
    Logs World.trace (hubCreate hub req content) fun r calls =>
      ∃ reply, calls = [.create req reply] ∧ r = .ok reply :=
  fun _ => ⟨_, rfl, _, rfl, rfl⟩

theorem containsKey_logs (k : Str) : Logs World.trace (containsKey machine k) fun r calls =>
    ∃ hit, calls = [.containsKey k hit] ∧ r = .ok hit :=
  fun _ => ⟨_, rfl, _, rfl, rfl⟩

theorem cacheInsert_logs (k v : Str) :
    Logs World.trace (cacheInsert k v : Sync σ Unit) fun r calls => calls = [] ∧ r = .ok () :=
  fun _ => ⟨[], (List.append_nil _).symm, rfl, rfl⟩

theorem warnMoreThanOne_logs (k : Str) :
    Logs World.trace (warnMoreThanOne k : Sync σ Unit) fun r calls =>
      calls = [.moreThanOne k] ∧ r = .ok () :=
  fun _ => ⟨_, rfl, rfl, rfl⟩

end Machine

/-! ## The requests of a call -/

/-- If the call is a request, it is one with the property `R`. -/
def Requests (R : File → Prop) : Call → Prop
  | .create req _ => R req
  | _ => True

/-- The call asks the drive to search. -/
def IsQuery : Call → Prop
  | .list _ _ => True
  | _ => False

section Client

variable {σ : Type} {R : File → Prop} [Base64] (c : Drive3Client σ)

/-- **A lookup** asks one query, the one for the unique id of its path.  The warning may
follow. -/
theorem id_asked {path k : Str} {hub : Hub σ} (hk : (SyncableFile.mk path).getUniqueId = .ok k)
    (hhub : c.hub = .ok hub) : Logs World.trace (c.id path) fun _ calls =>
      ∃ reply rest, calls = .list (Drive3Client.idQuery k) reply :: rest ∧
        ∀ call ∈ rest, call = .moreThanOne k := by
  have hget : c.getHub = .ok hub := by rw [Drive3Client.getHub, hhub]
  rw [Drive3Client.id, hk, ofExcept_ok, pure_bind_eq, hget, ofExcept_ok, pure_bind_eq]
  -- after the query only the warning is asked
  have hrest : ∀ reply : Except HubError (Option (List File)), ∀ m : Sync σ (Option Str),
      LogsOnly World.trace (fun call => call = .moreThanOne k) m →
        Logs World.trace m fun _ calls => ∃ reply' rest,
          [.list (Drive3Client.idQuery k) reply] ++ calls =
            .list (Drive3Client.idQuery k) reply' :: rest ∧
          ∀ call ∈ rest, call = .moreThanOne k :=
    fun reply m hm => hm.mono fun _ calls hcalls => ⟨reply, calls, rfl, hcalls⟩
  refine (hubList_logs hub _).bind ?_ (by simp) (by simp)
  rintro reply _ ⟨_, rfl, ⟨⟩⟩
  refine hrest reply _ ?_
  rcases reply with e | _ | files
  · exact .fail _
  · exact .pure _
  · simp only
    cases files.getLast? with
    | none => exact .pure _
    | some file =>
      refine (LogsOnly.unwrapOption _).bind fun driveId => ?_
      split_ifs
      · refine LogsOnly.bind ((warnMoreThanOne_logs k).mono ?_) fun _ => .pure _
        rintro _ _ ⟨rfl, -⟩ call hcall
        exact List.mem_singleton.mp hcall
      · exact .pure _

/-- Without a unique id, or without a hub, nothing is asked. -/
theorem id_fails {path : Str} (h : ∀ k hub, (SyncableFile.mk path).getUniqueId = .ok k →
    c.hub ≠ .ok hub) : ∃ e, c.id path = fail e := by
  cases hk : (SyncableFile.mk path).getUniqueId with
  | error e =>
    rw [Drive3Client.id, hk, ofExcept_error, fail_bind_eq]
    exact ⟨e, rfl⟩
  | ok k =>
    cases hhub : c.hub with
    | ok hub => exact absurd hhub (h k hub hk)
    | error e =>
      rw [Drive3Client.id, hk, ofExcept_ok, pure_bind_eq, Drive3Client.getHub, hhub]
      exact ⟨.noAppSecret, rfl⟩

/-- **A lookup whose error is dropped**: the drive is searched, or there is no answer. -/
theorem lookup_asked (path : Str) :
    Logs World.trace ((c.id path).attemptOk : Sync σ (Option (Option Str))) fun r calls =>
      (∀ call ∈ calls, Requests R call) ∧
        (r = .ok none ∧ calls = [] ∨ ∃ call ∈ calls, IsQuery call) := by
  by_cases h : ∃ k hub, (SyncableFile.mk path).getUniqueId = .ok k ∧ c.hub = .ok hub
  · obtain ⟨k, hub, hk, hhub⟩ := h
    have hasked : ∀ calls : List Call,
        (∃ reply rest, calls = .list (Drive3Client.idQuery k) reply :: rest ∧
          ∀ call ∈ rest, call = .moreThanOne k) →
        (∀ call ∈ calls, Requests R call) ∧ ∃ call ∈ calls, IsQuery call := by
      rintro _ ⟨reply, rest, rfl, hrest⟩
      refine ⟨fun call hcall => ?_, _, List.mem_cons_self .., trivial⟩
      rcases List.mem_cons.mp hcall with rfl | hcall
      · trivial
      · rw [hrest call hcall]
        trivial
    refine (id_asked c hk hhub).attemptOk ?_ ?_ ?_
    · exact fun _ calls hc => (hasked calls hc).imp_right Or.inr
    · exact fun _ calls hc => (hasked calls hc).imp_right Or.inr
    · exact fun calls hc => (hasked calls hc).imp_right Or.inr
  · obtain ⟨e, he⟩ := id_fails c fun k hub hk hhub => h ⟨k, hub, hk, hhub⟩
    rw [he]
    exact fun w => ⟨[], (List.append_nil _).symm, by simp, Or.inl ⟨rfl, rfl⟩⟩

theorem lookup_requests (path : Str) :
    LogsOnly World.trace (Requests R) ((c.id path).attemptOk : Sync σ (Option (Option Str))) :=
  (lookup_asked c path).mono fun _ _ h => h.1

/-- **A folder.**  The request carries the unique id of the path, and is for a folder. -/
theorem createDir_requests {path : Str} (parentId : Option Str)
    (hR : ∀ k req, (SyncableFile.mk path).getUniqueId = .ok k →
      req.appProperties = Drive3Client.appPropsMap k → req.mimeType = some folderMimeType → R req) :
    LogsOnly World.trace (Requests R) (c.createDir path parentId) := by
  rw [Drive3Client.createDir]
  refine LogsOnly.bind (.of_single (tempfile_logs c.machine) fun _ => trivial) fun tempFile => ?_
  cases hk : (SyncableFile.mk path).getUniqueId with
  | error e =>
    rw [ofExcept_error, fail_bind_eq]
    exact .fail e
  | ok k =>
    rw [ofExcept_ok, pure_bind_eq]
    refine LogsOnly.bind (.ofExcept _) fun hub => LogsOnly.bind (.unwrapExcept _) fun _ =>
      LogsOnly.bind (.of_single (hubCreate_logs hub _ _) fun _ => hR k _ hk rfl rfl)
        fun reply => ?_
    rcases reply with e | file
    · exact .fail _
    · exact LogsOnly.bind (.unwrapExcept _) fun uid => LogsOnly.bind (.unwrapOption _)
        fun driveId => LogsOnly.bind (.of_nothing (cacheInsert_logs uid driveId)) fun _ => .pure _

/-- The requests of `createPath` are for folders. -/
theorem ensureDir_requests (hR : ∀ req, req.mimeType = some folderMimeType → R req)
    (lastDir d : Str) : LogsOnly World.trace (Requests R) (c.ensureDir lastDir d) := by
  have hinsert : ∀ k v : Str,
      LogsOnly World.trace (Requests R) (cacheInsert k v : Sync σ Unit) :=
    fun k v => .of_nothing (cacheInsert_logs k v)
  rw [Drive3Client.ensureDir]
  refine LogsOnly.bind (.ofExcept _) fun b64Id => LogsOnly.bind (.unwrapExcept _) fun key =>
    LogsOnly.bind (.of_single (containsKey_logs c.machine key) fun _ => trivial) fun hit => ?_
  cases hit with
  | true => exact .pure _
  | false =>
    refine LogsOnly.bind (lookup_requests c _) fun answer => ?_
    cases answer.bind fun o => o with
    | some driveId => exact hinsert b64Id driveId
    | none =>
      refine LogsOnly.bind (lookup_requests c _) fun answer =>
        LogsOnly.bind (.unwrapOption _) fun parentId =>
        LogsOnly.bind (createDir_requests c _ fun _ req _ _ hmime => hR req hmime).attempt
          fun made => ?_
      rcases made with e | _ | driveId
      · exact .pure _
      · exact .pure _
      · exact hinsert b64Id driveId

theorem createPath_requests (hR : ∀ req, req.mimeType = some folderMimeType → R req)
    (path : Str) : LogsOnly World.trace (Requests R) (c.createPath ⟨path⟩) := by
  have hwalk : ∀ dirs done : List Str,
      LogsOnly World.trace (Requests R) (ensureAll c done dirs) := by
    intro dirs
    induction dirs with
    | nil => exact fun done => .pure _
    | cons d dirs ih =>
      exact fun done => .bind (ensureDir_requests c hR _ _) fun _ => ih (done ++ [d])
  rw [createPath_eq]
  rcases relComponents path with _ | _ | ⟨d, cs⟩
  · exact .abort
  · rw [createPathOf]
    split_ifs
    · exact .abort
    · exact .pure _
  · exact .bind (hwalk _ _) fun _ => .pure _

omit [Base64] in
theorem openFile_requests (m : Machine σ) (path : Str) :
    LogsOnly World.trace (Requests R) (openFile m path) :=
  .of_single (openFile_logs m path) fun _ => trivial

/-- **The file.**  The request carries the unique id of the path, and is for a plain
file.  Unless there is a panic the drive has been searched. -/
theorem placeFile_asked {path : Str}
    (hR : ∀ k req, (SyncableFile.mk path).getUniqueId = .ok k →
      req.appProperties = Drive3Client.appPropsMap k → req.mimeType = none → R req) :
    Logs World.trace (c.placeFile path) fun r calls =>
      (∀ call ∈ calls, Requests R call) ∧ (r = .panic ∨ ∃ call ∈ calls, IsQuery call) := by
  have hpanic : Logs World.trace (abort : Sync σ (Option Str)) fun r calls =>
      (∀ call ∈ calls, Requests R call) ∧ (r = .panic ∨ ∃ call ∈ calls, IsQuery call) :=
    .abort ⟨by simp, Or.inl rfl⟩
  rw [Drive3Client.placeFile]
  cases (SyncableFile.mk path).parentPath with
  | error e => exact hpanic
  | ok pp =>
    rw [unwrapExcept_ok, pure_bind_eq]
    cases fileName (SyncableFile.mk path).localPath with
    | none => exact hpanic
    | some name =>
      rw [unwrapOption_some, pure_bind_eq, pure_bind_eq]
      refine (lookup_asked (R := R) c pp).bind ?_ ?_ ?_
      · rintro answer calls ⟨hcalls, ⟨hr, -⟩ | hquery⟩
        · rw [Outcome.ok.inj hr]
          exact .abort ⟨by simpa using hcalls, Or.inl rfl⟩
        · -- the drive has been searched, and what follows is one request at most
          refine Logs.mono (Q := fun _ calls' => ∀ call ∈ calls', Requests R call) ?_
            fun r calls' hcalls' => ⟨List.forall_mem_append.mpr ⟨hcalls, hcalls'⟩, Or.inr ?_⟩
          · show LogsOnly World.trace (Requests R) _
            refine LogsOnly.bind (.unwrapOption _) fun parentId => ?_
            cases hk : (SyncableFile.mk path).getUniqueId with
            | error e =>
              rw [ofExcept_error, fail_bind_eq]
              exact .fail e
            | ok k =>
              rw [ofExcept_ok, pure_bind_eq]
              refine LogsOnly.bind (openFile_requests _ _) fun opened => ?_
              cases opened with
              | none => exact .fail _
              | some _ =>
                refine LogsOnly.bind (.ofExcept _) fun hub =>
                  LogsOnly.bind (openFile_requests _ _) fun opened =>
                  LogsOnly.bind (.unwrapOption _) fun content =>
                  LogsOnly.bind (.of_single (hubCreate_logs hub _ content)
                    fun _ => hR k _ hk rfl rfl) fun reply => ?_
                rcases reply with e | file
                · exact .fail _
                · exact .bind (.unwrapOption _) fun _ => .pure _
          · obtain ⟨call, hcall, h⟩ := hquery
            exact ⟨call, List.mem_append_left _ hcall, h⟩
      · rintro e calls ⟨hcalls, ⟨hr, -⟩ | hquery⟩
        · exact absurd hr (by simp)
        · exact ⟨hcalls, Or.inr hquery⟩
      · exact fun calls h => ⟨h.1, Or.inl rfl⟩

/-- **An upload.** -/
theorem uploadFile_requests {path : Str}
    (hdir : ∀ req, req.mimeType = some folderMimeType → R req)
    (hfile : ∀ k req, (SyncableFile.mk path).getUniqueId = .ok k →
      req.appProperties = Drive3Client.appPropsMap k → req.mimeType = none → R req) :
    LogsOnly World.trace (Requests R) (c.uploadFile path) :=
  .bind (createPath_requests c hdir path).attemptOk fun _ =>
    (placeFile_asked c hfile).mono fun _ _ h => h.1

end Client

end PiDriveSync
