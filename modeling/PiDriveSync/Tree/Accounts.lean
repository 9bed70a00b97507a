import PiDriveSync.Tree.Duplicates
import PiDriveSync.Tree.Repeats

/-!
# Accounts of folders and files, whatever is lost

With lost replies the drive and the record of the calls part: an object may be there
although its creation came back with an error.  Some accounts can be kept all the same.

* `folders_accounted`: a directory has no more live folders than one, or those it had, and
  one for each failed search for it.  So the second folder of a directory is always paid
  for with a failed search, and the root folder, which is not created after one, is never
  doubled.
* `files_accounted`: uploads are carried out at least once.  Of a unique id there are at
  least as many plain objects as uploads that returned an id, at most as many as
  requests for it, and of these at most one for each upload that was started.
-/

namespace PiDriveSync

open UnixPath Fallible

/-! ## What is counted in the calls -/

/-- The failed searches for a unique id. -/
def failedSearches (k : Str) (calls : List Call) : ℕ :=
  calls.countP fun call => match call with
    | .list q (.error _) => q == Drive3Client.idQuery k
    | _ => false

@[simp] theorem failedSearches_append (k : Str) (calls calls' : List Call) :
    failedSearches k (calls ++ calls') = failedSearches k calls + failedSearches k calls' :=
  List.countP_append ..

/-- A request for a plain file with a unique id. -/
def isFileRequestFor (k : Str) (req : File) : Bool :=
  decide (RequestFor k req) && req.mimeType == none

/-- The requests for plain files with a unique id. -/
def fileRequests (k : Str) (calls : List Call) : ℕ :=
  (requests calls).countP (isFileRequestFor k)

@[simp] theorem fileRequests_append (k : Str) (calls calls' : List Call) :
    fileRequests k (calls ++ calls') = fileRequests k calls + fileRequests k calls' := by
  rw [fileRequests, requests_append, List.countP_append]
  rfl

/-- The uploads of a path with a unique id that were started. -/
def startedAs [Base64] (k : Str) (e : Str × Outcome SyncerErrors (Option Str)) : Bool :=
  (SyncableFile.mk e.1).getUniqueId == .ok k

/-! ## Folders -/

section Folders

variable {ω : Schedule} {w w' : DriveWorld} {k : Str} {m : ℕ}

/-- Each live folder of a directory beyond `m` is paid for with a failed search. -/
def FoldersPaid (k : Str) (m : ℕ) (w : DriveWorld) : Prop :=
  (liveFolders w.objs k).length ≤ m + failedSearches k w.trace

/-- Calls that add nothing take nothing off the account. -/
theorem FoldersPaid.of_calls (h : FoldersPaid k m w) {calls : List Call}
    (hobjs : w'.objs = w.objs) (htrace : w'.trace = w.trace ++ calls) : FoldersPaid k m w' := by
  unfold FoldersPaid at h ⊢
  rw [hobjs, htrace, failedSearches_append]
  omega

/-- A failed search is noted down. -/
theorem failedSearches_sought (hf : (ω w.tick).fault ≠ .none) :
    failedSearches k (w.sought ω k).trace = failedSearches k w.trace + 1 := by
  have hcalls : queryCalls (ω w.tick) w.objs k =
      [.list (Drive3Client.idQuery k) (.error (ω w.tick).error)] := by
    rw [queryCalls, if_neg fun h => hf h.1, listReply]
    split
    · exact absurd ‹_› hf
    · rfl
  rw [World.sought_trace, hcalls, failedSearches_append]
  simp [failedSearches]

/-- **A creation**, of a folder that is the first or has been paid for. -/
theorem CreateEnds.foldersPaid {path k' : Str} {parentId : Option Str}
    {r : Outcome SyncerErrors (Option Str)} (h : CreateEnds ω path k' parentId w r w')
    (hw : FoldersPaid k m w)
    (hpaid : k' = k → (liveFolders w.objs k).length + 1 ≤ m + failedSearches k w.trace) :
    FoldersPaid k m w' := by
  have hadded : ∀ o calls, o = newObj (ω (w.tick + 1)) w.objs (folderRequest path parentId k') [] →
      (liveFolders (w.objs ++ [o]) k).length ≤ m + failedSearches k (w.trace ++ calls) := by
    rintro o calls rfl
    rw [liveFolders_append, List.length_append, failedSearches_append]
    by_cases hk : k' = k
    · have hone := hpaid hk
      have hlen : (liveFolders [newObj (ω (w.tick + 1)) w.objs
          (folderRequest path parentId k') []] k).length ≤ 1 :=
        (List.length_filter_le _ _).trans (List.length_filter_le _ _)
      omega
    · have hnone : liveFolders [newObj (ω (w.tick + 1)) w.objs
          (folderRequest path parentId k') []] k = [] := by
        simp [liveFolders, carriers, hk]
      unfold FoldersPaid at hw
      rw [hnone, List.length_nil]
      omega
  cases h with
  | noTempfile => exact hw.of_calls rfl rfl
  | rejected => exact hw.of_calls rfl (List.append_assoc ..)
  | made o ht hf ho =>
    have h := hadded o [.tempfile true, .create (folderRequest path parentId k') (.ok o.toFile)] ho
    simpa [FoldersPaid] using h
  | lost o ht hf ho =>
    have h := hadded o [.tempfile true, .create (folderRequest path parentId k')
      (.error (ω (w.tick + 1)).error)] ho
    simpa [FoldersPaid] using h

/-- **One directory**: before the folder is asked for, the drive has answered that nothing
carries its id, or the search has failed. -/
theorem EnsureEnds.foldersPaid (hm : 1 ≤ m) {path k' pk : Str} {r : Outcome SyncerErrors Unit}
    (h : EnsureEnds ω path k' pk w r w') (hw : FoldersPaid k m w) : FoldersPaid k m w' := by
  have hlooked : FoldersPaid k m (w.looked (ω w.tick) k') := hw.of_calls rfl rfl
  have hsought : FoldersPaid k m ((w.looked (ω w.tick) k').sought ω k') := hlooked.of_calls rfl rfl
  have hparent : FoldersPaid k m (((w.looked (ω w.tick) k').sought ω k').sought ω pk) :=
    hsought.of_calls rfl rfl
  cases h with
  | hit => exact hlooked
  | found => exact hsought
  | orphan => exact hparent
  | create g r _ miss hk hpk hcreate =>
    refine hcreate.foldersPaid hparent ?_
    rintro rfl
    simp only [World.sought_objs, World.looked_objs]
    rcases lookup_eq_none.mp hk with hf | hnone
    · have hpaid := failedSearches_sought (k := k') (w := w.looked (ω w.tick) k') hf
      unfold FoldersPaid at hlooked
      rw [World.sought_trace, failedSearches_append, hpaid]
      rw [World.looked_objs] at hlooked
      omega
    · rw [liveFolders_eq_nil hnone, List.length_nil]
      omega

variable [Base64]

theorem WalkEnds.foldersPaid (hm : 1 ≤ m) {done dirs : List Str} {r : Outcome SyncerErrors Unit}
    (h : WalkEnds ω done dirs w r w') (hw : FoldersPaid k m w) : FoldersPaid k m w' := by
  induction h with
  | nil => exact hw
  | cons h _ ih => exact ih (h.foldersPaid hm hw)
  | stop h => exact h.foldersPaid hm hw

omit [Base64] in
/-- Live folders are not touched by what is not a folder. -/
theorem liveFolders_snoc_of_plain {objs : List Obj} {o : Obj} (h : o.isFolder = false) :
    liveFolders (objs ++ [o]) k = liveFolders objs k := by
  have hnone : liveFolders [o] k = [] := by simp [liveFolders, carriers, h]
  rw [liveFolders_append, hnone, List.append_nil]

/-- The file is not a folder. -/
theorem PlaceEnds.foldersPaid {path : Str} {r : Outcome SyncerErrors (Option Str)}
    (h : PlaceEnds ω path w r w') (hw : FoldersPaid k m w) : FoldersPaid k m w' := by
  obtain ⟨calls, htrace⟩ : ∃ calls, w'.trace = w.trace ++ calls := by
    cases h <;> simp [World.opened]
  have hobjs : liveFolders w'.objs k = liveFolders w.objs k := by
    cases h with
    | unnamed | unanswered | noUid | unreadable | vanished | rejected => rfl
    | made _ _ _ _ _ _ _ _ _ _ _ ho | lost _ _ _ _ _ _ _ _ _ _ _ ho =>
      rw [ho]
      exact liveFolders_snoc_of_plain newObj_file_isFolder
  unfold FoldersPaid at hw ⊢
  rw [hobjs, htrace, failedSearches_append]
  omega

/-- **An upload.** -/
theorem UploadEnds.foldersPaid (hm : 1 ≤ m) {checks : Bool} {path : Str}
    {r : Outcome SyncerErrors (Option Str)} (h : UploadEnds ω checks path w r w')
    (hw : FoldersPaid k m w) : FoldersPaid k m w' := by
  cases h with
  | outside | rootChecked => exact hw
  | root _ _ hp => exact hp.foldersPaid hw
  | crashed _ h => exact h.foldersPaid hm hw
  | placed _ h hp => exact hp.foldersPaid (h.foldersPaid hm hw)

/-- **A start**: the root folder is not asked for after a failed search. -/
theorem StartEnds.foldersPaid (hm : 1 ≤ m) {r : Outcome SyncerErrors Unit}
    (h : StartEnds ω w r w') (hw : FoldersPaid k m w) : FoldersPaid k m w' := by
  have hsought : FoldersPaid k m (w.sought ω (keyOf [])) := hw.of_calls rfl rfl
  cases h with
  | known | unanswered => exact hsought
  | create _ hnone _ _ h =>
    refine h.foldersPaid hsought ?_
    rintro rfl
    rw [World.sought_objs, liveFolders_eq_nil hnone, List.length_nil]
    omega

end Folders

/-! ## Files -/

section Files

variable {ω : Schedule} {w w' : DriveWorld} {k : Str}

@[simp] theorem fileRequests_folder (path k' : Str) (p : Option Str)
    (reply : Except HubError File) (calls : List Call) :
    fileRequests k (.create (folderRequest path p k') reply :: calls) = fileRequests k calls := by
  rw [fileRequests, requests_create, List.countP_cons_of_neg]
  · rfl
  · simp [isFileRequestFor, folderRequest]

@[simp] theorem fileRequests_file (name k' : Str) (p : Option Str) (reply : Except HubError File) :
    fileRequests k [.create (fileRequest name p k') reply] = if k' = k then 1 else 0 := by
  by_cases hk : k' = k <;>
    simp [fileRequests, isFileRequestFor, fileRequest, RequestFor, hk]

@[simp] theorem fileRequests_queryCalls (m : Moment) (objs : List Obj) (k' : Str) :
    fileRequests k (queryCalls m objs k') = 0 := by
  rw [fileRequests, requests_queryCalls, List.countP_nil]

/-- No request for a plain file is made for a folder. -/
theorem CreateEnds.fileRequests_eq {path k' : Str} {parentId : Option Str}
    {r : Outcome SyncerErrors (Option Str)} (h : CreateEnds ω path k' parentId w r w') :
    fileRequests k w'.trace = fileRequests k w.trace := by
  cases h with
  | noTempfile => simp [fileRequests]
  | rejected | made | lost =>
    simp only [World.asked_trace, World.added_trace, World.remembered_trace, fileRequests_append,
      fileRequests_folder]
    rfl

theorem EnsureEnds.fileRequests_eq {path k' pk : Str} {r : Outcome SyncerErrors Unit}
    (h : EnsureEnds ω path k' pk w r w') : fileRequests k w'.trace = fileRequests k w.trace := by
  have hlooked : fileRequests k (w.looked (ω w.tick) k').trace = fileRequests k w.trace := by
    rw [World.looked_trace, fileRequests_append]
    rfl
  cases h with
  | hit => exact hlooked
  | found =>
    rw [World.remembered_trace, World.sought_trace, fileRequests_append, hlooked]
    simp
  | orphan =>
    rw [World.sought_trace, fileRequests_append, World.sought_trace, fileRequests_append, hlooked]
    simp
  | create _ _ _ _ _ _ h =>
    rw [h.fileRequests_eq, World.sought_trace, fileRequests_append, World.sought_trace,
      fileRequests_append, hlooked]
    simp

variable [Base64]

theorem WalkEnds.fileRequests_eq {done dirs : List Str} {r : Outcome SyncerErrors Unit}
    (h : WalkEnds ω done dirs w r w') : fileRequests k w'.trace = fileRequests k w.trace := by
  induction h with
  | nil => rfl
  | cons h _ ih => rw [ih, h.fileRequests_eq]
  | stop h => exact h.fileRequests_eq

theorem StartEnds.fileRequests_eq {r : Outcome SyncerErrors Unit} (h : StartEnds ω w r w') :
    fileRequests k w'.trace = fileRequests k w.trace := by
  cases h with
  | known | unanswered => rw [World.sought_trace, fileRequests_append]; simp
  | create _ _ _ _ h => rw [h.fileRequests_eq, World.sought_trace, fileRequests_append]; simp

/-- On the way from `w` to `w'`: the plain objects that came in under an id are at least
`done`, at most the requests for it, and these are at most `started`. -/
def FilesPaid (k : Str) (w w' : DriveWorld) (done started : ℕ) : Prop :=
  ∃ added asked, (plainCarriers w'.objs k).length = (plainCarriers w.objs k).length + added ∧
    fileRequests k w'.trace = fileRequests k w.trace + asked ∧
    done ≤ added ∧ added ≤ asked ∧ asked ≤ started

omit [Base64] in
theorem FilesPaid.of_idle (hobjs : plainCarriers w'.objs k = plainCarriers w.objs k)
    (htrace : fileRequests k w'.trace = fileRequests k w.trace) {done : ℕ} (hdone : done = 0)
    (started : ℕ) : FilesPaid k w w' done started :=
  ⟨0, 0, by rw [hobjs, Nat.add_zero], htrace, hdone.le, le_rfl, Nat.zero_le _⟩

omit [Base64] in
theorem FilesPaid.after {w₁ : DriveWorld} {done started : ℕ} (h : FilesPaid k w₁ w' done started)
    (hobjs : plainCarriers w₁.objs k = plainCarriers w.objs k)
    (htrace : fileRequests k w₁.trace = fileRequests k w.trace) :
    FilesPaid k w w' done started := by
  unfold FilesPaid at h ⊢
  rwa [hobjs, htrace] at h

/-- **The file**: one request, and with it one object or none. -/
theorem PlaceEnds.filesPaid {path : Str} {r : Outcome SyncerErrors (Option Str)}
    (h : PlaceEnds ω path w r w') :
    FilesPaid k w w' (if uploadedAs (.ok k) (path, r) then 1 else 0)
      (if startedAs k (path, r) then 1 else 0) := by
  have hopened : ∀ pk, fileRequests k (w.opened ω pk path).trace = fileRequests k w.trace := by
    intro pk
    simp only [World.opened, World.asked_trace, World.sought_trace, fileRequests_append,
      fileRequests_queryCalls]
    rfl
  cases h with
  | unnamed => exact .of_idle rfl rfl rfl _
  | unanswered | noUid =>
    refine .of_idle ?_ ?_ rfl _
    · rfl
    · rw [World.sought_trace, fileRequests_append, fileRequests_queryCalls, Nat.add_zero]
  | unreadable | vanished =>
    refine .of_idle ?_ ?_ rfl _
    · rfl
    · simp only [World.asked_trace, World.sought_trace, fileRequests_append,
        fileRequests_queryCalls]
      rfl
  | made name pk k' content o _ _ hk _ _ _ ho =>
    refine ⟨if k' = k then 1 else 0, if k' = k then 1 else 0, ?_, ?_, ?_⟩
    · rw [World.added_objs, plainCarriers_append, List.length_append, ho, length_plainCarriers_file]
      rfl
    · rw [World.added_trace, World.asked_trace, fileRequests_append, hopened, fileRequests_file]
    · simp [uploadedAs, startedAs, succeeded, hk]
  | rejected name pk k' content _ _ hk =>
    refine ⟨0, if k' = k then 1 else 0, rfl, ?_, ?_⟩
    · rw [World.asked_trace, fileRequests_append, hopened, fileRequests_file]
    · simp [uploadedAs, startedAs, succeeded, hk]
  | lost name pk k' content o _ _ hk _ _ _ ho =>
    refine ⟨if k' = k then 1 else 0, if k' = k then 1 else 0, ?_, ?_, ?_⟩
    · rw [World.added_objs, plainCarriers_append, List.length_append, ho, length_plainCarriers_file]
      rfl
    · rw [World.added_trace, World.asked_trace, fileRequests_append, hopened, fileRequests_file]
    · simp [uploadedAs, startedAs, succeeded, hk]

/-- **An upload.** -/
theorem UploadEnds.filesPaid {checks : Bool} {path : Str}
    {r : Outcome SyncerErrors (Option Str)} (h : UploadEnds ω checks path w r w') :
    FilesPaid k w w' (if uploadedAs (.ok k) (path, r) then 1 else 0)
      (if startedAs k (path, r) then 1 else 0) := by
  cases h with
  | outside | rootChecked => exact .of_idle rfl rfl rfl _
  | root _ _ hp => exact hp.filesPaid
  | crashed _ h =>
    exact .of_idle (plainCarriers_eq_of_folders h.growsByFolders k) h.fileRequests_eq rfl _
  | placed _ h hp =>
    exact hp.filesPaid.after (plainCarriers_eq_of_folders h.growsByFolders k) h.fileRequests_eq

end Files

/-! ## Runs -/

section Runs

variable [Base64]

/-- **Folders are accounted for**, whatever fails or is lost: of a directory there is one
live folder at most, or as many as before the run, and one more for each failed search for
it.  Of the root folder there is never a second one. -/
theorem folders_accounted (ω : Schedule) (filters : List Str) (checks : Bool) (objs : List Obj)
    (actions : List Action) (k : Str) :
    (liveFolders (run ω filters checks objs actions).world.objs k).length ≤
        max 1 (liveFolders objs k).length +
          failedSearches k (run ω filters checks objs actions).world.trace ∧
      (liveFolders (run ω filters checks objs actions).world.objs (keyOf [])).length ≤
        max 1 (liveFolders objs (keyOf [])).length := by
  have hm : 1 ≤ max 1 (liveFolders objs k).length := le_max_left ..
  constructor
  · refine run_world_inv ω filters checks
      (fun w => FoldersPaid k (max 1 (liveFolders objs k).length) w) ?_ ?_ ?_ ?_ ?_
    · exact (le_max_right _ _).trans (Nat.le_add_right _ _)
    · exact fun _ _ h => h
    · exact fun _ _ _ h => h
    · exact fun w r w' hw h => h.foldersPaid hm hw
    · exact fun disk path _ w r w' hw h => h.foldersPaid hm hw
  · refine (run_grows ω filters checks objs actions).inv
      (P := fun l => (liveFolders l (keyOf [])).length ≤ max 1 (liveFolders objs (keyOf [])).length)
      (le_max_right _ _) fun l o hl ho => ?_
    cases ho with
    | root n t hf hnone =>
      rw [liveFolders_append, liveFolders_eq_nil hnone, List.nil_append]
      exact ((List.length_filter_le _ _).trans (List.length_filter_le _ _)).trans (le_max_left _ _)
    | @folder path done rest d f g n t s hpath hrel hk hpk =>
      -- the folder of a directory does not carry the id of the root folder
      have hsolid := solid_of_relComponents hrel
      have hne : keyOf (done ++ [d]) ≠ keyOf [] := by
        rw [Ne, keyOf_inj (fun c hc => hsolid c ?_) (by simp)]
        · simp
        · simp only [List.mem_append, List.mem_cons] at hc ⊢
          tauto
      have hnone : liveFolders [newObj (ω n) l
          (folderRequest (below (done ++ [d])) (some g) (keyOf (done ++ [d]))) []] (keyOf []) =
            [] := by
        simp [liveFolders, carriers, hne]
      rwa [liveFolders_append, hnone, List.append_nil]
    | file => rwa [liveFolders_snoc_of_plain newObj_file_isFolder]

/-- **Files are accounted for**, whatever fails or is lost.  Of a unique id, the run adds at
least one plain object for each upload that returned an id and at most one for each request,
and there is at most one request for each upload that was started. -/
theorem files_accounted (ω : Schedule) (filters : List Str) (checks : Bool) (objs : List Obj)
    (actions : List Action) (k : Str) :
    (plainCarriers objs k).length +
        (run ω filters checks objs actions).log.countP (uploadedAs (.ok k)) ≤
        (plainCarriers (run ω filters checks objs actions).world.objs k).length ∧
      (plainCarriers (run ω filters checks objs actions).world.objs k).length ≤
        (plainCarriers objs k).length +
          fileRequests k (run ω filters checks objs actions).world.trace ∧
      fileRequests k (run ω filters checks objs actions).world.trace ≤
        (run ω filters checks objs actions).log.countP (startedAs k) := by
  refine run_inv ω filters checks (fun s =>
    (plainCarriers objs k).length + s.log.countP (uploadedAs (.ok k)) ≤
        (plainCarriers s.world.objs k).length ∧
      (plainCarriers s.world.objs k).length ≤
        (plainCarriers objs k).length + fileRequests k s.world.trace ∧
      fileRequests k s.world.trace ≤ s.log.countP (startedAs k)) ?_ ?_ ?_ ?_
  · intro r w' h
    simp only [plainCarriers_eq_of_folders h.growsByFolders, h.fileRequests_eq]
    exact ⟨le_rfl, Nat.le_add_right _ _, Nat.zero_le _⟩
  · intro s r w' hs h
    simp only [plainCarriers_eq_of_folders h.growsByFolders, h.fileRequests_eq]
    exact hs
  · exact fun s cache _ hs => hs
  · intro disk path _ s r w' ⟨hdone, hadded, hasked⟩ _ h
    obtain ⟨added, asked, hobjs, htrace, h₁, h₂, h₃⟩ := h.filesPaid (k := k)
    rw [World.withDisk_objs] at hobjs
    rw [World.withDisk_trace] at htrace
    simp only [List.countP_append, List.countP_singleton, hobjs, htrace]
    refine ⟨?_, ?_, ?_⟩ <;> omega

end Runs

end PiDriveSync
