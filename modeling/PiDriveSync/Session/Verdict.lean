import PiDriveSync.Session.Client

/-!
# What an upload returns, by what was asked last

The result of an upload is one of three: the id of the new file, an error of the
provider, or a panic.  Which of them it is can be told from the last calls alone:
`verdict` says how, and `uploadFile_verdict` that this is so, whatever the hub and the
machine answer.  In particular an upload that returns an id has been told this id in
answer to its last call, the creation of the file.
-/

namespace PiDriveSync

open UnixPath Fallible

/-- The result of an upload with these calls. -/
def verdict (calls : List Call) : Outcome SyncerErrors (Option Str) :=
  match calls.reverse with
  | .create req reply :: _ =>
    -- the folder of a directory is never the end of an upload that returns
    if req.mimeType = none then
      match reply with
      | .ok file => if file.id.isSome then .ok file.id else .panic
      | .error _ => .err .providerError
    else .panic
  | .openFile _ opened :: earlier :: _ =>
    match opened, earlier with
    | false, .openFile _ _ => .panic
    | false, _ => .err .providerError
    | true, _ => .panic
  | _ => .panic

section Grammar

variable {σ : Type} {c : Drive3Client σ}

/-- A call that is not the end of an upload. -/
def Passing : Call → Prop
  | .create req _ => req.mimeType ≠ none
  | .openFile _ _ => False
  | _ => True

/-- When the calls end with one that is passed over, the upload has panicked. -/
theorem verdict_of_passing {calls : List Call} (h : ∀ call ∈ calls, Passing call) :
    verdict calls = .panic := by
  rcases calls.eq_nil_or_concat' with rfl | ⟨calls, call, rfl⟩
  · rfl
  · have hlast : Passing call := h call (by simp)
    rw [verdict, List.reverse_append, List.reverse_singleton, List.singleton_append]
    cases call with
    | create req reply => exact if_neg hlast
    | openFile path opened => exact hlast.elim
    | containsKey | list | tempfile | moreThanOne => rfl

theorem passing_warning (files : Option (List File)) (k : Str) :
    ∀ call ∈ warning files k, Passing call := by
  intro call hcall
  rw [warning] at hcall
  split_ifs at hcall with hmore
  · rw [List.mem_singleton.mp hcall]
    trivial
  · exact absurd hcall List.not_mem_nil

/-- A lookup is not the end of an upload. -/
theorem IdAsks.passing {k : Str} {r : Outcome SyncerErrors (Option Str)} {calls : List Call}
    (h : IdAsks c k r calls) : ∀ call ∈ calls, Passing call := by
  cases h with
  | offline => simp
  | failed | nothing | nameless => simp [Passing]
  | found hub hhub files =>
    exact List.forall_mem_cons.mpr ⟨trivial, passing_warning files k⟩

theorem CreateAsks.passing {path k : Str} {parentId : Option Str}
    {r : Outcome SyncerErrors (Option Str)} {calls : List Call}
    (h : CreateAsks c path k parentId r calls) : ∀ call ∈ calls, Passing call := by
  cases h <;> simp [Passing, folderRequest]

theorem EnsureAsks.passing {path k pk : Str} {r : Outcome SyncerErrors Unit} {calls : List Call}
    (h : EnsureAsks c path k pk r calls) : ∀ call ∈ calls, Passing call := by
  cases h with
  | hit => simp [Passing]
  | found i calls h | crashed calls h => exact List.forall_mem_cons.mpr ⟨trivial, h.passing⟩
  | orphan r r' calls calls' h _ h' =>
    exact List.forall_mem_cons.mpr ⟨trivial, List.forall_mem_append.mpr ⟨h.passing, h'.passing⟩⟩
  | create g r r' calls calls' made h _ h' hmade =>
    exact List.forall_mem_cons.mpr ⟨trivial, List.forall_mem_append.mpr ⟨h.passing,
      List.forall_mem_append.mpr ⟨h'.passing, hmade.passing⟩⟩⟩

variable [Base64]

/-- **Nothing in the walk** is the end of an upload. -/
theorem WalkAsks.passing {done dirs : List Str} {r : Outcome SyncerErrors Unit}
    {calls : List Call} (h : WalkAsks c done dirs r calls) : ∀ call ∈ calls, Passing call := by
  induction h with
  | nil => simp
  | cons h _ ih => exact List.forall_mem_append.mpr ⟨h.passing, ih⟩
  | stop h => exact h.passing

omit [Base64] in
/-- **The file decides**, whatever was asked before it was opened. -/
theorem FileAsks.verdict_eq {path name k : Str} {parentId : Option Str}
    {r : Outcome SyncerErrors (Option Str)} {calls : List Call}
    (h : FileAsks path name k parentId r calls) {before : List Call}
    (hne : before ≠ []) (hbefore : ∀ call ∈ before, Passing call) :
    r = verdict (before ++ calls) := by
  cases h with
  | unreadable =>
    obtain ⟨calls, call, rfl⟩ := (List.eq_nil_or_concat' before).resolve_left hne
    have hlast : Passing call := hbefore call (by simp)
    cases call with
    | openFile => exact hlast.elim
    | create | containsKey | list | tempfile | moreThanOne => simp [verdict]
  | vanished | failed => simp [verdict, fileRequest]
  | made file i hi => simp [verdict, fileRequest, hi]
  | nameless file hi => simp [verdict, fileRequest, hi]

theorem PlaceAsks.verdict_eq {path k : Str} (hk : (SyncableFile.mk path).getUniqueId = .ok k)
    {r : Outcome SyncerErrors (Option Str)} {calls : List Call} (h : PlaceAsks c path r calls)
    {before : List Call} (hbefore : ∀ call ∈ before, Passing call) :
    r = verdict (before ++ calls) := by
  cases h with
  | unnamed =>
    rw [List.append_nil, verdict_of_passing hbefore]
  | unanswered name pk _ _ calls h =>
    rw [verdict_of_passing (List.forall_mem_append.mpr ⟨hbefore, h.passing⟩)]
  | noUid _ _ _ _ _ _ e he => exact absurd (hk.symm.trans he) (by simp)
  | file name pk k' _ _ parentId r calls calls' h h' =>
    rw [← List.append_assoc]
    refine h'.verdict_eq ?_ (List.forall_mem_append.mpr ⟨hbefore, h.passing⟩)
    exact List.append_ne_nil_of_right_ne_nil _ h.ne_nil

/-- A path below the watched directory, or that directory, has a unique id. -/
theorem exists_uid_of_relComponents {path : Str} {cs : List Str}
    (h : relComponents path = some cs) : ∃ k, (SyncableFile.mk path).getUniqueId = .ok k := by
  have hroot : components localRootFolder <+: components (below []) := by decide +kernel
  have hwatched : components (below []) <+: components path := by
    rw [relComponents, stripPrefix] at h
    split_ifs at h with hpre
    · exact hpre
    · exact absurd h (by simp)
  have hcloud : ∃ cp, (SyncableFile.mk path).cloudPath = .ok cp := by
    rw [SyncableFile.cloudPath, SyncableFile.localPath, stripPrefix,
      if_pos (hroot.trans hwatched)]
    exact ⟨_, rfl⟩
  obtain ⟨cp, hcp⟩ := hcloud
  exact ⟨Base64.encode cp, by rw [SyncableFile.getUniqueId, hcp]⟩

/-- **The last calls tell the result.** -/
theorem UploadAsks.verdict_eq {path : Str} {r : Outcome SyncerErrors (Option Str)}
    {calls : List Call} (h : UploadAsks c path r calls) : r = verdict calls := by
  cases h with
  | outside | rootChecked => rfl
  | root hrel _ hp =>
    obtain ⟨k, hk⟩ := exists_uid_of_relComponents hrel
    exact hp.verdict_eq hk (show ∀ call ∈ ([] : List Call), Passing call by simp)
  | crashed _ hw => rw [verdict_of_passing hw.passing]
  | placed hrel hw hp =>
    obtain ⟨k, hk⟩ := exists_uid_of_relComponents hrel
    exact hp.verdict_eq hk hw.passing

end Grammar

/-- **An upload returns what its last calls say**, whatever the hub and the machine
answer: an id if the last call is the creation of a plain file and was answered with this
id; an error of the provider if that creation failed or the file could not be opened the
first time; and a panic otherwise. -/
theorem uploadFile_verdict {σ : Type} [Base64] (c : Drive3Client σ) (path : Str) (w : World σ) :
    (c.uploadFile path w).1 = verdict (callsSince w (c.uploadFile path w).2) :=
  UploadAsks.verdict_eq (logs_callsSince (uploadFile_asks c path) w)

end PiDriveSync
