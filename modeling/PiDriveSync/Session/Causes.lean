import PiDriveSync.Effects.History
import PiDriveSync.Session.Client

/-!
# Why something is created

A folder is asked for because it was looked for just before and not found, below what the
lookup of its parent directory, asked after that, came back with.  A file is asked for
below what the last lookup, that of its directory, came back with, and when it has been
opened twice.  `Caused` says so of one request, given the calls in front of it.

`UploadAsks.causal` and `StartAsks.causal` carry this through the grammar, so that it holds
of the record of any number of starts and uploads, with the calls of all of them in front.
-/

namespace PiDriveSync

open UnixPath Fallible

/-! ## Searches -/

/-- The searches among some calls, with their answers. -/
def searches (calls : List Call) : List (Str × Except HubError (Option (List File))) :=
  calls.filterMap fun call => match call with
    | .list q reply => some (q, reply)
    | _ => none

@[simp] theorem searches_append (calls calls' : List Call) :
    searches (calls ++ calls') = searches calls ++ searches calls' :=
  List.filterMap_append ..

@[simp] theorem searches_nil : searches [] = [] := rfl

@[simp] theorem searches_list (q : Str) (reply : Except HubError (Option (List File)))
    (calls : List Call) : searches (.list q reply :: calls) = (q, reply) :: searches calls := rfl

@[simp] theorem searches_containsKey (k : Str) (hit : Bool) (calls : List Call) :
    searches (.containsKey k hit :: calls) = searches calls := rfl

@[simp] theorem searches_tempfile (made : Bool) (calls : List Call) :
    searches (.tempfile made :: calls) = searches calls := rfl

@[simp] theorem searches_create (req : File) (reply : Except HubError File) (calls : List Call) :
    searches (.create req reply :: calls) = searches calls := rfl

@[simp] theorem searches_openFile (path : Str) (opened : Bool) (calls : List Call) :
    searches (.openFile path opened :: calls) = searches calls := rfl

@[simp] theorem searches_warning (files : Option (List File)) (k : Str) :
    searches (warning files k) = [] := by
  rw [warning]
  split_ifs <;> rfl

/-- The id that a search came back with. -/
def foundId (reply : Except HubError (Option (List File))) : Option Str :=
  (lastFile reply).bind File.id

/-! ## Causes -/

/-- Why a request is made in the upload of a path, or in a start, given the calls in front
of it. -/
inductive Caused [Base64] (paths : Str → Prop) (before : List Call) : File → Prop
  /-- The root folder was looked for and not found. -/
  | root (files : Option (List File))
      (hsearch : [(Drive3Client.idQuery (keyOf []), .ok files)] <:+ searches before)
      (hnone : lastFile (.ok files) = none) :
      Caused paths before (folderRequest (below []) none (keyOf []))
  /-- A directory above the file was not in the cache and was looked for in vain; then its
  parent directory was looked for, and `g` came back. -/
  | folder {path : Str} {done rest : List Str} {d f g : Str} (hpath : paths path)
      (hrel : relComponents path = some (done ++ d :: rest ++ [f]))
      (reply reply' : Except HubError (Option (List File)))
      (hmiss : Call.containsKey (keyOf (done ++ [d])) false ∈ before)
      (hsearch : [(Drive3Client.idQuery (keyOf (done ++ [d])), reply),
        (Drive3Client.idQuery (keyOf done), reply')] <:+ searches before)
      (hnone : lastFile reply = none) (hg : foundId reply' = some g) :
      Caused paths before
        (folderRequest (below (done ++ [d])) (some g) (keyOf (done ++ [d])))
  /-- The directory of the file was looked for, and the file has been opened. -/
  | file {path name pk k : Str} (hpath : paths path) (hkeys : PlaceKeys path name pk)
      (hk : (SyncableFile.mk path).getUniqueId = .ok k) (files : Option (List File))
      (hsearch : [(Drive3Client.idQuery pk, .ok files)] <:+ searches before)
      (hopened : [.openFile path true, .openFile path true] <:+ before) :
      Caused paths before (fileRequest name (foundId (.ok files)) k)

/-- A call that is not a request needs no cause. -/
def CausedCall [Base64] (paths : Str → Prop) (before : List Call) : Call → Prop
  | .create req _ => Caused paths before req
  | _ => True

variable [Base64]

theorem Caused.extend {paths : Str → Prop} {before : List Call} {req : File}
    (h : Caused paths before req) (pre : List Call) : Caused paths (pre ++ before) req := by
  have hsearches : searches before <:+ searches (pre ++ before) := by
    rw [searches_append]
    exact List.suffix_append _ _
  cases h with
  | root files hsearch hnone => exact .root files (hsearch.trans hsearches) hnone
  | folder hpath hrel reply reply' hmiss hsearch hnone hg =>
    exact .folder hpath hrel reply reply' (List.mem_append_right _ hmiss)
      (hsearch.trans hsearches) hnone hg
  | file hpath hkeys hk files hsearch hopened =>
    exact .file hpath hkeys hk files (hsearch.trans hsearches)
      (hopened.trans (List.suffix_append _ _))

theorem CausedCall.extend {paths : Str → Prop} (pre before : List Call) (call : Call)
    (h : CausedCall paths before call) : CausedCall paths (pre ++ before) call := by
  cases call with
  | create req reply => exact Caused.extend h pre
  | containsKey | list | tempfile | openFile | moreThanOne => trivial

theorem Caused.mono {paths paths' : Str → Prop} (hsub : ∀ path, paths path → paths' path)
    {before : List Call} {req : File} (h : Caused paths before req) :
    Caused paths' before req := by
  cases h with
  | root files hsearch hnone => exact .root files hsearch hnone
  | folder hpath hrel reply reply' hmiss hsearch hnone hg =>
    exact .folder (hsub _ hpath) hrel reply reply' hmiss hsearch hnone hg
  | file hpath hkeys hk files hsearch hopened =>
    exact .file (hsub _ hpath) hkeys hk files hsearch hopened

theorem CausedCall.mono {paths paths' : Str → Prop} (hsub : ∀ path, paths path → paths' path)
    (before : List Call) (call : Call) (h : CausedCall paths before call) :
    CausedCall paths' before call := by
  cases call with
  | create req reply => exact Caused.mono hsub h
  | containsKey | list | tempfile | openFile | moreThanOne => trivial

section Grammar

variable {σ : Type} {c : Drive3Client σ} {paths : Str → Prop}

/-! ## The parts of an upload -/

omit [Base64] in
/-- A lookup is one search at most. -/
theorem IdAsks.searches_eq {k : Str} {r : Outcome SyncerErrors (Option Str)} {calls : List Call}
    (h : IdAsks c k r calls) {hub : Hub σ} (hhub : c.hub = .ok hub) :
    ∃ reply, searches calls = [(Drive3Client.idQuery k, reply)] ∧
      (Unanswered r → lastFile reply = none) ∧
      ∀ o, r = .ok o → (∃ files, reply = .ok files) ∧ foundId reply = o := by
  cases h with
  | offline hoff => exact absurd hhub (hoff hub)
  | failed _ _ e => exact ⟨_, rfl, fun _ => rfl, by simp⟩
  | nothing _ _ files h =>
    refine ⟨_, rfl, fun _ => h, ?_⟩
    rintro o ⟨⟩
    exact ⟨⟨files, rfl⟩, by rw [foundId, h]; rfl⟩
  | found _ _ files file i h hi =>
    refine ⟨.ok files, by simp, fun hr => ?_, ?_⟩
    · rcases hr with hr | ⟨e, hr⟩ <;> exact absurd hr (by simp)
    · rintro o ⟨⟩
      exact ⟨⟨files, rfl⟩, by rw [foundId, h, Option.bind_some, hi]⟩
  | nameless _ _ files file h hi =>
    refine ⟨.ok files, rfl, fun hr => ?_, by simp⟩
    rcases hr with hr | ⟨e, hr⟩ <;> exact absurd hr (by simp)

/-- A lookup creates nothing. -/
theorem IdAsks.causal {k : Str} {r : Outcome SyncerErrors (Option Str)} {calls : List Call}
    (h : IdAsks c k r calls) (before : List Call) : Causal (CausedCall paths) before calls := by
  refine .of_forall ?_ before
  cases h with
  | offline => simp
  | failed | nothing | nameless => simp [CausedCall]
  | found hub hhub files =>
    refine List.forall_mem_cons.mpr ⟨fun _ => trivial, fun call hcall before => ?_⟩
    rw [warning] at hcall
    split_ifs at hcall
    · rw [List.mem_singleton.mp hcall]
      trivial
    · exact absurd hcall List.not_mem_nil

/-- The creation of a folder, with a cause for it. -/
theorem CreateAsks.causal {path k : Str} {parentId : Option Str}
    {r : Outcome SyncerErrors (Option Str)} {calls before : List Call}
    (h : CreateAsks c path k parentId r calls)
    (hreq : Caused paths (before ++ [.tempfile true]) (folderRequest path parentId k)) :
    Causal (CausedCall paths) before calls := by
  cases h with
  | offline | noTempfile => exact .cons trivial (.nil _)
  | failed | made | nameless => exact .cons trivial (.cons hreq (.nil _))

/-- **One directory.** -/
theorem EnsureAsks.causal {path : Str} {done rest : List Str} {d f : Str} (hpath : paths path)
    (hrel : relComponents path = some (done ++ d :: rest ++ [f])) {r : Outcome SyncerErrors Unit}
    {calls : List Call}
    (h : EnsureAsks c (below (done ++ [d])) (keyOf (done ++ [d])) (keyOf done) r calls)
    (before : List Call) : Causal (CausedCall paths) before calls := by
  cases h with
  | hit => exact .cons trivial (.nil _)
  | found i calls h => exact .cons trivial (h.causal _)
  | crashed calls h => exact .cons trivial (h.causal _)
  | orphan r r' calls calls' h _ h' =>
    exact .cons trivial ((h.causal _).append (h'.causal _))
  | create g r r' calls calls' made h hr h' hmade =>
    refine .cons trivial ((h.causal _).append ((h'.causal _).append (hmade.causal ?_)))
    -- the two lookups are the last searches in front of the request
    obtain ⟨hub, hhub⟩ := h'.online
    obtain ⟨reply, hsearch, hnone, -⟩ := h.searches_eq hhub
    obtain ⟨reply', hsearch', -, hg⟩ := h'.searches_eq hhub
    refine .folder hpath hrel reply reply' ?_ ?_ (hnone hr) (hg _ rfl).2
    · simp
    · simp only [searches_append, hsearch, hsearch', List.append_assoc]
      exact ⟨searches before, by simp⟩

/-- **The walk.** -/
theorem WalkAsks.causal {path : Str} {done dirs : List Str} {f : Str} (hpath : paths path)
    (hrel : relComponents path = some (done ++ dirs ++ [f])) {r : Outcome SyncerErrors Unit}
    {calls : List Call} (h : WalkAsks c done dirs r calls) (before : List Call) :
    Causal (CausedCall paths) before calls := by
  induction h generalizing before with
  | nil => exact .nil _
  | cons h _ ih =>
    refine (h.causal hpath hrel before).append (ih ?_ _)
    rw [hrel]
    simp
  | stop h => exact h.causal hpath hrel before

/-- **The file.** -/
theorem PlaceAsks.causal {path : Str} (hpath : paths path)
    {r : Outcome SyncerErrors (Option Str)} {calls : List Call} (h : PlaceAsks c path r calls)
    (before : List Call) : Causal (CausedCall paths) before calls := by
  cases h with
  | unnamed => exact .nil _
  | unanswered _ _ _ _ _ h => exact h.causal _
  | noUid _ _ _ _ _ h => exact h.causal _
  | file name pk k hkeys hk parentId r calls calls' h h' =>
    refine (h.causal _).append ?_
    obtain ⟨hub, hhub⟩ := h.online
    obtain ⟨reply, hsearch, -, hid⟩ := h.searches_eq hhub
    obtain ⟨⟨files, rfl⟩, rfl⟩ := hid _ rfl
    have hreq : ∀ reply', CausedCall paths (before ++ calls ++ [.openFile path true] ++
        [.openFile path true]) (.create (fileRequest name (foundId (.ok files)) k) reply') := by
      intro reply'
      refine .file hpath hkeys hk files ?_ ⟨before ++ calls, by simp⟩
      simp only [searches_append, hsearch]
      exact ⟨searches before, by simp⟩
    cases h' with
    | unreadable => exact .cons trivial (.nil _)
    | vanished => exact .cons trivial (.cons trivial (.nil _))
    | failed | made | nameless => exact .cons trivial (.cons trivial (.cons (hreq _) (.nil _)))

/-- **An upload.** -/
theorem UploadAsks.causal {path : Str} (hpath : paths path)
    {r : Outcome SyncerErrors (Option Str)} {calls : List Call} (h : UploadAsks c path r calls)
    (before : List Call) : Causal (CausedCall paths) before calls := by
  cases h with
  | outside | rootChecked => exact .nil _
  | root _ _ hp => exact hp.causal hpath before
  | crashed hrel hw => exact hw.causal hpath hrel before
  | placed hrel hw hp => exact (hw.causal hpath hrel before).append (hp.causal hpath _)

/-- **A start.** -/
theorem StartAsks.causal {r : Outcome SyncerErrors Unit} {calls : List Call}
    (h : StartAsks c r calls) (before : List Call) : Causal (CausedCall paths) before calls := by
  cases h with
  | offline => exact .nil _
  | known _ _ h => exact h.causal _
  | failed _ _ h => exact h.causal _
  | crashed _ h => exact h.causal _
  | create r calls made h hmade =>
    obtain ⟨hub, hhub⟩ := h.online
    obtain ⟨reply, hsearch, hnone, hid⟩ := h.searches_eq hhub
    obtain ⟨⟨files, rfl⟩, -⟩ := hid _ rfl
    refine (h.causal _).append (hmade.causal (.root files ?_ (hnone (Or.inl rfl))))
    simp only [searches_append, hsearch]
    exact ⟨searches before, by simp⟩

end Grammar

end PiDriveSync
