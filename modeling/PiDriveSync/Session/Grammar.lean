import PiDriveSync.Events.Survival
import PiDriveSync.Provider.Upload

/-!
# The grammar of what an upload asks

The hub and the machine are arbitrary, so an upload is known by its conversation with
them: what it asks, what comes back, and how it ends.  The families below list the
conversations of each part of the client, one constructor for each branch of the source:

* `IdAsks`, `CreateAsks`: a lookup, and the creation of a folder;
* `EnsureAsks`, `WalkAsks`: one directory of `createPath`, and all of them;
* `PlaceAsks`, `UploadAsks`: the file, and the whole upload.

Their indices are the outcome and the calls, in this order.  That the client keeps to them
is `PiDriveSync.Session.Client`; what follows from a conversation alone is read off these
families by induction, and the client is not unfolded again.
-/

namespace PiDriveSync

open UnixPath Fallible

section Grammar

variable {σ : Type}

/-! ## One question and its answer -/

/-- The warning of a lookup that more than one file came back. -/
def warning (files : Option (List File)) (k : Str) : List Call :=
  if 2 < (files.getD []).length then [.moreThanOne k] else []

/-- A lookup for the unique id `k`. -/
inductive IdAsks (c : Drive3Client σ) (k : Str) :
    Outcome SyncerErrors (Option Str) → List Call → Prop
  /-- There is no hub. -/
  | offline (h : ∀ hub, c.hub ≠ .ok hub) : IdAsks c k (.err .noAppSecret) []
  | failed (hub : Hub σ) (hhub : c.hub = .ok hub) (e : HubError) :
      IdAsks c k (.err .providerError) [.list (Drive3Client.idQuery k) (.error e)]
  | nothing (hub : Hub σ) (hhub : c.hub = .ok hub) (files : Option (List File))
      (h : lastFile (.ok files) = none) :
      IdAsks c k (.ok none) [.list (Drive3Client.idQuery k) (.ok files)]
  | found (hub : Hub σ) (hhub : c.hub = .ok hub) (files : Option (List File)) (file : File)
      (i : Str) (h : lastFile (.ok files) = some file) (hi : file.id = some i) :
      IdAsks c k (.ok (some i)) (.list (Drive3Client.idQuery k) (.ok files) :: warning files k)
  /-- The last file has no id: a panic. -/
  | nameless (hub : Hub σ) (hhub : c.hub = .ok hub) (files : Option (List File)) (file : File)
      (h : lastFile (.ok files) = some file) (hi : file.id = none) :
      IdAsks c k .panic [.list (Drive3Client.idQuery k) (.ok files)]

/-- The creation of the folder of a path with unique id `k`. -/
inductive CreateAsks (c : Drive3Client σ) (path k : Str) (parentId : Option Str) :
    Outcome SyncerErrors (Option Str) → List Call → Prop
  /-- There is no hub. -/
  | offline (made : Bool) (h : ∀ hub, c.hub ≠ .ok hub) :
      CreateAsks c path k parentId (.err .noAppSecret) [.tempfile made]
  | noTempfile : CreateAsks c path k parentId .panic [.tempfile false]
  | failed (e : HubError) : CreateAsks c path k parentId (.err .providerError)
      [.tempfile true, .create (folderRequest path parentId k) (.error e)]
  | made (file : File) (i : Str) (hi : file.id = some i) :
      CreateAsks c path k parentId (.ok (some i))
        [.tempfile true, .create (folderRequest path parentId k) (.ok file)]
  /-- The folder is there, but its id is missing: a panic. -/
  | nameless (file : File) (hi : file.id = none) : CreateAsks c path k parentId .panic
      [.tempfile true, .create (folderRequest path parentId k) (.ok file)]

/-! ## The directories -/

/-- A lookup that ends without an object, or with an error. -/
def Unanswered (r : Outcome SyncerErrors (Option Str)) : Prop :=
  r = .ok none ∨ ∃ e, r = .err e

/-- One directory of `createPath`, with unique id `k`, below one with unique id `pk`. -/
inductive EnsureAsks (c : Drive3Client σ) (path k pk : Str) :
    Outcome SyncerErrors Unit → List Call → Prop
  | hit : EnsureAsks c path k pk (.ok ()) [.containsKey k true]
  | found (i : Str) (calls : List Call) (h : IdAsks c k (.ok (some i)) calls) :
      EnsureAsks c path k pk (.ok ()) (.containsKey k false :: calls)
  | crashed (calls : List Call) (h : IdAsks c k .panic calls) :
      EnsureAsks c path k pk .panic (.containsKey k false :: calls)
  /-- No parent comes back either: a panic. -/
  | orphan (r r' : Outcome SyncerErrors (Option Str)) (calls calls' : List Call)
      (h : IdAsks c k r calls) (hr : Unanswered r) (h' : IdAsks c pk r' calls')
      (hr' : ∀ g, r' ≠ .ok (some g)) :
      EnsureAsks c path k pk .panic (.containsKey k false :: (calls ++ calls'))
  /-- The folder is asked for below its parent; an error of this is only logged. -/
  | create (g : Str) (r r' : Outcome SyncerErrors (Option Str)) (calls calls' made : List Call)
      (h : IdAsks c k r calls) (hr : Unanswered r) (h' : IdAsks c pk (.ok (some g)) calls')
      (hmade : CreateAsks c path k (some g) r' made) :
      EnsureAsks c path k pk (if r'.returned then .ok () else .panic)
        (.containsKey k false :: (calls ++ (calls' ++ made)))

/-- The walk over `dirs` below `done`. -/
inductive WalkAsks [Base64] (c : Drive3Client σ) :
    List Str → List Str → Outcome SyncerErrors Unit → List Call → Prop
  | nil (done : List Str) : WalkAsks c done [] (.ok ()) []
  | cons {done dirs : List Str} {d : Str} {r : Outcome SyncerErrors Unit}
      {calls calls' : List Call}
      (h : EnsureAsks c (below (done ++ [d])) (keyOf (done ++ [d])) (keyOf done) (.ok ()) calls)
      (rest : WalkAsks c (done ++ [d]) dirs r calls') :
      WalkAsks c done (d :: dirs) r (calls ++ calls')
  | stop {done dirs : List Str} {d : Str} {calls : List Call}
      (h : EnsureAsks c (below (done ++ [d])) (keyOf (done ++ [d])) (keyOf done) .panic calls) :
      WalkAsks c done (d :: dirs) .panic calls

/-! ## The file -/

/-- The file, once the drive has answered the lookup of its directory with `parentId`. -/
inductive FileAsks (path name k : Str) (parentId : Option Str) :
    Outcome SyncerErrors (Option Str) → List Call → Prop
  | unreadable : FileAsks path name k parentId (.err .providerError) [.openFile path false]
  /-- The file is gone when it is opened again: a panic. -/
  | vanished :
      FileAsks path name k parentId .panic [.openFile path true, .openFile path false]
  | failed (e : HubError) : FileAsks path name k parentId (.err .providerError)
      [.openFile path true, .openFile path true, .create (fileRequest name parentId k) (.error e)]
  | made (file : File) (i : Str) (hi : file.id = some i) :
      FileAsks path name k parentId (.ok (some i)) [.openFile path true, .openFile path true,
        .create (fileRequest name parentId k) (.ok file)]
  /-- The file is on the drive, but its id is missing: a panic. -/
  | nameless (file : File) (hi : file.id = none) : FileAsks path name k parentId .panic
      [.openFile path true, .openFile path true, .create (fileRequest name parentId k) (.ok file)]

variable [Base64]

/-- The part of an upload after the directories. -/
inductive PlaceAsks (c : Drive3Client σ) (path : Str) :
    Outcome SyncerErrors (Option Str) → List Call → Prop
  /-- The path has no name, or no parent with a unique id: a panic. -/
  | unnamed (h : ∀ name pk, ¬ PlaceKeys path name pk) : PlaceAsks c path .panic []
  /-- The lookup of the parent ends with an error or a panic: a panic. -/
  | unanswered (name pk : Str) (hkeys : PlaceKeys path name pk)
      (r : Outcome SyncerErrors (Option Str)) (calls : List Call) (h : IdAsks c pk r calls)
      (hr : ∀ o, r ≠ .ok o) : PlaceAsks c path .panic calls
  | noUid (name pk : Str) (hkeys : PlaceKeys path name pk) (parentId : Option Str)
      (calls : List Call) (h : IdAsks c pk (.ok parentId) calls) (e : SyncerErrors)
      (he : (SyncableFile.mk path).getUniqueId = .error e) : PlaceAsks c path (.err e) calls
  | file (name pk k : Str) (hkeys : PlaceKeys path name pk)
      (hk : (SyncableFile.mk path).getUniqueId = .ok k) (parentId : Option Str)
      (r : Outcome SyncerErrors (Option Str)) (calls calls' : List Call)
      (h : IdAsks c pk (.ok parentId) calls) (h' : FileAsks path name k parentId r calls') :
      PlaceAsks c path r (calls ++ calls')

/-- A whole upload. -/
inductive UploadAsks (c : Drive3Client σ) (path : Str) :
    Outcome SyncerErrors (Option Str) → List Call → Prop
  /-- The path is not below the watched directory: a panic. -/
  | outside (h : relComponents path = none) : UploadAsks c path .panic []
  /-- The path is the watched directory: a panic when arithmetic is checked. -/
  | rootChecked (h : relComponents path = some []) (hc : c.machine.overflowChecks = true) :
      UploadAsks c path .panic []
  | root (h : relComponents path = some []) (hc : c.machine.overflowChecks = false)
      {r : Outcome SyncerErrors (Option Str)} {calls : List Call} (hp : PlaceAsks c path r calls) :
      UploadAsks c path r calls
  | crashed {dirs : List Str} {f : Str} (h : relComponents path = some (dirs ++ [f]))
      {calls : List Call} (hw : WalkAsks c [] dirs .panic calls) : UploadAsks c path .panic calls
  | placed {dirs : List Str} {f : Str} (h : relComponents path = some (dirs ++ [f]))
      {calls calls' : List Call} {r : Outcome SyncerErrors (Option Str)}
      (hw : WalkAsks c [] dirs (.ok ()) calls) (hp : PlaceAsks c path r calls') :
      UploadAsks c path r (calls ++ calls')

/-- The start: the root folder is looked up, and asked for when there is none. -/
inductive StartAsks (c : Drive3Client σ) : Outcome SyncerErrors Unit → List Call → Prop
  /-- There is no hub, and nothing is asked. -/
  | offline (h : ∀ hub, c.hub ≠ .ok hub) : StartAsks c (.err .noAppSecret) []
  | known (i : Str) (calls : List Call) (h : IdAsks c (keyOf []) (.ok (some i)) calls) :
      StartAsks c (.ok ()) calls
  | failed (e : SyncerErrors) (calls : List Call) (h : IdAsks c (keyOf []) (.err e) calls) :
      StartAsks c (.ok ()) calls
  | crashed (calls : List Call) (h : IdAsks c (keyOf []) .panic calls) : StartAsks c .panic calls
  | create (r : Outcome SyncerErrors (Option Str)) (calls made : List Call)
      (h : IdAsks c (keyOf []) (.ok none) calls)
      (hmade : CreateAsks c (below []) (keyOf []) none r made) :
      StartAsks c (if r.returned then .ok () else .panic) (calls ++ made)

end Grammar

section Conversations

variable {σ : Type} {c : Drive3Client σ}

/-- A lookup that is answered has a hub to ask. -/
theorem IdAsks.online {k : Str} {o : Option Str} {calls : List Call}
    (h : IdAsks c k (.ok o) calls) : ∃ hub, c.hub = .ok hub := by
  cases h with
  | nothing hub hhub | found hub hhub => exact ⟨hub, hhub⟩

/-- A lookup that is answered has asked something. -/
theorem IdAsks.ne_nil {k : Str} {o : Option Str} {calls : List Call}
    (h : IdAsks c k (.ok o) calls) : calls ≠ [] := by
  cases h <;> simp

/-- The body of the loop never passes an error on. -/
theorem EnsureAsks.ok_or_panic {path k pk : Str} {r : Outcome SyncerErrors Unit}
    {calls : List Call} (h : EnsureAsks c path k pk r calls) : r = .ok () ∨ r = .panic := by
  cases h with
  | hit | found => exact Or.inl rfl
  | crashed | orphan => exact Or.inr rfl
  | create g r r' =>
    cases r'.returned with
    | false => exact Or.inr rfl
    | true => exact Or.inl rfl

theorem WalkAsks.ok_or_panic [Base64] {done dirs : List Str} {r : Outcome SyncerErrors Unit}
    {calls : List Call} (h : WalkAsks c done dirs r calls) : r = .ok () ∨ r = .panic := by
  induction h with
  | nil => exact Or.inl rfl
  | cons _ _ ih => exact ih
  | stop => exact Or.inr rfl

end Conversations

end PiDriveSync
