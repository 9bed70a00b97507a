import PiDriveSync.UploadHandler
import PiDriveSync.Effects.Fallible

/-!
# The drive client

`Drive3Client` mirrors local files on a drive: `uploadFile` first makes sure that
every directory above the file has a folder (`createPath`, one `ensureDir` a
directory), then looks its parent folder up and creates the file below it.

The client talks to a `Hub`, which is the `google_drive3` crate and the service
behind it, and to the `Machine` it runs on.  Both act on an outside state `σ` of
which the client sees nothing but their answers.  A `World` is that outside state,
the cache of folder ids, and the list of everything asked so far with the answers.

The cache is the `ttl_cache` crate.  An entry leaves it when its time is up or when
there are too many; which entries are gone when the client next looks is the
machine's choice (`Machine.expired`).
-/

namespace PiDriveSync

open UnixPath Fallible

abbrev Bytes := List UInt8

/-- The fields of `drive3::File` that the client sets or reads. -/
structure File where
  id : Option Str := none
  name : Option Str := none
  parents : Option (List Str) := none
  appProperties : Option (List (Str × Str)) := none
  mimeType : Option Str := none
  deriving DecidableEq, Repr

/-- `drive3::Error`. -/
inductive HubError where
  | httpError
  | missingAPIKey
  | missingToken
  | cancelled
  | uploadSizeLimitExceeded
  | failure
  | badRequest
  | fieldClash
  | jsonDecodeError
  deriving DecidableEq, Repr

/-- The service the client talks to, with the crate in between.  How the crate sends the
bytes is left out, and so is its own panic when a build that checks arithmetic uploads a
plain file with nothing in it. -/
structure Hub (σ : Type) where
  /-- `files().list().q(q).doit()`: the `files` field of the answer. -/
  list : Str → σ → Except HubError (Option (List File)) × σ
  /-- `files().create(req)` with `upload(..)` or `upload_resumable(..)`, and the uploaded
  bytes. -/
  create : File → Bytes → σ → Except HubError File × σ

/-- The machine the client runs on. -/
structure Machine (σ : Type) where
  /-- The cache keys that are gone when the cache is looked at. -/
  expired : σ → (Str → Bool) × σ
  /-- `tempfile()`: whether a temporary file could be made. -/
  tempfile : σ → Bool × σ
  /-- `File::open` and the bytes behind it. -/
  openFile : Str → σ → Option Bytes × σ
  /-- `Path::is_file`. -/
  isFile : Str → σ → Bool × σ
  /-- Whether the build checks arithmetic for overflow. -/
  overflowChecks : Bool

/-- One thing asked by the client, and the answer. -/
inductive Call where
  | containsKey (key : Str) (hit : Bool)
  | list (q : Str) (reply : Except HubError (Option (List File)))
  | tempfile (made : Bool)
  | create (req : File) (reply : Except HubError File)
  | openFile (path : Str) (opened : Bool)
  /-- The warning that more than one file was returned for an id. -/
  | moreThanOne (key : Str)

/-- The cache: folder ids by unique id. -/
abbrev Cache := List (Str × Str)

/-- What a call of the client runs in. -/
structure World (σ : Type) where
  outside : σ
  cache : Cache
  trace : List Call

structure Drive3Client (σ : Type) where
  hub : Except SyncerErrors (Hub σ)
  filters : List Str
  machine : Machine σ

/-- The `regex` crate: an expression that compiles says which texts it matches. -/
class RegexCrate where
  new : Str → Option (Str → Bool)

def piDriveSyncPropsKey : Str :=
  str "pi_sync_id"

def folderMimeType : Str :=
  str "application/vnd.google-apps.folder"

/-- A call of the client. -/
abbrev Sync (σ α : Type) := Fallible (World σ) SyncerErrors α

variable {σ : Type}

/-! ## Asking the machine, the cache and the hub -/

/-- `contains_key`, on what is left of the cache. -/
def containsKey (m : Machine σ) (key : Str) : Sync σ Bool := fun w =>
  let gone := m.expired w.outside
  let cache := w.cache.filter fun e => !gone.1 e.1
  let hit := cache.any fun e => e.1 == key
  (.ok hit, ⟨gone.2, cache, w.trace ++ [.containsKey key hit]⟩)

/-- `insert`: the new entry replaces one with the same key. -/
def cacheInsert (key value : Str) : Sync σ Unit := fun w =>
  (.ok (), { w with cache := (key, value) :: w.cache.filter fun e => e.1 != key })

def tempfile (m : Machine σ) : Sync σ (Except SyncerErrors Unit) := fun w =>
  let made := m.tempfile w.outside
  (.ok (if made.1 then .ok () else .error .invalidPathError),
    ⟨made.2, w.cache, w.trace ++ [.tempfile made.1]⟩)

def openFile (m : Machine σ) (path : Str) : Sync σ (Option Bytes) := fun w =>
  let opened := m.openFile path w.outside
  (.ok opened.1, ⟨opened.2, w.cache, w.trace ++ [.openFile path opened.1.isSome]⟩)

def isFile (m : Machine σ) (path : Str) : Sync σ Bool := fun w =>
  let found := m.isFile path w.outside
  (.ok found.1, { w with outside := found.2 })

def hubList (h : Hub σ) (q : Str) : Sync σ (Except HubError (Option (List File))) := fun w =>
  let reply := h.list q w.outside
  (.ok reply.1, ⟨reply.2, w.cache, w.trace ++ [.list q reply.1]⟩)

def hubCreate (h : Hub σ) (req : File) (content : Bytes) : Sync σ (Except HubError File) :=
  fun w =>
    let reply := h.create req content w.outside
    (.ok reply.1, ⟨reply.2, w.cache, w.trace ++ [.create req reply.1]⟩)

/-- The warning in `id`. -/
def warnMoreThanOne (key : Str) : Sync σ Unit := fun w =>
  (.ok (), { w with trace := w.trace ++ [.moreThanOne key] })

/-- `n - 1` at type `usize`: without overflow checks it wraps around. -/
def usizePred (m : Machine σ) (n : ℕ) : Sync σ ℕ :=
  if n = 0 then
    if m.overflowChecks then abort else pure (UInt64.size - 1)
  else
    pure (n - 1)

namespace Drive3Client

variable [Base64] (c : Drive3Client σ)

/-- The client of a hub, or the client without one when there is no secret. -/
def new (hub : Option (Hub σ)) (filters : List Str) (machine : Machine σ) : Drive3Client σ :=
  match hub with
  | some hub => ⟨.ok hub, filters, machine⟩
  | none => ⟨.error .noAppSecret, [], machine⟩

def getHub : Except SyncerErrors (Hub σ) :=
  match c.hub with
  | .ok hub => .ok hub
  | .error _ => .error .noAppSecret

def appPropsMap (id : Str) : Option (List (Str × Str)) :=
  some [(piDriveSyncPropsKey, id)]

/-- The query for the live objects with a unique id. -/
def idQuery (b64Id : Str) : Str :=
  str "appProperties has " ++ str " \x7b key='" ++ piDriveSyncPropsKey ++
    str "' and value='" ++ b64Id ++ str "' \x7d and " ++ str "trashed" ++
    str " = " ++ str "false"

/-- Query the drive for the unique id of a path. -/
def id (localPath : Str) : Sync σ (Option Str) := do
  let b64Id ← ofExcept (SyncableFile.mk localPath).getUniqueId
  let h ← ofExcept c.getHub
  match ← hubList h (idQuery b64Id) with
  | .error _ => fail .providerError
  | .ok files =>
    match files with
    | none => pure none
    | some fv =>
      -- `pop` takes the last file, and the count is made of those before it
      match fv.getLast? with
      | none => pure none
      | some file =>
        let driveId ← unwrapOption file.id
        if fv.dropLast.length > 1 then
          warnMoreThanOne b64Id
        pure (some driveId)

/-- Create a remote folder and return its id. -/
def createDir (localFsPath : Str) (parentId : Option Str) : Sync σ (Option Str) := do
  let s := SyncableFile.mk localFsPath
  let tempFile ← tempfile c.machine
  let uid ← ofExcept s.getUniqueId
  let req : File :=
    { name := fileName s.localPath
      parents := parentId.map fun p => [p]
      appProperties := appPropsMap uid
      mimeType := some folderMimeType }
  let h ← ofExcept c.getHub
  let _ ← unwrapExcept tempFile
  match ← hubCreate h req [] with
  | .error _ => fail .providerError
  | .ok res =>
    let uid ← unwrapExcept s.getUniqueId
    let driveId ← unwrapOption res.id
    cacheInsert uid driveId
    pure (some driveId)

/-- The body of the loop in `createPath`: make sure that `d` has a folder below
the folder of `lastDir`. -/
def ensureDir (lastDir d : Str) : Sync σ Unit := do
  let dirToCreate := lastDir ++ d
  let b64Id ← ofExcept (SyncableFile.mk dirToCreate).getUniqueId
  let key ← unwrapExcept (SyncableFile.mk dirToCreate).getUniqueId
  let hit ← containsKey c.machine key
  if !hit then
    let answer ← (c.id dirToCreate).attemptOk
    match answer.bind fun o => o with
    | some driveId => cacheInsert b64Id driveId
    | none =>
      let answer ← (c.id lastDir).attemptOk
      let parentId ← unwrapOption (answer.bind fun o => o)
      match ← (c.createDir dirToCreate (some parentId)).attempt with
      | .ok (some driveId) => cacheInsert b64Id driveId
      | .ok none => pure ()
      | .error _ => pure ()

/-- The loop of `createPath` over the components of a path, with the index of the
next one. -/
def createPathLoop (fileNameIndex : ℕ) : ℕ → List Str → Str → Sync σ Unit
  | _, [], _ => pure ()
  | pathIndex, dir :: dirs, lastDir => do
    if pathIndex ≠ fileNameIndex then
      c.ensureDir lastDir dir
    createPathLoop fileNameIndex (pathIndex + 1) dirs (lastDir ++ (dir ++ ['/']))

/-- Make sure that every directory between the watched one and the file has a
folder. -/
def createPath (syncable : SyncableFile) : Sync σ Bool := do
  let relPath ← unwrapOption (stripPrefix syncable.localPath (str "/var/www/RpiCamera"))
  let comps := (components relPath).map Component.asOsStr
  let fileNameIndex ← usizePred c.machine comps.length
  c.createPathLoop fileNameIndex 0 comps (str "/var/www/RpiCamera/")
  pure true

/-- The part of `uploadFile` after `createPath`: look the parent folder up and
create the file below it. -/
def placeFile (localFsPath : Str) : Sync σ (Option Str) := do
  let s := SyncableFile.mk localFsPath
  let _ ← unwrapExcept s.parentPath
  let name ← unwrapOption (fileName s.localPath)
  let parentPath ← unwrapExcept s.parentPath
  let answer ← (c.id parentPath).attemptOk
  let parentId ← unwrapOption answer
  let uid ← ofExcept s.getUniqueId
  let req : File :=
    { name := some name
      parents := parentId.map fun p => [p]
      appProperties := appPropsMap uid }
  match ← openFile c.machine localFsPath with
  | none => fail .providerError
  | some _ =>
    let h ← ofExcept c.getHub
    let opened ← openFile c.machine localFsPath
    let content ← unwrapOption opened
    match ← hubCreate h req content with
    | .error _ => fail .providerError
    | .ok res =>
      let driveId ← unwrapOption res.id
      pure (some driveId)

/-- Create a remote file, assigned a parent folder, and return its id.  How
`createPath` ends is not looked at. -/
def uploadFile (localFsPath : Str) : Sync σ (Option Str) := do
  let _ ← (c.createPath ⟨localFsPath⟩).attemptOk
  c.placeFile localFsPath

/-- Whether a file is to be uploaded, by its name. -/
def passesFilter [RegexCrate] (localFsPath : Str) : Sync σ Bool := do
  let filename ← unwrapOption (SyncableFile.mk localFsPath).getFilename
  if c.filters.length = 0 then
    pure true
  else
    let found := c.filters.map fun val =>
      match RegexCrate.new val with
      | some re => re filename
      | none => false
    pure (found.foldl (fun ordd hit => ordd || hit) false)

/-- Whether a file name passes the filters. -/
def passes [RegexCrate] (filename : Str) : Bool :=
  c.filters.isEmpty || c.filters.any fun val =>
    match RegexCrate.new val with
    | some re => re filename
    | none => false

omit [Base64] in
theorem passesFilter_eq [RegexCrate] {path filename : Str}
    (h : (SyncableFile.mk path).getFilename = some filename) :
    c.passesFilter path = pure (c.passes filename) := by
  have hfold : ∀ (l : List Bool) (b : Bool),
      l.foldl (fun ordd hit => ordd || hit) b = (b || l.any fun hit => hit) := by
    intro l
    induction l with
    | nil => simp
    | cons hit l ih => intro b; rw [List.foldl_cons, ih, List.any_cons, Bool.or_assoc]
  rw [passesFilter, h, unwrapOption_some, pure_bind_eq, passes]
  cases hf : c.filters with
  | nil => rfl
  | cons val filters =>
    rw [if_neg (by simp)]
    simp only [hfold, Bool.false_or, List.any_map, List.isEmpty_cons]
    rfl

end Drive3Client

end PiDriveSync
