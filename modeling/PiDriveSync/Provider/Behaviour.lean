import PiDriveSync.CreatePath
import PiDriveSync.Provider.Drive

/-!
# Everything one step of the client can do to the drive

Two inductive families say, once and for all, how the parts of an upload can end:
`EnsureEnds` for one directory in `createPath`, and `PlaceEnds` for the file itself.
Each constructor is one branch of the source and carries the conditions on the
outside under which it is taken and the world it leaves.  `ensureDir_ends` and
`placeFile_ends` say that there are no others; nothing after this module unfolds the
client again.
-/

namespace PiDriveSync

open UnixPath Fallible

/-! ## Questions to the cache and to the drive -/

/-- What is left of the cache when the client looks. -/
def left (m : Moment) (cache : Cache) : Cache :=
  cache.filter fun e => !m.expired e.1

theorem mem_of_left {m : Moment} {cache : Cache} {e : Str × Str} (h : e ∈ left m cache) :
    e ∈ cache :=
  List.mem_of_mem_filter h

/-- Nothing is left under a key. -/
theorem any_left_eq_false {m : Moment} {cache : Cache} {k : Str} :
    ((left m cache).any fun e => e.1 == k) = false ↔ ∀ v, (k, v) ∉ left m cache := by
  rw [List.any_eq_false]
  constructor
  · exact fun h v hv => h _ hv (beq_self_eq_true k)
  · rintro h ⟨k', v⟩ hmem hkey
    rw [show k' = k from beq_iff_eq.mp hkey] at hmem
    exact h v hmem

theorem mem_remember {cache : Cache} {k v : Str} {e : Str × Str} :
    e ∈ remember cache k v ↔ e = (k, v) ∨ e ∈ cache ∧ e.1 ≠ k := by
  simp [remember]

theorem remember_remember (cache : Cache) (k v : Str) :
    remember (remember cache k v) k v = remember cache k v := by
  simp [remember, List.filter_filter]

/-- The id a lookup comes back with, if the call succeeds and there is one. -/
def lookup (m : Moment) (objs : List Obj) (k : Str) : Option Str :=
  if m.fault = .none then pick m objs k else none

theorem mem_of_lookup {m : Moment} {objs : List Obj} {k i : Str}
    (h : lookup m objs k = some i) : ∃ o ∈ carriers objs k, o.id = i := by
  rw [lookup] at h
  split_ifs at h
  exact mem_of_pick h

theorem lookup_eq_none {m : Moment} {objs : List Obj} {k : Str} :
    lookup m objs k = none ↔ m.fault ≠ .none ∨ carriers objs k = [] := by
  rw [lookup]
  split_ifs with hf
  · rw [pick_eq_none]
    simp [hf]
  · simp [hf]

namespace World

variable (w : DriveWorld)

/-- The world after a look at the cache. -/
def looked (m : Moment) (k : Str) : DriveWorld where
  outside := w.outside.next
  cache := left m w.cache
  trace := w.trace ++ [.containsKey k ((left m w.cache).any fun e => e.1 == k)]

/-- The world after a lookup on the drive. -/
def sought (ω : Schedule) (k : Str) : DriveWorld :=
  w.asked (queryCalls (ω w.tick) w.objs k)

/-- The world with a folder id in the cache. -/
def remembered (k v : Str) : DriveWorld :=
  { w with cache := remember w.cache k v }

variable {w} {ω : Schedule} {m : Moment} {k v : Str}

@[simp] theorem looked_objs : (w.looked m k).objs = w.objs := rfl
@[simp] theorem looked_disk : (w.looked m k).disk = w.disk := rfl
@[simp] theorem looked_tick : (w.looked m k).tick = w.tick + 1 := rfl
@[simp] theorem looked_cache : (w.looked m k).cache = left m w.cache := rfl
@[simp] theorem looked_trace : (w.looked m k).trace =
    w.trace ++ [.containsKey k ((left m w.cache).any fun e => e.1 == k)] := rfl

@[simp] theorem sought_objs : (w.sought ω k).objs = w.objs := rfl
@[simp] theorem sought_disk : (w.sought ω k).disk = w.disk := rfl
@[simp] theorem sought_tick : (w.sought ω k).tick = w.tick + 1 := rfl
@[simp] theorem sought_cache : (w.sought ω k).cache = w.cache := rfl
@[simp] theorem sought_trace :
    (w.sought ω k).trace = w.trace ++ queryCalls (ω w.tick) w.objs k := rfl

@[simp] theorem remembered_objs : (w.remembered k v).objs = w.objs := rfl
@[simp] theorem remembered_disk : (w.remembered k v).disk = w.disk := rfl
@[simp] theorem remembered_tick : (w.remembered k v).tick = w.tick := rfl
@[simp] theorem remembered_cache : (w.remembered k v).cache = remember w.cache k v := rfl
@[simp] theorem remembered_trace : (w.remembered k v).trace = w.trace := rfl

end World

/-! ## Creating a folder -/

/-- How `createDir` can end for a path with unique id `k`. -/
inductive CreateEnds (ω : Schedule) (path k : Str) (parentId : Option Str) (w : DriveWorld) :
    Outcome SyncerErrors (Option Str) → DriveWorld → Prop
  /-- No temporary file could be made: a panic. -/
  | noTempfile (ht : (ω w.tick).tempfile = false) :
      CreateEnds ω path k parentId w .panic (w.asked [.tempfile false])
  /-- The folder is there and its id is in the cache. -/
  | made (o : Obj) (ht : (ω w.tick).tempfile = true) (hf : (ω (w.tick + 1)).fault = .none)
      (ho : o = newObj (ω (w.tick + 1)) w.objs (folderRequest path parentId k) []) :
      CreateEnds ω path k parentId w (.ok (some o.id))
        ((((w.asked [.tempfile true]).asked
          [.create (folderRequest path parentId k) (.ok o.toFile)]).added o).remembered k o.id)
  /-- The call fails and there is no folder. -/
  | rejected (ht : (ω w.tick).tempfile = true) (hf : (ω (w.tick + 1)).fault = .rejected) :
      CreateEnds ω path k parentId w (.err .providerError)
        ((w.asked [.tempfile true]).asked
          [.create (folderRequest path parentId k) (.error (ω (w.tick + 1)).error)])
  /-- The call fails, and the folder is there all the same. -/
  | lost (o : Obj) (ht : (ω w.tick).tempfile = true) (hf : (ω (w.tick + 1)).fault = .lost)
      (ho : o = newObj (ω (w.tick + 1)) w.objs (folderRequest path parentId k) []) :
      CreateEnds ω path k parentId w (.err .providerError)
        (((w.asked [.tempfile true]).asked
          [.create (folderRequest path parentId k) (.error (ω (w.tick + 1)).error)]).added o)

section Calls

variable [Base64] (ω : Schedule) (filters : List Str) (checks : Bool)

theorem createDir_ends {path k : Str} (h : (SyncableFile.mk path).getUniqueId = .ok k)
    (parentId : Option Str) (w : DriveWorld) :
    Ends ((driveClient ω filters checks).createDir path parentId) w
      (CreateEnds ω path k parentId w) := by
  rw [Ends, createDir_run h]
  cases ht : (ω w.tick).tempfile with
  | false => exact .noTempfile ht
  | true =>
    cases hf : (ω (w.tick + 1)).fault with
    | none =>
      simp only [if_true, World.asked_tick, hf]
      exact .made _ ht hf rfl
    | rejected =>
      simp only [if_true, World.asked_tick, hf]
      exact .rejected ht hf
    | lost =>
      simp only [if_true, World.asked_tick, hf]
      exact .lost _ ht hf rfl

omit [Base64] in
variable {ω} in
/-- When `createDir` answers, the new folder is in the cache already. -/
theorem CreateEnds.remembered_eq {path k : Str} {parentId : Option Str} {w w' : DriveWorld}
    {i : Str} (h : CreateEnds ω path k parentId w (.ok (some i)) w') :
    w'.remembered k i = w' := by
  cases h with
  | made o ht hf ho =>
    rw [World.remembered, World.remembered_cache, remember_remember]
    rfl

/-! ## One directory of `createPath` -/

/-- How `ensureDir` can end for a directory with unique id `k` below one with unique
id `pk`.  The cache is looked at first; then the drive is asked for the folder, then
for its parent, and then to create it. -/
inductive EnsureEnds (ω : Schedule) (path k pk : Str) (w : DriveWorld) :
    Outcome SyncerErrors Unit → DriveWorld → Prop
  /-- The cache has the directory. -/
  | hit (v : Str) (hv : (k, v) ∈ left (ω w.tick) w.cache) :
      EnsureEnds ω path k pk w (.ok ()) (w.looked (ω w.tick) k)
  /-- The drive has the folder. -/
  | found (v : Str) (miss : ∀ v, (k, v) ∉ left (ω w.tick) w.cache)
      (hv : lookup (ω (w.tick + 1)) w.objs k = some v) :
      EnsureEnds ω path k pk w (.ok ())
        (((w.looked (ω w.tick) k).sought ω k).remembered k v)
  /-- No folder came back, and no parent either: a panic. -/
  | orphan (miss : ∀ v, (k, v) ∉ left (ω w.tick) w.cache)
      (hk : lookup (ω (w.tick + 1)) w.objs k = none)
      (hpk : lookup (ω (w.tick + 2)) w.objs pk = none) :
      EnsureEnds ω path k pk w .panic
        (((w.looked (ω w.tick) k).sought ω k).sought ω pk)
  /-- The parent came back and the folder is asked for below it.  An error of the
  creation is only logged. -/
  | create (g : Str) (r : Outcome SyncerErrors (Option Str)) (w' : DriveWorld)
      (miss : ∀ v, (k, v) ∉ left (ω w.tick) w.cache)
      (hk : lookup (ω (w.tick + 1)) w.objs k = none)
      (hpk : lookup (ω (w.tick + 2)) w.objs pk = some g)
      (h : CreateEnds ω path k (some g)
        (((w.looked (ω w.tick) k).sought ω k).sought ω pk) r w') :
      EnsureEnds ω path k pk w (if r.returned then .ok () else .panic) w'

omit [Base64] in
theorem containsKey_run (k : Str) (w : DriveWorld) :
    containsKey (driveMachine ω checks) k w =
      (.ok ((left (ω w.tick) w.cache).any fun e => e.1 == k), w.looked (ω w.tick) k) := rfl

/-- A lookup whose error is dropped. -/
theorem attemptOk_id_run {path k : Str} (h : (SyncableFile.mk path).getUniqueId = .ok k)
    (w : DriveWorld) :
    (((driveClient ω filters checks).id path).attemptOk :
      Sync DriveState (Option (Option Str))) w =
      (.ok (if (ω w.tick).fault = .none then some (pick (ω w.tick) w.objs k) else none),
        w.sought ω k) := by
  unfold Fallible.attemptOk
  rw [id_run h]
  split_ifs <;> rfl

omit [Base64] in
/-- In `createPath`, no answer and an answer without an object come to the same. -/
theorem answer_eq_lookup (m : Moment) (objs : List Obj) (k : Str) :
    ((if m.fault = .none then some (pick m objs k) else none).bind fun o => o) =
      lookup m objs k := by
  rw [lookup]
  split_ifs <;> rfl

theorem ensureDir_ends {lastDir d k pk : Str}
    (hk : (SyncableFile.mk (lastDir ++ d)).getUniqueId = .ok k)
    (hpk : (SyncableFile.mk lastDir).getUniqueId = .ok pk) (w : DriveWorld) :
    Ends ((driveClient ω filters checks).ensureDir lastDir d) w
      (EnsureEnds ω (lastDir ++ d) k pk w) := by
  unfold Ends
  rw [Drive3Client.ensureDir, hk, ofExcept_ok, pure_bind_eq, unwrapExcept_ok, pure_bind_eq,
    driveClient_machine, bind_run_ok (containsKey_run ω checks k w)]
  cases hhit : (left (ω w.tick) w.cache).any fun e => e.1 == k with
  | true =>
    obtain ⟨⟨k', v⟩, hmem, hkey⟩ := List.any_eq_true.mp hhit
    have hkk : k' = k := beq_iff_eq.mp hkey
    exact .hit v (hkk ▸ hmem)
  | false =>
    simp only [Bool.not_false, if_true]
    rw [bind_run_ok (attemptOk_id_run ω filters checks hk (w.looked (ω w.tick) k)),
      answer_eq_lookup]
    cases hlk : lookup (ω (w.tick + 1)) w.objs k with
    | some v =>
      simp only [World.looked_tick, World.looked_objs, hlk]
      exact .found v (any_left_eq_false.mp hhit) hlk
    | none =>
      simp only [World.looked_tick, World.looked_objs, hlk]
      rw [bind_run_ok (attemptOk_id_run ω filters checks hpk
        ((w.looked (ω w.tick) k).sought ω k)), answer_eq_lookup]
      cases hlpk : lookup (ω (w.tick + 2)) w.objs pk with
      | none =>
        simp only [World.sought_tick, World.looked_tick, World.sought_objs, World.looked_objs,
          hlpk]
        exact .orphan (any_left_eq_false.mp hhit) hlk hlpk
      | some g =>
        simp only [World.sought_tick, World.looked_tick, World.sought_objs, World.looked_objs,
          hlpk]
        rw [unwrapOption_some, pure_bind_eq, bind_run, Fallible.attempt]
        have hcreate := createDir_ends ω filters checks hk (some g)
          (((w.looked (ω w.tick) k).sought ω k).sought ω pk)
        unfold Ends at hcreate
        rcases hr : (driveClient ω filters checks).createDir (lastDir ++ d) (some g)
          (((w.looked (ω w.tick) k).sought ω k).sought ω pk) with ⟨r, w'⟩
        rw [hr] at hcreate
        have hend := EnsureEnds.create g r w' (any_left_eq_false.mp hhit) hlk hlpk hcreate
        rcases r with (_ | i) | e | _
        · exact hend
        · have hsame : cacheInsert k i w' = (.ok (), w'.remembered k i) := rfl
          rw [hcreate.remembered_eq] at hsame
          show EnsureEnds _ _ _ _ _ (cacheInsert k i w').1 (cacheInsert k i w').2
          rw [hsame]
          exact hend
        · exact hend
        · exact hend

/-! ## The file -/

/-- The name of the file and the unique id of its parent directory, as `placeFile`
reads them off a path. -/
def PlaceKeys (path name pk : Str) : Prop :=
  ∃ pp, (SyncableFile.mk path).parentPath = .ok pp ∧ fileName path = some name ∧
    (SyncableFile.mk pp).getUniqueId = .ok pk

/-- The bytes that opening a file gives, if it can be opened. -/
def readAt (m : Moment) (disk : Disk) (path : Str) : Option Bytes :=
  if m.readable then disk path else none

/-- The request for a file. -/
def fileRequest (name : Str) (parentId : Option Str) (k : Str) : File where
  name := some name
  parents := parentId.map fun p => [p]
  appProperties := some [(piDriveSyncPropsKey, k)]

/-- The world in which `placeFile` asks for the file: its parent has been looked up
and the file has been opened twice. -/
def World.opened (w : DriveWorld) (ω : Schedule) (pk path : Str) : DriveWorld :=
  ((w.sought ω pk).asked [.openFile path true]).asked [.openFile path true]

/-- How `placeFile` can end. -/
inductive PlaceEnds (ω : Schedule) (path : Str) (w : DriveWorld) :
    Outcome SyncerErrors (Option Str) → DriveWorld → Prop
  /-- The path has no name or no parent with a unique id: a panic. -/
  | unnamed (h : ∀ name pk, ¬ PlaceKeys path name pk) : PlaceEnds ω path w .panic w
  /-- The lookup of the parent fails: a panic. -/
  | unanswered (name pk : Str) (h : PlaceKeys path name pk)
      (hf : (ω w.tick).fault ≠ .none) : PlaceEnds ω path w .panic (w.sought ω pk)
  | noUid (name pk : Str) (e : SyncerErrors) (h : PlaceKeys path name pk)
      (hf : (ω w.tick).fault = .none) (hk : (SyncableFile.mk path).getUniqueId = .error e) :
      PlaceEnds ω path w (.err e) (w.sought ω pk)
  /-- The file cannot be opened. -/
  | unreadable (name pk k : Str) (h : PlaceKeys path name pk) (hf : (ω w.tick).fault = .none)
      (hk : (SyncableFile.mk path).getUniqueId = .ok k)
      (hread : readAt (ω (w.tick + 1)) w.disk path = none) :
      PlaceEnds ω path w (.err .providerError) ((w.sought ω pk).asked [.openFile path false])
  /-- The file is gone when it is opened again: a panic. -/
  | vanished (name pk k : Str) (h : PlaceKeys path name pk) (hf : (ω w.tick).fault = .none)
      (hk : (SyncableFile.mk path).getUniqueId = .ok k)
      (hread : readAt (ω (w.tick + 1)) w.disk path ≠ none)
      (hagain : readAt (ω (w.tick + 2)) w.disk path = none) :
      PlaceEnds ω path w .panic
        (((w.sought ω pk).asked [.openFile path true]).asked [.openFile path false])
  /-- The file is on the drive, below whatever the lookup found. -/
  | made (name pk k : Str) (content : Bytes) (o : Obj) (h : PlaceKeys path name pk)
      (hf : (ω w.tick).fault = .none) (hk : (SyncableFile.mk path).getUniqueId = .ok k)
      (hread : readAt (ω (w.tick + 1)) w.disk path ≠ none)
      (hagain : readAt (ω (w.tick + 2)) w.disk path = some content)
      (hc : (ω (w.tick + 3)).fault = .none)
      (ho : o = newObj (ω (w.tick + 3)) w.objs
        (fileRequest name (pick (ω w.tick) w.objs pk) k) content) :
      PlaceEnds ω path w (.ok (some o.id)) (((w.opened ω pk path).asked
        [.create (fileRequest name (pick (ω w.tick) w.objs pk) k) (.ok o.toFile)]).added o)
  /-- The call fails and there is no file. -/
  | rejected (name pk k : Str) (content : Bytes) (h : PlaceKeys path name pk)
      (hf : (ω w.tick).fault = .none) (hk : (SyncableFile.mk path).getUniqueId = .ok k)
      (hread : readAt (ω (w.tick + 1)) w.disk path ≠ none)
      (hagain : readAt (ω (w.tick + 2)) w.disk path = some content)
      (hc : (ω (w.tick + 3)).fault = .rejected) :
      PlaceEnds ω path w (.err .providerError) ((w.opened ω pk path).asked
        [.create (fileRequest name (pick (ω w.tick) w.objs pk) k) (.error (ω (w.tick + 3)).error)])
  /-- The call fails, and the file is there all the same. -/
  | lost (name pk k : Str) (content : Bytes) (o : Obj) (h : PlaceKeys path name pk)
      (hf : (ω w.tick).fault = .none) (hk : (SyncableFile.mk path).getUniqueId = .ok k)
      (hread : readAt (ω (w.tick + 1)) w.disk path ≠ none)
      (hagain : readAt (ω (w.tick + 2)) w.disk path = some content)
      (hc : (ω (w.tick + 3)).fault = .lost)
      (ho : o = newObj (ω (w.tick + 3)) w.objs
        (fileRequest name (pick (ω w.tick) w.objs pk) k) content) :
      PlaceEnds ω path w (.err .providerError) (((w.opened ω pk path).asked
        [.create (fileRequest name (pick (ω w.tick) w.objs pk) k)
          (.error (ω (w.tick + 3)).error)]).added o)

omit [Base64] in
theorem openFile_run (path : Str) (w : DriveWorld) :
    openFile (driveMachine ω checks) path w =
      (.ok (readAt (ω w.tick) w.disk path),
        w.asked [.openFile path (readAt (ω w.tick) w.disk path).isSome]) := rfl

/-- Without a name, or a parent with a unique id, there is a panic before anything is
asked. -/
theorem placeFile_of_unnamed {path : Str} (h : ∀ name pk, ¬ PlaceKeys path name pk)
    (w : DriveWorld) : (driveClient ω filters checks).placeFile path w = (.panic, w) := by
  rw [Drive3Client.placeFile]
  cases hpp : (SyncableFile.mk path).parentPath with
  | error e => rfl
  | ok pp =>
    rw [unwrapExcept_ok, pure_bind_eq, SyncableFile.localPath]
    cases hname : fileName path with
    | none => rfl
    | some name =>
      rw [unwrapOption_some, pure_bind_eq, pure_bind_eq]
      cases hpk : (SyncableFile.mk pp).getUniqueId with
      | ok pk => exact absurd ⟨pp, hpp, hname, hpk⟩ (h name pk)
      | error e =>
        have hid : (((driveClient ω filters checks).id pp).attemptOk :
            Sync DriveState (Option (Option Str))) w = (.ok none, w) := by
          rw [Drive3Client.id, hpk]
          rfl
        rw [bind_run_ok hid]
        rfl

theorem placeFile_ends (path : Str) (w : DriveWorld) :
    Ends ((driveClient ω filters checks).placeFile path) w (PlaceEnds ω path w) := by
  unfold Ends
  by_cases hunnamed : ∀ name pk, ¬ PlaceKeys path name pk
  · rw [placeFile_of_unnamed ω filters checks hunnamed]
    exact .unnamed hunnamed
  · push Not at hunnamed
    obtain ⟨name, pk, hkeys⟩ := hunnamed
    obtain ⟨pp, hpp, hname, hpk⟩ := hkeys
    have hkeys : PlaceKeys path name pk := ⟨pp, hpp, hname, hpk⟩
    rw [Drive3Client.placeFile, hpp, unwrapExcept_ok, pure_bind_eq, SyncableFile.localPath, hname,
      unwrapOption_some, pure_bind_eq, pure_bind_eq,
      bind_run_ok (attemptOk_id_run ω filters checks hpk w)]
    by_cases hf : (ω w.tick).fault = .none
    · rw [if_pos hf, unwrapOption_some, pure_bind_eq]
      cases hk : (SyncableFile.mk path).getUniqueId with
      | error e => exact .noUid name pk e hkeys hf hk
      | ok k =>
        rw [ofExcept_ok, pure_bind_eq, driveClient_machine, bind_run_ok (openFile_run ..)]
        cases hread : readAt (ω (w.tick + 1)) w.disk path with
        | none =>
          simp only [World.sought_tick, World.sought_disk, hread]
          exact .unreadable name pk k hkeys hf hk hread
        | some content₀ =>
          have hread' : readAt (ω (w.tick + 1)) w.disk path ≠ none := by simp [hread]
          simp only [World.sought_tick, World.sought_disk, hread, driveClient_getHub,
            ofExcept_ok, pure_bind_eq]
          rw [bind_run_ok (openFile_run ..)]
          cases hagain : readAt (ω (w.tick + 2)) w.disk path with
          | none =>
            simp only [World.asked_tick, World.asked_disk, World.sought_tick, World.sought_disk,
              hagain]
            exact .vanished name pk k hkeys hf hk hread' hagain
          | some content =>
            simp only [World.asked_tick, World.asked_disk, World.sought_tick, World.sought_disk,
              hagain, unwrapOption_some, pure_bind_eq]
            rw [bind_run, hubCreate_run]
            cases hc : (ω (w.tick + 3)).fault with
            | none =>
              simp only [World.asked_tick, World.sought_tick, hc]
              exact .made name pk k content _ hkeys hf hk hread' hagain hc rfl
            | rejected =>
              simp only [World.asked_tick, World.sought_tick, hc]
              exact .rejected name pk k content hkeys hf hk hread' hagain hc
            | lost =>
              simp only [World.asked_tick, World.sought_tick, hc]
              exact .lost name pk k content _ hkeys hf hk hread' hagain hc rfl
    · rw [if_neg hf]
      exact .unanswered name pk hkeys hf

end Calls

end PiDriveSync
