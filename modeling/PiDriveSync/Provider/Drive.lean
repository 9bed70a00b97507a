import PiDriveSync.Main
import PiDriveSync.Provider.Query

/-!
# A drive, and a machine around the client

The provider is a list of objects.  `list` answers with the objects outside the
trash that carry the property asked for, in an order of the drive's choice, and
`create` adds one object under an id not in use.

What the outside may choose is collected in a `Moment`: whether the call fails, and
then whether it took effect all the same; the order of an answer and the id of a new
object; which cache entries are gone; whether a temporary file can be made and
whether a file can be read.  A `Schedule` has a moment for every tick of a clock
that moves on with everything the client asks, so that one schedule is one way for
the outside to behave, and a property of all runs is a property of all schedules.

`id_run`, `createDir_run` and `openFile_run` say what the client's calls do here.
-/

namespace PiDriveSync

open Fallible

/-- An object on the drive. -/
structure Obj where
  id : Str
  name : Option Str
  parents : List Str
  appProperties : List (Str × Str)
  mimeType : Option Str
  trashed : Bool
  content : Bytes
  deriving DecidableEq, Repr

namespace Obj

/-- The value of a property of the object. -/
def property (o : Obj) (key : Str) : Option Str :=
  o.appProperties.lookup key

/-- The `pi_sync_id` of the object. -/
def syncId (o : Obj) : Option Str :=
  o.property piDriveSyncPropsKey

def isFolder (o : Obj) : Bool :=
  o.mimeType == some folderMimeType

/-- The object that a request creates. -/
def ofRequest (id : Str) (req : File) (content : Bytes) : Obj where
  id := id
  name := req.name
  parents := req.parents.getD []
  appProperties := req.appProperties.getD []
  mimeType := req.mimeType
  trashed := false
  content := content

/-- The description of an object in an answer. -/
def toFile (o : Obj) : File where
  id := some o.id
  name := o.name
  parents := some o.parents
  appProperties := some o.appProperties
  mimeType := o.mimeType

end Obj

/-- The objects that an id stands for: those outside the trash that carry it. -/
def carriers (objs : List Obj) (k : Str) : List Obj :=
  objs.filter fun o => !o.trashed && o.syncId == some k

theorem mem_carriers {objs : List Obj} {k : Str} {o : Obj} :
    o ∈ carriers objs k ↔ o ∈ objs ∧ o.trashed = false ∧ o.syncId = some k := by
  simp [carriers]

@[simp] theorem carriers_append (objs objs' : List Obj) (k : Str) :
    carriers (objs ++ objs') k = carriers objs k ++ carriers objs' k :=
  List.filter_append ..

/-- What carries an id is not lost when the drive grows. -/
theorem carriers_eq_nil_of_starts {objs objs' : List Obj} {k : Str} (hpre : objs <+: objs')
    (h : carriers objs' k = []) : carriers objs k = [] := by
  obtain ⟨rest, rfl⟩ := hpre
  rw [carriers_append, List.append_eq_nil_iff] at h
  exact h.1

/-! ## What the outside chooses -/

/-- How a call to the provider goes wrong. -/
inductive Fault where
  | none
  /-- The call fails and has no effect. -/
  | rejected
  /-- The call takes effect and the answer is lost. -/
  | lost
  deriving DecidableEq, Repr

/-- An order for the objects of an answer. -/
structure Order where
  arrange : List Obj → List Obj
  perm : ∀ l, (arrange l).Perm l

/-- A supply of ids: each is not in use yet. -/
structure IdSupply where
  fresh : List Str → Str
  fresh_notMem : ∀ l, fresh l ∉ l

/-- What the outside does when it is asked. -/
structure Moment where
  fault : Fault
  error : HubError
  order : Order
  ids : IdSupply
  expired : Str → Bool
  tempfile : Bool
  readable : Bool

abbrev Schedule := ℕ → Moment

/-- The files on the local disk, by path. -/
abbrev Disk := Str → Option Bytes

/-- The outside of the client. -/
structure DriveState where
  objs : List Obj
  disk : Disk
  tick : ℕ

def DriveState.next (s : DriveState) : DriveState :=
  { s with tick := s.tick + 1 }

def driveHub (ω : Schedule) : Hub DriveState where
  list q s :=
    (match (ω s.tick).fault with
      | .none =>
        match Query.parseQuery q with
        | some (key, value) =>
          .ok (some (((ω s.tick).order.arrange
            (s.objs.filter fun o => !o.trashed && o.property key == some value)).map Obj.toFile))
        | none => .error .badRequest
      | _ => .error (ω s.tick).error,
    s.next)
  create req content s :=
    let o := Obj.ofRequest ((ω s.tick).ids.fresh (s.objs.map Obj.id)) req content
    match (ω s.tick).fault with
    | .none => (.ok o.toFile, { s.next with objs := s.objs ++ [o] })
    | .rejected => (.error (ω s.tick).error, s.next)
    | .lost => (.error (ω s.tick).error, { s.next with objs := s.objs ++ [o] })

/-- The machine; `checks` says whether the build checks for overflow. -/
def driveMachine (ω : Schedule) (checks : Bool) : Machine DriveState where
  expired s := ((ω s.tick).expired, s.next)
  tempfile s := ((ω s.tick).tempfile, s.next)
  openFile path s := (if (ω s.tick).readable then s.disk path else none, s.next)
  isFile path s := ((s.disk path).isSome, s)
  overflowChecks := checks

/-- A client of the drive. -/
def driveClient (ω : Schedule) (filters : List Str) (checks : Bool) : Drive3Client DriveState :=
  Drive3Client.new (some (driveHub ω)) filters (driveMachine ω checks)

abbrev DriveWorld := World DriveState

namespace World

abbrev objs (w : DriveWorld) : List Obj := w.outside.objs

abbrev disk (w : DriveWorld) : Disk := w.outside.disk

abbrev tick (w : DriveWorld) : ℕ := w.outside.tick

/-- The world after one more question, with the calls to note down. -/
def asked (w : DriveWorld) (calls : List Call) : DriveWorld where
  outside := w.outside.next
  cache := w.cache
  trace := w.trace ++ calls

@[simp] theorem asked_objs (w : DriveWorld) (calls : List Call) :
    (w.asked calls).objs = w.objs := rfl

@[simp] theorem asked_disk (w : DriveWorld) (calls : List Call) :
    (w.asked calls).disk = w.disk := rfl

@[simp] theorem asked_tick (w : DriveWorld) (calls : List Call) :
    (w.asked calls).tick = w.tick + 1 := rfl

@[simp] theorem asked_cache (w : DriveWorld) (calls : List Call) :
    (w.asked calls).cache = w.cache := rfl

@[simp] theorem asked_trace (w : DriveWorld) (calls : List Call) :
    (w.asked calls).trace = w.trace ++ calls := rfl

/-- The world with one more object. -/
def added (w : DriveWorld) (o : Obj) : DriveWorld :=
  { w with outside := { w.outside with objs := w.objs ++ [o] } }

@[simp] theorem added_objs (w : DriveWorld) (o : Obj) : (w.added o).objs = w.objs ++ [o] := rfl

@[simp] theorem added_disk (w : DriveWorld) (o : Obj) : (w.added o).disk = w.disk := rfl

@[simp] theorem added_tick (w : DriveWorld) (o : Obj) : (w.added o).tick = w.tick := rfl

@[simp] theorem added_cache (w : DriveWorld) (o : Obj) : (w.added o).cache = w.cache := rfl

@[simp] theorem added_trace (w : DriveWorld) (o : Obj) : (w.added o).trace = w.trace := rfl

end World

/-! ## What the client's calls do on the drive -/

/-- The id that a lookup answers with: that of the last object in the answer. -/
def pick (m : Moment) (objs : List Obj) (k : Str) : Option Str :=
  (m.order.arrange (carriers objs k)).getLast?.map Obj.id

theorem pick_eq_none {m : Moment} {objs : List Obj} {k : Str} :
    pick m objs k = none ↔ carriers objs k = [] := by
  rw [pick, Option.map_eq_none_iff, List.getLast?_eq_none_iff]
  constructor
  · intro h
    have hperm := m.order.perm (carriers objs k)
    rw [h, List.nil_perm] at hperm
    exact hperm
  · intro h
    have hperm := m.order.perm (carriers objs k)
    rw [h] at hperm ⊢
    exact hperm.eq_nil

/-- **A lookup finds what is there**: the id it answers with belongs to a live
object that carries the unique id. -/
theorem mem_of_pick {m : Moment} {objs : List Obj} {k i : Str} (h : pick m objs k = some i) :
    ∃ o ∈ carriers objs k, o.id = i := by
  rw [pick, Option.map_eq_some_iff] at h
  obtain ⟨o, ho, rfl⟩ := h
  exact ⟨o, (m.order.perm _).mem_iff.mp (List.mem_of_getLast? ho), rfl⟩

/-- The answer to a lookup. -/
def listReply (m : Moment) (objs : List Obj) (k : Str) : Except HubError (Option (List File)) :=
  match m.fault with
  | .none => .ok (some ((m.order.arrange (carriers objs k)).map Obj.toFile))
  | _ => .error m.error

/-- The calls that a lookup leaves behind: the query, and the warning if more than
one file is left when the last one has been taken. -/
def queryCalls (m : Moment) (objs : List Obj) (k : Str) : List Call :=
  .list (Drive3Client.idQuery k) (listReply m objs k) ::
    if m.fault = .none ∧ 1 < (carriers objs k).length - 1 then [.moreThanOne k] else []

section Calls

variable {ω : Schedule} {filters : List Str} {checks : Bool}

@[simp] theorem driveClient_getHub :
    (driveClient ω filters checks).getHub = .ok (driveHub ω) := rfl

@[simp] theorem driveClient_machine :
    (driveClient ω filters checks).machine = driveMachine ω checks := rfl

/-- A unique id can stand between quotes as it is. -/
theorem plain_of_getUniqueId [Base64] {s : SyncableFile} {k : Str} (h : s.getUniqueId = .ok k) :
    ∀ c ∈ k, c ≠ '\'' ∧ c ≠ '\\' := by
  unfold SyncableFile.getUniqueId at h
  split at h
  · rw [Except.ok.injEq] at h
    rw [← h]
    exact Query.base64Alphabet_plain (Base64.encode_alphabet _)
  · exact absurd h (by simp)

theorem hubList_run {k : Str} (hk : ∀ c ∈ k, c ≠ '\'' ∧ c ≠ '\\') (w : DriveWorld) :
    hubList (driveHub ω) (Drive3Client.idQuery k) w =
      (.ok (listReply (ω w.tick) w.objs k),
        w.asked [.list (Drive3Client.idQuery k) (listReply (ω w.tick) w.objs k)]) := by
  simp only [hubList, driveHub, Query.parseQuery_idQuery hk, listReply, World.asked]
  cases (ω w.outside.tick).fault <;> rfl

variable [Base64]

/-- **A lookup.**  Unless the call fails, the answer is the id of a live object that
carries the unique id of the path, if there is one. -/
theorem id_run {path k : Str} (h : (SyncableFile.mk path).getUniqueId = .ok k)
    (w : DriveWorld) :
    (driveClient ω filters checks).id path w =
      (if (ω w.tick).fault = .none then .ok (pick (ω w.tick) w.objs k)
        else .err .providerError,
        w.asked (queryCalls (ω w.tick) w.objs k)) := by
  rw [Drive3Client.id, h, ofExcept_ok, pure_bind_eq, driveClient_getHub, ofExcept_ok,
    pure_bind_eq, bind_run_ok (hubList_run (plain_of_getUniqueId h) w)]
  by_cases hf : (ω w.tick).fault = .none
  · have hlen := ((ω w.tick).order.perm (carriers w.objs k)).length_eq
    rw [if_pos hf, pick, queryCalls, ← hlen]
    simp only [listReply, hf, true_and]
    generalize (ω w.tick).order.arrange (carriers w.objs k) = l
    rcases l.eq_nil_or_concat' with rfl | ⟨l, o, rfl⟩
    · rfl
    · simp only [List.map_append, List.map_cons, List.map_nil, List.getLast?_concat,
        List.dropLast_concat, List.length_append, List.length_map, List.length_singleton,
        Nat.add_sub_cancel, Option.map_some, Obj.toFile, unwrapOption_some, pure_bind_eq]
      split
      · simp [bind_run, warnMoreThanOne, World.asked]
      · rfl
  · rw [if_neg hf, queryCalls, if_neg fun hh => hf hh.1]
    have hreply : listReply (ω w.tick) w.objs k = .error (ω w.tick).error := by
      unfold listReply
      cases hc : (ω w.tick).fault with
      | none => exact absurd hc hf
      | rejected => rfl
      | lost => rfl
    rw [hreply]
    rfl

/-- The request for the folder of a directory. -/
def folderRequest (path : Str) (parentId : Option Str) (k : Str) : File where
  name := UnixPath.fileName path
  parents := parentId.map fun p => [p]
  appProperties := some [(piDriveSyncPropsKey, k)]
  mimeType := some folderMimeType

/-- The object that a request adds to the drive in a given state. -/
def newObj (m : Moment) (objs : List Obj) (req : File) (content : Bytes) : Obj :=
  Obj.ofRequest (m.ids.fresh (objs.map Obj.id)) req content

omit [Base64] in
/-- What `hubCreate` does on the drive. -/
theorem hubCreate_run (req : File) (content : Bytes) (w : DriveWorld) :
    hubCreate (driveHub ω) req content w =
      match (ω w.tick).fault with
      | .none => (.ok (.ok (newObj (ω w.tick) w.objs req content).toFile),
          (w.asked [.create req (.ok (newObj (ω w.tick) w.objs req content).toFile)]).added
            (newObj (ω w.tick) w.objs req content))
      | .rejected => (.ok (.error (ω w.tick).error),
          w.asked [.create req (.error (ω w.tick).error)])
      | .lost => (.ok (.error (ω w.tick).error),
          (w.asked [.create req (.error (ω w.tick).error)]).added
            (newObj (ω w.tick) w.objs req content)) := by
  unfold hubCreate driveHub newObj
  cases h : (ω w.tick).fault <;> simp only [h] <;> rfl

/-- The cache with an entry put in. -/
def remember (cache : Cache) (k v : Str) : Cache :=
  (k, v) :: cache.filter fun e => e.1 != k

/-- **Creating a folder.**  The folder is on the drive unless the call fails without
effect, and in the cache only when the answer arrives. -/
theorem createDir_run {path k : Str} (h : (SyncableFile.mk path).getUniqueId = .ok k)
    (parentId : Option Str) (w : DriveWorld) :
    (driveClient ω filters checks).createDir path parentId w =
      let w₁ := w.asked [.tempfile (ω w.tick).tempfile]
      let m := ω w₁.tick
      let req := folderRequest path parentId k
      let o := newObj m w.objs req []
      if (ω w.tick).tempfile then
        match m.fault with
        | .none => (.ok (some o.id),
            { (w₁.asked [.create req (.ok o.toFile)]).added o with
              cache := remember w.cache k o.id })
        | .rejected => (.err .providerError, w₁.asked [.create req (.error m.error)])
        | .lost => (.err .providerError, (w₁.asked [.create req (.error m.error)]).added o)
      else (.panic, w₁) := by
  have htemp : tempfile (driveClient ω filters checks).machine w =
      (.ok (if (ω w.tick).tempfile then .ok () else .error .invalidPathError),
        w.asked [.tempfile (ω w.tick).tempfile]) := rfl
  rw [Drive3Client.createDir, bind_run_ok htemp, h, ofExcept_ok, pure_bind_eq,
    driveClient_getHub, ofExcept_ok, pure_bind_eq]
  cases hmade : (ω w.tick).tempfile with
  | false => rfl
  | true =>
    simp only [if_true, unwrapExcept_ok, pure_bind_eq]
    rw [bind_run, hubCreate_run]
    cases hf : (ω (w.asked [.tempfile true]).tick).fault <;> rfl

end Calls

end PiDriveSync
