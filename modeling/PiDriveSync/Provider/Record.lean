import PiDriveSync.Asked
import PiDriveSync.Provider.Additions

/-!
# What the record of the calls says about the drive

As long as no answer is lost, an object is on the drive exactly when the creation of it
was answered.  `Recorded w w' calls added` says so about the way from `w` to `w'`: the
calls noted down in between, the objects added in between, and the one read off the
other.  It is kept by going on, so it holds of whole uploads and starts.
-/

namespace PiDriveSync

open UnixPath Fallible

/-- The requests to create something, in order. -/
def requests (trace : List Call) : List File :=
  trace.filterMap fun c => match c with
    | .create req _ => some req
    | _ => none

@[simp] theorem requests_append (t t' : List Call) :
    requests (t ++ t') = requests t ++ requests t' :=
  List.filterMap_append ..

@[simp] theorem requests_nil : requests [] = [] := rfl

@[simp] theorem requests_create (req : File) (reply : Except HubError File) (calls : List Call) :
    requests (.create req reply :: calls) = req :: requests calls := rfl

@[simp] theorem requests_containsKey (k : Str) (hit : Bool) (calls : List Call) :
    requests (.containsKey k hit :: calls) = requests calls := rfl

@[simp] theorem requests_tempfile (made : Bool) (calls : List Call) :
    requests (.tempfile made :: calls) = requests calls := rfl

@[simp] theorem requests_openFile (path : Str) (opened : Bool) (calls : List Call) :
    requests (.openFile path opened :: calls) = requests calls := rfl

@[simp] theorem requests_queryCalls (m : Moment) (objs : List Obj) (k : Str) :
    requests (queryCalls m objs k) = [] := by
  unfold queryCalls
  split_ifs <;> rfl

/-- No call takes effect without an answer. -/
def NoneLost (ω : Schedule) : Prop :=
  ∀ t, (ω t).fault ≠ .lost

/-- No call fails. -/
def Faultless (ω : Schedule) : Prop :=
  ∀ t, (ω t).fault = .none

/-- The requests that were answered, in order. -/
def answered (calls : List Call) : List File :=
  calls.filterMap fun c => match c with
    | .create req (.ok _) => some req
    | _ => none

@[simp] theorem answered_append (c c' : List Call) :
    answered (c ++ c') = answered c ++ answered c' :=
  List.filterMap_append ..

@[simp] theorem answered_queryCalls (m : Moment) (objs : List Obj) (k : Str) :
    answered (queryCalls m objs k) = [] := by
  unfold queryCalls
  split_ifs <;> rfl

/-- The requests that failed, in order. -/
def refused (calls : List Call) : List File :=
  calls.filterMap fun c => match c with
    | .create req (.error _) => some req
    | _ => none

@[simp] theorem refused_append (c c' : List Call) : refused (c ++ c') = refused c ++ refused c' :=
  List.filterMap_append ..

@[simp] theorem refused_queryCalls (m : Moment) (objs : List Obj) (k : Str) :
    refused (queryCalls m objs k) = [] := by
  unfold queryCalls
  split_ifs <;> rfl

theorem requests_of_refused {calls : List Call} {req : File} (h : req ∈ refused calls) :
    req ∈ requests calls := by
  obtain ⟨call, hcall, heq⟩ := List.mem_filterMap.mp h
  refine List.mem_filterMap.mpr ⟨call, hcall, ?_⟩
  cases call with
  | create req' reply =>
    cases reply with
    | error e => exact heq
    | ok file => exact absurd heq (by simp)
  | _ => exact absurd heq (by simp)

/-- The object that a request made. -/
def MadeFor (o : Obj) (req : File) : Prop :=
  o = Obj.ofRequest o.id req o.content

/-- On the way from `w` to `w'`: the calls, and the objects they made. -/
structure Recorded (w w' : DriveWorld) (calls : List Call) (added : List Obj) : Prop where
  trace : w'.trace = w.trace ++ calls
  objs : w'.objs = w.objs ++ added
  made : List.Forall₂ MadeFor added (answered calls)

/-- The way from `w` to `w'` is on record. -/
def Records (w w' : DriveWorld) : Prop :=
  ∃ calls added, Recorded w w' calls added

namespace Recorded

variable {w w₁ w' : DriveWorld} {calls calls' : List Call} {added added' : List Obj}

/-- Nothing is made, whatever is asked. -/
theorem of_idle (htrace : w'.trace = w.trace ++ calls) (hobjs : w'.objs = w.objs)
    (hcalls : answered calls = []) : Recorded w w' calls [] where
  trace := htrace
  objs := by rw [hobjs, List.append_nil]
  made := by
    rw [hcalls]
    exact .nil

theorem trans (h : Recorded w w₁ calls added) (h' : Recorded w₁ w' calls' added') :
    Recorded w w' (calls ++ calls') (added ++ added') where
  trace := by rw [h'.trace, h.trace, List.append_assoc]
  objs := by rw [h'.objs, h.objs, List.append_assoc]
  made := by
    rw [answered_append]
    exact List.rel_append h.made h'.made

theorem callsSince_eq (h : Recorded w w' calls added) : callsSince w w' = calls :=
  callsSince_of_trace h.trace

/-- An object was added for each answered request. -/
theorem exists_of_answered (h : Recorded w w' calls added) {req : File}
    (hreq : req ∈ answered calls) : ∃ o ∈ added, MadeFor o req := by
  have hmade := h.made
  clear h
  generalize answered calls = reqs at hmade hreq
  induction hmade with
  | nil => simp at hreq
  | cons hhead _ ih =>
    rcases List.mem_cons.mp hreq with rfl | hreq
    · exact ⟨_, List.mem_cons_self .., hhead⟩
    · obtain ⟨o, ho, hmade⟩ := ih hreq
      exact ⟨o, List.mem_cons_of_mem _ ho, hmade⟩

/-- A request was answered for each added object. -/
theorem exists_of_added (h : Recorded w w' calls added) {o : Obj} (ho : o ∈ added) :
    ∃ req ∈ answered calls, MadeFor o req := by
  have hmade := h.made
  clear h
  generalize answered calls = reqs at hmade
  induction hmade with
  | nil => simp at ho
  | cons hhead _ ih =>
    rcases List.mem_cons.mp ho with rfl | ho
    · exact ⟨_, List.mem_cons_self .., hhead⟩
    · obtain ⟨req, hreq, hmade⟩ := ih ho
      exact ⟨req, List.mem_cons_of_mem _ hreq, hmade⟩

end Recorded

/-! ## What a request asks for -/

/-- The request is for an object with this unique id. -/
def RequestFor (k : Str) (req : File) : Prop :=
  (req.appProperties.getD []).lookup piDriveSyncPropsKey = some k

instance (k : Str) (req : File) : Decidable (RequestFor k req) :=
  inferInstanceAs (Decidable (_ = _))

@[simp] theorem requestFor_folder {path k k' : Str} {p : Option Str} :
    RequestFor k (folderRequest path p k') ↔ k' = k := by
  simp [RequestFor, folderRequest]

@[simp] theorem requestFor_file {name k k' : Str} {p : Option Str} :
    RequestFor k (fileRequest name p k') ↔ k' = k := by
  simp [RequestFor, fileRequest]

theorem MadeFor.live {o : Obj} {req : File} (h : MadeFor o req) : o.trashed = false := by
  rw [h]
  rfl

theorem MadeFor.syncId_iff {o : Obj} {req : File} (h : MadeFor o req) {k : Str} :
    o.syncId = some k ↔ RequestFor k req := by
  rw [h]
  exact Iff.rfl

theorem MadeFor.isFolder {o : Obj} {req : File} (h : MadeFor o req) :
    o.isFolder = (req.mimeType == some folderMimeType) := by
  rw [h]
  rfl

namespace Records

variable {w w₁ w' : DriveWorld}

theorem refl (w : DriveWorld) : Records w w :=
  ⟨[], [], .of_idle (List.append_nil _).symm rfl rfl⟩

theorem trans (h : Records w w₁) (h' : Records w₁ w') : Records w w' := by
  obtain ⟨c, a, h⟩ := h
  obtain ⟨c', a', h'⟩ := h'
  exact ⟨_, _, h.trans h'⟩

theorem remembered (h : Records w w') (k v : Str) : Records w (w'.remembered k v) := by
  obtain ⟨c, a, h⟩ := h
  exact ⟨c, a, h.trace, h.objs, h.made⟩

theorem looked (w : DriveWorld) (m : Moment) (k : Str) : Records w (w.looked m k) :=
  ⟨_, [], .of_idle rfl rfl rfl⟩

theorem sought (w : DriveWorld) (ω : Schedule) (k : Str) : Records w (w.sought ω k) :=
  ⟨_, [], .of_idle rfl rfl (answered_queryCalls ..)⟩

theorem opened (w : DriveWorld) (ω : Schedule) (pk path : Str) :
    Records w (w.opened ω pk path) := by
  refine (sought w ω pk).trans ⟨[.openFile path true, .openFile path true], [], ?_⟩
  exact .of_idle (List.append_assoc ..) rfl rfl

end Records

/-! ## The client -/

variable {ω : Schedule} {w w' : DriveWorld}

theorem madeFor_newObj (m : Moment) (objs : List Obj) (req : File) (content : Bytes) :
    MadeFor (newObj m objs req content) req := rfl

/-- When no call fails, a creation makes the folder, unless there is no temporary
file. -/
theorem CreateEnds.of_faultless (hω : Faultless ω) {path k : Str} {parentId : Option Str}
    {r : Outcome SyncerErrors (Option Str)} (h : CreateEnds ω path k parentId w r w') :
    (ω w.tick).tempfile = false ∧ r = .panic ∧ w'.objs = w.objs ∨
      ∃ o, r = .ok (some o.id) ∧ o ∈ carriers w'.objs k ∧ o.parents = parentId.toList := by
  cases h with
  | noTempfile ht => exact Or.inl ⟨ht, rfl, rfl⟩
  | rejected _ hf => exact absurd (hω _) (by rw [hf]; simp)
  | lost _ _ hf => exact absurd (hω _) (by rw [hf]; simp)
  | made o ht hf ho =>
    refine Or.inr ⟨o, rfl, mem_carriers_of_made ho _, ?_⟩
    rw [ho, newObj_folder_parents]

theorem CreateEnds.recorded (hω : NoneLost ω) {path k : Str} {parentId : Option Str}
    {r : Outcome SyncerErrors (Option Str)} (h : CreateEnds ω path k parentId w r w') :
    Records w w' := by
  cases h with
  | noTempfile => exact ⟨_, [], .of_idle rfl rfl rfl⟩
  | rejected =>
    exact ⟨_, [], .of_idle (List.append_assoc ..) rfl rfl⟩
  | lost o ht hf => exact absurd hf (hω _)
  | made o ht hf ho =>
    refine ⟨[.tempfile true, .create (folderRequest path parentId k) (.ok o.toFile)], [o], ?_,
      rfl, ?_⟩
    · exact List.append_assoc ..
    · rw [ho]
      exact .cons (madeFor_newObj ..) .nil

theorem EnsureEnds.recorded (hω : NoneLost ω) {path k pk : Str} {r : Outcome SyncerErrors Unit}
    (h : EnsureEnds ω path k pk w r w') : Records w w' := by
  cases h with
  | hit => exact Records.looked ..
  | found => exact ((Records.looked ..).trans (Records.sought ..)).remembered ..
  | orphan => exact ((Records.looked ..).trans (Records.sought ..)).trans (Records.sought ..)
  | create _ _ _ _ _ _ h =>
    exact (((Records.looked ..).trans (Records.sought ..)).trans (Records.sought ..)).trans
      (h.recorded hω)

variable [Base64]

theorem WalkEnds.recorded (hω : NoneLost ω) {done dirs : List Str} {r : Outcome SyncerErrors Unit}
    (h : WalkEnds ω done dirs w r w') : Records w w' := by
  induction h with
  | nil => exact .refl _
  | cons h _ ih => exact (h.recorded hω).trans ih
  | stop h => exact h.recorded hω

/-- The last call of `placeFile` is the creation, if it gets there. -/
theorem PlaceEnds.recorded (hω : NoneLost ω) {path : Str} {r : Outcome SyncerErrors (Option Str)}
    (h : PlaceEnds ω path w r w') : Records w w' := by
  cases h with
  | unnamed => exact .refl _
  | unanswered | noUid => exact Records.sought ..
  | unreadable =>
    exact (Records.sought ..).trans ⟨_, [], .of_idle rfl rfl rfl⟩
  | vanished =>
    exact (Records.sought ..).trans ⟨_, [], .of_idle (List.append_assoc ..) rfl rfl⟩
  | rejected => exact (Records.opened ..).trans ⟨_, [], .of_idle rfl rfl rfl⟩
  | lost _ _ _ _ _ _ _ _ _ _ hc => exact absurd hc (hω _)
  | made name pk k content o _ _ _ _ _ _ ho =>
    refine (Records.opened ..).trans ⟨_, [o], rfl, rfl, ?_⟩
    rw [ho]
    exact .cons (madeFor_newObj ..) .nil

theorem UploadEnds.recorded (hω : NoneLost ω) {checks : Bool} {path : Str}
    {r : Outcome SyncerErrors (Option Str)} (h : UploadEnds ω checks path w r w') :
    Records w w' := by
  cases h with
  | outside | rootChecked => exact .refl _
  | root _ _ hp => exact hp.recorded hω
  | crashed _ h => exact h.recorded hω
  | placed _ h hp => exact (h.recorded hω).trans (hp.recorded hω)

theorem StartEnds.recorded (hω : NoneLost ω) {r : Outcome SyncerErrors Unit}
    (h : StartEnds ω w r w') : Records w w' := by
  cases h with
  | known | unanswered => exact Records.sought ..
  | create _ _ _ _ h => exact (Records.sought ..).trans (h.recorded hω)

end PiDriveSync
