import PiDriveSync.Events.Survival

/-!
# Which events lead to an upload

What the loop does with an event, for any way to upload: `handleRawEvent` is
`handleRawEventBy` with the upload of the client (`handleRawEvent_eq`), and the loop of the
program, `eventLoop`, is `eventLoopBy` with this handler (`eventLoop_eq`).  Here the upload
notes the path down, and ends as the `Delivery` of the event says, so that `attempts` is
the sequence of paths that the same loop tries to upload.

An event is for a creation when the bit `create` is in its set of operations; the loop
asks whether the set is `create` and nothing else.  And the name of the path is unwrapped,
so that the creation of a path without one ends the loop.  `attempts_iff` says that these
two are all that keeps the loop from trying each creation once and in order; how an upload
ends makes no difference.
-/

namespace PiDriveSync

open UnixPath Fallible

/-! ## The handlers -/

section Handlers

variable {σ : Type}

/-- `handleEvent`, for any upload. -/
def handleEventBy (passesFilter isFile : Str → Sync σ Bool) (upload : Str → Sync σ (Option Str))
    (p : PathBuf) : Sync σ Unit :=
  match p.toStr with
  | some path => do
    if ← passesFilter path then
      if ← isFile path then
        let _ ← (upload path).attempt
        pure ()
  | none => pure ()

/-- `handleRawEvent`, for any upload. -/
def handleRawEventBy (passesFilter isFile : Str → Sync σ Bool)
    (upload : Str → Sync σ (Option Str)) (e : RawEvent) : Sync σ Unit :=
  match e.path, e.op with
  | some path, some op =>
    if op = {.create} then handleEventBy passesFilter isFile upload path else pure ()
  | _, _ => pure ()

section

variable {passesFilter isFile : Str → Sync σ Bool} {upload : Str → Sync σ (Option Str)}
  {e : RawEvent}

theorem handleRawEventBy_creation {path : Str} (hop : e.op = some {.create})
    (hpath : e.path = some (.utf8 path)) :
    handleRawEventBy passesFilter isFile upload e =
      handleEventBy passesFilter isFile upload (.utf8 path) := by
  rw [handleRawEventBy, hpath, hop]
  exact if_pos rfl

/-- Other events are passed over. -/
theorem handleRawEventBy_other
    (h : ∀ path, e.op = some {.create} → e.path ≠ some (.utf8 path)) :
    handleRawEventBy passesFilter isFile upload e = pure () := by
  rw [handleRawEventBy]
  rcases hpath : e.path with _ | (path | bytes)
  · rfl
  · rcases hop : e.op with _ | op
    · rfl
    · exact if_neg fun hcreate => h path (by rw [hop, hcreate]) hpath
  · cases e.op with
    | none => rfl
    | some op => exact ite_self _

end

/-- The loop, for any handler. -/
def eventLoopBy {α : Type} (handle : α → Sync σ Unit) : List α → Sync σ Unit
  | [] => pure ()
  | e :: es => do
    handle e
    eventLoopBy handle es

variable [Base64] [RegexCrate] (c : Drive3Client σ)

/-- The handler of the program is the one with the client's upload. -/
theorem handleRawEvent_eq :
    handleRawEvent c = handleRawEventBy c.passesFilter (isFile c.machine) c.uploadFile := rfl

/-- The loop of the program is the one with this handler. -/
theorem eventLoop_eq (es : List RawEvent) :
    eventLoop c es =
      eventLoopBy (handleRawEventBy c.passesFilter (isFile c.machine) c.uploadFile) es := by
  induction es with
  | nil => rfl
  | cons e es ih => rw [eventLoop, eventLoopBy, ih, handleRawEvent_eq]

end Handlers

/-! ## Attempts -/

/-- An event, whether its path is a regular file when it is handled, and how the upload
ends if there is one. -/
structure Delivery where
  event : RawEvent
  regular : Bool
  result : Except SyncerErrors (Option Str)

/-- An upload that is noted down. -/
def noteUpload (result : Except SyncerErrors (Option Str)) (path : Str) :
    Sync (List Str) (Option Str) := do
  (fun w => (.ok (), { w with outside := w.outside ++ [path] }) : Sync (List Str) Unit)
  ofExcept result

section Attempts

variable [RegexCrate] (c : Drive3Client (List Str))

/-- The loop comes to an event. -/
def deliver (d : Delivery) : Sync (List Str) Unit :=
  handleRawEventBy c.passesFilter (fun _ => pure d.regular) (noteUpload d.result) d.event

/-- The paths that the loop tries to upload, in order. -/
def attempts (ds : List Delivery) : List Str :=
  (eventLoopBy (deliver c) ds ⟨[], [], []⟩).2.outside

/-- The path that is to be uploaded for an event. -/
def wanted (e : RawEvent) (regular : Bool) : Option Str := do
  let path ← e.path.bind PathBuf.toStr
  let op ← e.op
  let name ← (SyncableFile.mk path).getFilename
  if .create ∈ op ∧ c.passes name = true ∧ regular = true then some path else none

/-- The path that the loop tries to upload for an event. -/
def attempted (e : RawEvent) (regular : Bool) : Option Str :=
  if e.op = some {.create} then wanted c e regular else none

/-- The event is for the creation, and nothing else, of a path without a name. -/
def unnamed (e : RawEvent) : Bool :=
  e.op == some {.create} &&
    (e.path.bind PathBuf.toStr).any fun path => (SyncableFile.mk path).getFilename.isNone

omit [RegexCrate] in
theorem unnamed_iff {e : RawEvent} : unnamed e = true ↔ e.op = some {.create} ∧
    ∃ path, e.path = some (.utf8 path) ∧ (SyncableFile.mk path).getFilename = none := by
  rw [unnamed, Bool.and_eq_true, beq_iff_eq]
  refine and_congr_right fun _ => ?_
  rcases e.path with _ | (path | bytes)
  · simp
  · simp [PathBuf.toStr]
  · simp [PathBuf.toStr]

theorem wanted_of_unnamed {e : RawEvent} (h : unnamed e = true) (regular : Bool) :
    wanted c e regular = none := by
  obtain ⟨hop, path, hpath, hname⟩ := unnamed_iff.mp h
  simp [wanted, hop, hpath, PathBuf.toStr, hname]

/-- What is tried is wanted. -/
theorem attempted_eq_some {e : RawEvent} {regular : Bool} {path : Str}
    (h : attempted c e regular = some path) :
    e.op = some {.create} ∧ wanted c e regular = some path := by
  rw [attempted] at h
  split_ifs at h with hop
  exact ⟨hop, h⟩

/-- Nothing is tried for events that are passed over. -/
theorem attempted_other {e : RawEvent}
    (h : ∀ path, e.op = some {.create} → e.path ≠ some (.utf8 path)) (regular : Bool) :
    attempted c e regular = none := by
  by_cases hop : e.op = some {.create}
  · rw [attempted, if_pos hop]
    rcases hpath : e.path with _ | (path | bytes)
    · simp [wanted, hpath]
    · exact absurd hpath (h path hop)
    · simp [wanted, hpath, PathBuf.toStr]
  · rw [attempted, if_neg hop]

theorem attempted_creation {e : RawEvent} {path name : Str} (hop : e.op = some {.create})
    (hpath : e.path = some (.utf8 path))
    (hname : (SyncableFile.mk path).getFilename = some name) (regular : Bool) :
    attempted c e regular =
      if c.passes name = true ∧ regular = true then some path else none := by
  simp [attempted, wanted, hpath, hop, PathBuf.toStr, hname]

/-- **An event without a name ends the loop.** -/
theorem deliver_unnamed {d : Delivery} (h : unnamed d.event = true) (w : World (List Str)) :
    deliver c d w = (.panic, w) := by
  obtain ⟨hop, path, hpath, hname⟩ := unnamed_iff.mp h
  rw [deliver, handleRawEventBy_creation hop hpath]
  simp only [handleEventBy, PathBuf.toStr]
  rw [Drive3Client.passesFilter, hname]
  rfl

/-- **Any other event is handled**, whatever becomes of its upload. -/
theorem deliver_named {d : Delivery} (h : unnamed d.event = false) (w : World (List Str)) :
    deliver c d w = (.ok (), { w with
      outside := w.outside ++ (attempted c d.event d.regular).toList }) := by
  have hidle : (pure () : Sync (List Str) Unit) w =
      (.ok (), { w with outside := w.outside ++ (none : Option Str).toList }) := by
    rw [Option.toList_none, List.append_nil]
    rfl
  by_cases hcreation : d.event.op = some {.create} ∧ ∃ path, d.event.path = some (.utf8 path)
  · obtain ⟨hop, path, hpath⟩ := hcreation
    have hnamed : (SyncableFile.mk path).getFilename ≠ none := fun hname => by
      rw [unnamed_iff.mpr ⟨hop, path, hpath, hname⟩] at h
      exact absurd h (by simp)
    obtain ⟨name, hname⟩ := Option.ne_none_iff_exists'.mp hnamed
    rw [deliver, handleRawEventBy_creation hop hpath, attempted_creation c hop hpath hname]
    simp only [handleEventBy, PathBuf.toStr]
    rw [Drive3Client.passesFilter_eq c hname, pure_bind_eq]
    cases c.passes name <;> cases d.regular
    · exact hidle
    · exact hidle
    · exact hidle
    · cases d.result <;> rfl
  · have hother : ∀ path, d.event.op = some {.create} → d.event.path ≠ some (.utf8 path) :=
      fun path hop hpath => hcreation ⟨hop, path, hpath⟩
    rw [deliver, handleRawEventBy_other hother, attempted_other c hother]
    exact hidle

/-- The paths tried for some events. -/
def attemptedPaths (events : List (RawEvent × Bool)) : List Str :=
  (events.takeWhile fun e => !unnamed e.1).filterMap fun e => attempted c e.1 e.2

theorem attemptedPaths_cons (e : RawEvent × Bool) (events : List (RawEvent × Bool)) :
    attemptedPaths c (e :: events) =
      if unnamed e.1 = true then []
      else (attempted c e.1 e.2).toList ++ attemptedPaths c events := by
  rw [attemptedPaths]
  cases h : unnamed e.1 with
  | true =>
    rw [List.takeWhile_cons_of_neg (by simp [h])]
    rfl
  | false =>
    rw [List.takeWhile_cons_of_pos (by simp [h]), List.filterMap_cons, if_neg (by simp)]
    cases attempted c e.1 e.2 <;> rfl

/-- **The loop**, from any state. -/
theorem eventLoopBy_deliver (ds : List Delivery) (w : World (List Str)) :
    (eventLoopBy (deliver c) ds w).2.outside =
      w.outside ++ attemptedPaths c (ds.map fun d => (d.event, d.regular)) := by
  induction ds generalizing w with
  | nil => exact (List.append_nil _).symm
  | cons d ds ih =>
    rw [List.map_cons, attemptedPaths_cons, eventLoopBy]
    cases h : unnamed d.event with
    | true =>
      rw [bind_run_panic (deliver_unnamed c h w), if_pos rfl, List.append_nil]
    | false =>
      rw [bind_run_ok (deliver_named c h w), ih, if_neg (by simp), List.append_assoc]

theorem attempts_eq (ds : List Delivery) :
    attempts c ds = attemptedPaths c (ds.map fun d => (d.event, d.regular)) := by
  rw [attempts, eventLoopBy_deliver, List.nil_append]

/-- The paths that are to be uploaded for some events. -/
def wantedPaths (events : List (RawEvent × Bool)) : List Str :=
  events.filterMap fun e => wanted c e.1 e.2

theorem wantedPaths_cons (e : RawEvent × Bool) (events : List (RawEvent × Bool)) :
    wantedPaths c (e :: events) = (wanted c e.1 e.2).toList ++ wantedPaths c events := by
  rw [wantedPaths, List.filterMap_cons]
  cases wanted c e.1 e.2 <;> rfl

/-- Nothing is tried that is not wanted, and nothing twice or out of order. -/
theorem attemptedPaths_sublist (events : List (RawEvent × Bool)) :
    (attemptedPaths c events).Sublist (wantedPaths c events) := by
  induction events with
  | nil => exact List.Sublist.refl _
  | cons e events ih =>
    rw [attemptedPaths_cons, wantedPaths_cons]
    split_ifs
    · exact List.nil_sublist _
    · refine List.Sublist.append ?_ ih
      cases h : attempted c e.1 e.2 with
      | none => exact List.nil_sublist _
      | some path => rw [(attempted_eq_some c h).2]

/-- Each wanted event is for a creation and nothing else, and no event in front of it is
for the creation, and nothing else, of a path without a name. -/
def PlainlyCreated (events : List (RawEvent × Bool)) : Prop :=
  ∀ pre e post, events = pre ++ e :: post → wanted c e.1 e.2 ≠ none →
    e.1.op = some {.create} ∧ ∀ e' ∈ pre, unnamed e'.1 = false

theorem plainlyCreated_cons {e : RawEvent × Bool} {events : List (RawEvent × Bool)} :
    PlainlyCreated c (e :: events) ↔ (wanted c e.1 e.2 ≠ none → e.1.op = some {.create}) ∧
      (unnamed e.1 = true → wantedPaths c events = []) ∧ PlainlyCreated c events := by
  constructor
  · intro h
    refine ⟨fun hw => (h [] e events rfl hw).1, fun hunnamed => ?_, fun pre e' post heq hw => ?_⟩
    · rw [wantedPaths, List.filterMap_eq_nil_iff]
      intro e' he'
      obtain ⟨pre, post, rfl⟩ := List.append_of_mem he'
      by_contra hw
      have hnamed := (h (e :: pre) e' post rfl hw).2 e (List.mem_cons_self ..)
      rw [hunnamed] at hnamed
      exact absurd hnamed (by simp)
    · have hnext := h (e :: pre) e' post (by rw [heq, List.cons_append]) hw
      exact ⟨hnext.1, fun x hx => hnext.2 x (List.mem_cons_of_mem _ hx)⟩
  · rintro ⟨hfirst, hunnamed, hrest⟩ pre e' post heq hw
    rcases pre with _ | ⟨x, pre⟩
    · obtain ⟨rfl, rfl⟩ := List.cons.inj heq
      exact ⟨hfirst hw, by simp⟩
    · obtain ⟨rfl, rfl⟩ := List.cons.inj heq
      obtain ⟨hop, hpre⟩ := hrest pre e' post rfl hw
      refine ⟨hop, List.forall_mem_cons.mpr ⟨?_, hpre⟩⟩
      by_contra hx
      have hnil := hunnamed (Bool.eq_true_of_not_eq_false hx)
      rw [wantedPaths, List.filterMap_eq_nil_iff] at hnil
      exact hw (hnil e' (List.mem_append_right _ (List.mem_cons_self ..)))

theorem attemptedPaths_eq_iff (events : List (RawEvent × Bool)) :
    attemptedPaths c events = wantedPaths c events ↔ PlainlyCreated c events := by
  induction events with
  | nil => exact ⟨fun _ pre e post h => absurd h (by simp), fun _ => rfl⟩
  | cons e events ih =>
    rw [attemptedPaths_cons, wantedPaths_cons, plainlyCreated_cons]
    cases hunnamed : unnamed e.1 with
    | true =>
      have hwanted := wanted_of_unnamed c hunnamed e.2
      rw [if_pos rfl, hwanted, Option.toList_none, List.nil_append, eq_comm]
      refine ⟨fun h => ⟨fun hw => absurd rfl hw, fun _ => h, ?_⟩, fun h => h.2.1 rfl⟩
      -- nothing is wanted any more
      refine ih.mp ?_
      have hsub := attemptedPaths_sublist c events
      rw [h] at hsub ⊢
      exact List.sublist_nil.mp hsub
    | false =>
      rw [if_neg (by simp)]
      by_cases hop : e.1.op = some {.create}
      · rw [attempted, if_pos hop, List.append_cancel_left_eq, ih]
        simp [hop]
      · rw [attempted, if_neg hop, Option.toList_none, List.nil_append]
        cases hw : wanted c e.1 e.2 with
        | none => rw [Option.toList_none, List.nil_append, ih]; simp
        | some path =>
          -- the path is missing among those tried
          constructor
          · intro h
            have hlen := (attemptedPaths_sublist c events).length_le
            rw [h, Option.toList_some, List.singleton_append, List.length_cons] at hlen
            omega
          · rintro ⟨hcreate, -⟩
            exact absurd (hcreate (by simp)) hop

/-- **When each creation leads to one upload, in order.**  The loop tries to upload just
the regular files with a passing name whose creation is reported, if each of these events
is for a creation and nothing else, and none comes after the creation of a path without a
name; and not otherwise.  How the uploads end makes no difference.  The loop is that of the
program, by `eventLoop_eq`, with an upload that notes its path down. -/
theorem attempts_iff (ds : List Delivery) :
    (attempts c ds = (ds.filterMap fun d => wanted c d.event d.regular) ↔
      PlainlyCreated c (ds.map fun d => (d.event, d.regular))) ∧
    ∀ results : ℕ → Except SyncerErrors (Option Str),
      attempts c (ds.mapIdx fun i d => { d with result := results i }) = attempts c ds := by
  constructor
  · rw [attempts_eq, ← attemptedPaths_eq_iff, wantedPaths, List.filterMap_map]
    rfl
  · intro results
    have hsame : (ds.mapIdx fun i d => { d with result := results i }).map
        (fun d => (d.event, d.regular)) = ds.map fun d => (d.event, d.regular) := by
      refine List.ext_getElem? fun i => ?_
      rw [List.getElem?_map, List.getElem?_mapIdx, List.getElem?_map, Option.map_map]
      rfl
    rw [attempts_eq, attempts_eq, hsame]

end Attempts

/-- A client with the filter that is there without the option. -/
def notingClient : Drive3Client (List Str) where
  hub := .ok ⟨fun _ s => (.error .failure, s), fun _ _ s => (.error .failure, s)⟩
  filters := fileNameFilters none
  machine := ⟨fun s => (fun _ => false, s), fun s => (true, s), fun _ s => (none, s),
    fun _ s => (true, s), true⟩

/-- A file is created and written to, in one event: the loop does not try to upload it. -/
theorem combined_event_ignored :
    let e : RawEvent := { path := some (.utf8 (below [str "f"])), op := some {.create, .write} }
    @wanted literalRegex notingClient e true = some (below [str "f"]) ∧
      @attempts literalRegex notingClient [⟨e, true, .ok none⟩] = [] := by
  decide +kernel

end PiDriveSync
