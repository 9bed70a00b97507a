import PiDriveSync.Asked
import PiDriveSync.Provider.Calm
import PiDriveSync.Provider.Record

/-!
# Which answers the daemon survives

An event is handled with panics in several places: a missing id, a missing parent, a
failed query that is unwrapped.  The hub and the machine are arbitrary here and answer
as they like, so all that is known about an event is what was asked in it and what came
back.  `fatal` reads off these calls whether one of the unwraps was reached.

`ensureAll_logs` says that the walk over the directories either goes on with nothing
fatal behind it or stops at something fatal, and `placeFile_logs` says the same of the
file.  `eventLoop_returns_iff` puts the events of a run behind each other.
-/

namespace PiDriveSync

open UnixPath Fallible

/-! ## Fatal answers -/

/-- The object that a lookup takes from an answer. -/
def lastFile : Except HubError (Option (List File)) → Option File
  | .ok (some files) => files.getLast?
  | _ => none

/-- The object taken from the answer has no id. -/
def nameless (reply : Except HubError (Option (List File))) : Bool :=
  (lastFile reply).any fun file => file.id.isNone

/-- The answer is an error, or has no object. -/
def missing (reply : Except HubError (Option (List File))) : Bool :=
  (lastFile reply).isNone

/-- The answer is an error. -/
def failed : Except HubError (Option (List File)) → Bool
  | .error _ => true
  | .ok _ => false

/-- Whether the answer to a lookup makes the daemon panic, given the calls after it. -/
def fatalReply (reply : Except HubError (Option (List File))) : List Call → Bool
  -- the existence query and then the query for the parent come back without an object
  | .list _ reply' :: _ => nameless reply || (missing reply && missing reply')
  -- after the query for the parent of the file, nothing is asked when it fails
  | [] => nameless reply || failed reply
  | _ => nameless reply

/-- Whether an answer makes the daemon panic, given the calls after it. -/
def fatalAt : Call → List Call → Bool
  | .list _ reply, calls => fatalReply reply calls
  | .tempfile made, _ => !made
  | .create _ (.ok file), _ => file.id.isNone
  -- the file is gone when it is opened again
  | .openFile _ true, .openFile _ false :: _ => true
  | _, _ => false

/-- Whether one of the answers makes the daemon panic. -/
def fatal : List Call → Bool
  | [] => false
  | c :: calls => fatalAt c calls || fatal calls

@[simp] theorem fatal_nil : fatal [] = false := rfl

@[simp] theorem fatal_cons (c : Call) (calls : List Call) :
    fatal (c :: calls) = (fatalAt c calls || fatal calls) := rfl

@[simp] theorem fatalAt_containsKey (k : Str) (hit : Bool) (calls : List Call) :
    fatalAt (.containsKey k hit) calls = false := by
  cases calls <;> rfl

@[simp] theorem fatalAt_moreThanOne (k : Str) (calls : List Call) :
    fatalAt (.moreThanOne k) calls = false := by
  cases calls <;> rfl

@[simp] theorem fatalAt_tempfile (made : Bool) (calls : List Call) :
    fatalAt (.tempfile made) calls = !made := by
  cases calls <;> rfl

@[simp] theorem fatalAt_create_ok (req file : File) (calls : List Call) :
    fatalAt (.create req (.ok file)) calls = file.id.isNone := by
  cases calls <;> rfl

@[simp] theorem fatalAt_create_error (req : File) (e : HubError) (calls : List Call) :
    fatalAt (.create req (.error e)) calls = false := by
  cases calls <;> rfl

@[simp] theorem fatalAt_list (q : Str) (reply : Except HubError (Option (List File)))
    (calls : List Call) : fatalAt (.list q reply) calls = fatalReply reply calls := by
  cases calls <;> rfl

/-- A lookup with an object that has an id is not fatal. -/
theorem fatalReply_of_found {reply : Except HubError (Option (List File))} {file : File}
    {i : Str} (h : lastFile reply = some file) (hi : file.id = some i) (calls : List Call) :
    fatalReply reply calls = false := by
  have hname : nameless reply = false := by simp [nameless, h, hi]
  have hthere : missing reply = false := by simp [missing, h]
  have hok : failed reply = false := by
    cases reply with
    | ok files => rfl
    | error e => exact absurd h (by simp [lastFile])
  unfold fatalReply
  split <;> simp [hname, hthere, hok]

/-- A lookup with an object that has no id is fatal. -/
theorem fatalReply_of_nameless {reply : Except HubError (Option (List File))}
    (h : nameless reply = true) (calls : List Call) : fatalReply reply calls = true := by
  unfold fatalReply
  split <;> simp [h]

/-! ## What a part of an event leaves behind -/

/-- Nothing in these calls is fatal, whatever comes after them. -/
def Harmless (calls : List Call) : Prop :=
  ∀ rest, fatal (calls ++ rest) = fatal rest

/-- Something in these calls is fatal, whatever comes after them. -/
def Deadly (calls : List Call) : Prop :=
  ∀ rest, fatal (calls ++ rest) = true

theorem harmless_nil : Harmless [] :=
  fun _ => rfl

theorem Harmless.append {calls calls' : List Call} (h : Harmless calls) (h' : Harmless calls') :
    Harmless (calls ++ calls') := by
  intro rest
  rw [List.append_assoc, h, h']

theorem Harmless.append_deadly {calls calls' : List Call} (h : Harmless calls)
    (h' : Deadly calls') : Deadly (calls ++ calls') := by
  intro rest
  rw [List.append_assoc, h, h']

theorem harmless_cons {c : Call} (h : ∀ rest, fatalAt c rest = false) {calls : List Call}
    (hcalls : Harmless calls) : Harmless (c :: calls) := by
  intro rest
  rw [List.cons_append, fatal_cons, h, Bool.false_or, hcalls]

theorem Deadly.cons {calls : List Call} (h : Deadly calls) (c : Call) : Deadly (c :: calls) := by
  intro rest
  rw [List.cons_append, fatal_cons, h, Bool.or_true]

theorem deadly_cons {c : Call} (h : ∀ rest, fatalAt c rest = true) (calls : List Call) :
    Deadly (c :: calls) := by
  intro rest
  rw [List.cons_append, fatal_cons, h, Bool.true_or]

section Lookups

variable {q q' i : Str} {reply reply' : Except HubError (Option (List File))} {file : File}

theorem harmless_found (h : lastFile reply = some file) (hi : file.id = some i)
    {warning : List Call} (hw : Harmless warning) : Harmless (.list q reply :: warning) :=
  harmless_cons (fun rest => by rw [fatalAt_list, fatalReply_of_found h hi]) hw

theorem deadly_nameless (h : lastFile reply = some file) (hi : file.id = none)
    (calls : List Call) : Deadly (.list q reply :: calls) := by
  refine deadly_cons (fun rest => ?_) calls
  rw [fatalAt_list]
  exact fatalReply_of_nameless (by simp [nameless, h, hi]) rest

/-- Nothing is found, but the parent is. -/
theorem harmless_missing_found (h : lastFile reply = none) (h' : lastFile reply' = some file)
    (hi : file.id = some i) {warning : List Call} (hw : Harmless warning) :
    Harmless (.list q reply :: .list q' reply' :: warning) := by
  intro rest
  have hfound := harmless_found (q := q') h' hi hw rest
  rw [List.cons_append] at hfound
  rw [List.cons_append, List.cons_append, fatal_cons, hfound, fatalAt_list]
  simp [fatalReply, nameless, missing, h, h']

/-- Nothing is found, nor the parent. -/
theorem deadly_missing (h : lastFile reply = none) (h' : lastFile reply' = none) :
    Deadly [.list q reply, .list q' reply'] := by
  intro rest
  rw [List.cons_append, List.cons_append, fatal_cons, fatalAt_list]
  simp [fatalReply, missing, h, h']

end Lookups

section Judged

variable {α β : Type} {σ : Type}

/-- The part returned, and nothing in it was fatal; or it did not, and something was. -/
def Judged (r : Outcome SyncerErrors α) (calls : List Call) : Prop :=
  r.returned = true ∧ Harmless calls ∨ r.returned = false ∧ Deadly calls

/-- The calls at the end of an event: it returns exactly if nothing was fatal. -/
def Final (r : Outcome SyncerErrors α) (calls : List Call) : Prop :=
  r.returned = !fatal calls

theorem Judged.harmless {a : α} {calls : List Call}
    (h : Judged (.ok a : Outcome SyncerErrors α) calls) : Harmless calls := by
  rcases h with ⟨-, h⟩ | ⟨h, -⟩
  · exact h
  · exact absurd h (by simp [Outcome.returned])

theorem Judged.deadly {calls : List Call}
    (h : Judged (.panic : Outcome SyncerErrors α) calls) : Deadly calls := by
  rcases h with ⟨h, -⟩ | ⟨-, h⟩
  · exact absurd h (by simp [Outcome.returned])
  · exact h

theorem Judged.of_err {e : SyncerErrors} {calls : List Call}
    (h : Judged (.err e : Outcome SyncerErrors α) calls) {r : Outcome SyncerErrors β}
    (hr : r.returned = true) : Judged r calls := by
  rcases h with ⟨-, h⟩ | ⟨h, -⟩
  · exact Or.inl ⟨hr, h⟩
  · exact absurd h (by simp [Outcome.returned])

theorem Judged.after {r : Outcome SyncerErrors α} {calls calls' : List Call}
    (h' : Judged r calls') (h : Harmless calls) : Judged r (calls ++ calls') := by
  rcases h' with ⟨hr, h'⟩ | ⟨hr, h'⟩
  · exact Or.inl ⟨hr, h.append h'⟩
  · exact Or.inr ⟨hr, h.append_deadly h'⟩

/-- Two parts, one after the other. -/
theorem judged_bind {m : Sync σ α} {f : α → Sync σ β} (hm : Logs World.trace m Judged)
    (hf : ∀ a, Logs World.trace (f a) Judged) : Logs World.trace (m >>= f) Judged := by
  refine hm.bind (fun a calls hcalls => (hf a).mono fun r calls' hcalls' => ?_) ?_ ?_
  · exact hcalls'.after hcalls.harmless
  · exact fun e calls h => h.of_err rfl
  · exact fun calls h => Or.inr ⟨rfl, h.deadly⟩

/-- After a part that was not fatal, the rest decides. -/
theorem Final.after {r : Outcome SyncerErrors α} {calls calls' : List Call} (h : Harmless calls)
    (h' : Final r calls') : Final r (calls ++ calls') := by
  rw [Final, h]
  exact h'

theorem Deadly.final {calls : List Call} (h : Deadly calls) :
    Final (.panic : Outcome SyncerErrors α) calls := by
  have hfatal := h []
  rw [List.append_nil] at hfatal
  rw [Final, hfatal]
  rfl

end Judged

/-! ## The calls of the client -/

section Client

variable {σ : Type} (hub : Hub σ) (filters : List Str) (machine : Machine σ)

/-- What a lookup leaves behind when its error is dropped. -/
inductive LookupLogs : Outcome SyncerErrors (Option (Option Str)) → List Call → Prop
  | found {q i : Str} {reply : Except HubError (Option (List File))} {file : File}
      {warning : List Call} (h : lastFile reply = some file) (hi : file.id = some i)
      (hw : Harmless warning) : LookupLogs (.ok (some (some i))) (.list q reply :: warning)
  | missing {q : Str} {reply : Except HubError (Option (List File))} (h : lastFile reply = none) :
      LookupLogs (.ok (if failed reply then none else some none)) [.list q reply]
  /-- The missing id is unwrapped. -/
  | nameless {q : Str} {reply : Except HubError (Option (List File))} {file : File}
      (h : lastFile reply = some file) (hi : file.id = none) :
      LookupLogs .panic [.list q reply]

/-- The answer to the query for the parent of the file, and what comes after it. -/
theorem final_of_lookup {answer : Option (Option Str)} {calls : List Call}
    (h : LookupLogs (.ok answer) calls) {α : Type} :
    (answer = none → Final (.panic : Outcome SyncerErrors α) calls) ∧
      ∀ parentId, answer = some parentId → ∀ (r : Outcome SyncerErrors α) path opened rest,
        Final r (.openFile path opened :: rest) →
          Final r (calls ++ .openFile path opened :: rest) := by
  generalize hr : (Outcome.ok answer : Outcome SyncerErrors _) = r at h
  cases h with
  | nameless => exact absurd hr (by simp)
  | @found q i reply file warning h hi hw =>
    obtain rfl := Outcome.ok.inj hr
    exact ⟨fun hnone => absurd hnone (by simp),
      fun _ _ r path opened rest hfinal => hfinal.after (harmless_found h hi hw)⟩
  | @missing q reply h =>
    rw [Outcome.ok.inj hr]
    cases hf : failed reply with
    | true =>
      refine ⟨fun _ => ?_, fun _ hsome => absurd hsome (by simp)⟩
      simp [Final, Outcome.returned, fatalReply, hf]
    | false =>
      refine ⟨fun hnone => absurd hnone (by simp), fun _ _ r path opened rest hfinal => ?_⟩
      -- something is asked after it
      rw [Final] at hfinal ⊢
      rw [hfinal, List.singleton_append, fatal_cons (.list q reply), fatalAt_list]
      simp [fatalReply, nameless, h]

variable [Base64]

/-- The client with a hub. -/
abbrev hubClient : Drive3Client σ :=
  Drive3Client.new (some hub) filters machine

theorem id_logs {path k : Str} (h : (SyncableFile.mk path).getUniqueId = .ok k) :
    Logs World.trace (((hubClient hub filters machine).id path).attemptOk :
      Sync σ (Option (Option Str))) LookupLogs := by
  -- the answer of `id` before its error is dropped
  have hid : Logs World.trace ((hubClient hub filters machine).id path) fun r calls =>
      (∀ i, r = .ok i → LookupLogs (.ok (some i)) calls) ∧
        (∀ e, r = .err e → LookupLogs (.ok none) calls) ∧
        (r = .panic → LookupLogs .panic calls) := by
    rw [Drive3Client.id, h, ofExcept_ok, pure_bind_eq,
      show (hubClient hub filters machine).getHub = .ok hub from rfl, ofExcept_ok, pure_bind_eq]
    refine (hubList_logs hub _).bind ?_ (by simp) (by simp)
    rintro reply _ ⟨_, rfl, ⟨⟩⟩
    rcases reply with e | files
    · refine .fail _ ⟨by simp, fun _ _ => ?_, by simp⟩
      exact .missing (show lastFile (.error e) = none from rfl)
    · rcases files with _ | files
      · refine .pure _ ⟨?_, by simp, by simp⟩
        rintro i ⟨⟩
        exact .missing (show lastFile (.ok none) = none from rfl)
      · rcases files.eq_nil_or_concat' with rfl | ⟨files, file, rfl⟩
        · refine .pure _ ⟨?_, by simp, by simp⟩
          rintro i ⟨⟩
          exact .missing (show lastFile (.ok (some [])) = none from rfl)
        · have hlast : lastFile (.ok (some (files ++ [file]))) = some file := by
            simp [lastFile]
          simp only [List.getLast?_concat, List.dropLast_concat]
          cases hi : file.id with
          | none =>
            rw [unwrapOption_none, abort_bind_eq]
            exact .abort ⟨by simp, by simp, fun _ => .nameless hlast hi⟩
          | some i =>
            rw [unwrapOption_some, pure_bind_eq]
            split_ifs
            · refine (warnMoreThanOne_logs _).bind ?_ (by simp) (by simp)
              rintro _ _ ⟨rfl, -⟩
              refine .pure _ ⟨?_, by simp, by simp⟩
              rintro _ ⟨⟩
              exact .found hlast hi (harmless_cons (fatalAt_moreThanOne _) harmless_nil)
            · refine .pure _ ⟨?_, by simp, by simp⟩
              rintro _ ⟨⟩
              exact .found hlast hi harmless_nil
  refine hid.attemptOk ?_ ?_ ?_
  · exact fun i calls hc => hc.1 i rfl
  · exact fun e calls hc => hc.2.1 e rfl
  · exact fun calls hc => hc.2.2 rfl

theorem createDir_logs {path k : Str} (h : (SyncableFile.mk path).getUniqueId = .ok k)
    (parentId : Option Str) :
    Logs World.trace ((hubClient hub filters machine).createDir path parentId) Judged := by
  rw [Drive3Client.createDir]
  refine (tempfile_logs machine).bind ?_ (by simp) (by simp)
  rintro _ _ ⟨made, rfl, ⟨⟩⟩
  rw [h, ofExcept_ok, pure_bind_eq, show (hubClient hub filters machine).getHub = .ok hub from rfl,
    ofExcept_ok, pure_bind_eq]
  cases made with
  | false => exact .abort (Or.inr ⟨rfl, deadly_cons (by simp) _⟩)
  | true =>
    have hmade : Harmless [.tempfile true] := harmless_cons (by simp) harmless_nil
    rw [if_pos rfl, unwrapExcept_ok, pure_bind_eq]
    refine (hubCreate_logs hub _ _).bind ?_ (by simp) (by simp)
    rintro reply _ ⟨_, rfl, ⟨⟩⟩
    rcases reply with e | file
    · exact .fail _ (Or.inl ⟨rfl, hmade.append (harmless_cons (by simp) harmless_nil)⟩)
    · cases hi : file.id with
      | none =>
        simp only [unwrapExcept_ok, pure_bind_eq, hi, unwrapOption_none, abort_bind_eq]
        exact .abort (Or.inr ⟨rfl, hmade.append_deadly (deadly_cons (by simp [hi]) _)⟩)
      | some i =>
        simp only [unwrapExcept_ok, pure_bind_eq, hi, unwrapOption_some]
        refine (cacheInsert_logs k i).bind ?_ (by simp) (by simp)
        rintro _ _ ⟨rfl, -⟩
        exact .pure _ (Or.inl ⟨rfl, hmade.append (harmless_cons (by simp [hi]) harmless_nil)⟩)

/-- **One directory.**  The first lookup that finds nothing is fatal only together with
the second. -/
theorem ensureDir_logs {lastDir d k pk : Str}
    (hk : (SyncableFile.mk (lastDir ++ d)).getUniqueId = .ok k)
    (hpk : (SyncableFile.mk lastDir).getUniqueId = .ok pk) :
    Logs World.trace ((hubClient hub filters machine).ensureDir lastDir d) Judged := by
  have hinsert : ∀ i : Str, Logs World.trace (cacheInsert k i : Sync σ Unit) Judged :=
    fun i => (cacheInsert_logs k i).mono fun r calls h => Or.inl
      ⟨by rw [h.2]; rfl, by rw [h.1]; exact harmless_nil⟩
  have hcreate : ∀ g : Str, Logs World.trace
      (((hubClient hub filters machine).createDir (lastDir ++ d) (some g)).attempt :
        Sync σ (Except SyncerErrors (Option Str))) Judged :=
    fun g => (createDir_logs hub filters machine hk (some g)).attempt (fun _ _ h => h)
      (fun _ _ h => h.of_err rfl) (fun _ h => h)
  rw [Drive3Client.ensureDir, hk, ofExcept_ok, pure_bind_eq, unwrapExcept_ok, pure_bind_eq]
  refine judged_bind ((containsKey_logs machine k).mono ?_) fun hit => ?_
  · rintro _ _ ⟨hit, rfl, rfl⟩
    exact Or.inl ⟨rfl, harmless_cons (by simp) harmless_nil⟩
  cases hit with
  | true => exact .pure _ (Or.inl ⟨rfl, harmless_nil⟩)
  | false =>
    refine (id_logs hub filters machine hk).bind (fun answer calls hfirst => ?_) ?_ ?_
    · generalize hr : (Outcome.ok answer : Outcome SyncerErrors _) = r at hfirst
      cases hfirst with
      | nameless => exact absurd hr (by simp)
      | @found q i reply file warning h hi hw =>
        obtain rfl := Outcome.ok.inj hr
        exact (hinsert i).mono fun r calls' hc => hc.after (harmless_found h hi hw)
      | @missing q reply h =>
        have hnone : (answer.bind fun o => o) = none := by
          rw [Outcome.ok.inj hr]
          split_ifs <;> rfl
        simp only [hnone]
        refine (id_logs hub filters machine hpk).bind (fun answer' calls' hsecond => ?_) ?_ ?_
        · generalize hr' : (Outcome.ok answer' : Outcome SyncerErrors _) = r' at hsecond
          cases hsecond with
          | nameless => exact absurd hr' (by simp)
          | @found q' g reply' file warning h' hi hw =>
            obtain rfl := Outcome.ok.inj hr'
            refine Logs.mono (Q := Judged) ?_ fun r calls'' hc =>
              hc.after (harmless_missing_found (q := q) h h' hi hw)
            -- whatever comes of the creation, nothing is asked after it
            simp only [Option.bind_some, unwrapOption_some, pure_bind_eq]
            refine judged_bind (hcreate g) ?_
            rintro (e | _ | i)
            · exact .pure _ (Or.inl ⟨rfl, harmless_nil⟩)
            · exact .pure _ (Or.inl ⟨rfl, harmless_nil⟩)
            · exact hinsert i
          | @missing q' reply' h' =>
            have hnone' : (answer'.bind fun o => o) = none := by
              rw [Outcome.ok.inj hr']
              split_ifs <;> rfl
            rw [hnone']
            exact .abort (Or.inr ⟨rfl, deadly_missing h h'⟩)
        · intro e calls' h'
          cases h'
        · intro calls' h'
          cases h' with
          | nameless h' hi => exact Or.inr ⟨rfl, (deadly_nameless h' hi []).cons _⟩
    · intro e calls h
      cases h
    · intro calls h
      cases h with
      | nameless h hi => exact Or.inr ⟨rfl, deadly_nameless h hi []⟩

/-- **The walk over the directories.** -/
theorem ensureAll_logs {done dirs : List Str} (hdone : ∀ c ∈ done, Solid c)
    (hdirs : ∀ c ∈ dirs, Solid c) :
    Logs World.trace (ensureAll (hubClient hub filters machine) done dirs) Judged := by
  induction dirs generalizing done with
  | nil => exact .pure _ (Or.inl ⟨rfl, harmless_nil⟩)
  | cons d dirs ih =>
    have hsnoc : ∀ c ∈ done ++ [d], Solid c := by
      intro c hc
      rcases List.mem_append.mp hc with hc | hc
      · exact hdone c hc
      · exact hdirs c (List.mem_cons.mpr (Or.inl (List.mem_singleton.mp hc)))
    have hk : (SyncableFile.mk (dirPrefix done ++ d)).getUniqueId = .ok (keyOf (done ++ [d])) := by
      rw [dirPrefix_append]
      exact getUniqueId_below hsnoc
    exact judged_bind (ensureDir_logs hub filters machine hk (getUniqueId_dirPrefix hdone))
      fun _ => ih hsnoc fun c hc => hdirs c (List.mem_cons_of_mem _ hc)

/-- **The file.** -/
theorem placeFile_logs {path : Str} {dirs : List Str} {f : Str} (hpath : IsFilePath path dirs f) :
    Logs World.trace ((hubClient hub filters machine).placeFile path) Final := by
  obtain ⟨pp, hpp, hname, hpk⟩ := hpath.placeKeys
  rw [Drive3Client.placeFile, hpp, unwrapExcept_ok, pure_bind_eq, SyncableFile.localPath, hname,
    unwrapOption_some, pure_bind_eq, pure_bind_eq]
  refine (id_logs hub filters machine hpk).bind (fun answer calls hlookup => ?_) ?_ ?_
  · obtain ⟨hfailed, hanswered⟩ := final_of_lookup hlookup (α := Option Str)
    cases answer with
    | none => exact .abort (by simpa using hfailed rfl)
    | some parentId =>
      rw [unwrapOption_some, pure_bind_eq, hpath.getUniqueId, ofExcept_ok, pure_bind_eq]
      refine Logs.mono (Q := fun r calls' =>
        (∃ opened rest, calls' = .openFile path opened :: rest) ∧ Final r calls') ?_ ?_
      · refine (openFile_logs machine path).bind ?_ (by simp) (by simp)
        rintro opened _ ⟨_, rfl, ⟨⟩⟩
        cases opened with
        | none => exact .fail _ ⟨⟨_, _, rfl⟩, rfl⟩
        | some content₀ =>
          simp only [show (hubClient hub filters machine).getHub = .ok hub from rfl, ofExcept_ok,
            pure_bind_eq]
          refine (openFile_logs machine path).bind ?_ (by simp) (by simp)
          rintro opened _ ⟨_, rfl, ⟨⟩⟩
          cases opened with
          | none => exact .abort ⟨⟨_, _, rfl⟩, rfl⟩
          | some content =>
            rw [unwrapOption_some, pure_bind_eq]
            refine (hubCreate_logs hub _ _).bind ?_ (by simp) (by simp)
            rintro reply _ ⟨_, rfl, ⟨⟩⟩
            rcases reply with e | file
            · exact .fail _ ⟨⟨_, _, rfl⟩, rfl⟩
            · cases hi : file.id with
              | none =>
                simp only [hi, unwrapOption_none, abort_bind_eq]
                exact .abort ⟨⟨_, _, rfl⟩, by simp [Final, Outcome.returned, fatalAt, hi]⟩
              | some i =>
                simp only [hi, unwrapOption_some, pure_bind_eq]
                exact .pure _ ⟨⟨_, _, rfl⟩, by simp [Final, Outcome.returned, fatalAt, hi]⟩
      · rintro r _ ⟨⟨opened, rest, rfl⟩, hfinal⟩
        exact hanswered parentId rfl r path opened rest hfinal
  · intro e calls h
    cases h
  · intro calls h
    cases h with
    | nameless h hi => exact (deadly_nameless h hi []).final

/-- **An upload** returns exactly if no answer was fatal. -/
theorem uploadFile_logs {path : Str} {dirs : List Str} {f : Str} (hpath : IsFilePath path dirs f) :
    Logs World.trace ((hubClient hub filters machine).uploadFile path) Final := by
  have hcreate : Logs World.trace ((hubClient hub filters machine).createPath ⟨path⟩) Judged := by
    rw [createPath_eq, hpath.relComponents]
    obtain ⟨d, cs, hcons⟩ := List.exists_cons_of_ne_nil (show dirs ++ [f] ≠ [] by simp)
    rw [hcons, createPathOf, ← hcons, List.dropLast_concat]
    refine judged_bind (ensureAll_logs hub filters machine (by simp) fun c hc => ?_) fun _ =>
      .pure _ (Or.inl ⟨rfl, harmless_nil⟩)
    exact hpath.solid c (List.mem_append_left _ hc)
  rw [Drive3Client.uploadFile]
  refine (hcreate.attemptOk (P := Judged) (Q := Judged) (fun _ _ h => h)
    (fun _ _ h => h.of_err rfl) (fun _ h => h)).bind (fun a calls hcalls => ?_) ?_ ?_
  · exact (placeFile_logs hub filters machine hpath).mono fun r calls' h => h.after hcalls.harmless
  · intro e calls h
    rw [Final]
    have hnone := h.of_err (r := (.ok () : Outcome SyncerErrors Unit)) rfl |>.harmless []
    rw [List.append_nil] at hnone
    rw [hnone]
    rfl
  · exact fun calls h => h.deadly.final

/-! ## Events -/

variable [RegexCrate]

/-- The watcher reports that a file in normal spelling strictly below the watched
directory was created. -/
def IsCreation (e : RawEvent) : Prop :=
  ∃ path dirs f, IsFilePath path dirs f ∧ e.path = some (.utf8 path) ∧ e.op = some {.create}

/-- **An event** goes by, or ends in a panic when an answer was fatal. -/
theorem handleRawEvent_logs {e : RawEvent} (he : IsCreation e) :
    Logs World.trace (handleRawEvent (hubClient hub filters machine) e) fun r calls =>
      r = if fatal calls then .panic else .ok () := by
  obtain ⟨path, dirs, f, hpath, hp, hop⟩ := he
  have hname : (SyncableFile.mk path).getFilename = some f := hpath.placeKeys.choose_spec.2.1
  rw [handleRawEvent_creation _ hp hop, Drive3Client.passesFilter_eq _ hname, pure_bind_eq]
  split_ifs
  · have hfile : Logs World.trace (isFile machine path) fun r calls =>
        ∃ found, calls = [] ∧ r = .ok found :=
      fun _ => ⟨[], (List.append_nil _).symm, _, rfl, rfl⟩
    refine hfile.bind ?_ (by simp) (by simp)
    rintro found _ ⟨_, rfl, ⟨⟩⟩
    simp only [List.nil_append]
    split_ifs
    · refine ((uploadFile_logs hub filters machine hpath).attempt
        (Q := fun (r : Outcome SyncerErrors (Except SyncerErrors (Option Str))) calls =>
          (∃ a, r = .ok a) ∧ fatal calls = false ∨
          r = .panic ∧ fatal calls = true) ?_ ?_ ?_).bind ?_ ?_ ?_
      · exact fun a calls h => Or.inl ⟨⟨_, rfl⟩, by simpa [Final, Outcome.returned] using h⟩
      · exact fun e calls h => Or.inl ⟨⟨_, rfl⟩, by simpa [Final, Outcome.returned] using h⟩
      · exact fun calls h => Or.inr ⟨rfl, by simpa [Final, Outcome.returned] using h⟩
      · rintro a calls (⟨-, h⟩ | ⟨h, -⟩)
        · exact .pure _ (by simp [h])
        · exact absurd h (by simp)
      · rintro e calls (⟨⟨a, h⟩, -⟩ | ⟨h, -⟩) <;> exact absurd h (by simp)
      · rintro calls (⟨⟨a, h⟩, -⟩ | ⟨-, h⟩)
        · exact absurd h (by simp)
        · exact (if_pos h).symm
    · exact .pure _ (by simp)
  · exact .pure _ (by simp)

/-- **Which events the daemon survives.**  The loop comes to the end of the events
exactly if no answer in any of them was fatal. -/
theorem eventLoop_returns_iff (events : List RawEvent) (hevents : ∀ e ∈ events, IsCreation e)
    (w : World σ) :
    (eventLoop (hubClient hub filters machine) events w).1 = .ok () ↔
      ∀ pre e, pre ++ [e] <+: events →
        fatal (callsSince (eventLoop (hubClient hub filters machine) pre w).2
          (eventLoop (hubClient hub filters machine) (pre ++ [e]) w).2) = false := by
  induction events generalizing w with
  | nil => simp [eventLoop]
  | cons e events ih =>
    obtain ⟨calls, htrace, hr⟩ := handleRawEvent_logs hub filters machine
      (hevents e (List.mem_cons_self ..)) w
    set w' := (handleRawEvent (hubClient hub filters machine) e w).2 with hw'
    have hcalls : callsSince w w' = calls := callsSince_of_trace htrace
    have hnil : eventLoop (hubClient hub filters machine) [] w = (.ok (), w) := rfl
    cases hfatal : fatal calls with
    | true =>
      rw [hfatal, if_pos rfl] at hr
      have hhandle : handleRawEvent (hubClient hub filters machine) e w = (.panic, w') :=
        Prod.ext hr rfl
      have hrun := eventLoop_cons_of_panic (hubClient hub filters machine) hhandle
      rw [hrun]
      refine ⟨fun h => absurd h (by simp), fun h => ?_⟩
      have hfirst := h [] e (by simp)
      rw [List.nil_append, hnil, hrun, hcalls, hfatal] at hfirst
      exact absurd hfirst (by simp)
    | false =>
      rw [hfatal, if_neg (by simp)] at hr
      have hhandle : handleRawEvent (hubClient hub filters machine) e w = (.ok (), w') :=
        Prod.ext hr rfl
      have hrun := eventLoop_cons_of_ok (hubClient hub filters machine) hhandle
      rw [hrun, ih (fun e' he' => hevents e' (List.mem_cons_of_mem _ he')) w']
      constructor
      · intro h pre e' hpre
        cases pre with
        | nil =>
          obtain ⟨rfl, -⟩ := List.cons_prefix_cons.mp hpre
          rw [List.nil_append, hnil, hrun]
          exact hcalls ▸ hfatal
        | cons e₀ pre =>
          obtain ⟨rfl, hrest⟩ := List.cons_prefix_cons.mp hpre
          rw [List.cons_append, hrun, hrun]
          exact h pre e' hrest
      · intro h pre e' hpre
        have hnext := h (e :: pre) e' (List.cons_prefix_cons.mpr ⟨rfl, hpre⟩)
        rwa [List.cons_append, hrun, hrun] at hnext

end Client

/-- The `regex` crate, on expressions without special characters: they match where they
occur. -/
@[reducible] def literalRegex : RegexCrate where
  new := fun val => some fun text => decide (val <:+: text)

/-- The event that reports one operation on a path. -/
def eventOf (op : OpBit) (path : Str) : RawEvent where
  path := some (.utf8 path)
  op := some {op}

/-- The event that reports the creation of a file. -/
abbrev creationOf (cs : List Str) : RawEvent :=
  eventOf .create (below cs)

theorem isCreation_creationOf {cs : List Str} (hcs : ∀ c ∈ cs, IsName c) (hne : cs ≠ []) :
    IsCreation (creationOf cs) :=
  ⟨below cs, cs.dropLast, cs.getLast hne, ⟨by rw [List.dropLast_append_getLast],
    fun c hc => hcs c (List.mem_of_mem_dropLast hc), hcs _ (List.getLast_mem hne)⟩, rfl, rfl⟩

/-- Two files are created, and nothing fails. -/
theorem eventLoop_returns_calm :
    let c := hubClient (driveHub calm) [[]] (driveMachine calm true)
    let w := (@Daemon.start standardBase64 calm [[]] true (.fresh []) []).world.withDisk everyFile
    let events := [creationOf [str "f"], creationOf [str "a", str "g"]]
    ∀ pre e, pre ++ [e] <+: events →
      fatal (callsSince (@eventLoop _ standardBase64 c literalRegex pre w).2
        (@eventLoop _ standardBase64 c literalRegex (pre ++ [e]) w).2) = false := by
  intro c w events
  refine (@eventLoop_returns_iff _ (driveHub calm) [[]] (driveMachine calm true) standardBase64
    literalRegex events ?_ w).mp (by decide +kernel)
  intro e he
  simp only [events, List.mem_cons, List.not_mem_nil, or_false] at he
  rcases he with rfl | rfl
  · exact isCreation_creationOf (by decide +kernel) (by simp)
  · exact isCreation_creationOf (by decide +kernel) (by simp)

/-- The daemon has started on an empty drive, and the next query fails: it is the one for
the parent directory of a new file. -/
theorem failed_query_panics :
    let ω := calmBut 3 .rejected
    let w := (@Daemon.start standardBase64 ω [[]] true (.fresh []) []).world.withDisk everyFile
    (@eventLoop _ standardBase64 (hubClient (driveHub ω) [[]] (driveMachine ω true)) literalRegex
      [creationOf [str "f"]] w).1 = .panic := by
  decide +kernel

end PiDriveSync
