import PiDriveSync.Session.Order

/-!
# Every conversation of the grammar can happen

The grammar says what an upload may ask and how it may end.  Here the converse: for each
conversation of it there are a hub and a machine with which the client has just this
conversation (`uploadFile_conversations`).  So nothing in the grammar is idle, and what is
read off it is read off the client.

The hub and the machine share a script, the calls to come with their answers, and answer as
the first of them says.  The cache is filled beforehand with what the script says is in it;
a directory comes up once in a walk, so what is not to be found may be dropped when it is
looked for.
-/

namespace PiDriveSync

open UnixPath Fallible

/-! ## The script -/

/-- A warning is answered by nobody. -/
def isWarning : Call → Bool
  | .moreThanOne _ => true
  | _ => false

/-- The calls that are answered. -/
def answers (calls : List Call) : List Call :=
  calls.filter fun call => !isWarning call

@[simp] theorem answers_append (calls calls' : List Call) :
    answers (calls ++ calls') = answers calls ++ answers calls' :=
  List.filter_append ..

@[simp] theorem answers_warning (files : Option (List File)) (k : Str) :
    answers (warning files k) = [] := by
  rw [warning]
  split_ifs <;> rfl

/-- A hub that answers as its script says. -/
def scriptHub : Hub (List Call) where
  list _ script :=
    match script with
    | .list _ reply :: rest => (reply, rest)
    | _ => (.error .failure, script)
  create _ _ script :=
    match script with
    | .create _ reply :: rest => (reply, rest)
    | _ => (.error .failure, script)

/-- A machine that answers as its script says.  What the cache is not to have is dropped when
it is looked for, and every file that opens holds one byte. -/
def scriptMachine (checks : Bool) : Machine (List Call) where
  expired script :=
    match script with
    | .containsKey k hit :: rest => (fun k' => !hit && k' == k, rest)
    | _ => (fun _ => false, script)
  tempfile script :=
    match script with
    | .tempfile made :: rest => (made, rest)
    | _ => (false, script)
  openFile _ script :=
    match script with
    | .openFile _ opened :: rest => (if opened then some [1] else none, rest)
    | _ => (none, script)
  isFile _ script := (false, script)
  overflowChecks := checks

/-- The client of the script, with a hub just if `c` has one. -/
def standIn {σ : Type} (c : Drive3Client σ) : Drive3Client (List Call) :=
  Drive3Client.new (c.hub.toOption.map fun _ => scriptHub) []
    (scriptMachine c.machine.overflowChecks)

/-- With `calls` at the front of the script, `m` has this conversation and ends with `r`. -/
def Plays {α : Type} (m : Sync (List Call) α) (calls : List Call) (r : Outcome SyncerErrors α)
    (cache cache' : Cache) : Prop :=
  ∀ rest trace, m ⟨answers calls ++ rest, cache, trace⟩ = (r, ⟨rest, cache', trace ++ calls⟩)

namespace Plays

variable {α β : Type} {m : Sync (List Call) α} {f : α → Sync (List Call) β}
  {calls calls' : List Call} {cache cache₁ cache' : Cache}

theorem pure (a : α) (cache : Cache) : Plays (Pure.pure a) [] (.ok a) cache cache :=
  fun _ trace => by rw [List.append_nil]; rfl

theorem fail (e : SyncerErrors) (cache : Cache) :
    Plays (Fallible.fail e : Sync (List Call) α) [] (.err e) cache cache :=
  fun _ trace => by rw [List.append_nil]; rfl

theorem abort (cache : Cache) :
    Plays (Fallible.abort : Sync (List Call) α) [] .panic cache cache :=
  fun _ trace => by rw [List.append_nil]; rfl

theorem bind {a : α} {r : Outcome SyncerErrors β} (h : Plays m calls (.ok a) cache cache₁)
    (h' : Plays (f a) calls' r cache₁ cache') :
    Plays (m >>= f) (calls ++ calls') r cache cache' := by
  intro rest trace
  rw [answers_append, List.append_assoc, bind_run_ok (h _ _), h', List.append_assoc]

/-- Nothing more is asked. -/
theorem bind_silent {a : α} {r : Outcome SyncerErrors β} (h : Plays m calls (.ok a) cache cache₁)
    (h' : Plays (f a) [] r cache₁ cache') : Plays (m >>= f) calls r cache cache' := by
  have hbind := h.bind h'
  rwa [List.append_nil] at hbind

theorem bind_panic (h : Plays m calls .panic cache cache') :
    Plays (m >>= f) calls .panic cache cache' :=
  fun rest trace => bind_run_panic (h rest trace) f

theorem attemptOk_ok {a : α} (h : Plays m calls (.ok a) cache cache') :
    Plays (m.attemptOk : Sync (List Call) (Option α)) calls (.ok (some a)) cache cache' := by
  intro rest trace
  rw [Fallible.attemptOk, h]

theorem attemptOk_err {e : SyncerErrors} (h : Plays m calls (.err e) cache cache') :
    Plays (m.attemptOk : Sync (List Call) (Option α)) calls (.ok none) cache cache' := by
  intro rest trace
  rw [Fallible.attemptOk, h]

theorem attemptOk_panic (h : Plays m calls .panic cache cache') :
    Plays (m.attemptOk : Sync (List Call) (Option α)) calls .panic cache cache' := by
  intro rest trace
  rw [Fallible.attemptOk, h]

theorem attempt_ok {a : α} (h : Plays m calls (.ok a) cache cache') :
    Plays (m.attempt : Sync (List Call) (Except SyncerErrors α)) calls (.ok (.ok a)) cache
      cache' := by
  intro rest trace
  rw [Fallible.attempt, h]

theorem attempt_err {e : SyncerErrors} (h : Plays m calls (.err e) cache cache') :
    Plays (m.attempt : Sync (List Call) (Except SyncerErrors α)) calls (.ok (.error e)) cache
      cache' := by
  intro rest trace
  rw [Fallible.attempt, h]

theorem attempt_panic (h : Plays m calls .panic cache cache') :
    Plays (m.attempt : Sync (List Call) (Except SyncerErrors α)) calls .panic cache cache' := by
  intro rest trace
  rw [Fallible.attempt, h]

end Plays

/-! ## One call -/

section Single

variable (checks : Bool) (cache : Cache)

theorem hubList_plays (q : Str) (reply : Except HubError (Option (List File))) :
    Plays (hubList scriptHub q) [.list q reply] (.ok reply) cache cache :=
  fun _ _ => rfl

theorem hubCreate_plays (req : File) (content : Bytes) (reply : Except HubError File) :
    Plays (hubCreate scriptHub req content) [.create req reply] (.ok reply) cache cache :=
  fun _ _ => rfl

theorem tempfile_plays (made : Bool) : Plays (tempfile (scriptMachine checks)) [.tempfile made]
    (.ok (if made then .ok () else .error .invalidPathError)) cache cache :=
  fun _ _ => rfl

theorem openFile_plays (path : Str) (opened : Bool) :
    Plays (openFile (scriptMachine checks) path) [.openFile path opened]
      (.ok (if opened then some [1] else none)) cache cache :=
  fun _ _ => by cases opened <;> rfl

theorem warnMoreThanOne_plays (k : Str) :
    Plays (warnMoreThanOne k) [.moreThanOne k] (.ok ()) cache cache :=
  fun _ _ => rfl

theorem cacheInsert_plays (k v : Str) :
    Plays (cacheInsert k v) [] (.ok ()) cache (remember cache k v) :=
  fun _ trace => by rw [List.append_nil]; rfl

/-- The look at the cache that is next in the script. -/
theorem containsKey_plays (k : Str) (hit : Bool)
    (h : ((cache.filter fun e => !(!hit && e.1 == k)).any fun e => e.1 == k) = hit) :
    Plays (containsKey (scriptMachine checks) k) [.containsKey k hit] (.ok hit) cache
      (cache.filter fun e => !(!hit && e.1 == k)) := by
  intro rest trace
  have hrun : containsKey (scriptMachine checks) k
      ⟨answers [.containsKey k hit] ++ rest, cache, trace⟩ =
        (.ok ((cache.filter fun e => !(!hit && e.1 == k)).any fun e => e.1 == k),
          ⟨rest, cache.filter fun e => !(!hit && e.1 == k),
            trace ++ [.containsKey k ((cache.filter fun e => !(!hit && e.1 == k)).any
              fun e => e.1 == k)]⟩) := rfl
  rw [hrun, h]

/-- The cache has the key, and nothing is dropped. -/
theorem containsKey_plays_hit {k v : Str} (h : (k, v) ∈ cache) :
    Plays (containsKey (scriptMachine checks) k) [.containsKey k true] (.ok true) cache cache := by
  have hkept : (cache.filter fun e => !(!true && e.1 == k)) = cache := by simp
  have hplays := containsKey_plays checks cache k true (by
    rw [hkept]
    exact List.any_eq_true.mpr ⟨(k, v), h, beq_self_eq_true k⟩)
  rwa [hkept] at hplays

/-- The key is dropped. -/
theorem containsKey_plays_miss (k : Str) :
    Plays (containsKey (scriptMachine checks) k) [.containsKey k false] (.ok false) cache
      (cache.filter fun e => !(!false && e.1 == k)) := by
  refine containsKey_plays checks cache k false ?_
  rw [List.any_eq_false]
  intro e he
  simpa using List.of_mem_filter he

end Single

/-! ## The client -/

section Client

variable {σ : Type} {c : Drive3Client σ}

theorem standIn_online {hub : Hub σ} (h : c.hub = .ok hub) :
    (standIn c).getHub = .ok scriptHub := by
  rw [standIn, h]
  rfl

theorem standIn_offline (h : ∀ hub, c.hub ≠ .ok hub) :
    (standIn c).getHub = .error .noAppSecret := by
  rw [standIn]
  cases hhub : c.hub with
  | ok hub => exact absurd hhub (h hub)
  | error e => rfl

@[simp] theorem standIn_machine :
    (standIn c).machine = scriptMachine c.machine.overflowChecks := by
  rw [standIn]
  cases c.hub <;> rfl

variable [Base64]

/-- **A lookup.** -/
theorem IdAsks.plays {path k : Str} (hk : (SyncableFile.mk path).getUniqueId = .ok k)
    {r : Outcome SyncerErrors (Option Str)} {calls : List Call} (h : IdAsks c k r calls)
    (cache : Cache) : Plays ((standIn c).id path) calls r cache cache := by
  rw [Drive3Client.id, hk, ofExcept_ok, pure_bind_eq]
  cases h with
  | offline hoff =>
    rw [standIn_offline hoff, ofExcept_error, fail_bind_eq]
    exact .fail _ cache
  | failed hub hhub e =>
    rw [standIn_online hhub, ofExcept_ok, pure_bind_eq]
    exact (hubList_plays cache _ _).bind_silent (.fail _ cache)
  | nothing hub hhub files hnone =>
    rw [standIn_online hhub, ofExcept_ok, pure_bind_eq]
    refine (hubList_plays cache _ _).bind_silent ?_
    cases files with
    | none => exact .pure _ cache
    | some files =>
      have hlast : files.getLast? = none := hnone
      simp only [hlast]
      exact .pure _ cache
  | found hub hhub files file i hfile hi =>
    rw [standIn_online hhub, ofExcept_ok, pure_bind_eq]
    cases files with
    | none => exact absurd hfile (by simp [lastFile])
    | some files =>
      have hlast : files.getLast? = some file := hfile
      have hmore : files.dropLast.length > 1 ↔ 2 < ((some files).getD []).length := by
        rw [Option.getD_some, List.length_dropLast]
        omega
      rw [← List.singleton_append, warning]
      refine (hubList_plays cache _ _).bind ?_
      simp only [hlast, hi, unwrapOption_some, pure_bind_eq, hmore]
      split_ifs
      · exact (warnMoreThanOne_plays cache k).bind_silent (.pure _ cache)
      · exact .pure _ cache
  | nameless hub hhub files file hfile hi =>
    rw [standIn_online hhub, ofExcept_ok, pure_bind_eq]
    refine (hubList_plays cache _ _).bind_silent ?_
    cases files with
    | none => exact absurd hfile (by simp [lastFile])
    | some files =>
      have hlast : files.getLast? = some file := hfile
      simp only [hlast, hi, unwrapOption_none, abort_bind_eq]
      exact .abort cache

/-- A lookup whose error is dropped: what `createPath` makes of the answer. -/
theorem IdAsks.plays_unanswered {path k : Str} (hk : (SyncableFile.mk path).getUniqueId = .ok k)
    {r : Outcome SyncerErrors (Option Str)} {calls : List Call} (h : IdAsks c k r calls)
    (hr : Unanswered r) (cache : Cache) : ∃ answer : Option (Option Str),
      Plays (((standIn c).id path).attemptOk : Sync (List Call) (Option (Option Str))) calls
        (.ok answer) cache cache ∧ (answer.bind fun o => o) = none := by
  rcases hr with rfl | ⟨e, rfl⟩
  · exact ⟨some none, (h.plays hk cache).attemptOk_ok, rfl⟩
  · exact ⟨none, (h.plays hk cache).attemptOk_err, rfl⟩

/-- Every key of `cache` but `k` is in `cache'` too. -/
def KeepsBut (k : Str) (cache cache' : Cache) : Prop :=
  ∀ k' v, k' ≠ k → (k', v) ∈ cache → ∃ v', (k', v') ∈ cache'

omit [Base64] in
theorem keepsBut_remember (k v : Str) (cache : Cache) :
    KeepsBut k cache (remember cache k v) :=
  fun _ v' hne h => ⟨v', mem_remember.mpr (Or.inr ⟨h, hne⟩)⟩

omit [Base64] in
theorem KeepsBut.refl (k : Str) (cache : Cache) : KeepsBut k cache cache :=
  fun _ v _ h => ⟨v, h⟩

omit [Base64] in
theorem KeepsBut.trans {k : Str} {cache cache₁ cache' : Cache} (h : KeepsBut k cache cache₁)
    (h' : KeepsBut k cache₁ cache') : KeepsBut k cache cache' := by
  intro k' v hne hv
  obtain ⟨v₁, hv₁⟩ := h k' v hne hv
  exact h' k' v₁ hne hv₁

/-- **The creation of a folder**, by a client with a hub. -/
theorem CreateAsks.plays {path k : Str} (hk : (SyncableFile.mk path).getUniqueId = .ok k)
    {hub : Hub σ} (hhub : c.hub = .ok hub) {parentId : Option Str}
    {r : Outcome SyncerErrors (Option Str)} {calls : List Call}
    (h : CreateAsks c path k parentId r calls) (cache : Cache) :
    ∃ cache', Plays ((standIn c).createDir path parentId) calls r cache cache' ∧
      KeepsBut k cache cache' := by
  rw [Drive3Client.createDir, hk]
  simp only [standIn_machine, standIn_online hhub, ofExcept_ok, pure_bind_eq, unwrapExcept_ok]
  cases h with
  | offline made hoff => exact absurd hhub (hoff hub)
  | noTempfile =>
    exact ⟨cache, (tempfile_plays _ cache false).bind_silent (.abort cache), .refl k cache⟩
  | failed e =>
    refine ⟨cache, (tempfile_plays _ cache true).bind ?_, .refl k cache⟩
    rw [if_pos rfl, unwrapExcept_ok, pure_bind_eq]
    exact (hubCreate_plays cache _ _ _).bind_silent (.fail _ cache)
  | made file i hi =>
    refine ⟨remember cache k i, (tempfile_plays _ cache true).bind ?_,
      keepsBut_remember k i cache⟩
    rw [if_pos rfl, unwrapExcept_ok, pure_bind_eq]
    refine (hubCreate_plays cache _ _ _).bind_silent ?_
    simp only [hi, unwrapOption_some, pure_bind_eq]
    exact (cacheInsert_plays cache k i).bind (.pure _ _)
  | nameless file hi =>
    refine ⟨cache, (tempfile_plays _ cache true).bind ?_, .refl k cache⟩
    rw [if_pos rfl, unwrapExcept_ok, pure_bind_eq]
    refine (hubCreate_plays cache _ _ _).bind_silent ?_
    simp only [hi, unwrapOption_none, abort_bind_eq]
    exact .abort cache

/-- **One directory**, when the cache has it if the script says so. -/
theorem EnsureAsks.plays {lastDir d k pk : Str}
    (hk : (SyncableFile.mk (lastDir ++ d)).getUniqueId = .ok k)
    (hpk : (SyncableFile.mk lastDir).getUniqueId = .ok pk) {r : Outcome SyncerErrors Unit}
    {calls : List Call} (h : EnsureAsks c (lastDir ++ d) k pk r calls) (cache : Cache)
    (hhit : .containsKey k true ∈ calls → ∃ v, (k, v) ∈ cache) :
    ∃ cache', Plays ((standIn c).ensureDir lastDir d) calls r cache cache' ∧
      KeepsBut k cache cache' := by
  rw [Drive3Client.ensureDir, hk, ofExcept_ok, pure_bind_eq, unwrapExcept_ok, pure_bind_eq,
    standIn_machine]
  -- what is left of the cache after a miss
  have hmiss := containsKey_plays_miss c.machine.overflowChecks cache k
  generalize hleft : (cache.filter fun e => !(!false && e.1 == k)) = rest at hmiss
  have hkept : KeepsBut k cache rest := by
    intro k' v hne hv
    refine ⟨v, ?_⟩
    rw [← hleft, List.mem_filter]
    exact ⟨hv, by simpa using hne⟩
  cases h with
  | hit =>
    obtain ⟨v, hv⟩ := hhit (List.mem_singleton.mpr rfl)
    exact ⟨cache, (containsKey_plays_hit _ cache hv).bind_silent (.pure _ cache), .refl k cache⟩
  | found i calls h =>
    refine ⟨remember rest k i, hmiss.bind ((h.plays hk rest).attemptOk_ok.bind_silent ?_),
      hkept.trans (keepsBut_remember k i rest)⟩
    exact cacheInsert_plays rest k i
  | crashed calls h =>
    exact ⟨rest, hmiss.bind (h.plays hk rest).attemptOk_panic.bind_panic, hkept⟩
  | orphan r r' calls calls' h hr h' hr' =>
    obtain ⟨answer, hplays, hnone⟩ := h.plays_unanswered hk hr rest
    refine ⟨rest, hmiss.bind (hplays.bind ?_), hkept⟩
    simp only [hnone]
    rcases r' with (_ | g) | e | _
    · exact (h'.plays hpk rest).attemptOk_ok.bind_silent (.abort rest)
    · exact absurd rfl (hr' g)
    · exact (h'.plays hpk rest).attemptOk_err.bind_silent (.abort rest)
    · exact (h'.plays hpk rest).attemptOk_panic.bind_panic
  | create g r r' calls calls' made h hr h' hmade =>
    obtain ⟨answer, hplays, hnone⟩ := h.plays_unanswered hk hr rest
    obtain ⟨hub, hhub⟩ := h'.online
    obtain ⟨cache', hcreate, hkept'⟩ := hmade.plays hk hhub rest
    have hlookup : ∀ {f : Option (Option Str) → Sync (List Call) Unit}
        {r : Outcome SyncerErrors Unit} {cache' : Cache},
        Plays (f (some (some g))) made r rest cache' →
        Plays (((standIn c).id lastDir).attemptOk >>= f) (calls' ++ made) r rest cache' :=
      fun hf => (h'.plays hpk rest).attemptOk_ok.bind hf
    rcases r' with (_ | i) | e | _
    · refine ⟨cache', hmiss.bind (hplays.bind ?_), hkept.trans hkept'⟩
      simp only [hnone]
      exact hlookup (hcreate.attempt_ok.bind_silent (.pure _ cache'))
    · refine ⟨remember cache' k i, hmiss.bind (hplays.bind ?_),
        (hkept.trans hkept').trans (keepsBut_remember k i cache')⟩
      simp only [hnone]
      exact hlookup (hcreate.attempt_ok.bind_silent (cacheInsert_plays cache' k i))
    · refine ⟨cache', hmiss.bind (hplays.bind ?_), hkept.trans hkept'⟩
      simp only [hnone]
      exact hlookup (hcreate.attempt_err.bind_silent (.pure _ cache'))
    · refine ⟨cache', hmiss.bind (hplays.bind ?_), hkept.trans hkept'⟩
      simp only [hnone]
      exact hlookup hcreate.attempt_panic.bind_panic

omit [Base64] in
/-- A directory is looked for in the cache once. -/
theorem EnsureAsks.lookedUp_eq {path k pk : Str} {r : Outcome SyncerErrors Unit}
    {calls : List Call} (h : EnsureAsks c path k pk r calls) : lookedUp calls = [k] := by
  rcases h.directoryCalls.look with rfl | ⟨rest, rfl, hrest, -⟩
  · rfl
  · rw [lookedUp_containsKey, hrest]

/-- The walk looks for its directories, from the top down, as far as it comes. -/
theorem WalkAsks.lookedUp_starts {done dirs : List Str} {r : Outcome SyncerErrors Unit}
    {calls : List Call} (h : WalkAsks c done dirs r calls) :
    lookedUp calls <+: walkIds done dirs := by
  induction h with
  | nil => exact List.prefix_rfl
  | cons h _ ih =>
    rw [lookedUp_append, h.lookedUp_eq]
    exact (List.prefix_cons_inj _).mpr ih
  | stop h =>
    rw [h.lookedUp_eq]
    exact (List.prefix_cons_inj _).mpr List.nil_prefix

/-- **The walk**, when the cache has what the script says it has.  What one directory drops
from the cache does not come up again. -/
theorem WalkAsks.plays {done dirs : List Str} (hsolid : ∀ c ∈ done ++ dirs, Solid c)
    {r : Outcome SyncerErrors Unit} {calls : List Call} (h : WalkAsks c done dirs r calls)
    (cache : Cache) (hhits : ∀ k, .containsKey k true ∈ calls → ∃ v, (k, v) ∈ cache) :
    ∃ cache', Plays (ensureAll (standIn c) done dirs) calls r cache cache' := by
  induction h generalizing cache with
  | nil done => exact ⟨cache, .pure _ cache⟩
  | @cons done dirs d r calls calls' h hrest ih =>
    have hsnoc : ∀ c ∈ done ++ [d] ++ dirs, Solid c := by simpa using hsolid
    have hdone : ∀ c ∈ done, Solid c := fun c hc => hsolid c (List.mem_append_left _ hc)
    have hnodup : (walkIds done (d :: dirs)).Nodup := nodup_walkIds hsolid
    have hk : (SyncableFile.mk (dirPrefix done ++ d)).getUniqueId = .ok (keyOf (done ++ [d])) := by
      rw [dirPrefix_append]
      exact getUniqueId_below fun c hc => hsnoc c (List.mem_append_left _ hc)
    rw [← dirPrefix_append] at h
    obtain ⟨cache₁, hfirst, hkept⟩ := h.plays hk (getUniqueId_dirPrefix hdone) cache
      fun hmem => hhits _ (List.mem_append_left _ hmem)
    obtain ⟨cache', hplays⟩ := ih hsnoc cache₁ fun k hmem => by
      obtain ⟨v, hv⟩ := hhits k (List.mem_append_right _ hmem)
      refine hkept k v ?_ hv
      rintro rfl
      exact (List.nodup_cons.mp hnodup).1 (hrest.lookedUp_starts.subset (mem_lookedUp hmem))
    exact ⟨cache', hfirst.bind hplays⟩
  | @stop done dirs d calls h =>
    have hdone : ∀ c ∈ done, Solid c := fun c hc => hsolid c (List.mem_append_left _ hc)
    have hk : (SyncableFile.mk (dirPrefix done ++ d)).getUniqueId = .ok (keyOf (done ++ [d])) := by
      rw [dirPrefix_append]
      refine getUniqueId_below fun c hc => hsolid c ?_
      simp only [List.mem_append, List.mem_cons] at hc ⊢
      tauto
    rw [← dirPrefix_append] at h
    obtain ⟨cache', hplays, -⟩ := h.plays hk (getUniqueId_dirPrefix hdone) cache (hhits _)
    exact ⟨cache', hplays.bind_panic⟩

/-- Without a name, or a parent with a unique id, nothing is asked. -/
theorem placeFile_plays_unnamed {path : Str} (h : ∀ name pk, ¬ PlaceKeys path name pk)
    (c : Drive3Client (List Call)) (cache : Cache) :
    Plays (c.placeFile path) [] .panic cache cache := by
  rw [Drive3Client.placeFile]
  cases hpp : (SyncableFile.mk path).parentPath with
  | error e => exact .abort cache
  | ok pp =>
    rw [unwrapExcept_ok, pure_bind_eq, SyncableFile.localPath]
    cases hname : fileName path with
    | none => exact .abort cache
    | some name =>
      rw [unwrapOption_some, pure_bind_eq, pure_bind_eq]
      have hfails : ∃ e, c.id pp = fail e :=
        id_fails c fun k hub hk _ => h name k ⟨pp, hpp, hname, hk⟩
      obtain ⟨e, he⟩ := hfails
      rw [he]
      exact (Plays.fail e cache).attemptOk_err.bind_silent (.abort cache)

/-- **The file.** -/
theorem PlaceAsks.plays {path : Str} {r : Outcome SyncerErrors (Option Str)} {calls : List Call}
    (h : PlaceAsks c path r calls) (cache : Cache) :
    Plays ((standIn c).placeFile path) calls r cache cache := by
  have hkeys : ∀ name pk, PlaceKeys path name pk → ∃ pp,
      (SyncableFile.mk path).parentPath = .ok pp ∧
        fileName (SyncableFile.mk path).localPath = some name ∧
        (SyncableFile.mk pp).getUniqueId = .ok pk := fun _ _ h => h
  cases h with
  | unnamed h => exact placeFile_plays_unnamed h _ cache
  | unanswered name pk hplace r calls h hr =>
    obtain ⟨pp, hpp, hname, hpk⟩ := hkeys name pk hplace
    rw [Drive3Client.placeFile, hpp, unwrapExcept_ok, pure_bind_eq, hname, unwrapOption_some,
      pure_bind_eq, pure_bind_eq]
    rcases r with o | e | _
    · exact absurd rfl (hr o)
    · exact (h.plays hpk cache).attemptOk_err.bind_silent (.abort cache)
    · exact (h.plays hpk cache).attemptOk_panic.bind_panic
  | noUid name pk hplace parentId calls h e he =>
    obtain ⟨pp, hpp, hname, hpk⟩ := hkeys name pk hplace
    rw [Drive3Client.placeFile, hpp, unwrapExcept_ok, pure_bind_eq, hname, unwrapOption_some,
      pure_bind_eq, pure_bind_eq]
    refine (h.plays hpk cache).attemptOk_ok.bind_silent ?_
    rw [unwrapOption_some, pure_bind_eq, he, ofExcept_error, fail_bind_eq]
    exact .fail e cache
  | file name pk k hplace hk parentId r calls calls' h h' =>
    obtain ⟨pp, hpp, hname, hpk⟩ := hkeys name pk hplace
    obtain ⟨hub, hhub⟩ := h.online
    rw [Drive3Client.placeFile, hpp, unwrapExcept_ok, pure_bind_eq, hname, unwrapOption_some,
      pure_bind_eq, pure_bind_eq]
    refine (h.plays hpk cache).attemptOk_ok.bind ?_
    rw [unwrapOption_some, pure_bind_eq, hk, ofExcept_ok, pure_bind_eq, standIn_machine]
    simp only [standIn_online hhub, ofExcept_ok, pure_bind_eq]
    have hopened : Plays (openFile (scriptMachine c.machine.overflowChecks) path)
        [.openFile path true] (.ok (some [1])) cache cache := openFile_plays _ cache path true
    cases h' with
    | unreadable => exact (openFile_plays _ cache path false).bind_silent (.fail _ cache)
    | vanished =>
      exact hopened.bind ((openFile_plays _ cache path false).bind_silent (.abort cache))
    | failed e =>
      refine hopened.bind (hopened.bind ?_)
      rw [unwrapOption_some, pure_bind_eq]
      exact (hubCreate_plays cache _ _ _).bind_silent (.fail _ cache)
    | made file i hi =>
      refine hopened.bind (hopened.bind ?_)
      rw [unwrapOption_some, pure_bind_eq]
      refine (hubCreate_plays cache _ _ _).bind_silent ?_
      simp only [hi, unwrapOption_some, pure_bind_eq]
      exact .pure _ cache
    | nameless file hi =>
      refine hopened.bind (hopened.bind ?_)
      rw [unwrapOption_some, pure_bind_eq]
      refine (hubCreate_plays cache _ _ _).bind_silent ?_
      simp only [hi, unwrapOption_none, abort_bind_eq]
      exact .abort cache

/-- **An upload**, when the cache has what the script says it has. -/
theorem UploadAsks.plays {path : Str} {r : Outcome SyncerErrors (Option Str)}
    {calls : List Call} (h : UploadAsks c path r calls) (cache : Cache)
    (hhits : ∀ k, .containsKey k true ∈ calls → ∃ v, (k, v) ∈ cache) :
    ∃ cache', Plays ((standIn c).uploadFile path) calls r cache cache' := by
  rw [Drive3Client.uploadFile, createPath_eq]
  -- the walk over the directories above a file
  have hpath : ∀ dirs f, relComponents path = some (dirs ++ [f]) →
      createPathOf (standIn c) (some (dirs ++ [f])) =
        (do ensureAll (standIn c) [] dirs; pure true) := by
    intro dirs f _
    obtain ⟨d, cs, hcons⟩ := List.exists_cons_of_ne_nil (show dirs ++ [f] ≠ [] by simp)
    rw [hcons, createPathOf, ← hcons, List.dropLast_concat]
  cases h with
  | outside hrel =>
    rw [hrel]
    exact ⟨cache, (Plays.abort cache).attemptOk_panic.bind_panic⟩
  | rootChecked hrel hc =>
    rw [hrel, createPathOf, standIn_machine, scriptMachine, if_pos hc]
    exact ⟨cache, (Plays.abort cache).attemptOk_panic.bind_panic⟩
  | root hrel hc hp =>
    rw [hrel, createPathOf, standIn_machine, scriptMachine, if_neg (by simp [hc])]
    exact ⟨cache, (Plays.pure true cache).attemptOk_ok.bind (hp.plays cache)⟩
  | crashed hrel hw =>
    have hsolid := solid_of_relComponents hrel
    obtain ⟨cache', hplays⟩ := hw.plays
      (fun c hc => hsolid c (List.mem_append_left _ hc)) cache hhits
    rw [hrel, hpath _ _ hrel]
    exact ⟨cache', hplays.bind_panic.attemptOk_panic.bind_panic⟩
  | placed hrel hw hp =>
    have hsolid := solid_of_relComponents hrel
    obtain ⟨cache', hplays⟩ := hw.plays
      (fun c hc => hsolid c (List.mem_append_left _ hc)) cache
        fun k hmem => hhits k (List.mem_append_left _ hmem)
    rw [hrel, hpath _ _ hrel]
    exact ⟨cache', (hplays.bind_silent (.pure true cache')).attemptOk_ok.bind (hp.plays cache')⟩

end Client

/-- The entries that a cache needs to have for the hits of a conversation. -/
def hitEntries (calls : List Call) : Cache :=
  calls.filterMap fun call => match call with
    | .containsKey k true => some (k, [])
    | _ => none

/-- **The conversations of an upload are those of the grammar**: with these calls and this
end the upload of a path can go, for some hub, machine, and world, just if the grammar has
them. -/
theorem uploadFile_conversations [Base64] (path : Str) (r : Outcome SyncerErrors (Option Str))
    (calls : List Call) :
    (∃ (σ : Type) (c : Drive3Client σ) (w : World σ),
      (c.uploadFile path w).1 = r ∧ callsSince w (c.uploadFile path w).2 = calls) ↔
      ∃ (σ : Type) (c : Drive3Client σ), UploadAsks c path r calls := by
  constructor
  · rintro ⟨σ, c, w, rfl, rfl⟩
    exact ⟨σ, c, logs_callsSince (uploadFile_asks c path) w⟩
  · rintro ⟨σ, c, h⟩
    obtain ⟨cache', hplays⟩ := h.plays (hitEntries calls) fun k hmem =>
      ⟨[], List.mem_filterMap.mpr ⟨_, hmem, rfl⟩⟩
    have hrun := hplays [] []
    refine ⟨List Call, standIn c, ⟨answers calls ++ [], hitEntries calls, []⟩, ?_, ?_⟩
    · rw [hrun]
    · rw [hrun]
      exact callsSince_of_trace rfl

end PiDriveSync
