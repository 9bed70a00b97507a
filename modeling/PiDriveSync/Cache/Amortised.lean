import Mathlib.Algebra.Order.BigOperators.Group.Finset
import PiDriveSync.Cache.Sound
import PiDriveSync.Session.Order

/-!
# What the cache saves

A directory that the cache does not have costs one search or two, one that it has costs
none, and behind the directories each upload searches once.  After a miss the directory is
in the cache, or the creation of its folder has failed, or the process has ended.  So over a
whole run a directory is missed once, and once more for each time that the cache loses it
and for each failed creation; and the searches of all uploads together are bounded by the
number of *different* directories, not by that of the directories above each file
(`searches_amortised`).
-/

namespace PiDriveSync

open UnixPath Fallible

/-! ## What is counted -/

/-- The unique ids that were not in the cache when they were looked for. -/
def missedKeys (calls : List Call) : List Str :=
  calls.filterMap fun call => match call with
    | .containsKey k false => some k
    | _ => none

@[simp] theorem missedKeys_append (calls calls' : List Call) :
    missedKeys (calls ++ calls') = missedKeys calls ++ missedKeys calls' :=
  List.filterMap_append ..

@[simp] theorem missedKeys_queryCalls (m : Moment) (objs : List Obj) (k : Str) :
    missedKeys (queryCalls m objs k) = [] := by
  unfold queryCalls
  split_ifs <;> rfl

/-- The requests for the folder with a unique id that came back with an error. -/
def failedFolders (k : Str) (calls : List Call) : ℕ :=
  calls.countP fun call => match call with
    | .create req (.error _) => decide (RequestFor k req) && req.mimeType == some folderMimeType
    | _ => false

@[simp] theorem failedFolders_append (k : Str) (calls calls' : List Call) :
    failedFolders k (calls ++ calls') = failedFolders k calls + failedFolders k calls' :=
  List.countP_append ..

/-- The cache has an entry for a unique id: none, or one. -/
def known (k : Str) (w : DriveWorld) : ℕ :=
  if w.cache.any fun e => e.1 == k then 1 else 0

theorem known_le_one (k : Str) (w : DriveWorld) : known k w ≤ 1 := by
  rw [known]
  split_ifs <;> omega

/-- Whether there is an entry for `k` is read off the entries for `k`. -/
theorem known_congr {k : Str} {w w' : DriveWorld}
    (h : ∀ v, (k, v) ∈ w.cache ↔ (k, v) ∈ w'.cache) : known k w = known k w' := by
  have hentry : ∀ w : DriveWorld, (w.cache.any fun e => e.1 == k) = true ↔
      ∃ v, (k, v) ∈ w.cache := by
    intro w
    rw [List.any_eq_true]
    constructor
    · rintro ⟨⟨k', v⟩, hmem, hkey⟩
      obtain rfl : k' = k := beq_iff_eq.mp hkey
      exact ⟨v, hmem⟩
    · rintro ⟨v, hmem⟩
      exact ⟨(k, v), hmem, beq_self_eq_true k⟩
  rw [known, known,
    Bool.eq_iff_iff.mpr ((hentry w).trans ((exists_congr h).trans (hentry w').symm))]

theorem known_eq_zero {k : Str} {w : DriveWorld} (h : ∀ v, (k, v) ∉ w.cache) : known k w = 0 := by
  have hnone : known k w = known k (w.withCache []) :=
    known_congr fun v => iff_of_false (h v) List.not_mem_nil
  rw [hnone]
  rfl

/-- An entry for a key that is put into the cache. -/
theorem known_remembered_self (k v : Str) (w : DriveWorld) : known k (w.remembered k v) = 1 := by
  rw [known, World.remembered_cache, if_pos]
  exact List.any_eq_true.mpr ⟨(k, v), List.mem_cons_self .., beq_self_eq_true k⟩

theorem known_remembered_of_ne {k k' : Str} (hne : k' ≠ k) (v : Str) (w : DriveWorld) :
    known k (w.remembered k' v) = known k w := by
  refine known_congr fun v' => ?_
  rw [World.remembered_cache, mem_remember, Prod.mk.injEq]
  simp [hne.symm]

/-- No entry runs out of time between two looks at the cache. -/
def Retentive (ω : Schedule) : Prop :=
  ∀ t k, (ω t).expired k = false

theorem Retentive.left_eq {ω : Schedule} (hω : Retentive ω) (t : ℕ) (cache : Cache) :
    left (ω t) cache = cache := by
  rw [left, List.filter_eq_self]
  intro e _
  rw [hω t e.1]
  rfl

/-! ## Misses -/

section Misses

variable {ω : Schedule} {w w₁ w' : DriveWorld} {k : Str}

/-- The misses of a unique id on the way from `w` to `w'` are paid for, with an entry of
the cache or with failed creations; when the process ends on the way, with its end. -/
def MissesPaid (k : Str) (w w' : DriveWorld) (returned : Bool) : Prop :=
  (missedKeys w'.trace).count k + known k w + failedFolders k w.trace ≤
    (missedKeys w.trace).count k + (if returned then known k w' else 1) +
      failedFolders k w'.trace

theorem MissesPaid.trans {returned : Bool} (h : MissesPaid k w w₁ true)
    (h' : MissesPaid k w₁ w' returned) : MissesPaid k w w' returned := by
  unfold MissesPaid at *
  simp only [if_true] at h
  omega

/-- Where nothing is missed and the cache keeps the entry, there is nothing to pay. -/
theorem MissesPaid.of_idle {calls : List Call} (htrace : w'.trace = w.trace ++ calls)
    (hcalls : k ∉ missedKeys calls) (hknown : known k w ≤ known k w') (returned : Bool) :
    MissesPaid k w w' returned := by
  have hone := known_le_one k w
  have hcount : (missedKeys calls).count k = 0 := List.count_eq_zero.mpr hcalls
  unfold MissesPaid
  rw [htrace, missedKeys_append, List.count_append, hcount, failedFolders_append]
  cases returned with
  | false => simp only [Bool.false_eq_true, if_false]; omega
  | true => simp only [if_true]; omega

/-- A creation puts the folder into the cache, or fails on record, or ends the process. -/
theorem CreateEnds.known_or_failed {path : Str} {parentId : Option Str}
    {r : Outcome SyncerErrors (Option Str)} (h : CreateEnds ω path k parentId w r w') :
    1 + failedFolders k w.trace ≤
      (if r.returned then known k w' else 1) + failedFolders k w'.trace := by
  have hrequest : ∀ e : HubError,
      failedFolders k [.create (folderRequest path parentId k) (.error e)] = 1 := by
    intro e
    simp [failedFolders, folderRequest, RequestFor]
  cases h with
  | noTempfile =>
    rw [World.asked_trace, failedFolders_append]
    exact Nat.add_le_add_left (Nat.le_add_right _ _) 1
  | made o =>
    simp only [Outcome.returned, if_true, known_remembered_self, World.remembered_trace,
      World.added_trace, World.asked_trace, failedFolders_append]
    omega
  | rejected =>
    rw [World.asked_trace, World.asked_trace, failedFolders_append, failedFolders_append,
      hrequest]
    omega
  | lost =>
    rw [World.added_trace, World.asked_trace, World.asked_trace, failedFolders_append,
      failedFolders_append, hrequest]
    omega

theorem CreateEnds.known_of_ne {path k' : Str} (hne : k' ≠ k) {parentId : Option Str}
    {r : Outcome SyncerErrors (Option Str)} (h : CreateEnds ω path k' parentId w r w') :
    known k w' = known k w := by
  cases h with
  | noTempfile | rejected | lost => rfl
  | made o => rw [known_remembered_of_ne hne]; rfl

theorem MissesPaid.remembered {k' : Str} (hne : k' ≠ k) (v : Str) (w : DriveWorld) :
    MissesPaid k w (w.remembered k' v) true := by
  have htrace : (w.remembered k' v).trace = w.trace ++ [] := (List.append_nil _).symm
  exact .of_idle htrace List.not_mem_nil (known_remembered_of_ne hne v w).ge true

theorem CreateEnds.exists_trace {path k' : Str} {parentId : Option Str}
    {r : Outcome SyncerErrors (Option Str)} (h : CreateEnds ω path k' parentId w r w') :
    ∃ calls, w'.trace = w.trace ++ calls ∧ missedKeys calls = [] := by
  cases h <;> simp [missedKeys]

/-- A look at the cache that finds nothing. -/
theorem missedKeys_looked {k' : Str} (miss : ∀ v, (k', v) ∉ left (ω w.tick) w.cache) :
    missedKeys (w.looked (ω w.tick) k').trace = missedKeys w.trace ++ [k'] := by
  rw [World.looked_trace, any_left_eq_false.mpr miss, missedKeys_append]
  rfl

theorem known_looked (hω : Retentive ω) (t : ℕ) (k' : Str) :
    known k (w.looked (ω t) k') = known k w := by
  rw [known, World.looked_cache, hω.left_eq, known]

/-- **The directory itself**: it is not in the cache when it is missed. -/
theorem EnsureEnds.missesPaid_self (hω : Retentive ω) {path pk : Str}
    {r : Outcome SyncerErrors Unit} (h : EnsureEnds ω path k pk w r w') :
    MissesPaid k w w' r.returned := by
  have hzero : (∀ v, (k, v) ∉ left (ω w.tick) w.cache) → known k w = 0 := by
    rw [hω.left_eq]
    exact known_eq_zero
  cases h with
  | hit v hv =>
    have hhit : ((left (ω w.tick) w.cache).any fun e => e.1 == k) = true :=
      List.any_eq_true.mpr ⟨(k, v), hv, beq_self_eq_true k⟩
    refine .of_idle World.looked_trace ?_ (known_looked hω w.tick k).ge _
    rw [hhit]
    exact List.not_mem_nil
  | found v miss =>
    unfold MissesPaid
    rw [known_remembered_self, hzero miss, World.remembered_trace, World.sought_trace,
      missedKeys_append, missedKeys_queryCalls, List.append_nil, missedKeys_looked miss,
      failedFolders_append, World.looked_trace, failedFolders_append, List.count_append,
      List.count_singleton_self]
    simp only [Outcome.returned, if_true]
    omega
  | orphan miss =>
    unfold MissesPaid
    rw [hzero miss, World.sought_trace, missedKeys_append, missedKeys_queryCalls,
      List.append_nil, World.sought_trace, missedKeys_append, missedKeys_queryCalls,
      List.append_nil, missedKeys_looked miss, failedFolders_append, failedFolders_append,
      World.looked_trace, failedFolders_append, List.count_append, List.count_singleton_self]
    simp only [Outcome.returned, Bool.false_eq_true, if_false]
    omega
  | create g r _ miss _ _ hcreate =>
    obtain ⟨calls, htrace, hcalls⟩ := hcreate.exists_trace
    have hpaid := hcreate.known_or_failed
    have hreturned : (if r.returned then (.ok () : Outcome SyncerErrors Unit)
        else .panic).returned = r.returned := by cases r <;> rfl
    unfold MissesPaid
    rw [hreturned, hzero miss]
    rw [World.sought_trace, failedFolders_append, World.sought_trace, failedFolders_append,
      World.looked_trace, failedFolders_append] at hpaid
    have hcount : (missedKeys w'.trace).count k = (missedKeys w.trace).count k + 1 := by
      rw [htrace, missedKeys_append, hcalls, World.sought_trace, missedKeys_append,
        missedKeys_queryCalls, World.sought_trace, missedKeys_append, missedKeys_queryCalls,
        missedKeys_looked miss, List.append_nil, List.append_nil, List.append_nil,
        List.count_append, List.count_singleton_self]
    omega

/-- **Another directory**: nothing of this one is missed or forgotten. -/
theorem EnsureEnds.missesPaid_other (hω : Retentive ω) {path k' pk : Str} (hk : k' ≠ k)
    {r : Outcome SyncerErrors Unit} (h : EnsureEnds ω path k' pk w r w') :
    MissesPaid k w w' r.returned := by
  have hmissed : ∀ hit, k ∉ missedKeys [.containsKey k' hit] := by
    intro hit
    cases hit
    · exact fun hmem => hk (List.mem_singleton.mp hmem).symm
    · exact List.not_mem_nil
  have hlooked : MissesPaid k w (w.looked (ω w.tick) k') true :=
    .of_idle World.looked_trace (hmissed _) (known_looked hω w.tick k').ge _
  have hsought : ∀ (w : DriveWorld) (k' : Str) (returned : Bool),
      MissesPaid k w (w.sought ω k') returned := fun w k' =>
    .of_idle World.sought_trace (by rw [missedKeys_queryCalls]; exact List.not_mem_nil) le_rfl
  cases h with
  | hit => exact hlooked
  | found v miss =>
    exact (hlooked.trans (hsought _ k' true)).trans (.remembered hk v _)
  | orphan miss => exact (hlooked.trans (hsought _ k' true)).trans (hsought _ pk _)
  | create g r _ miss _ _ hcreate =>
    obtain ⟨calls, htrace, hcalls⟩ := hcreate.exists_trace
    refine ((hlooked.trans (hsought _ k' true)).trans (hsought _ pk true)).trans
      (.of_idle htrace ?_ ?_ _)
    · rw [hcalls]
      exact List.not_mem_nil
    · rw [hcreate.known_of_ne hk]

/-- **One directory.**  A miss leaves an entry in the cache, or a failed creation, or ends
the process. -/
theorem EnsureEnds.missesPaid (hω : Retentive ω) {path k' pk : Str}
    {r : Outcome SyncerErrors Unit} (h : EnsureEnds ω path k' pk w r w') :
    MissesPaid k w w' r.returned := by
  by_cases hk : k' = k
  · subst hk
    exact h.missesPaid_self hω
  · exact h.missesPaid_other hω hk

variable [Base64]

/-- **The walk.** -/
theorem WalkEnds.missesPaid (hω : Retentive ω) {done dirs : List Str}
    {r : Outcome SyncerErrors Unit} (h : WalkEnds ω done dirs w r w') :
    MissesPaid k w w' r.returned := by
  induction h with
  | nil => exact .of_idle (List.append_nil _).symm List.not_mem_nil le_rfl _
  | cons h _ ih => exact (h.missesPaid hω).trans ih
  | stop h => exact h.missesPaid hω

/-- The file is not looked for in the cache. -/
theorem PlaceEnds.exists_trace {path : Str} {r : Outcome SyncerErrors (Option Str)}
    (h : PlaceEnds ω path w r w') : ∃ calls, w'.trace = w.trace ++ calls ∧
      missedKeys calls = [] := by
  have hopened : ∀ (k : Str) (calls : List Call), missedKeys calls = [] →
      missedKeys (queryCalls (ω w.tick) w.objs k ++ calls) = [] := by
    intro k calls hcalls
    rw [missedKeys_append, missedKeys_queryCalls, hcalls]
    rfl
  cases h with
  | unnamed => exact ⟨[], (List.append_nil _).symm, rfl⟩
  | unanswered | noUid => exact ⟨_, rfl, missedKeys_queryCalls ..⟩
  | unreadable => exact ⟨_, List.append_assoc .., hopened _ _ rfl⟩
  | vanished name pk =>
    exact ⟨_, by simp, hopened pk [.openFile path true, .openFile path false] rfl⟩
  | made name pk k content o =>
    exact ⟨_, by simp [World.opened], hopened pk [.openFile path true, .openFile path true,
      .create (fileRequest name (pick (ω w.tick) w.objs pk) k) (.ok o.toFile)] rfl⟩
  | rejected name pk k | lost name pk k =>
    exact ⟨_, by simp [World.opened], hopened pk [.openFile path true, .openFile path true,
      .create (fileRequest name (pick (ω w.tick) w.objs pk) k)
        (.error (ω (w.tick + 3)).error)] rfl⟩

theorem PlaceEnds.missesPaid {path : Str} {r : Outcome SyncerErrors (Option Str)}
    (h : PlaceEnds ω path w r w') (returned : Bool) : MissesPaid k w w' returned := by
  obtain ⟨calls, htrace, hcalls⟩ := h.exists_trace
  refine .of_idle htrace ?_ ?_ _
  · rw [hcalls]
    exact List.not_mem_nil
  · rw [known, known, h.cache_eq]

/-- **An upload.** -/
theorem UploadEnds.missesPaid (hω : Retentive ω) {checks : Bool} {path : Str}
    {r : Outcome SyncerErrors (Option Str)} (h : UploadEnds ω checks path w r w') :
    MissesPaid k w w' r.returned := by
  cases h with
  | outside | rootChecked => exact .of_idle (List.append_nil _).symm List.not_mem_nil le_rfl _
  | root _ _ hp => exact hp.missesPaid _
  | crashed _ hw => exact hw.missesPaid hω
  | placed _ hw hp => exact (hw.missesPaid hω).trans (hp.missesPaid _)

end Misses

/-! ## Searches -/

section Searches

variable {ω : Schedule} {w w' : DriveWorld}

theorem length_searches_queryCalls (m : Moment) (objs : List Obj) (k : Str) :
    (searches (queryCalls m objs k)).length = 1 := by
  unfold queryCalls
  split_ifs <;> rfl

/-- On the way from `w` to `w'`: what is missed are some of `ids`, in order, and each miss
costs two searches at most; `n` more are made without one. -/
def Searched (w w' : DriveWorld) (ids : List Str) (n : ℕ) : Prop :=
  ∃ calls, w'.trace = w.trace ++ calls ∧ (missedKeys calls).Sublist ids ∧
    (searches calls).length ≤ 2 * (missedKeys calls).length + n

theorem Searched.refl (w : DriveWorld) (ids : List Str) (n : ℕ) : Searched w w ids n :=
  ⟨[], (List.append_nil _).symm, List.nil_sublist _, Nat.zero_le _⟩

theorem Searched.trans {w₁ : DriveWorld} {ids ids' : List Str} {n n' : ℕ}
    (h : Searched w w₁ ids n) (h' : Searched w₁ w' ids' n') :
    Searched w w' (ids ++ ids') (n + n') := by
  obtain ⟨calls, htrace, hmissed, hsearches⟩ := h
  obtain ⟨calls', htrace', hmissed', hsearches'⟩ := h'
  refine ⟨calls ++ calls', by rw [htrace', htrace, List.append_assoc], ?_, ?_⟩
  · rw [missedKeys_append]
    exact hmissed.append hmissed'
  · rw [searches_append, missedKeys_append, List.length_append, List.length_append]
    omega

theorem Searched.mono {ids ids' : List Str} {n n' : ℕ} (h : Searched w w' ids n)
    (hids : ids.Sublist ids') (hn : n ≤ n') : Searched w w' ids' n' := by
  obtain ⟨calls, htrace, hmissed, hsearches⟩ := h
  exact ⟨calls, htrace, hmissed.trans hids, by omega⟩

/-- Calls among which there is neither a look at the cache nor a search. -/
theorem Searched.of_trace {calls : List Call} (htrace : w'.trace = w.trace ++ calls)
    (hmissed : missedKeys calls = []) {n : ℕ} (hsearches : (searches calls).length ≤ n) :
    Searched w w' [] n :=
  ⟨calls, htrace, by rw [hmissed], by rw [hmissed]; simpa using hsearches⟩

theorem Searched.sought (w : DriveWorld) (ω : Schedule) (k : Str) :
    Searched w (w.sought ω k) [] 1 :=
  .of_trace World.sought_trace (missedKeys_queryCalls ..) (length_searches_queryCalls ..).le

theorem CreateEnds.searched {path k : Str} {parentId : Option Str}
    {r : Outcome SyncerErrors (Option Str)} (h : CreateEnds ω path k parentId w r w') :
    Searched w w' [] 0 := by
  cases h with
  | noTempfile => exact .of_trace (World.asked_trace ..) rfl le_rfl
  | rejected | made | lost => exact .of_trace (List.append_assoc ..) rfl le_rfl

/-- **One directory**: a miss costs two searches at most. -/
theorem EnsureEnds.searched {path k pk : Str} {r : Outcome SyncerErrors Unit}
    (h : EnsureEnds ω path k pk w r w') : Searched w w' [k] 0 := by
  -- the searches after a miss
  have hmiss : ∀ w', (∀ v, (k, v) ∉ left (ω w.tick) w.cache) →
      Searched (w.looked (ω w.tick) k) w' [] 2 → Searched w w' [k] 0 := by
    rintro w' miss ⟨calls, htrace, hmissed, hsearches⟩
    have hnone := List.sublist_nil.mp hmissed
    rw [hnone] at hsearches
    refine ⟨.containsKey k false :: calls, ?_, ?_, ?_⟩
    · rw [htrace, World.looked_trace, any_left_eq_false.mpr miss, List.append_assoc]
      rfl
    · rw [← List.singleton_append, missedKeys_append, hnone]
      exact List.Sublist.refl _
    · rw [searches_containsKey, ← List.singleton_append, missedKeys_append, hnone]
      simpa [missedKeys] using hsearches
  cases h with
  | hit v hv =>
    have hhit : ((left (ω w.tick) w.cache).any fun e => e.1 == k) = true :=
      List.any_eq_true.mpr ⟨(k, v), hv, beq_self_eq_true k⟩
    refine Searched.mono (.of_trace World.looked_trace ?_ ?_) (List.nil_sublist _) le_rfl
    · rw [hhit]
      rfl
    · rfl
  | found v miss =>
    exact hmiss _ miss ((Searched.sought _ ω k).mono (List.Sublist.refl _) (by omega))
  | orphan miss => exact hmiss _ miss ((Searched.sought _ ω k).trans (Searched.sought _ ω pk))
  | create g r _ miss _ _ hcreate =>
    exact hmiss _ miss (((Searched.sought _ ω k).trans (Searched.sought _ ω pk)).trans
      hcreate.searched)

variable [Base64]

/-- **The walk.** -/
theorem WalkEnds.searched {done dirs : List Str} {r : Outcome SyncerErrors Unit}
    (h : WalkEnds ω done dirs w r w') : Searched w w' (walkIds done dirs) 0 := by
  induction h with
  | nil => exact .refl _ _ _
  | cons h _ ih => exact h.searched.trans ih
  | stop h => exact h.searched.mono (List.singleton_sublist.mpr (List.mem_cons_self ..)) le_rfl

/-- **The file** costs one search. -/
theorem PlaceEnds.searched {path : Str} {r : Outcome SyncerErrors (Option Str)}
    (h : PlaceEnds ω path w r w') : Searched w w' [] 1 := by
  have hafter : ∀ pk (calls : List Call), w'.trace = (w.sought ω pk).trace ++ calls →
      missedKeys calls = [] → searches calls = [] → Searched w w' [] 1 := by
    intro pk calls htrace hmissed hsearches
    exact (Searched.sought w ω pk).trans (.of_trace htrace hmissed (by rw [hsearches]))
  cases h with
  | unnamed => exact .refl _ _ _
  | unanswered name pk | noUid name pk => exact hafter pk [] (List.append_nil _).symm rfl rfl
  | unreadable name pk => exact hafter pk _ rfl rfl rfl
  | vanished name pk => exact hafter pk _ (List.append_assoc ..) rfl rfl
  | made name pk | rejected name pk | lost name pk =>
    refine hafter pk _ ((List.append_assoc ..).trans (List.append_assoc ..)) rfl rfl

/-- **An upload.** -/
theorem UploadEnds.searched {checks : Bool} {path : Str}
    {r : Outcome SyncerErrors (Option Str)} (h : UploadEnds ω checks path w r w') :
    Searched w w' (walkIds [] (directoriesOf path)) 1 := by
  cases h with
  | outside | rootChecked => exact .refl _ _ _
  | root _ _ hp => exact hp.searched.mono (List.nil_sublist _) le_rfl
  | crashed hrel hw =>
    rw [directoriesOf_eq hrel]
    exact hw.searched.mono (List.Sublist.refl _) (Nat.zero_le _)
  | placed hrel hw hp =>
    rw [directoriesOf_eq hrel]
    exact (hw.searched.trans hp.searched).mono (by rw [List.append_nil]) le_rfl

/-- **A start.** -/
theorem StartEnds.searched {r : Outcome SyncerErrors Unit} (h : StartEnds ω w r w') :
    Searched w w' [] 1 := by
  cases h with
  | known | unanswered => exact .sought w ω _
  | create _ _ _ _ h => exact (Searched.sought w ω _).trans h.searched

end Searches

/-! ## Runs -/

namespace Action

/-- The cache loses its entry for a unique id. -/
def forgets (k : Str) : Action → Bool
  | .upload _ _ => false
  | .restart => true
  | .expire gone => gone k

def isRestart : Action → Bool
  | .restart => true
  | _ => false

end Action

section Runs

variable [Base64] {ω : Schedule} {filters : List Str} {checks : Bool} {objs : List Obj}

/-- The unique ids of the directories above the uploaded files. -/
def directoryIds (actions : List Action) : List Str :=
  actions.flatMap fun a => match a with
    | .upload _ path => walkIds [] (directoriesOf path)
    | _ => []

/-- What the searches of a run have been spent on. -/
structure Spent (actions : List Action) (s : Daemon) : Prop where
  misses : ∀ k, (missedKeys s.world.trace).count k ≤ actions.countP (Action.forgets k) +
    (if s.alive then known k s.world else 1) + failedFolders k s.world.trace
  keys : ∀ k ∈ missedKeys s.world.trace, k ∈ directoryIds actions
  asked : (searches s.world.trace).length ≤ 1 + actions.countP Action.isRestart +
    s.log.length + 2 * (missedKeys s.world.trace).length

/-- **A start**: the cache is empty, and nothing is looked for in it. -/
theorem StartEnds.spent {actions : List Action} {s : Daemon} {w' : DriveWorld}
    {r : Outcome SyncerErrors Unit} (h : StartEnds ω (s.world.withCache []) r w')
    (hmisses : ∀ k, (missedKeys s.world.trace).count k ≤
      actions.countP (Action.forgets k) + failedFolders k s.world.trace)
    (hkeys : ∀ k ∈ missedKeys s.world.trace, k ∈ directoryIds actions)
    (hsearches : (searches s.world.trace).length + 1 ≤
      1 + actions.countP Action.isRestart + s.log.length +
        2 * (missedKeys s.world.trace).length) : Spent actions ⟨w', r.returned, s.log⟩ := by
  obtain ⟨calls, htrace, hnone, hone⟩ := h.searched
  rw [World.withCache_trace] at htrace
  have hmissed : missedKeys w'.trace = missedKeys s.world.trace := by
    rw [htrace, missedKeys_append, List.sublist_nil.mp hnone, List.append_nil]
  rw [List.sublist_nil.mp hnone] at hone
  refine ⟨fun k => ?_, fun k hk => hkeys k (hmissed ▸ hk), ?_⟩
  · have hk := hmisses k
    have hfailed : failedFolders k w'.trace =
        failedFolders k s.world.trace + failedFolders k calls := by
      rw [htrace, failedFolders_append]
    simp only [hmissed, hfailed]
    omega
  · have hlen : (searches w'.trace).length =
        (searches s.world.trace).length + (searches calls).length := by
      rw [htrace, searches_append, List.length_append]
    simp only [List.length_nil] at hone
    simp only [hmissed, hlen]
    omega

/-- Earlier misses are of directories of the run. -/
theorem Spent.keys_snoc {actions : List Action} {s : Daemon} (hs : Spent actions s) (a : Action) :
    ∀ k ∈ missedKeys s.world.trace, k ∈ directoryIds (actions ++ [a]) := by
  intro k hk
  rw [directoryIds, List.flatMap_append]
  exact List.mem_append_left _ (hs.keys k hk)

/-- **The cache loses entries**, and pays for them. -/
theorem Spent.expire {actions : List Action} {s : Daemon} (hs : Spent actions s)
    (gone : Str → Bool) : Spent (actions ++ [.expire gone])
      { s with world := s.world.withCache (s.world.cache.filter fun e => !gone e.1) } := by
  refine ⟨fun k => ?_, hs.keys_snoc _, ?_⟩
  · have hk := hs.misses k
    have hone := known_le_one k s.world
    rw [List.countP_append, List.countP_singleton,
      show Action.forgets k (.expire gone) = gone k from rfl]
    simp only [World.withCache_trace]
    by_cases hgone : gone k = true
    · rw [if_pos hgone]
      cases halive : s.alive <;>
        simp only [halive, if_true, if_false, Bool.false_eq_true] at hk ⊢ <;> omega
    · -- the entry is kept
      have hkept : known k (s.world.withCache (s.world.cache.filter fun e => !gone e.1)) =
          known k s.world :=
        known_congr fun v => by simp [hgone]
      rw [if_neg hgone, hkept]
      exact hk
  · rw [List.countP_append]
    exact hs.asked

/-- **An upload**: each miss is paid for, and each search belongs to a miss, or is the one
for the directory of the file. -/
theorem Spent.upload (hω : Retentive ω) {actions : List Action} {s : Daemon}
    (hs : Spent actions s) (halive : s.alive = true) {disk : Disk} {path : Str}
    {r : Outcome SyncerErrors (Option Str)} {w' : DriveWorld}
    (h : UploadEnds ω checks path (s.world.withDisk disk) r w') :
    Spent (actions ++ [.upload disk path]) ⟨w', r.returned, s.log ++ [(path, r)]⟩ := by
  obtain ⟨calls, htrace, hsub, hcost⟩ := h.searched
  rw [World.withDisk_trace] at htrace
  refine ⟨fun k => ?_, ?_, ?_⟩
  · have hk := hs.misses k
    have hpaid := h.missesPaid hω (k := k)
    unfold MissesPaid at hpaid
    rw [World.withDisk_trace] at hpaid
    have hsame : known k (s.world.withDisk disk) = known k s.world := rfl
    rw [hsame] at hpaid
    simp only [List.countP_append, List.countP_singleton, Action.forgets, halive, if_true,
      Bool.false_eq_true, if_false] at hk ⊢
    omega
  · intro k hk
    simp only [htrace, missedKeys_append] at hk
    rcases List.mem_append.mp hk with hk | hk
    · exact hs.keys_snoc _ k hk
    · rw [directoryIds, List.flatMap_append]
      refine List.mem_append_right _ ?_
      simpa using hsub.subset hk
  · have hasked := hs.asked
    simp only [htrace, searches_append, missedKeys_append, List.length_append,
      List.countP_append, List.countP_singleton, Action.isRestart, List.length_singleton,
      Bool.false_eq_true, if_false]
    omega

/-- **A step.** -/
theorem Spent.step (hω : Retentive ω) {actions : List Action} {s s' : Daemon} {a : Action}
    (hs : Spent actions s) (h : StepEnds ω checks s a s') : Spent (actions ++ [a]) s' := by
  cases h with
  | ignored disk path halive =>
    refine ⟨fun k => ?_, hs.keys_snoc _, ?_⟩
    · rw [List.countP_append]
      exact hs.misses k
    · rw [List.countP_append]
      exact hs.asked
  | expire gone => exact hs.expire gone
  | restart h =>
    refine h.spent (fun k => ?_) (hs.keys_snoc _) ?_
    · have hk := hs.misses k
      have hone := known_le_one k s.world
      rw [List.countP_append, List.countP_singleton, Action.forgets, if_pos rfl]
      cases halive : s.alive <;>
        simp only [halive, if_true, if_false, Bool.false_eq_true] at hk <;> omega
    · have hasked := hs.asked
      rw [List.countP_append, List.countP_singleton, Action.isRestart, if_pos rfl]
      omega
  | upload disk path halive h => exact hs.upload hω halive h

end Runs

end PiDriveSync
