import PiDriveSync.Session.Causes

/-!
# In what order an upload asks, and how much

An upload takes the directories above its file one by one, from the top down, and then the
file.  A directory costs one look at the cache; if it is not there, one search or two, and
its folder is asked for after the second one only.  The file costs one search, for its
directory, and is opened twice before it is asked for.

* `DirectoryCalls` and `FileCalls` say what may be asked for one directory and for the file.
* `uploadFile_in_turn` splits the calls of an upload into these parts, whatever the hub and
  the machine answer.  So an upload below `n` directories searches at most `2 * n + 1` times
  and makes at most `n + 1` requests; each hit of the cache saves two searches and a folder.
-/

namespace PiDriveSync

open UnixPath Fallible

/-! ## What is counted -/

/-- The keys that were looked for in the cache. -/
def lookedUp (calls : List Call) : List Str :=
  calls.filterMap fun call => match call with
    | .containsKey k _ => some k
    | _ => none

@[simp] theorem lookedUp_append (calls calls' : List Call) :
    lookedUp (calls ++ calls') = lookedUp calls ++ lookedUp calls' :=
  List.filterMap_append ..

@[simp] theorem lookedUp_containsKey (k : Str) (hit : Bool) (calls : List Call) :
    lookedUp (.containsKey k hit :: calls) = k :: lookedUp calls := rfl

theorem mem_lookedUp {k : Str} {hit : Bool} {calls : List Call}
    (h : .containsKey k hit ∈ calls) : k ∈ lookedUp calls :=
  List.mem_filterMap.mpr ⟨_, h, rfl⟩

/-- The looks at the cache that were hits. -/
def cacheHits (calls : List Call) : ℕ :=
  calls.countP fun call => match call with
    | .containsKey _ hit => hit
    | _ => false

@[simp] theorem cacheHits_append (calls calls' : List Call) :
    cacheHits (calls ++ calls') = cacheHits calls + cacheHits calls' :=
  List.countP_append ..

/-- Without a look there is no hit. -/
theorem cacheHits_eq_zero {calls : List Call} (h : lookedUp calls = []) : cacheHits calls = 0 := by
  refine List.countP_eq_zero.mpr fun call hcall hhit => ?_
  cases call with
  | containsKey k hit =>
    have hmem := mem_lookedUp hcall
    rw [h] at hmem
    exact List.not_mem_nil hmem
  | list | tempfile | create | openFile | moreThanOne => exact absurd hhit (by simp)

/-- The directories of a walk over `dirs` below `done`, from the top down. -/
def walkDirs (done : List Str) : List Str → List (List Str)
  | [] => []
  | d :: dirs => (done ++ [d]) :: walkDirs (done ++ [d]) dirs

theorem length_walkDirs (done dirs : List Str) : (walkDirs done dirs).length = dirs.length := by
  induction dirs generalizing done with
  | nil => rfl
  | cons d dirs ih => rw [walkDirs, List.length_cons, ih, List.length_cons]

/-- The unique ids of the directories of a walk, from the top down. -/
def walkIds [Base64] (done : List Str) : List Str → List Str
  | [] => []
  | d :: dirs => keyOf (done ++ [d]) :: walkIds (done ++ [d]) dirs

theorem walkIds_eq [Base64] (done dirs : List Str) :
    walkIds done dirs = (walkDirs done dirs).map keyOf := by
  induction dirs generalizing done with
  | nil => rfl
  | cons d dirs ih => rw [walkIds, walkDirs, List.map_cons, ih]

theorem mem_walkIds [Base64] {done dirs : List Str} {k : Str} (h : k ∈ walkIds done dirs) :
    ∃ l, l ≠ [] ∧ l <+: dirs ∧ k = keyOf (done ++ l) := by
  induction dirs generalizing done with
  | nil => exact absurd h List.not_mem_nil
  | cons d dirs ih =>
    rcases List.mem_cons.mp h with rfl | h
    · exact ⟨[d], by simp, by simp, rfl⟩
    · obtain ⟨l, -, hl, rfl⟩ := ih h
      exact ⟨d :: l, by simp, List.cons_prefix_cons.mpr ⟨rfl, hl⟩, by simp⟩

/-- The directories of a walk have ids of their own. -/
theorem nodup_walkIds [Base64] {done dirs : List Str} (h : ∀ c ∈ done ++ dirs, Solid c) :
    (walkIds done dirs).Nodup := by
  induction dirs generalizing done with
  | nil => exact List.nodup_nil
  | cons d dirs ih =>
    have hnext : ∀ c ∈ done ++ [d] ++ dirs, Solid c := by
      intro c hc
      exact h c (by simpa using hc)
    refine List.nodup_cons.mpr ⟨fun hmem => ?_, ih hnext⟩
    obtain ⟨l, hne, hl, hkey⟩ := mem_walkIds hmem
    have hsub : ∀ c ∈ done ++ [d] ++ l, Solid c := by
      intro c hc
      rcases List.mem_append.mp hc with hc | hc
      · exact hnext c (List.mem_append_left _ hc)
      · exact hnext c (List.mem_append_right _ (hl.subset hc))
    rw [keyOf_inj (fun c hc => hsub c (List.mem_append_left _ hc)) hsub] at hkey
    exact hne (List.self_eq_append_right.mp hkey)

/-- How much is asked below `n` directories: there are `extra` more searches and requests,
and for each directory without a hit two searches and a request. -/
structure Bounded (n extra : ℕ) (calls : List Call) : Prop where
  searches : (searches calls).length + 2 * cacheHits calls ≤ 2 * n + extra
  requests : (requests calls).length + cacheHits calls ≤ n + extra

theorem Bounded.append {n n' extra extra' : ℕ} {calls calls' : List Call}
    (h : Bounded n extra calls) (h' : Bounded n' extra' calls') :
    Bounded (n + n') (extra + extra') (calls ++ calls') where
  searches := by
    have hs := h.searches
    have hs' := h'.searches
    rw [searches_append, List.length_append, cacheHits_append]
    omega
  requests := by
    have hr := h.requests
    have hr' := h'.requests
    rw [requests_append, List.length_append, cacheHits_append]
    omega

/-! ## The parts -/

section Parts

variable {σ : Type} (c : Drive3Client σ)

/-- What is asked for the directory `path`, with the unique id `k`, below one with the
unique id `pk`. -/
structure DirectoryCalls (path k pk : Str) (calls : List Call) : Prop where
  /-- The cache is looked at once, to begin with.  A hit is the end of it; after a miss the
  drive is searched, unless there is no hub. -/
  look : calls = [.containsKey k true] ∨ ∃ rest, calls = .containsKey k false :: rest ∧
    lookedUp rest = [] ∧ ∀ hub, c.hub = .ok hub → searches rest ≠ []
  /-- The drive is searched for the directory, and then, if it was not found, for its
  parent. -/
  searched : searches calls = [] ∨
    (∃ reply, searches calls = [(Drive3Client.idQuery k, reply)]) ∨
    ∃ reply reply', lastFile reply = none ∧ searches calls =
      [(Drive3Client.idQuery k, reply), (Drive3Client.idQuery pk, reply')]
  /-- There is one request at most, the last call: for the folder of the directory, which
  was not found, below the parent, which was. -/
  request : requests calls = [] ∨ ∃ before g reply reply' answer,
    calls = before ++ [.create (folderRequest path (some g) k) answer] ∧
    requests before = [] ∧ lastFile reply = none ∧ foundId reply' = some g ∧
    searches before = [(Drive3Client.idQuery k, reply), (Drive3Client.idQuery pk, reply')]
  /-- No file is opened. -/
  unopened : ∀ file opened, .openFile file opened ∉ calls

/-- What is asked for the file itself. -/
structure FileCalls [Base64] (path : Str) (calls : List Call) : Prop where
  /-- The directory of the file is searched first, and nothing else is. -/
  searched : ∀ hub name pk, c.hub = .ok hub → PlaceKeys path name pk →
    ∃ reply rest, calls = .list (Drive3Client.idQuery pk) reply :: rest ∧ searches rest = []
  /-- Without a hub, or a name, or a parent with a unique id, nothing is asked. -/
  silent : (∀ hub name pk, c.hub = .ok hub → ¬ PlaceKeys path name pk) → calls = []
  /-- There is one request at most, the last call: for the file, which has just been opened
  twice, below what the search came back with. -/
  request : requests calls = [] ∨ ∃ before name pk k files answer, PlaceKeys path name pk ∧
    (SyncableFile.mk path).getUniqueId = .ok k ∧ requests before = [] ∧
    searches before = [(Drive3Client.idQuery pk, .ok files)] ∧
    calls = before ++ [.openFile path true, .openFile path true,
      .create (fileRequest name (foundId (.ok files)) k) answer]
  /-- The cache is left alone. -/
  unlooked : lookedUp calls = []

variable {c}

/-- **A directory** costs two searches and a request, or a hit. -/
theorem DirectoryCalls.bounded {path k pk : Str} {calls : List Call}
    (h : DirectoryCalls c path k pk calls) : Bounded 1 0 calls := by
  rcases h.look with rfl | ⟨rest, hcalls, hrest, -⟩
  · exact ⟨by simp [cacheHits], by simp [cacheHits]⟩
  · have hhits : cacheHits calls = 0 := by
      have hmiss : cacheHits (.containsKey k false :: rest) = cacheHits rest :=
        List.countP_cons_of_neg (by simp)
      rw [hcalls, hmiss, cacheHits_eq_zero hrest]
    refine ⟨?_, ?_⟩
    · rcases h.searched with hs | ⟨reply, hs⟩ | ⟨reply, reply', -, hs⟩ <;> simp [hs, hhits]
    · rcases h.request with hr | ⟨before, g, reply, reply', answer, hcalls', hbefore, -⟩
      · simp [hr, hhits]
      · rw [hhits, hcalls', requests_append, hbefore]
        simp

/-- **The file** costs one search and one request. -/
theorem FileCalls.bounded [Base64] {path : Str} {calls : List Call} (h : FileCalls c path calls) :
    Bounded 0 1 calls := by
  have hhits := cacheHits_eq_zero h.unlooked
  refine ⟨?_, ?_⟩
  · by_cases hasked : ∃ hub name pk, c.hub = .ok hub ∧ PlaceKeys path name pk
    · obtain ⟨hub, name, pk, hhub, hkeys⟩ := hasked
      obtain ⟨reply, rest, hcalls, hrest⟩ := h.searched hub name pk hhub hkeys
      rw [hhits, hcalls, searches_list, hrest]
      simp
    · push Not at hasked
      rw [h.silent hasked]
      simp [cacheHits]
  · rcases h.request with hr | ⟨before, name, pk, k, files, answer, -, -, hbefore, -, hcalls⟩
    · simp [hr, hhits]
    · rw [hhits, hcalls, requests_append, hbefore]
      simp

/-! ## The conversations in parts -/

/-- Neither is the cache looked at nor a file opened. -/
structure Apart (calls : List Call) : Prop where
  unlooked : lookedUp calls = []
  unopened : ∀ file opened, .openFile file opened ∉ calls

theorem Apart.append {calls calls' : List Call} (h : Apart calls) (h' : Apart calls') :
    Apart (calls ++ calls') where
  unlooked := by rw [lookedUp_append, h.unlooked, h'.unlooked, List.append_nil]
  unopened := fun file opened hmem =>
    (List.mem_append.mp hmem).elim (h.unopened file opened) (h'.unopened file opened)

theorem IdAsks.apart {k : Str} {r : Outcome SyncerErrors (Option Str)} {calls : List Call}
    (h : IdAsks c k r calls) : Apart calls := by
  cases h with
  | offline | failed | nothing | nameless => exact ⟨rfl, by simp⟩
  | found hub hhub files =>
    have hwarning : Apart (warning files k) := by
      rw [warning]
      split_ifs <;> exact ⟨rfl, by simp⟩
    have hlist : Apart [.list (Drive3Client.idQuery k) (.ok files)] := ⟨rfl, by simp⟩
    exact hlist.append hwarning

/-- A lookup requests nothing. -/
theorem IdAsks.requests_eq {k : Str} {r : Outcome SyncerErrors (Option Str)} {calls : List Call}
    (h : IdAsks c k r calls) : requests calls = [] := by
  cases h with
  | offline | failed | nothing | nameless => rfl
  | found hub hhub files =>
    have hwarning : requests (warning files k) = [] := by
      rw [warning]
      split_ifs <;> rfl
    exact hwarning

/-- Without a hub a lookup asks nothing. -/
theorem IdAsks.of_offline {k : Str} {r : Outcome SyncerErrors (Option Str)} {calls : List Call}
    (h : IdAsks c k r calls) (hoff : ∀ hub, c.hub ≠ .ok hub) : calls = [] := by
  cases h with
  | offline => rfl
  | failed hub hhub | nothing hub hhub | found hub hhub | nameless hub hhub =>
    exact absurd hhub (hoff hub)

/-- The creation of a folder asks for the folder at the end, if it asks at all. -/
theorem CreateAsks.calls_eq {path k : Str} {parentId : Option Str}
    {r : Outcome SyncerErrors (Option Str)} {calls : List Call}
    (h : CreateAsks c path k parentId r calls) : (∃ made, calls = [.tempfile made]) ∨
      ∃ answer, calls = [.tempfile true, .create (folderRequest path parentId k) answer] := by
  cases h with
  | offline made => exact Or.inl ⟨made, rfl⟩
  | noTempfile => exact Or.inl ⟨false, rfl⟩
  | failed e => exact Or.inr ⟨.error e, rfl⟩
  | made file | nameless file => exact Or.inr ⟨.ok file, rfl⟩

/-- The file is opened, opened again, and asked for. -/
theorem FileAsks.calls_eq {path name k : Str} {parentId : Option Str}
    {r : Outcome SyncerErrors (Option Str)} {calls : List Call}
    (h : FileAsks path name k parentId r calls) : calls = [.openFile path false] ∨
      calls = [.openFile path true, .openFile path false] ∨
      ∃ answer, calls = [.openFile path true, .openFile path true,
        .create (fileRequest name parentId k) answer] := by
  cases h with
  | unreadable => exact Or.inl rfl
  | vanished => exact Or.inr (Or.inl rfl)
  | failed e => exact Or.inr (Or.inr ⟨.error e, rfl⟩)
  | made file | nameless file => exact Or.inr (Or.inr ⟨.ok file, rfl⟩)

/-- The part of a directory that is not in the cache. -/
theorem DirectoryCalls.of_miss {path k pk : Str} {rest : List Call} (hrest : Apart rest)
    (hsearch : ∀ hub, c.hub = .ok hub → searches rest ≠ [])
    (hsearched : searches rest = [] ∨
      (∃ reply, searches rest = [(Drive3Client.idQuery k, reply)]) ∨
      ∃ reply reply', lastFile reply = none ∧ searches rest =
        [(Drive3Client.idQuery k, reply), (Drive3Client.idQuery pk, reply')])
    (hrequest : requests rest = [] ∨ ∃ before g reply reply' answer,
      rest = before ++ [.create (folderRequest path (some g) k) answer] ∧
      requests before = [] ∧ lastFile reply = none ∧ foundId reply' = some g ∧
      searches before = [(Drive3Client.idQuery k, reply), (Drive3Client.idQuery pk, reply')]) :
    DirectoryCalls c path k pk (.containsKey k false :: rest) where
  look := Or.inr ⟨rest, rfl, hrest.unlooked, hsearch⟩
  searched := hsearched
  request := by
    refine hrequest.imp id ?_
    rintro ⟨before, g, reply, reply', answer, rfl, hbefore, hfound⟩
    exact ⟨.containsKey k false :: before, g, reply, reply', answer, rfl, hbefore, hfound⟩
  unopened := fun file opened hmem => by
    rcases List.mem_cons.mp hmem with hmem | hmem
    · exact absurd hmem (by simp)
    · exact hrest.unopened file opened hmem

/-- A directory that is not in the cache, and one lookup. -/
theorem IdAsks.directoryCalls {path k pk : Str} {r : Outcome SyncerErrors (Option Str)}
    {calls : List Call} (h : IdAsks c k r calls) :
    DirectoryCalls c path k pk (.containsKey k false :: calls) := by
  rcases getHub_cases c with ⟨hub, hhub, -⟩ | ⟨hoff, -⟩
  · obtain ⟨reply, hs, -⟩ := h.searches_eq hhub
    exact .of_miss h.apart (fun _ _ => by simp [hs]) (Or.inr (Or.inl ⟨reply, hs⟩))
      (Or.inl h.requests_eq)
  · have hnothing := h.of_offline hoff
    exact .of_miss h.apart (fun hub hhub => absurd hhub (hoff hub))
      (Or.inl (by rw [hnothing]; rfl)) (Or.inl h.requests_eq)

/-- **One directory.** -/
theorem EnsureAsks.directoryCalls {path k pk : Str} {r : Outcome SyncerErrors Unit}
    {calls : List Call} (h : EnsureAsks c path k pk r calls) :
    DirectoryCalls c path k pk calls := by
  cases h with
  | hit => exact ⟨Or.inl rfl, Or.inl rfl, Or.inl rfl, by simp⟩
  | found i calls h | crashed calls h => exact h.directoryCalls
  | orphan r r' calls calls' h hr h' =>
    rcases getHub_cases c with ⟨hub, hhub, -⟩ | ⟨hoff, -⟩
    · obtain ⟨reply, hs, hnone, -⟩ := h.searches_eq hhub
      obtain ⟨reply', hs', -⟩ := h'.searches_eq hhub
      refine .of_miss (h.apart.append h'.apart) (fun _ _ => by simp [hs])
        (Or.inr (Or.inr ⟨reply, reply', hnone hr, ?_⟩)) (Or.inl ?_)
      · rw [searches_append, hs, hs', List.singleton_append]
      · rw [requests_append, h.requests_eq, h'.requests_eq, List.append_nil]
    · rw [h'.of_offline hoff, List.append_nil]
      exact h.directoryCalls
  | create g r r' calls calls' made h hr h' hmade =>
    obtain ⟨hub, hhub⟩ := h'.online
    obtain ⟨reply, hs, hnone, -⟩ := h.searches_eq hhub
    obtain ⟨reply', hs', -, hid⟩ := h'.searches_eq hhub
    have hmade' : Apart made ∧ searches made = [] := by
      rcases hmade.calls_eq with ⟨made, rfl⟩ | ⟨answer, rfl⟩ <;> exact ⟨⟨rfl, by simp⟩, rfl⟩
    have hboth : searches (calls ++ (calls' ++ made)) =
        [(Drive3Client.idQuery k, reply), (Drive3Client.idQuery pk, reply')] := by
      rw [searches_append, searches_append, hs, hs', hmade'.2, List.append_nil,
        List.singleton_append]
    refine .of_miss (h.apart.append (h'.apart.append hmade'.1)) (fun _ _ => by simp [hboth])
      (Or.inr (Or.inr ⟨reply, reply', hnone hr, hboth⟩)) ?_
    rcases hmade.calls_eq with ⟨made, rfl⟩ | ⟨answer, rfl⟩
    · refine Or.inl ?_
      rw [requests_append, requests_append, h.requests_eq, h'.requests_eq]
      rfl
    · refine Or.inr ⟨calls ++ (calls' ++ [.tempfile true]), g, reply, reply', answer, by simp, ?_,
        hnone hr, (hid _ rfl).2, ?_⟩
      · rw [requests_append, requests_append, h.requests_eq, h'.requests_eq]
        rfl
      · rw [searches_append, searches_append, hs, hs']
        rfl

variable [Base64]

/-- What is asked for the directory `cs` below the watched one. -/
def DirectoryPart (c : Drive3Client σ) (cs : List Str) : List Call → Prop :=
  DirectoryCalls c (below cs) (keyOf cs) (keyOf cs.dropLast)

/-- **The walk**: one directory behind the other, as far as it comes. -/
theorem WalkAsks.in_turn {done dirs : List Str} {r : Outcome SyncerErrors Unit}
    {calls : List Call} (h : WalkAsks c done dirs r calls) :
    ∃ parts, calls = parts.flatten ∧
      List.Forall₂ (DirectoryPart c) ((walkDirs done dirs).take parts.length) parts ∧
      (r = .panic ∨ parts.length = dirs.length) := by
  induction h with
  | nil => exact ⟨[], rfl, .nil, Or.inr rfl⟩
  | @cons done dirs d r calls calls' h _ ih =>
    obtain ⟨parts, rfl, hparts, hend⟩ := ih
    refine ⟨calls :: parts, rfl, .cons ?_ hparts, hend.imp id fun hlen => ?_⟩
    · rw [DirectoryPart, List.dropLast_concat]
      exact h.directoryCalls
    · rw [List.length_cons, hlen, List.length_cons]
  | @stop done dirs d calls h =>
    refine ⟨[calls], (List.flatten_singleton ..).symm, .cons ?_ .nil, Or.inl rfl⟩
    rw [DirectoryPart, List.dropLast_concat]
    exact h.directoryCalls

/-- The lookup of the file's directory, with nothing behind it. -/
theorem IdAsks.fileCalls {path name pk : Str} (hkeys : PlaceKeys path name pk)
    {r : Outcome SyncerErrors (Option Str)} {calls : List Call} (h : IdAsks c pk r calls) :
    FileCalls c path calls where
  searched := fun hub name' pk' hhub hkeys' => by
    obtain ⟨-, rfl⟩ := hkeys.unique hkeys'
    cases h with
    | offline hoff => exact absurd hhub (hoff hub)
    | failed | nothing | nameless => exact ⟨_, _, rfl, rfl⟩
    | found _ _ files => exact ⟨_, _, rfl, searches_warning files pk⟩
  silent := fun hnone => h.of_offline fun hub hhub => hnone hub name pk hhub hkeys
  request := Or.inl h.requests_eq
  unlooked := h.apart.unlooked

/-- **The file**, with the lookup of its directory. -/
theorem PlaceAsks.fileCalls {path : Str} {r : Outcome SyncerErrors (Option Str)}
    {calls : List Call} (h : PlaceAsks c path r calls) : FileCalls c path calls := by
  cases h with
  | unnamed hunnamed =>
    exact ⟨fun _ name pk _ hkeys => absurd hkeys (hunnamed name pk), fun _ => rfl, Or.inl rfl, rfl⟩
  | unanswered name pk hkeys r calls h => exact h.fileCalls hkeys
  | noUid name pk hkeys parentId calls h => exact h.fileCalls hkeys
  | file name pk k hkeys hk parentId r calls calls' h h' =>
    obtain ⟨hub, hhub⟩ := h.online
    obtain ⟨reply, rest, hcalls, hrest⟩ := (h.fileCalls hkeys).searched hub name pk hhub hkeys
    have hopens : searches calls' = [] ∧ lookedUp calls' = [] := by
      rcases h'.calls_eq with rfl | rfl | ⟨answer, rfl⟩ <;> exact ⟨rfl, rfl⟩
    refine ⟨fun _ name' pk' _ hkeys' => ?_, fun hnone => absurd hkeys (hnone hub name pk hhub), ?_,
      ?_⟩
    · obtain ⟨-, rfl⟩ := hkeys.unique hkeys'
      refine ⟨reply, rest ++ calls', by rw [hcalls, List.cons_append], ?_⟩
      rw [searches_append, hrest, hopens.1, List.append_nil]
    · rcases h'.calls_eq with rfl | rfl | ⟨answer, rfl⟩
      · exact Or.inl (by rw [requests_append, h.requests_eq]; rfl)
      · exact Or.inl (by rw [requests_append, h.requests_eq]; rfl)
      · obtain ⟨reply', hs, -, hid⟩ := h.searches_eq hhub
        obtain ⟨⟨files, rfl⟩, hfound⟩ := hid _ rfl
        refine Or.inr ⟨calls, name, pk, k, files, answer, hkeys, hk, h.requests_eq, hs, ?_⟩
        rw [hfound]
    · rw [lookedUp_append, h.apart.unlooked, hopens.2, List.append_nil]

end Parts

/-! ## An upload -/

section Uploads

variable {σ : Type} [Base64]

/-- The calls of an upload that ends with `r`, in parts: one for each directory above the
file, from the top down, as far as the upload comes, and one for the file. -/
structure InTurn (c : Drive3Client σ) (path : Str) (r : Outcome SyncerErrors (Option Str))
    (calls : List Call) (parts : List (List Call)) (last : List Call) : Prop where
  calls_eq : calls = parts.flatten ++ last
  directories : List.Forall₂ (DirectoryPart c)
    ((walkDirs [] (directoriesOf path)).take parts.length) parts
  /-- The upload has panicked before the file, or it has done with all directories. -/
  file : r = .panic ∧ last = [] ∨
    parts.length = (directoriesOf path).length ∧ FileCalls c path last

variable {c : Drive3Client σ} {path : Str} {r : Outcome SyncerErrors (Option Str)}
  {calls : List Call}

theorem UploadAsks.in_turn (h : UploadAsks c path r calls) :
    ∃ parts last, InTurn c path r calls parts last := by
  cases h with
  | outside | rootChecked => exact ⟨[], [], rfl, .nil, Or.inl ⟨rfl, rfl⟩⟩
  | root hrel _ hp =>
    refine ⟨[], calls, rfl, .nil, Or.inr ⟨?_, hp.fileCalls⟩⟩
    rw [directoriesOf, hrel]
    rfl
  | crashed hrel hw =>
    obtain ⟨parts, rfl, hparts, -⟩ := hw.in_turn
    rw [← directoriesOf_eq hrel] at hparts
    exact ⟨parts, [], (List.append_nil _).symm, hparts, Or.inl ⟨rfl, rfl⟩⟩
  | placed hrel hw hp =>
    obtain ⟨parts, rfl, hparts, hend⟩ := hw.in_turn
    rw [← directoriesOf_eq hrel] at hparts hend
    exact ⟨parts, _, rfl, hparts, Or.inr ⟨hend.resolve_left (by simp), hp.fileCalls⟩⟩

/-- **How much is asked**, all parts together. -/
theorem InTurn.bounded {parts : List (List Call)} {last : List Call}
    (h : InTurn c path r calls parts last) : Bounded (directoriesOf path).length 1 calls := by
  have hparts : ∀ {dirs : List (List Str)} {parts : List (List Call)},
      List.Forall₂ (DirectoryPart c) dirs parts → Bounded dirs.length 0 parts.flatten := by
    intro dirs parts hparts
    induction hparts with
    | nil => exact ⟨by simp [cacheHits], by simp [cacheHits]⟩
    | cons hfirst _ ih =>
      rw [List.length_cons, Nat.add_comm, List.flatten_cons]
      exact hfirst.bounded.append ih
  have hlen : ((walkDirs [] (directoriesOf path)).take parts.length).length ≤
      (directoriesOf path).length := by
    rw [List.length_take, length_walkDirs]
    exact Nat.min_le_right _ _
  have hdirs := hparts h.directories
  have hlast : Bounded 0 1 last := by
    rcases h.file with ⟨-, rfl⟩ | ⟨-, hfile⟩
    · exact ⟨by simp [cacheHits], by simp [cacheHits]⟩
    · exact hfile.bounded
  have hall := hdirs.append hlast
  rw [← h.calls_eq] at hall
  exact ⟨hall.searches.trans (by omega), hall.requests.trans (by omega)⟩

/-- **Directory by directory, and then the file.**  Whatever the hub and the machine answer,
the calls of an upload fall into parts, one for each directory above its file from the top
down, as far as it comes, and one for the file.  For a directory the cache is looked at
once; after a miss the directory is searched, and its parent if it was not found; its folder
is requested once at most, when it was not found and its parent was.  For the file its
directory is searched once, and it is requested once at most, at the very end.  The
directories have unique ids of their own.  Together there are at most two searches and one
request for each directory without a hit in the cache, and one of each for the file. -/
theorem uploadFile_in_turn (c : Drive3Client σ) (path : Str) (w : World σ) :
    let r := (c.uploadFile path w).1
    let calls := callsSince w (c.uploadFile path w).2
    let n := (directoriesOf path).length
    (∃ parts last, InTurn c path r calls parts last) ∧
      ((walkDirs [] (directoriesOf path)).map keyOf).Nodup ∧
      (searches calls).length + 2 * cacheHits calls ≤ 2 * n + 1 ∧
      (requests calls).length + cacheHits calls ≤ n + 1 := by
  intro r calls n
  have hdirs : ∀ c ∈ [] ++ directoriesOf path, Solid c := by
    intro c hc
    rw [List.nil_append] at hc
    cases hrel : relComponents path with
    | none => simp [directoriesOf, hrel] at hc
    | some cs =>
      have hmem : c ∈ cs.dropLast := by simpa [directoriesOf, hrel] using hc
      exact solid_of_relComponents hrel c (List.mem_of_mem_dropLast hmem)
  obtain ⟨parts, last, h⟩ :=
    UploadAsks.in_turn (logs_callsSince (uploadFile_asks c path) w)
  refine ⟨⟨parts, last, h⟩, ?_, h.bounded.searches, h.bounded.requests⟩
  rw [← walkIds_eq]
  exact nodup_walkIds hdirs

end Uploads

end PiDriveSync
