import PiDriveSync.Paths.Parents
import PiDriveSync.Session.Causes

/-!
# The query for an id, and the property it looks for

`id` writes the unique id of a path into a search text, and `createDir` and `uploadFile`
attach the unique id of a path to what they create.  Both are base64 of the place on the
drive, which is a string: below `/var/www` the components of the path behind single
separators, and one separator at the end if there are none.

* `getUniqueId_plain_iff`: two such strings are the same only for the same components.
* `Attaches`: when the hub and the machine do their part, the request is made, and carries
  the unique id.
* `query_matches_iff`: the text asks for the property `pi_sync_id` and for the unique id,
  whatever the names consist of, and matches what is created for the same components
  only.
-/

namespace PiDriveSync

open UnixPath Fallible

/-- The path is `/var/www` in some spelling and below it the components `cs`, one behind
the other with single separators.  There may be more separators at the end. -/
structure IsPlain (path : Str) (cs : List Str) : Prop where
  solid : ∀ c ∈ cs, Solid c
  spelled : ∃ (root : List Str) (n : ℕ), (∀ c ∈ root, '/' ∉ c) ∧
    root.filterMap parseSingleComponent = localRootDir.filterMap parseSingleComponent ∧
    path = absolute (root ++ cs ++ List.replicate n [])

namespace IsPlain

variable {path : Str} {cs : List Str} (h : IsPlain path cs)
include h

/-- The segments of the path: those of `/var/www`, the components, and what is passed over
at the end. -/
theorem exists_segments : ∃ root t : List Str, root ≠ [] ∧
    (∀ c ∈ root ++ (cs ++ t), '/' ∉ c) ∧ (∀ c ∈ t, vacuous c = true) ∧
    root.filterMap parseSingleComponent = localRootDir.filterMap parseSingleComponent ∧
    path = absolute (root ++ (cs ++ t)) := by
  obtain ⟨root, n, hsep, hroot, hpath⟩ := h.spelled
  refine ⟨root, List.replicate n [], ?_, fun c hc => ?_, fun c hc => ?_, hroot, ?_⟩
  · rintro rfl
    exact absurd hroot (by decide +kernel)
  · rw [List.mem_append, List.mem_append] at hc
    rcases hc with hc | hc | hc
    · exact hsep c hc
    · exact (h.solid c hc).noSep
    · rw [(List.mem_replicate.mp hc).2]
      exact List.not_mem_nil
  · rw [(List.mem_replicate.mp hc).2]
    rfl
  · rw [hpath, List.append_assoc]

/-- What is below `/var/www`. -/
theorem components_eq : components path =
    .rootDir :: (localRootDir.filterMap parseSingleComponent ++
      cs.filterMap parseSingleComponent) := by
  obtain ⟨root, t, hne, hsep, ht, hroot, rfl⟩ := h.exists_segments
  have hend : t.filterMap parseSingleComponent = [] :=
    List.filterMap_eq_nil_iff.mpr fun c hc => parse_eq_none.mpr (ht c hc)
  rw [components_absolute hsep (by simp [hne]), List.filterMap_append, List.filterMap_append,
    hroot, hend, List.append_nil]

variable [Base64]

/-- The unique id is made of the components. -/
theorem getUniqueId_eq : (SyncableFile.mk path).getUniqueId =
    .ok (Base64.encode (push driveRootFolder (joinSegments cs))) := by
  obtain ⟨root, t, hne, hsep, ht, hroot, rfl⟩ := h.exists_segments
  have hlen : (root.filterMap parseSingleComponent).length = 2 := by
    rw [hroot]
    decide +kernel
  have hpre : localRootDir.filterMap parseSingleComponent <+:
      (root ++ (cs ++ t)).filterMap parseSingleComponent := by
    rw [List.filterMap_append, hroot]
    exact List.prefix_append _ _
  rw [getUniqueId_spelled (by simp [hne]) hsep hpre, trim_dropComponents_of_length hlen,
    trim_append_vacuous _ ht, trim_eq_self fun c hc => (h.solid c hc).solid]

/-- A file strictly below the watched directory has a name, and a parent with a unique
id. -/
theorem exists_placeKeys {dirs : List Str} {f : Str} (hcs : cs = driveRootFolder :: (dirs ++ [f]))
    (hdots : f ≠ ['.', '.']) :
    relComponents path = some (dirs ++ [f]) ∧ ∃ pk, PlaceKeys path f pk := by
  have hf : IsName f := ⟨h.solid f (by simp [hcs]), hdots⟩
  refine ⟨?_, ?_⟩
  · have hwatched : components (str "/var/www/RpiCamera") = .rootDir ::
        (localRootDir.filterMap parseSingleComponent ++ [.normal driveRootFolder]) := by
      decide +kernel
    have hdir : parseSingleComponent driveRootFolder = some (.normal driveRootFolder) := by
      decide +kernel
    have hcomps : components path = components (str "/var/www/RpiCamera") ++
        (dirs ++ [f]).filterMap parseSingleComponent := by
      rw [h.components_eq, hwatched, hcs, List.filterMap_cons_some hdir, List.append_cons]
      rfl
    rw [relComponents_of_components hcomps,
      map_asOsStr_of_solid fun c hc => h.solid c (by rw [hcs]; exact List.mem_cons_of_mem _ hc)]
  · obtain ⟨root, t, hne, hsep, ht, hroot, rfl⟩ := h.exists_segments
    have hsplit : root ++ (cs ++ t) = (root ++ driveRootFolder :: dirs) ++ f :: t := by
      rw [hcs]
      simp
    rw [hsplit] at hsep ⊢
    have hpre : localRootDir.filterMap parseSingleComponent <+:
        (root ++ driveRootFolder :: dirs).filterMap parseSingleComponent := by
      rw [List.filterMap_append, hroot]
      exact List.prefix_append _ _
    obtain ⟨pp, hpp, hid⟩ := parentPath_spelled hsep hf.solid ht hpre
    exact ⟨_, pp, hpp, fileName_spelled hsep ht hf, hid⟩

end IsPlain

/-- Distinct components are at distinct places. -/
theorem push_driveRootFolder_inj {cs ds : List Str} (hcs : ∀ c ∈ cs, Solid c)
    (hds : ∀ c ∈ ds, Solid c)
    (h : push driveRootFolder (joinSegments cs) = push driveRootFolder (joinSegments ds)) :
    cs = ds := by
  -- without components the string ends in a separator: one more segment, which is empty
  have hpush : ∀ es : List Str, (∀ c ∈ es, Solid c) → ∃ fs, (∀ c ∈ fs, '/' ∉ c) ∧
      push driveRootFolder (joinSegments es) = joinSegments (driveRootFolder :: fs) ∧
      es = fs.filter fun c => !vacuous c := by
    intro es hes
    cases es with
    | nil => exact ⟨[[]], by simp, by decide +kernel, by decide⟩
    | cons a es =>
      refine ⟨a :: es, fun c hc => (hes c hc).noSep,
        push_driveRootFolder (hes a (List.mem_cons_self ..)) es, ?_⟩
      exact (List.filter_eq_self.mpr fun c hc => by rw [(hes c hc).solid, Bool.not_false]).symm
  obtain ⟨fs, hfs, hcsp, hc⟩ := hpush cs hcs
  obtain ⟨gs, hgs, hdsp, hd⟩ := hpush ds hds
  have hroot := solid_driveRootFolder.noSep
  rw [hcsp, hdsp] at h
  have hsame := joinSegments_inj (List.forall_mem_cons.mpr ⟨hroot, hfs⟩)
    (List.forall_mem_cons.mpr ⟨hroot, hgs⟩) (by simp) (by simp) h
  rw [hc, hd, List.tail_eq_of_cons_eq hsame]

/-- **Unique ids identify components.** -/
theorem getUniqueId_plain_iff [Base64] {p q : Str} {cs ds : List Str} (hp : IsPlain p cs)
    (hq : IsPlain q ds) : (SyncableFile.mk p).getUniqueId = (SyncableFile.mk q).getUniqueId ↔
      components p = components q := by
  rw [hp.getUniqueId_eq, hq.getUniqueId_eq, hp.components_eq, hq.components_eq, Except.ok.injEq,
    Base64.encode_injective.eq_iff, List.cons.injEq, List.append_cancel_left_eq]
  constructor
  · intro h
    rw [push_driveRootFolder_inj hp.solid hq.solid h]
    exact ⟨rfl, rfl⟩
  · rintro ⟨-, h⟩
    have hmap := congrArg (List.map Component.asOsStr) h
    rw [map_asOsStr_of_solid hp.solid, map_asOsStr_of_solid hq.solid] at hmap
    rw [hmap]

/-! ## Texts and requests -/

/-- The value of a property in a request. -/
def File.property (req : File) (key : Str) : Option Str :=
  (req.appProperties.getD []).lookup key

/-- What is created by a request is found by a search text. -/
def Query.Matches (text : Str) (req : File) : Prop :=
  ∃ key value, Query.parseQuery text = some (key, value) ∧ req.property key = some value

theorem Query.matches_iff {text key value : Str} (h : Query.parseQuery text = some (key, value))
    (req : File) : Query.Matches text req ↔ req.property key = some value := by
  constructor
  · rintro ⟨key', value', h', hreq⟩
    rw [h, Option.some.injEq, Prod.mk.injEq] at h'
    obtain ⟨rfl, rfl⟩ := h'
    exact hreq
  · exact fun hreq => ⟨key, value, h, hreq⟩

theorem property_appPropsMap {req : File} {k : Str}
    (h : req.appProperties = Drive3Client.appPropsMap k) :
    req.property piDriveSyncPropsKey = some k := by
  rw [File.property, h, Drive3Client.appPropsMap, Option.getD_some, List.lookup_cons_self]

/-! ## What is reached -/

/-- The hub or the machine does its part: a search comes back with an object, and a file
can be opened. -/
def Granted : Call → Prop
  | .list _ reply => foundId reply ≠ none
  | .openFile _ opened => opened = true
  | _ => True

section Reached

variable {σ : Type} {c : Drive3Client σ} {hub : Hub σ}

theorem IdAsks.of_granted (hhub : c.hub = .ok hub) {k : Str}
    {r : Outcome SyncerErrors (Option Str)} {calls : List Call} (h : IdAsks c k r calls)
    (hall : ∀ call ∈ calls, Granted call) : ∃ i, r = .ok (some i) := by
  cases h with
  | offline hoff => exact absurd hhub (hoff hub)
  | failed => exact absurd rfl (hall _ (List.mem_singleton.mpr rfl))
  | nothing _ _ files hnone =>
    have hfound : foundId (.ok files) ≠ none := hall _ (List.mem_singleton.mpr rfl)
    exact absurd (by rw [foundId, hnone]; rfl) hfound
  | found _ _ _ _ i => exact ⟨i, rfl⟩
  | nameless _ _ files file hfile hi =>
    have hfound : foundId (.ok files) ≠ none := hall _ (List.mem_singleton.mpr rfl)
    exact absurd (by rw [foundId, hfile, Option.bind_some, hi]) hfound

/-- A directory is in the cache, or it is found. -/
theorem EnsureAsks.of_granted (hhub : c.hub = .ok hub) {path k pk : Str}
    {r : Outcome SyncerErrors Unit} {calls : List Call} (h : EnsureAsks c path k pk r calls)
    (hall : ∀ call ∈ calls, Granted call) : r = .ok () := by
  have hfound : ∀ {r : Outcome SyncerErrors (Option Str)} {calls' rest : List Call},
      IdAsks c k r calls' → calls = .containsKey k false :: (calls' ++ rest) →
        ∃ i, r = .ok (some i) := by
    intro r calls' rest h hcalls
    refine h.of_granted hhub fun call hcall => hall call ?_
    rw [hcalls]
    exact List.mem_cons_of_mem _ (List.mem_append_left _ hcall)
  have hanswered : ∀ {i : Str}, ¬ Unanswered (.ok (some i)) := by
    rintro i (hr | ⟨e, hr⟩) <;> exact absurd hr (by simp)
  cases h with
  | hit | found => rfl
  | crashed calls h =>
    obtain ⟨i, hi⟩ := hfound h (by rw [List.append_nil])
    exact absurd hi (by simp)
  | orphan r r' calls calls' h hr =>
    obtain ⟨i, rfl⟩ := hfound h rfl
    exact absurd hr hanswered
  | create g r r' calls calls' made h hr =>
    obtain ⟨i, rfl⟩ := hfound h rfl
    exact absurd hr hanswered

/-- A folder is asked for when there is a temporary file. -/
theorem CreateAsks.reaches (hhub : c.hub = .ok hub) {path k : Str} {parentId : Option Str}
    {r : Outcome SyncerErrors (Option Str)} {calls : List Call}
    (h : CreateAsks c path k parentId r calls) (htemp : .tempfile false ∉ calls) :
    ∃ answer, .create (folderRequest path parentId k) answer ∈ calls := by
  cases h with
  | offline made hoff => exact absurd hhub (hoff hub)
  | noTempfile => exact absurd (List.mem_singleton.mpr rfl) htemp
  | failed e => exact ⟨.error e, by simp⟩
  | made file | nameless file => exact ⟨.ok file, by simp⟩

variable [Base64]

/-- The walk comes to its end. -/
theorem WalkAsks.of_granted (hhub : c.hub = .ok hub) {done dirs : List Str}
    {r : Outcome SyncerErrors Unit} {calls : List Call} (h : WalkAsks c done dirs r calls)
    (hall : ∀ call ∈ calls, Granted call) : r = .ok () := by
  induction h with
  | nil => rfl
  | cons _ _ ih => exact ih fun call hcall => hall call (List.mem_append_right _ hcall)
  | stop h => exact h.of_granted hhub hall

/-- The file is found, and asked for. -/
theorem PlaceAsks.reaches (hhub : c.hub = .ok hub) {path name pk k : Str}
    (hkeys : PlaceKeys path name pk) (hk : (SyncableFile.mk path).getUniqueId = .ok k)
    {r : Outcome SyncerErrors (Option Str)} {calls : List Call} (h : PlaceAsks c path r calls)
    (hall : ∀ call ∈ calls, Granted call) :
    ∃ parentId answer, .create (fileRequest name parentId k) answer ∈ calls := by
  cases h with
  | unnamed hunnamed => exact absurd hkeys (hunnamed name pk)
  | unanswered name' pk' hkeys' r calls h hr =>
    obtain ⟨i, rfl⟩ := h.of_granted hhub hall
    exact absurd rfl (hr (some i))
  | noUid _ _ _ _ _ _ e he => exact absurd (hk.symm.trans he) (by simp)
  | file name' pk' k' hkeys' hk' parentId r calls calls' h h' =>
    obtain ⟨rfl, -⟩ := hkeys.unique hkeys'
    obtain rfl : k = k' := Except.ok.inj (hk.symm.trans hk')
    have hopened : Call.openFile path false ∉ calls' := fun hmem =>
      absurd (hall _ (List.mem_append_right _ hmem)) (by simp [Granted])
    cases h' with
    | unreadable => exact absurd (List.mem_singleton.mpr rfl) hopened
    | vanished => exact absurd (by simp) hopened
    | failed e => exact ⟨parentId, .error e, by simp⟩
    | made file | nameless file => exact ⟨parentId, .ok file, by simp⟩

theorem UploadAsks.reaches (hhub : c.hub = .ok hub) {path k name pk : Str} {cs : List Str}
    (hrel : relComponents path = some cs) (hne : cs ≠ []) (hkeys : PlaceKeys path name pk)
    (hk : (SyncableFile.mk path).getUniqueId = .ok k) {r : Outcome SyncerErrors (Option Str)}
    {calls : List Call} (h : UploadAsks c path r calls) (hall : ∀ call ∈ calls, Granted call) :
    ∃ parentId answer, .create (fileRequest name parentId k) answer ∈ calls := by
  cases h with
  | outside hrel' => exact absurd (hrel.symm.trans hrel') (by simp)
  | rootChecked hrel' | root hrel' => exact absurd (Option.some.inj (hrel.symm.trans hrel')) hne
  | crashed _ hw => exact absurd (hw.of_granted hhub hall) (by simp)
  | placed _ hw hp =>
    obtain ⟨parentId, answer, hmem⟩ := hp.reaches hhub hkeys hk
      fun call hcall => hall call (List.mem_append_right _ hcall)
    exact ⟨parentId, answer, List.mem_append_right _ hmem⟩

end Reached

section Client

variable {σ : Type} [Base64] (c c' : Drive3Client σ)

/-- The queries of a lookup are for the unique id of its path. -/
theorem query_of_id {p k : Str} (hk : (SyncableFile.mk p).getUniqueId = .ok k) {w : World σ}
    {text : Str} {reply : Except HubError (Option (List File))}
    (h : Call.list text reply ∈ callsSince w (c.id p w).2) : text = Drive3Client.idQuery k := by
  cases hhub : c.hub with
  | ok hub =>
    obtain ⟨reply', rest, hcalls, hrest⟩ := logs_callsSince (id_asked c hk hhub) w
    rw [hcalls] at h
    rcases List.mem_cons.mp h with h | h
    · injection h
    · exact absurd (hrest _ h) (by simp)
  | error e =>
    have hnohub : ∀ k hub, (SyncableFile.mk p).getUniqueId = .ok k → c.hub ≠ .ok hub := by
      intro k hub _ hok
      rw [hhub] at hok
      exact absurd hok (by simp)
    obtain ⟨e', hfail⟩ := id_fails c hnohub
    have hnone : callsSince w (w : World σ) = [] := callsSince_of_trace (List.append_nil _).symm
    rw [hfail] at h
    exact absurd (show _ ∈ callsSince w w from h) (by rw [hnone]; exact List.not_mem_nil)

/-- The text matches what is created for `q`, by `createDir` for the folder and by
`uploadFile` for the file, just if `q` has the components of `p`. -/
def MatchesByComponents (text p q : Str) (w : World σ) : Prop :=
  (∀ parentId req answer, .create req answer ∈ callsSince w (c.createDir q parentId w).2 →
      (Query.Matches text req ↔ components p = components q)) ∧
    (∀ req answer, .create req answer ∈ callsSince w (c.uploadFile q w).2 →
      req.mimeType = none → (Query.Matches text req ↔ components p = components q))

/-- What is created for `q`, whose components below `/var/www` are `ds`, carries the unique
id `k`, and is asked for: by `createDir` when there is a temporary file, and by
`uploadFile`, for a file strictly below the watched directory, when each search comes back
with an object and the file can be opened. -/
structure Attaches (q : Str) (ds : List Str) (k : Str) (w : World σ) : Prop where
  folder : ∀ parentId, .tempfile false ∉ callsSince w (c.createDir q parentId w).2 →
    ∃ req answer, .create req answer ∈ callsSince w (c.createDir q parentId w).2 ∧
      req.mimeType = some folderMimeType ∧ req.property piDriveSyncPropsKey = some k
  file : ∀ dirs f, ds = driveRootFolder :: (dirs ++ [f]) → f ≠ ['.', '.'] →
    (∀ call ∈ callsSince w (c.uploadFile q w).2, Granted call) →
    ∃ req answer, .create req answer ∈ callsSince w (c.uploadFile q w).2 ∧
      req.mimeType = none ∧ req.property piDriveSyncPropsKey = some k

theorem attaches {c : Drive3Client σ} {hub : Hub σ} (hhub : c.hub = .ok hub) {q k : Str}
    {ds : List Str} (hq : IsPlain q ds) (hk : (SyncableFile.mk q).getUniqueId = .ok k)
    (w : World σ) : Attaches c q ds k w where
  folder := fun parentId htemp => by
    obtain ⟨answer, hmem⟩ :=
      (logs_callsSince (createDir_asks c hk parentId) w).reaches hhub htemp
    exact ⟨_, answer, hmem, rfl, property_appPropsMap rfl⟩
  file := fun dirs f hds hdots hall => by
    obtain ⟨hrel, pk, hkeys⟩ := hq.exists_placeKeys hds hdots
    obtain ⟨parentId, answer, hmem⟩ :=
      (logs_callsSince (uploadFile_asks c q) w).reaches hhub hrel (by simp) hkeys hk hall
    exact ⟨_, answer, hmem, rfl, property_appPropsMap rfl⟩

/-- **The query of a lookup finds what was created for the same components**, and with a hub
something is created. -/
theorem query_matches_iff {p q : Str} {cs ds : List Str} (hp : IsPlain p cs) (hq : IsPlain q ds)
    (w w' : World σ) :
    ∃ k, (SyncableFile.mk p).getUniqueId = .ok k ∧
      (∀ hub, c.hub = .ok hub → ∃ text reply, .list text reply ∈ callsSince w (c.id p w).2) ∧
      (∀ text reply, .list text reply ∈ callsSince w (c.id p w).2 →
        Query.parseQuery text = some (piDriveSyncPropsKey, k) ∧
          MatchesByComponents c' text p q w') ∧
      ∃ k', (SyncableFile.mk q).getUniqueId = .ok k' ∧
        ∀ hub, c'.hub = .ok hub → Attaches c' q ds k' w' := by
  have hk := hp.getUniqueId_eq
  refine ⟨_, hk, fun hub hhub => ?_, fun text reply htext => ?_, _, hq.getUniqueId_eq,
    fun hub hhub => attaches hhub hq hq.getUniqueId_eq w'⟩
  · obtain ⟨reply, rest, hcalls, -⟩ := logs_callsSince (id_asked c hk hhub) w
    exact ⟨_, reply, by rw [hcalls]; exact List.mem_cons_self ..⟩
  · have hparse := Query.parseQuery_idQuery (plain_of_getUniqueId hk)
    rw [← query_of_id c hk htext] at hparse
    -- a request that carries the unique id of `q` is matched if that is the unique id of `p`
    have hmatch : ∀ k' (req : File), (SyncableFile.mk q).getUniqueId = .ok k' →
        req.appProperties = Drive3Client.appPropsMap k' →
          (Query.Matches text req ↔ components p = components q) := by
      intro k' req hk' hreq
      rw [Query.matches_iff hparse, property_appPropsMap hreq, ← getUniqueId_plain_iff hp hq, hk,
        hk', Option.some.injEq, Except.ok.injEq, eq_comm]
    refine ⟨hparse, fun parentId req answer hcall => ?_, fun req answer hcall => ?_⟩
    · exact logs_callsSince (createDir_requests (R := fun req =>
        Query.Matches text req ↔ components p = components q) c' parentId
          fun k' req hk' hreq _ => hmatch k' req hk' hreq) w' _ hcall
    · refine logs_callsSince (uploadFile_requests (R := fun req =>
        req.mimeType = none → (Query.Matches text req ↔ components p = components q)) c'
          (fun req hmime hnone => ?_) fun k' req hk' hreq _ _ => hmatch k' req hk' hreq) w' _ hcall
      rw [hmime] at hnone
      exact absurd hnone (by simp)

omit [Base64] in
/-- A name with a quote, a backslash and braces, once with separators at its end. -/
theorem query_matches_quoted :
    ∃ k, @SyncableFile.getUniqueId ⟨str "/var/www/RpiCamera/it's \\ \x7b\x7d//"⟩ standardBase64 =
        .ok k ∧
      (∀ hub, (driveClient calm [] true).hub = .ok hub → ∃ text reply, .list text reply ∈
        callsSince (.fresh []) (@Drive3Client.id _ standardBase64 (driveClient calm [] true)
          (str "/var/www/RpiCamera/it's \\ \x7b\x7d//") (.fresh [])).2) ∧
      (∀ text reply, .list text reply ∈
          callsSince (.fresh []) (@Drive3Client.id _ standardBase64 (driveClient calm [] true)
            (str "/var/www/RpiCamera/it's \\ \x7b\x7d//") (.fresh [])).2 →
        Query.parseQuery text = some (piDriveSyncPropsKey, k) ∧
          @MatchesByComponents _ standardBase64 (driveClient calm [] true) text
            (str "/var/www/RpiCamera/it's \\ \x7b\x7d//")
            (str "/var/www/RpiCamera/it's \\ \x7b\x7d") (.fresh [])) ∧
      ∃ k', @SyncableFile.getUniqueId ⟨str "/var/www/RpiCamera/it's \\ \x7b\x7d"⟩
          standardBase64 = .ok k' ∧
        ∀ hub, (driveClient calm [] true).hub = .ok hub →
          @Attaches _ standardBase64 (driveClient calm [] true)
            (str "/var/www/RpiCamera/it's \\ \x7b\x7d")
            [str "RpiCamera", str "it's \\ \x7b\x7d"] k' (.fresh []) :=
  @query_matches_iff _ standardBase64 (driveClient calm [] true) (driveClient calm [] true)
    (str "/var/www/RpiCamera/it's \\ \x7b\x7d//") (str "/var/www/RpiCamera/it's \\ \x7b\x7d")
    [str "RpiCamera", str "it's \\ \x7b\x7d"] [str "RpiCamera", str "it's \\ \x7b\x7d"]
    ⟨by decide +kernel, localRootDir, 2, by decide +kernel, rfl, by decide +kernel⟩
    ⟨by decide +kernel, localRootDir, 0, by decide +kernel, rfl, by decide +kernel⟩
    (.fresh []) (.fresh [])

end Client

end PiDriveSync
