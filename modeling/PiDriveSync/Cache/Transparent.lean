import PiDriveSync.Cache.Sound
import PiDriveSync.Provider.Calm
import PiDriveSync.Provider.Record

/-!
# The cache is transparent

Take a run in which nothing fails, and the same run with a cache in which nothing is
ever found.  `SameDrive` relates the worlds of the two: the same objects, the same
files, the same requests so far, and a cache on the left that is right.  One look at
the cache is the only point where the two part.  There the left run goes on at once,
and the right one asks the drive; as the cache is right, the drive has the folder, so
the right run goes on as well, with nothing created.

The clocks of the two runs drift apart, so the outside has to answer by what it is
asked about and not by the time: `Steady`.
-/

namespace PiDriveSync

open UnixPath Fallible

/-- An outside in which no call fails and the same question gets the same answer at
every moment. -/
structure Steady (ω : Schedule) : Prop where
  answered : ∀ t, (ω t).fault = .none
  order : ∀ t, (ω t).order = (ω 0).order
  ids : ∀ t, (ω t).ids = (ω 0).ids
  tempfile : ∀ t, (ω t).tempfile = (ω 0).tempfile
  readable : ∀ t, (ω t).readable = (ω 0).readable

/-- The same outside, with a cache in which nothing is ever found. -/
def uncached (ω : Schedule) : Schedule :=
  fun t => { ω t with expired := fun _ => true }

namespace Steady

variable {ω : Schedule}

theorem uncached_answered (h : Steady ω) (t : ℕ) : (uncached ω t).fault = .none :=
  h.answered t

theorem pick_eq (h : Steady ω) (t t' : ℕ) (objs : List Obj) (k : Str) :
    pick (uncached ω t') objs k = pick (ω t) objs k := by
  rw [pick, pick, h.order t, uncached, h.order t']

theorem lookup_eq (h : Steady ω) (t t' : ℕ) (objs : List Obj) (k : Str) :
    lookup (uncached ω t') objs k = lookup (ω t) objs k := by
  rw [lookup, lookup, h.pick_eq t t', if_pos (h.answered t), uncached, if_pos (h.answered t')]

theorem newObj_eq (h : Steady ω) (t t' : ℕ) (objs : List Obj) (req : File) (content : Bytes) :
    newObj (uncached ω t') objs req content = newObj (ω t) objs req content := by
  rw [newObj, newObj, h.ids t, uncached, h.ids t']

theorem tempfile_eq (h : Steady ω) (t t' : ℕ) : (uncached ω t').tempfile = (ω t).tempfile := by
  rw [h.tempfile t, uncached, h.tempfile t']

theorem readAt_eq (h : Steady ω) (t t' : ℕ) (disk : Disk) (path : Str) :
    readAt (uncached ω t') disk path = readAt (ω t) disk path := by
  rw [readAt, readAt, h.readable t, uncached, h.readable t']

end Steady

theorem left_uncached (ω : Schedule) (t : ℕ) (cache : Cache) : left (uncached ω t) cache = [] := by
  simp [left, uncached]

/-! ## The simulation -/

/-- The drive and what is asked of it are the same, and the cache on the left is
right. -/
structure SameDrive (w w' : DriveWorld) : Prop where
  objs : w.objs = w'.objs
  disk : w.disk = w'.disk
  asked : requests w.trace = requests w'.trace
  sound : CacheSound w

namespace SameDrive

variable {w w' : DriveWorld}

theorem looked (h : SameDrive w w') (m m' : Moment) (k : Str) :
    SameDrive (w.looked m k) (w'.looked m' k) where
  objs := h.objs
  disk := h.disk
  asked := by
    show requests (w.trace ++ _) = requests (w'.trace ++ _)
    rw [requests_append, requests_append, h.asked]
    rfl
  sound := h.sound.looked m k

theorem sought_right (h : SameDrive w w') (ω : Schedule) (k : Str) :
    SameDrive w (w'.sought ω k) where
  objs := h.objs
  disk := h.disk
  asked := by
    rw [World.sought_trace, requests_append, requests_queryCalls, List.append_nil, h.asked]
  sound := h.sound

theorem sought_left (h : SameDrive w w') (ω : Schedule) (k : Str) :
    SameDrive (w.sought ω k) w' where
  objs := h.objs
  disk := h.disk
  asked := by
    rw [World.sought_trace, requests_append, requests_queryCalls, List.append_nil, h.asked]
  sound := h.sound.sought ω k

theorem asked_both (h : SameDrive w w') {calls calls' : List Call}
    (hcalls : requests calls = requests calls') : SameDrive (w.asked calls) (w'.asked calls') where
  objs := h.objs
  disk := h.disk
  asked := by
    rw [World.asked_trace, World.asked_trace, requests_append, requests_append, h.asked, hcalls]
  sound := h.sound.asked calls

theorem added (h : SameDrive w w') (o : Obj) : SameDrive (w.added o) (w'.added o) where
  objs := by rw [World.added_objs, World.added_objs, h.objs]
  disk := h.disk
  asked := h.asked
  sound := h.sound.added o

theorem remembered (h : SameDrive w w') {k v k' v' : Str} (hv : ∃ o ∈ carriers w.objs k, o.id = v) :
    SameDrive (w.remembered k v) (w'.remembered k' v') where
  objs := h.objs
  disk := h.disk
  asked := h.asked
  sound := by
    obtain ⟨o, ho, rfl⟩ := hv
    exact h.sound.remembered ho

theorem withDisk (h : SameDrive w w') (disk : Disk) :
    SameDrive (w.withDisk disk) (w'.withDisk disk) where
  objs := h.objs
  disk := rfl
  asked := h.asked
  sound := h.sound.withDisk disk

theorem withCache (h : SameDrive w w') {cache cache' : Cache} (hsub : cache ⊆ w.cache) :
    SameDrive (w.withCache cache) (w'.withCache cache') where
  objs := h.objs
  disk := h.disk
  asked := h.asked
  sound := h.sound.withCache hsub

end SameDrive

variable {ω : Schedule} {w w' v v' : DriveWorld}

theorem CreateEnds.same (hω : Steady ω) (hw : SameDrive w w') {path k : Str}
    {parentId : Option Str} {r r' : Outcome SyncerErrors (Option Str)}
    (h : CreateEnds ω path k parentId w r v)
    (h' : CreateEnds (uncached ω) path k parentId w' r' v') : r = r' ∧ SameDrive v v' := by
  have htemp := hω.tempfile_eq w.tick w'.tick
  have hsound := h.cacheSound hw.sound
  cases h with
  | rejected _ hf => exact absurd (hω.answered _) (by rw [hf]; simp)
  | lost _ _ hf => exact absurd (hω.answered _) (by rw [hf]; simp)
  | noTempfile ht =>
    rw [ht] at htemp
    cases h' with
    | noTempfile => exact ⟨rfl, hw.asked_both rfl⟩
    | made _ ht' | rejected ht' | lost _ ht' => exact absurd ht' (by rw [htemp]; simp)
  | made o ht hf ho =>
    rw [ht] at htemp
    cases h' with
    | noTempfile ht' => exact absurd ht' (by rw [htemp]; simp)
    | rejected _ hf' => exact absurd (hω.uncached_answered _) (by rw [hf']; simp)
    | lost _ _ hf' => exact absurd (hω.uncached_answered _) (by rw [hf']; simp)
    | made o' _ _ ho' =>
      have hsame : o' = o := by rw [ho, ho', ← hw.objs, hω.newObj_eq (w.tick + 1)]
      rw [hsame]
      refine ⟨rfl, ?_⟩
      have hdrive : SameDrive (((w.asked [.tempfile true]).asked
          [.create (folderRequest path parentId k) (.ok o.toFile)]).added o)
          (((w'.asked [.tempfile true]).asked
            [.create (folderRequest path parentId k) (.ok o.toFile)]).added o) :=
        ((hw.asked_both rfl).asked_both rfl).added o
      exact ⟨hdrive.objs, hdrive.disk, hdrive.asked, hsound⟩

/-- **One directory.**  The cached run and the uncached one come to the same end. -/
theorem EnsureEnds.same (hω : Steady ω) (hw : SameDrive w w') {path k pk : Str}
    {r r' : Outcome SyncerErrors Unit} (h : EnsureEnds ω path k pk w r v)
    (h' : EnsureEnds (uncached ω) path k pk w' r' v') : r = r' ∧ SameDrive v v' := by
  have hk : lookup (uncached ω (w'.tick + 1)) w'.objs k = lookup (ω (w.tick + 1)) w.objs k := by
    rw [← hw.objs, hω.lookup_eq (w.tick + 1)]
  have hpk : lookup (uncached ω (w'.tick + 2)) w'.objs pk = lookup (ω (w.tick + 2)) w.objs pk := by
    rw [← hw.objs, hω.lookup_eq (w.tick + 2)]
  have hlooked := hw.looked (ω w.tick) (uncached ω w'.tick) k
  cases h with
  | hit v hv =>
    -- the drive has what the cache has
    have hthere : lookup (ω (w.tick + 1)) w.objs k ≠ none := by
      rw [Ne, lookup_eq_none]
      rintro (hf | hnone)
      · exact hf (hω.answered _)
      · exact hw.sound.carriers_ne_nil (mem_of_left hv) hnone
    cases h' with
    | hit _ hv' => exact absurd hv' (by rw [left_uncached]; simp)
    | orphan _ hk' => exact absurd (hk.symm.trans hk') hthere
    | create _ _ _ _ hk' => exact absurd (hk.symm.trans hk') hthere
    | found v' _ hv' =>
      have hfound := hlooked.sought_right (uncached ω) k
      exact ⟨rfl, hfound.objs, hfound.disk, hfound.asked, hfound.sound⟩
  | found v _ hv =>
    cases h' with
    | hit _ hv' => exact absurd hv' (by rw [left_uncached]; simp)
    | orphan _ hk' => exact absurd (hk'.symm.trans hk) (by rw [hv]; simp)
    | create _ _ _ _ hk' => exact absurd (hk'.symm.trans hk) (by rw [hv]; simp)
    | found v' _ hv' =>
      exact ⟨rfl, ((hlooked.sought_left ω k).sought_right (uncached ω) k).remembered
        (mem_of_lookup hv)⟩
  | orphan _ hnone hpnone =>
    cases h' with
    | hit _ hv' => exact absurd hv' (by rw [left_uncached]; simp)
    | found v' _ hv' => exact absurd (hv'.symm.trans hk) (by rw [hnone]; simp)
    | create g _ _ _ _ hg => exact absurd (hg.symm.trans hpk) (by rw [hpnone]; simp)
    | orphan =>
      exact ⟨rfl, (((hlooked.sought_left ω k).sought_right (uncached ω) k).sought_left ω
        pk).sought_right (uncached ω) pk⟩
  | create g r _ _ hnone hg hcreate =>
    cases h' with
    | hit _ hv' => exact absurd hv' (by rw [left_uncached]; simp)
    | found v' _ hv' => exact absurd (hv'.symm.trans hk) (by rw [hnone]; simp)
    | orphan _ _ hpnone => exact absurd (hpnone.symm.trans hpk) (by rw [hg]; simp)
    | create g' r' _ _ _ hg' hcreate' =>
      have hsame : g' = g := Option.some.inj ((hg'.symm.trans hpk).trans hg)
      rw [hsame] at hcreate'
      obtain ⟨rfl, hend⟩ := hcreate.same hω ((((hlooked.sought_left ω k).sought_right (uncached ω)
        k).sought_left ω pk).sought_right (uncached ω) pk) hcreate'
      exact ⟨rfl, hend⟩

/-! ## The client -/

section Client

variable [Base64] {filters : List Str} {checks : Bool}

omit [Base64] in
theorem related_openFile (hω : Steady ω) (path : Str) :
    Related SameDrive (openFile (driveMachine ω checks) path)
      (openFile (driveMachine (uncached ω) checks) path) := by
  intro w w' hw
  rw [openFile_run, openFile_run, ← hw.disk, hω.readAt_eq w.tick]
  exact ⟨rfl, hw.asked_both rfl⟩

omit [Base64] in
theorem related_hubCreate (hω : Steady ω) (req : File) (content : Bytes) :
    Related SameDrive (hubCreate (driveHub ω) req content)
      (hubCreate (driveHub (uncached ω)) req content) := by
  intro w w' hw
  rw [hubCreate_run, hubCreate_run, hω.answered, hω.uncached_answered, ← hw.objs,
    hω.newObj_eq w.tick]
  exact ⟨rfl, (hw.asked_both rfl).added _⟩

theorem related_id (hω : Steady ω) (path : Str) :
    Related SameDrive ((driveClient ω filters checks).id path)
      ((driveClient (uncached ω) filters checks).id path) := by
  intro w w' hw
  cases hk : (SyncableFile.mk path).getUniqueId with
  | error e =>
    rw [Drive3Client.id, Drive3Client.id, hk]
    exact ⟨rfl, hw⟩
  | ok k =>
    have hpick : pick (uncached ω w'.tick) w'.objs k = pick (ω w.tick) w.objs k := by
      rw [← hw.objs, hω.pick_eq w.tick]
    rw [id_run hk, id_run hk, if_pos (hω.answered _), if_pos (hω.uncached_answered _), hpick]
    exact ⟨rfl, (hw.sought_left ω k).sought_right (uncached ω) k⟩

theorem related_placeFile (hω : Steady ω) (path : Str) :
    Related SameDrive ((driveClient ω filters checks).placeFile path)
      ((driveClient (uncached ω) filters checks).placeFile path) := by
  rw [Drive3Client.placeFile, Drive3Client.placeFile]
  refine (related_unwrapExcept _).bind fun _ => (related_unwrapOption _).bind fun name =>
    (related_unwrapExcept _).bind fun parentPath => ?_
  refine (related_id hω parentPath).attemptOk.bind fun answer =>
    (related_unwrapOption _).bind fun parentId => (related_ofExcept _).bind fun uid => ?_
  refine (related_openFile hω path).bind fun opened => ?_
  cases opened with
  | none => exact related_fail _
  | some content₀ =>
    simp only [driveClient_getHub, ofExcept_ok, pure_bind_eq, driveClient_machine]
    refine (related_openFile hω path).bind fun opened =>
      (related_unwrapOption _).bind fun content => (related_hubCreate hω _ content).bind ?_
    rintro (e | res)
    · exact related_fail _
    · exact (related_unwrapOption _).bind fun driveId => related_pure _

theorem related_createDir (hω : Steady ω) (path : Str) (parentId : Option Str) :
    Related SameDrive ((driveClient ω filters checks).createDir path parentId)
      ((driveClient (uncached ω) filters checks).createDir path parentId) := by
  intro w w' hw
  cases hk : (SyncableFile.mk path).getUniqueId with
  | error e =>
    have htemp : ∀ (ω : Schedule) (w : DriveWorld),
        (driveClient ω filters checks).createDir path parentId w =
          (.err e, w.asked [.tempfile (ω w.tick).tempfile]) := by
      intro ω w
      rw [Drive3Client.createDir, hk]
      rfl
    rw [htemp, htemp, hω.tempfile_eq w.tick]
    exact ⟨rfl, hw.asked_both rfl⟩
  | ok k =>
    exact (createDir_ends ω filters checks hk parentId w).same hω hw
      (createDir_ends (uncached ω) filters checks hk parentId w')

theorem related_ensureAll (hω : Steady ω) {done dirs : List Str} (hdone : ∀ c ∈ done, Solid c)
    (hdirs : ∀ c ∈ dirs, Solid c) :
    Related SameDrive (ensureAll (driveClient ω filters checks) done dirs)
      (ensureAll (driveClient (uncached ω) filters checks) done dirs) := by
  induction dirs generalizing done with
  | nil => exact related_pure ()
  | cons d dirs ih =>
    have hsnoc : ∀ c ∈ done ++ [d], Solid c := by
      simpa [or_imp, forall_and] using ⟨hdone, hdirs d (List.mem_cons_self ..)⟩
    have hk : (SyncableFile.mk (dirPrefix done ++ d)).getUniqueId = .ok (keyOf (done ++ [d])) := by
      rw [dirPrefix_append]
      exact getUniqueId_below hsnoc
    have hpk := getUniqueId_dirPrefix hdone
    have hfirst : Related SameDrive
        ((driveClient ω filters checks).ensureDir (dirPrefix done) d)
        ((driveClient (uncached ω) filters checks).ensureDir (dirPrefix done) d) := fun w w' hw =>
      (ensureDir_ends ω filters checks hk hpk w).same hω hw
        (ensureDir_ends (uncached ω) filters checks hk hpk w')
    exact hfirst.bind fun _ => ih hsnoc fun c hc => hdirs c (List.mem_cons_of_mem _ hc)

/-- **An upload** comes to the same with the cache and without it. -/
theorem related_uploadFile (hω : Steady ω) (path : Str) :
    Related SameDrive ((driveClient ω filters checks).uploadFile path)
      ((driveClient (uncached ω) filters checks).uploadFile path) := by
  rw [Drive3Client.uploadFile, Drive3Client.uploadFile, createPath_eq, createPath_eq]
  refine Related.bind (Related.attemptOk ?_) fun _ => related_placeFile hω path
  rcases hrel : relComponents path with _ | _ | ⟨d, cs⟩
  · exact related_abort
  · cases checks with
    | true => exact related_abort
    | false => exact related_pure true
  · have hsolid := solid_of_relComponents hrel
    exact (related_ensureAll hω (by simp)
      fun c hc => hsolid c (List.mem_of_mem_dropLast hc)).bind fun _ => related_pure true

theorem related_startup (hω : Steady ω) :
    Related SameDrive (startup (driveClient ω filters checks))
      (startup (driveClient (uncached ω) filters checks)) := by
  rw [startup, startup]
  refine (related_ofExcept _).bind fun _ => (related_id hω rootRemoteDir).attempt.bind ?_
  rintro (e | _ | i)
  · exact related_pure ()
  · exact (related_createDir hω rootRemoteDir none).attempt.bind fun _ => related_pure ()
  · exact related_pure ()

end Client

/-! ## Runs -/

/-- Two runs that have come to the same so far. -/
structure SameRun (s s' : Daemon) : Prop where
  drive : SameDrive s.world s'.world
  alive : s.alive = s'.alive
  log : s.log = s'.log

section Runs

variable [Base64] {filters : List Str} {checks : Bool}

theorem SameRun.start (hω : Steady ω) (hw : SameDrive w w')
    (log : List (Str × Outcome SyncerErrors (Option Str))) :
    SameRun (Daemon.start ω filters checks w log)
      (Daemon.start (uncached ω) filters checks w' log) := by
  have hstart : Related SameDrive (startup (driveClient ω filters checks))
      (startup (driveClient (uncached ω) filters checks)) := related_startup hω
  have hcache : SameDrive (w.withCache []) (w'.withCache []) := hw.withCache (List.nil_subset _)
  obtain ⟨hr, hdrive⟩ := hstart _ _ hcache
  exact ⟨hdrive, congrArg Outcome.returned hr, rfl⟩

theorem SameRun.step (hω : Steady ω) {s s' : Daemon} (hs : SameRun s s') (a : Action) :
    SameRun (s.step ω filters checks a) (s'.step (uncached ω) filters checks a) := by
  cases a with
  | restart =>
    rw [Daemon.step, Daemon.step, ← hs.log]
    exact SameRun.start hω hs.drive s.log
  | expire gone =>
    exact ⟨hs.drive.withCache fun _ he => List.mem_of_mem_filter he, hs.alive, hs.log⟩
  | upload disk path =>
    have hupload : Related SameDrive ((driveClient ω filters checks).uploadFile path)
        ((driveClient (uncached ω) filters checks).uploadFile path) := related_uploadFile hω path
    obtain ⟨hr, hdrive⟩ := hupload _ _ (hs.drive.withDisk disk)
    rw [Daemon.step, Daemon.step, ← hs.alive, ← hs.log]
    split_ifs
    · exact ⟨hdrive, congrArg Outcome.returned hr, congrArg (fun r => s.log ++ [(path, r)]) hr⟩
    · exact ⟨hs.drive, hs.alive, hs.log⟩

/-- **The cache is transparent.**  With a cache in which nothing is ever found, a run
asks for the same objects in the same order, the drive ends up the same, and each
upload ends in the same way. -/
theorem cache_transparent (ω : Schedule) (hω : Steady ω) (filters : List Str) (checks : Bool)
    (objs : List Obj) (actions : List Action) :
    let s := run ω filters checks objs actions
    let s' := run (uncached ω) filters checks objs actions
    requests s.world.trace = requests s'.world.trace ∧ s.world.objs = s'.world.objs ∧
      s.log = s'.log ∧ s.alive = s'.alive := by
  have hsame : SameRun (run ω filters checks objs actions)
      (run (uncached ω) filters checks objs actions) := by
    induction actions using List.reverseRecOn with
    | nil =>
      exact SameRun.start hω ⟨rfl, rfl, rfl, fun _ _ hv => absurd hv (by simp [World.fresh])⟩ []
    | append_singleton actions a ih =>
      rw [run_snoc, run_snoc]
      exact ih.step hω a
  exact ⟨hsame.drive.asked, hsame.drive.objs, hsame.log, hsame.alive⟩

end Runs

theorem steady_calm : Steady calm :=
  ⟨fun _ => rfl, fun _ => rfl, fun _ => rfl, fun _ => rfl, fun _ => rfl⟩

/-- Two files of one directory, where the second finds the directory in the cache. -/
theorem cache_transparent_calm :
    let s := @run standardBase64 calm [] true []
      (uploadsOf [[str "a", str "f"], [str "a", str "g"]])
    let s' := @run standardBase64 (uncached calm) [] true []
      (uploadsOf [[str "a", str "f"], [str "a", str "g"]])
    requests s.world.trace = requests s'.world.trace ∧ s.world.objs = s'.world.objs ∧
      s.log = s'.log ∧ s.alive = s'.alive :=
  @cache_transparent standardBase64 calm steady_calm [] true [] _

end PiDriveSync
