import PiDriveSync.Asked
import PiDriveSync.Cache.Sound
import PiDriveSync.Provider.Commands

/-!
# Where the entries of the cache come from

An entry is put into the cache for the answer to a creation, and in `createPath` for the
answer to a lookup as well.  `Answers k v` says of a call that it was answered, and that the answer
gives the id `v` for the unique id `k`; `Gains P w w'` says that what the cache has in
`w'` and did not have in `w` was answered on the way, under keys with the property `P`.  A
call that fails answers nothing.

`cache_entries` puts this together for runs of commands: the keys are the unique ids of
the directories the run is about, the ids are those of live objects that carry the key,
and what a command adds was answered during the command.
-/

namespace PiDriveSync

open UnixPath Fallible

/-- The call is answered, with the id `v` for the unique id `k`. -/
def Answers (k v : Str) : Call → Prop
  | .create req (.ok file) => req.appProperties = Drive3Client.appPropsMap k ∧ file.id = some v
  | .list q (.ok (some files)) => q = Drive3Client.idQuery k ∧ files.getLast?.bind File.id = some v
  | _ => False

/-- The new entries of the cache were answered on the way, under keys with the property
`P`. -/
def Gains (P : Str → Prop) (w w' : DriveWorld) : Prop :=
  ∃ calls, w'.trace = w.trace ++ calls ∧ ∀ k v, (k, v) ∈ w'.cache →
    (k, v) ∈ w.cache ∨ P k ∧ ∃ call ∈ calls, Answers k v call

namespace Gains

variable {P P' : Str → Prop} {w w' w'' : DriveWorld} {ω : Schedule}

/-- Nothing is put in. -/
theorem of_subset {calls : List Call} (htrace : w'.trace = w.trace ++ calls)
    (hcache : w'.cache ⊆ w.cache) : Gains P w w' :=
  ⟨calls, htrace, fun _ _ h => Or.inl (hcache h)⟩

theorem refl (w : DriveWorld) : Gains P w w :=
  of_subset (List.append_nil _).symm (List.Subset.refl _)

theorem trans (h : Gains P w w') (h' : Gains P w' w'') : Gains P w w'' := by
  obtain ⟨calls, htrace, hgain⟩ := h
  obtain ⟨calls', htrace', hgain'⟩ := h'
  refine ⟨calls ++ calls', by rw [htrace', htrace, List.append_assoc], fun k v hv => ?_⟩
  rcases hgain' k v hv with hv | ⟨hk, call, hcall, hanswer⟩
  · rcases hgain k v hv with hv | ⟨hk, call, hcall, hanswer⟩
    · exact Or.inl hv
    · exact Or.inr ⟨hk, call, List.mem_append_left _ hcall, hanswer⟩
  · exact Or.inr ⟨hk, call, List.mem_append_right _ hcall, hanswer⟩

theorem mono (h : Gains P w w') (hP : ∀ k, P k → P' k) : Gains P' w w' := by
  obtain ⟨calls, htrace, hgain⟩ := h
  exact ⟨calls, htrace, fun k v hv => (hgain k v hv).imp_right (And.imp_left (hP k))⟩

theorem looked (w : DriveWorld) (m : Moment) (k : Str) : Gains P w (w.looked m k) :=
  of_subset World.looked_trace fun _ he => mem_of_left he

theorem sought (w : DriveWorld) (ω : Schedule) (k : Str) : Gains P w (w.sought ω k) :=
  of_subset World.sought_trace (List.Subset.refl _)

theorem asked (w : DriveWorld) (calls : List Call) : Gains P w (w.asked calls) :=
  of_subset (World.asked_trace w calls) (List.Subset.refl _)

theorem added (w : DriveWorld) (o : Obj) : Gains P w (w.added o) :=
  of_subset (List.append_nil _).symm (List.Subset.refl _)

/-- An entry for what was answered on the way. -/
theorem remembered {calls : List Call} {k v : Str} {call : Call} (hk : P k)
    (htrace : w'.trace = w.trace ++ calls) (hcache : w'.cache = remember w.cache k v)
    (hcall : call ∈ calls) (hanswer : Answers k v call) : Gains P w w' := by
  refine ⟨calls, htrace, fun k' v' hv => ?_⟩
  rw [hcache] at hv
  rcases mem_remember.mp hv with heq | ⟨hv, -⟩
  · obtain ⟨rfl, rfl⟩ := Prod.mk.inj heq
    exact Or.inr ⟨hk, call, hcall, hanswer⟩
  · exact Or.inl hv

/-- A lookup that finds something, and the entry for it. -/
theorem found {k v : Str} (hk : P k) (hv : lookup (ω w.tick) w.objs k = some v) :
    Gains P w ((w.sought ω k).remembered k v) := by
  refine remembered hk World.sought_trace rfl (List.mem_cons_self ..) ?_
  rw [lookup] at hv
  split_ifs at hv with hf
  rw [pick, Option.map_eq_some_iff] at hv
  obtain ⟨o, ho, rfl⟩ := hv
  rw [listReply, hf]
  refine ⟨rfl, ?_⟩
  rw [List.getLast?_map, ho]
  rfl

end Gains

/-! ## The parts of a run -/

section Parts

variable {P : Str → Prop} {ω : Schedule} {w w' : DriveWorld}

theorem CreateEnds.gains {path k : Str} {parentId : Option Str}
    {r : Outcome SyncerErrors (Option Str)} (hk : P k)
    (h : CreateEnds ω path k parentId w r w') : Gains P w w' := by
  cases h with
  | noTempfile => exact .asked _ _
  | rejected => exact (Gains.asked _ _).trans (.asked _ _)
  | lost o => exact ((Gains.asked _ _).trans (.asked _ _)).trans (.added _ o)
  | made o =>
    exact (Gains.asked w [.tempfile true]).trans
      (.remembered hk rfl rfl (List.mem_singleton.mpr rfl) ⟨rfl, rfl⟩)

theorem EnsureEnds.gains {path k pk : Str} {r : Outcome SyncerErrors Unit} (hk : P k)
    (h : EnsureEnds ω path k pk w r w') : Gains P w w' := by
  cases h with
  | hit => exact .looked _ _ _
  | found v _ hv => exact (Gains.looked w (ω w.tick) k).trans (.found hk hv)
  | orphan => exact ((Gains.looked _ _ _).trans (.sought _ _ _)).trans (.sought _ _ _)
  | create g r _ _ _ _ h =>
    exact ((Gains.looked _ _ _).trans (.sought _ _ _)).trans
      ((Gains.sought _ _ _).trans (h.gains hk))

variable [Base64]

theorem WalkEnds.gains {done dirs : List Str} {r : Outcome SyncerErrors Unit}
    (hk : ∀ ds d rest, dirs = ds ++ d :: rest → P (keyOf (done ++ ds ++ [d])))
    (h : WalkEnds ω done dirs w r w') : Gains P w w' := by
  induction h with
  | nil done w => exact .refl w
  | @cons done dirs d _ _ _ _ h _ ih =>
    have hfirst : P (keyOf (done ++ [d])) := by simpa using hk [] d dirs rfl
    refine (h.gains hfirst).trans (ih fun ds e rest hsplit => ?_)
    have hnext := hk (d :: ds) e rest (by rw [hsplit, List.cons_append])
    rwa [List.append_cons done d ds] at hnext
  | @stop done dirs d _ _ h =>
    exact h.gains (by simpa using hk [] d dirs rfl)

theorem PlaceEnds.gains {path : Str} {r : Outcome SyncerErrors (Option Str)}
    (h : PlaceEnds ω path w r w') : Gains P w w' := by
  have hopened : ∀ pk, Gains P w (w.opened ω pk path) := fun pk =>
    ((Gains.sought _ _ _).trans (.asked _ _)).trans (.asked _ _)
  cases h with
  | unnamed => exact .refl _
  | unanswered | noUid => exact .sought _ _ _
  | unreadable => exact (Gains.sought _ _ _).trans (.asked _ _)
  | vanished => exact ((Gains.sought _ _ _).trans (.asked _ _)).trans (.asked _ _)
  | made _ pk _ _ o => exact ((hopened pk).trans (.asked _ _)).trans (.added _ o)
  | rejected _ pk => exact (hopened pk).trans (.asked _ _)
  | lost _ pk _ _ o => exact ((hopened pk).trans (.asked _ _)).trans (.added _ o)

/-- An upload puts in the directories of its path. -/
theorem UploadEnds.gains {checks : Bool} {path : Str} {r : Outcome SyncerErrors (Option Str)}
    (hk : ∀ lastDir d k, (lastDir, d) ∈ createDirectories path →
      (SyncableFile.mk (lastDir ++ d)).getUniqueId = .ok k → P k)
    (h : UploadEnds ω checks path w r w') : Gains P w w' := by
  have hwalk : ∀ {dirs : List Str} {f : Str} {r : Outcome SyncerErrors Unit} {w' : DriveWorld},
      relComponents path = some (dirs ++ [f]) → WalkEnds ω [] dirs w r w' → Gains P w w' := by
    intro dirs f r w' hrel hwalk
    refine hwalk.gains fun ds d rest hsplit => ?_
    rw [hsplit] at hrel
    have hsolid := solid_of_relComponents hrel
    refine hk (dirPrefix ds) d _ (mem_createDirectories hrel) ?_
    rw [dirPrefix_append]
    refine getUniqueId_below fun c hc => hsolid c ?_
    rw [List.mem_append, List.mem_singleton] at hc
    rcases hc with hc | rfl
    · simp [hc]
    · simp
  cases h with
  | outside | rootChecked => exact .refl _
  | root _ _ hp => exact hp.gains
  | crashed hrel h => exact hwalk hrel h
  | placed hrel h hp => exact (hwalk hrel h).trans hp.gains

theorem StartEnds.gains {r : Outcome SyncerErrors Unit} (hk : P (keyOf []))
    (h : StartEnds ω w r w') : Gains P w w' := by
  cases h with
  | known | unanswered => exact .sought _ _ _
  | create _ _ _ _ h => exact (Gains.sought _ _ _).trans (h.gains hk)

theorem DirEnds.gains {path : Str} {parentId : Option Str}
    {r : Outcome SyncerErrors (Option Str)}
    (hk : ∀ k, (SyncableFile.mk path).getUniqueId = .ok k → P k)
    (h : DirEnds ω path parentId w r w') : Gains P w w' := by
  cases h with
  | noUid => exact .asked _ _
  | known k hpath h => exact h.gains (hk k hpath)

theorem DirEnds.cacheSound {path : Str} {parentId : Option Str}
    {r : Outcome SyncerErrors (Option Str)} (hw : CacheSound w)
    (h : DirEnds ω path parentId w r w') : CacheSound w' := by
  cases h with
  | noUid => exact hw.asked _
  | known k _ h => exact h.cacheSound hw

end Parts

/-! ## Whole runs -/

/-- The strings of the directories that a run is about: those that `createDir` is called
with, and those that `createPath` builds. -/
inductive DirectoryString (commands : List Command) : Str → Prop
  | root : DirectoryString commands rootRemoteDir
  | createDir {path : Str} {parentId : Option Str} (h : .createDir path parentId ∈ commands) :
      DirectoryString commands path
  | createPath {disk : Disk} {path lastDir d : Str} (h : .act (.upload disk path) ∈ commands)
      (hdir : (lastDir, d) ∈ createDirectories path) : DirectoryString commands (lastDir ++ d)

section Runs

variable [Base64]

/-- The unique id of one of these directories. -/
def DirectoryKey (commands : List Command) (k : Str) : Prop :=
  ∃ d, DirectoryString commands d ∧ (SyncableFile.mk d).getUniqueId = .ok k

theorem directoryKey_root (commands : List Command) : DirectoryKey commands (keyOf []) := by
  have hroot : rootRemoteDir = below [] := by decide +kernel
  refine ⟨rootRemoteDir, .root, ?_⟩
  rw [hroot]
  exact getUniqueId_below (by simp)

variable {ω : Schedule} {checks : Bool} {commands : List Command} {s s' : Daemon}

/-- **What a command puts into the cache.** -/
theorem CommandEnds.gains {command : Command} (hmem : command ∈ commands)
    (h : CommandEnds ω checks s command s') :
    Gains (DirectoryKey commands) s.world s'.world := by
  cases h with
  | ignored => exact .refl _
  | createDir path parentId _ h => exact h.gains fun k hk => ⟨path, .createDir hmem, hk⟩
  | act h =>
    cases h with
    | ignored => exact .refl _
    | upload disk path _ h =>
      have hdisk : Gains (DirectoryKey commands) s.world (s.world.withDisk disk) :=
        .of_subset (List.append_nil _).symm (List.Subset.refl _)
      exact hdisk.trans (h.gains fun lastDir d k hdir hk =>
        ⟨lastDir ++ d, .createPath hmem hdir, hk⟩)
    | restart h =>
      have hempty : Gains (DirectoryKey commands) s.world (s.world.withCache []) :=
        .of_subset (List.append_nil _).symm (List.nil_subset _)
      exact hempty.trans (h.gains (directoryKey_root commands))
    | expire gone =>
      exact .of_subset (List.append_nil _).symm fun _ he => List.mem_of_mem_filter he

theorem CommandEnds.cacheSound {command : Command} (hs : CacheSound s.world)
    (h : CommandEnds ω checks s command s') : CacheSound s'.world := by
  cases h with
  | ignored => exact hs
  | createDir path parentId _ h => exact h.cacheSound hs
  | act h =>
    cases h with
    | ignored => exact hs
    | upload disk path _ h => exact h.cacheSound (hs.withDisk disk)
    | restart h => exact h.cacheSound (hs.withCache (List.nil_subset _))
    | expire gone => exact hs.withCache fun _ he => List.mem_of_mem_filter he

/-- **Every entry of the cache is right, and was answered.**  In every run, whatever fails
and whatever leaves the cache: the key is the unique id of a directory of the run and the
value the id of a live object that carries the key; and what a command adds to the cache
was the answer to a call made in it. -/
theorem cache_entries (ω : Schedule) (filters : List Str) (checks : Bool) (objs : List Obj)
    (commands : List Command) :
    (∀ k v, (k, v) ∈ (obeyed ω filters checks objs commands).world.cache →
      DirectoryKey commands k ∧
        ∃ o ∈ carriers (obeyed ω filters checks objs commands).world.objs k, o.id = v) ∧
    ∀ command k v,
      (k, v) ∈ (obeyed ω filters checks objs (commands ++ [command])).world.cache →
        (k, v) ∈ (obeyed ω filters checks objs commands).world.cache ∨
          ∃ call ∈ callsSince (obeyed ω filters checks objs commands).world
            (obeyed ω filters checks objs (commands ++ [command])).world, Answers k v call := by
  have hrun : CacheSound (obeyed ω filters checks objs commands).world ∧
      ∀ k v, (k, v) ∈ (obeyed ω filters checks objs commands).world.cache →
        DirectoryKey commands k := by
    refine obeyed_inv ω filters checks (fun s => CacheSound s.world ∧
      ∀ k v, (k, v) ∈ s.world.cache → DirectoryKey commands k) ?_ ?_
    · intro r w' h
      have hfresh : CacheSound (World.fresh objs) := fun _ _ hv => absurd hv List.not_mem_nil
      refine ⟨h.cacheSound hfresh, fun k v hv => ?_⟩
      obtain ⟨_, -, hgain⟩ := h.gains (directoryKey_root commands)
      rcases hgain k v hv with hv | ⟨hk, -⟩
      · exact absurd hv List.not_mem_nil
      · exact hk
    · intro command hmem s s' hs h
      refine ⟨h.cacheSound hs.1, fun k v hv => ?_⟩
      obtain ⟨_, -, hgain⟩ := h.gains hmem
      rcases hgain k v hv with hv | ⟨hk, -⟩
      · exact hs.2 k v hv
      · exact hk
  refine ⟨fun k v hv => ⟨hrun.2 k v hv, hrun.1 k v hv⟩, fun command k v hv => ?_⟩
  have hlast := obey_ends ω filters checks (obeyed ω filters checks objs commands) command
  rw [← obeyed_snoc] at hlast
  have hmem : command ∈ [command] := List.mem_singleton.mpr rfl
  obtain ⟨calls, htrace, hgain⟩ := hlast.gains hmem
  rw [callsSince_of_trace htrace]
  exact (hgain k v hv).imp_right And.right

end Runs

end PiDriveSync
