import PiDriveSync.Provider.Calm
import PiDriveSync.Provider.Record

/-!
# Two folders for one directory

`createPath` asks the drive whether a directory has a folder, and takes an error for
the answer that it has none.  If the folder is there and its creation is then answered,
the directory has two.

`atMostOne_iff` says that this is the only way: in a run in which no answer is lost,
every directory has at most one live folder at all times exactly if no upload gets an
error from the existence query of a directory that has one, and goes on to create it.
The walk of one upload comes by each directory once, so a folder created on the way
never counts as the first of two.
-/

namespace PiDriveSync

open UnixPath Fallible

/-- The folders outside the trash that carry a unique id. -/
def liveFolders (objs : List Obj) (k : Str) : List Obj :=
  (carriers objs k).filter Obj.isFolder

@[simp] theorem liveFolders_append (objs objs' : List Obj) (k : Str) :
    liveFolders (objs ++ objs') k = liveFolders objs k ++ liveFolders objs' k := by
  simp [liveFolders]

theorem mem_liveFolders {objs : List Obj} {k : Str} {o : Obj} :
    o ∈ liveFolders objs k ↔ o ∈ carriers objs k ∧ o.isFolder = true :=
  List.mem_filter

theorem liveFolders_eq_nil {objs : List Obj} {k : Str} (h : carriers objs k = []) :
    liveFolders objs k = [] := by
  rw [liveFolders, h, List.filter_nil]

/-- No unique id belongs to two live folders. -/
def AtMostOne (objs : List Obj) : Prop :=
  ∀ k, (liveFolders objs k).length ≤ 1

theorem AtMostOne.of_starts {objs objs' : List Obj} (h : AtMostOne objs') (hpre : objs <+: objs') :
    AtMostOne objs := by
  obtain ⟨rest, rfl⟩ := hpre
  intro k
  have hk := h k
  rw [liveFolders_append, List.length_append] at hk
  omega

theorem liveFolders_of_unsynced {objs : List Obj} (h : Unsynced objs) (k : Str) :
    liveFolders objs k = [] :=
  liveFolders_eq_nil (carriers_of_unsynced h k)

/-! ## The slip -/

/-- The cache did not have a directory, and the query for it failed. -/
def ExistenceFailed (calls : List Call) (k : Str) : Prop :=
  ∃ q e, [Call.containsKey k false, .list q (.error e)] <:+: calls

theorem ExistenceFailed.append_left {calls : List Call} {k : Str} (h : ExistenceFailed calls k)
    (before : List Call) : ExistenceFailed (before ++ calls) k := by
  obtain ⟨q, e, h⟩ := h
  exact ⟨q, e, h.trans (List.suffix_append _ _).isInfix⟩

theorem ExistenceFailed.append_right {calls : List Call} {k : Str} (h : ExistenceFailed calls k)
    (after : List Call) : ExistenceFailed (calls ++ after) k := by
  obtain ⟨q, e, h⟩ := h
  exact ⟨q, e, h.trans (List.prefix_append _ _).isInfix⟩

/-- A folder was asked for, and the request answered. -/
def FolderAnswered (calls : List Call) (k : Str) : Prop :=
  ∃ req ∈ answered calls, RequestFor k req ∧ req.mimeType = some folderMimeType

/-- The existence query of a directory fails although the directory has a live folder
among `objs`, and the directory is created again. -/
def Recreates (objs : List Obj) (calls : List Call) : Prop :=
  ∃ k, liveFolders objs k ≠ [] ∧ ExistenceFailed calls k ∧ FolderAnswered calls k

/-- An added folder was asked for. -/
theorem Recorded.folderAnswered {w w' : DriveWorld} {calls : List Call} {added : List Obj}
    (h : Recorded w w' calls added) {k : Str} :
    FolderAnswered calls k ↔ liveFolders added k ≠ [] := by
  constructor
  · rintro ⟨req, hreq, hk, hmime⟩
    obtain ⟨o, ho, hmade⟩ := h.exists_of_answered hreq
    refine List.ne_nil_of_mem (mem_liveFolders.mpr
      ⟨mem_carriers.mpr ⟨ho, hmade.live, hmade.syncId_iff.mpr hk⟩, ?_⟩)
    rw [hmade.isFolder, hmime]
    simp
  · intro hne
    obtain ⟨o, ho⟩ := List.exists_mem_of_ne_nil _ hne
    obtain ⟨hcarrier, hfolder⟩ := mem_liveFolders.mp ho
    obtain ⟨hadded, -, hk⟩ := mem_carriers.mp hcarrier
    obtain ⟨req, hreq, hmade⟩ := h.exists_of_added hadded
    rw [hmade.isFolder, beq_iff_eq] at hfolder
    exact ⟨req, hreq, hmade.syncId_iff.mp hk, hfolder⟩

/-! ## What an upload adds for one directory -/

/-- What can be added for the key `k` on the way from `w`: nothing, or one folder, and
that only if nothing carried the key or the query for it failed. -/
def OneFolder (w : DriveWorld) (calls : List Call) (added : List Obj) (k : Str) : Prop :=
  liveFolders added k = [] ∨
    (∃ o, liveFolders added k = [o]) ∧ (carriers w.objs k = [] ∨ ExistenceFailed calls k)

variable {ω : Schedule} {w w' : DriveWorld}

/-- A creation adds one folder under its key, or nothing. -/
theorem CreateEnds.oneFolder (hω : NoneLost ω) {path k : Str} {parentId : Option Str}
    {r : Outcome SyncerErrors (Option Str)} (h : CreateEnds ω path k parentId w r w') :
    ∃ calls added, Recorded w w' calls added ∧
      ∀ k', liveFolders added k' = [] ∨ k' = k ∧ ∃ o, liveFolders added k' = [o] := by
  obtain ⟨calls, added, hrec⟩ := h.recorded hω
  refine ⟨calls, added, hrec, fun k' => ?_⟩
  rcases h.objs_cases with hobjs | ⟨n, hobjs⟩
  · rw [hrec.objs, List.append_right_eq_self] at hobjs
    rw [hobjs]
    exact Or.inl rfl
  · rw [hrec.objs, List.append_cancel_left_eq] at hobjs
    by_cases hk : k' = k
    · refine Or.inr ⟨hk, newObj (ω n) w.objs (folderRequest path parentId k) [], ?_⟩
      rw [hobjs, hk]
      simp [liveFolders, carriers]
    · left
      rw [hobjs]
      simp [liveFolders, carriers, Ne.symm hk]

omit ω w w' in
/-- A failed lookup is one call, and it is on record. -/
theorem queryCalls_of_fault {m : Moment} (hf : m.fault ≠ .none) (objs : List Obj) (k : Str) :
    ∃ q, queryCalls m objs k = [.list q (.error m.error)] := by
  refine ⟨Drive3Client.idQuery k, ?_⟩
  rw [queryCalls, if_neg fun h => hf h.1, listReply]
  split
  · exact absurd ‹_› hf
  · rfl

/-- **One directory.** -/
theorem EnsureEnds.oneFolder (hω : NoneLost ω) {path k pk : Str} {r : Outcome SyncerErrors Unit}
    (h : EnsureEnds ω path k pk w r w') :
    ∃ calls added, Recorded w w' calls added ∧
      ∀ k', liveFolders added k' = [] ∨ k' = k ∧ OneFolder w calls added k' := by
  have hidle : w'.objs = w.objs → ∃ calls added, Recorded w w' calls added ∧
      ∀ k', liveFolders added k' = [] ∨ k' = k ∧ OneFolder w calls added k' := by
    intro hobjs
    obtain ⟨calls, added, hrec⟩ := h.recorded hω
    refine ⟨calls, added, hrec, fun k' => Or.inl ?_⟩
    rw [hrec.objs, List.append_right_eq_self] at hobjs
    rw [hobjs]
    rfl
  cases h with
  | hit | found | orphan => exact hidle rfl
  | create g r _ miss hk hpk hcreate =>
    obtain ⟨calls, added, hrec, hone⟩ := hcreate.oneFolder hω
    have hmiss := any_left_eq_false.mpr miss
    have hbefore : Recorded w (((w.looked (ω w.tick) k).sought ω k).sought ω pk)
        (.containsKey k false :: queryCalls (ω (w.tick + 1)) w.objs k ++
          queryCalls (ω (w.tick + 2)) w.objs pk) [] := by
      refine .of_idle ?_ rfl ?_
      · simp [hmiss]
      · simp only [List.cons_append, answered, List.filterMap_cons]
        exact (answered_append ..).trans (by simp)
    refine ⟨_, _, hbefore.trans hrec, fun k' => ?_⟩
    rw [List.nil_append]
    rcases hone k' with hnil | ⟨rfl, o, ho⟩
    · exact Or.inl hnil
    · refine Or.inr ⟨rfl, Or.inr ⟨⟨o, ho⟩, ?_⟩⟩
      rcases lookup_eq_none.mp hk with hf | hnone
      · right
        obtain ⟨q, hq⟩ := queryCalls_of_fault hf w.objs k'
        rw [hq]
        refine ⟨q, (ω (w.tick + 1)).error, ?_⟩
        exact (List.prefix_append _ _).isInfix
      · exact Or.inl hnone

variable [Base64]

/-- **The walk.**  Each directory comes up once, so the folders of different
directories do not get in each other's way. -/
theorem WalkEnds.oneFolder (hω : NoneLost ω) {done dirs : List Str}
    (hsolid : ∀ c ∈ done ++ dirs, Solid c) {r : Outcome SyncerErrors Unit}
    (h : WalkEnds ω done dirs w r w') :
    ∃ calls added, Recorded w w' calls added ∧ ∀ k', liveFolders added k' = [] ∨
      (∃ d ds, d :: ds <+: dirs ∧ k' = keyOf (done ++ d :: ds)) ∧ OneFolder w calls added k' := by
  induction h with
  | nil done w =>
    exact ⟨[], [], .of_idle (List.append_nil _).symm rfl rfl, fun _ => Or.inl rfl⟩
  | @stop done dirs d w w' h =>
    obtain ⟨calls, added, hrec, hone⟩ := h.oneFolder hω
    refine ⟨calls, added, hrec, fun k' => ?_⟩
    rcases hone k' with hnil | ⟨hk, hone⟩
    · exact Or.inl hnil
    · exact Or.inr ⟨⟨d, [], by simp, hk⟩, hone⟩
  | @cons done dirs d w w₁ w' r h _ ih =>
    obtain ⟨calls, added, hrec, hone⟩ := h.oneFolder hω
    obtain ⟨calls', added', hrec', hone'⟩ := ih (by simpa using hsolid)
    refine ⟨_, _, hrec.trans hrec', fun k' => ?_⟩
    rcases hone k' with hnil | ⟨hk, hhead⟩
    · -- the first directory adds nothing for this key
      rcases hone' k' with hnil' | ⟨⟨e, es, hpre, hk'⟩, hrest⟩
      · exact Or.inl (by rw [liveFolders_append, hnil, hnil', List.append_nil])
      · refine Or.inr ⟨⟨d, e :: es, List.cons_prefix_cons.mpr ⟨rfl, hpre⟩, by simp [hk']⟩, ?_⟩
        rcases hrest with hnil' | ⟨ho, hwhy⟩
        · exact Or.inl (by rw [liveFolders_append, hnil, hnil', List.append_nil])
        · refine Or.inr ⟨by simpa [hnil] using ho, ?_⟩
          rcases hwhy with hnone | hfailed
          · rw [hrec.objs, carriers_append, List.append_eq_nil_iff] at hnone
            exact Or.inl hnone.1
          · exact Or.inr (hfailed.append_left calls)
    · -- the rest of the walk is below, under other keys
      have hrest : liveFolders added' k' = [] := by
        rcases hone' k' with hnil' | ⟨⟨e, es, hpre, hk'⟩, -⟩
        · exact hnil'
        · have hsolid' : ∀ c ∈ done ++ [d] ++ e :: es, Solid c := by
            intro c hc
            refine hsolid c ?_
            simp only [List.append_assoc, List.mem_append, List.singleton_append] at hc ⊢
            rcases hc with hc | hc
            · exact Or.inl hc
            · exact Or.inr ((List.cons_prefix_cons.mpr ⟨rfl, hpre⟩).subset hc)
          have hheadSolid : ∀ c ∈ done ++ [d], Solid c :=
            fun c hc => hsolid' c (List.mem_append_left _ hc)
          rw [hk, keyOf_inj hheadSolid hsolid'] at hk'
          exact absurd (List.self_eq_append_right.mp hk') (by simp)
      refine Or.inr ⟨⟨d, [], by simp, hk⟩, ?_⟩
      rcases hhead with hnil | ⟨ho, hwhy⟩
      · exact Or.inl (by rw [liveFolders_append, hnil, hrest, List.append_nil])
      · refine Or.inr ⟨by simpa [hrest] using ho, ?_⟩
        exact hwhy.imp_right fun hfailed => hfailed.append_right calls'

/-- The file is not a folder. -/
theorem PlaceEnds.oneFolder (hω : NoneLost ω) {path : Str}
    {r : Outcome SyncerErrors (Option Str)} (h : PlaceEnds ω path w r w') :
    ∃ calls added, Recorded w w' calls added ∧ ∀ k', liveFolders added k' = [] := by
  obtain ⟨calls, added, hrec⟩ := h.recorded hω
  refine ⟨calls, added, hrec, fun k' => ?_⟩
  have hplain : added = [] ∨ ∃ n name parentId k content,
      added = [newObj (ω n) w.objs (fileRequest name parentId k) content] := by
    have hobjs := hrec.objs
    cases h with
    | unnamed | unanswered | noUid | unreadable | vanished | rejected =>
      exact Or.inl (List.self_eq_append_right.mp hobjs)
    | lost _ _ _ _ _ _ _ _ _ _ hc => exact absurd hc (hω _)
    | made name pk k content o _ _ _ _ _ _ ho =>
      refine Or.inr ⟨w.tick + 3, name, pick (ω w.tick) w.objs pk, k, content, ?_⟩
      rw [← ho]
      exact (List.append_cancel_left hobjs).symm
  rcases hplain with rfl | ⟨n, name, parentId, k, content, rfl⟩
  · rfl
  · by_cases hk : k = k'
    · simp [liveFolders, carriers, hk]
    · simp [liveFolders, carriers, hk]

/-- **An upload.** -/
theorem UploadEnds.oneFolder (hω : NoneLost ω) {checks : Bool} {path : Str}
    {r : Outcome SyncerErrors (Option Str)} (h : UploadEnds ω checks path w r w') :
    ∃ calls added, Recorded w w' calls added ∧ ∀ k', OneFolder w calls added k' := by
  cases h with
  | outside | rootChecked =>
    exact ⟨[], [], .of_idle (List.append_nil _).symm rfl rfl, fun _ => Or.inl rfl⟩
  | root _ _ hp =>
    obtain ⟨calls, added, hrec, hnil⟩ := hp.oneFolder hω
    exact ⟨calls, added, hrec, fun k' => Or.inl (hnil k')⟩
  | @crashed dirs f hrel _ h =>
    have hsolid := solid_of_relComponents hrel
    obtain ⟨calls, added, hrec, hone⟩ := h.oneFolder hω
      fun c hc => hsolid c (List.mem_append_left _ hc)
    exact ⟨calls, added, hrec, fun k' => (hone k').elim Or.inl fun h => h.2⟩
  | @placed dirs f hrel w₁ _ _ h hp =>
    have hsolid := solid_of_relComponents hrel
    obtain ⟨calls, added, hrec, hone⟩ := h.oneFolder hω
      fun c hc => hsolid c (List.mem_append_left _ hc)
    obtain ⟨calls', added', hrec', hnil'⟩ := hp.oneFolder hω
    refine ⟨_, _, hrec.trans hrec', fun k' => ?_⟩
    rcases hone k' with hnil | ⟨-, hnil | ⟨ho, hwhy⟩⟩
    · exact Or.inl (by rw [liveFolders_append, hnil, hnil' k', List.append_nil])
    · exact Or.inl (by rw [liveFolders_append, hnil, hnil' k', List.append_nil])
    · exact Or.inr ⟨by simpa [hnil' k'] using ho,
        hwhy.imp_right fun hfailed => hfailed.append_right calls'⟩

/-- **A start.** -/
theorem StartEnds.oneFolder (hω : NoneLost ω) {r : Outcome SyncerErrors Unit}
    (h : StartEnds ω w r w') :
    ∃ calls added, Recorded w w' calls added ∧ ∀ k', OneFolder w calls added k' := by
  cases h with
  | known | unanswered =>
    exact ⟨_, [], .of_idle rfl rfl (answered_queryCalls ..), fun _ => Or.inl rfl⟩
  | create _ hnone _ _ h =>
    obtain ⟨calls, added, hrec, hone⟩ := h.oneFolder hω
    have hbefore : Recorded w (w.sought ω (keyOf []))
        (queryCalls (ω w.tick) w.objs (keyOf [])) [] :=
      .of_idle rfl rfl (answered_queryCalls ..)
    refine ⟨_, _, hbefore.trans hrec, fun k' => ?_⟩
    rw [List.nil_append]
    rcases hone k' with hnil | ⟨rfl, ho⟩
    · exact Or.inl hnil
    · exact Or.inr ⟨ho, Or.inl hnone⟩

/-! ## Runs -/

omit [Base64] in
/-- On the way from `w` to `w'` no second folder comes in, unless a directory is
created again. -/
theorem Recorded.atMostOne {calls : List Call} {added : List Obj}
    (hrec : Recorded w w' calls added) (hone : ∀ k, OneFolder w calls added k)
    (hw : AtMostOne w.objs) (hslip : ¬ Recreates w.objs calls) : AtMostOne w'.objs := by
  intro k
  have hk := hw k
  rw [hrec.objs, liveFolders_append, List.length_append]
  rcases hone k with hnil | ⟨⟨o, ho⟩, hwhy⟩
  · rw [hnil, List.length_nil]
    omega
  · have hnone : liveFolders w.objs k = [] := by
      rcases hwhy with hnone | hfailed
      · exact liveFolders_eq_nil hnone
      · by_contra hne
        exact hslip ⟨k, hne, hfailed, hrec.folderAnswered.mpr (by rw [ho]; simp)⟩
    rw [hnone, ho]
    exact le_rfl

omit [Base64] in
/-- A directory that is created again has two folders. -/
theorem Recorded.not_atMostOne {calls : List Call} {added : List Obj}
    (hrec : Recorded w w' calls added) (hslip : Recreates w.objs calls) : ¬ AtMostOne w'.objs := by
  obtain ⟨k, hne, -, hanswered⟩ := hslip
  intro h
  have hk := h k
  have hfirst := List.length_pos_iff.mpr hne
  have hsecond := List.length_pos_iff.mpr (hrec.folderAnswered.mp hanswered)
  rw [hrec.objs, liveFolders_append, List.length_append] at hk
  omega

/-- **A step.** -/
theorem step_oneFolder (hω : NoneLost ω) (filters : List Str) (checks : Bool) (s : Daemon)
    (a : Action) :
    ∃ calls added, Recorded s.world (s.step ω filters checks a).world calls added ∧
      ∀ k, OneFolder s.world calls added k := by
  obtain ⟨s', hstep, he⟩ := step_ends ω filters checks s a
  rw [he]
  cases hstep with
  | ignored | expire =>
    exact ⟨[], [], .of_idle (List.append_nil _).symm rfl rfl, fun _ => Or.inl rfl⟩
  | restart h =>
    obtain ⟨calls, added, hrec, hone⟩ := h.oneFolder hω
    exact ⟨calls, added, ⟨hrec.trace, hrec.objs, hrec.made⟩, hone⟩
  | upload _ _ _ h =>
    obtain ⟨calls, added, hrec, hone⟩ := h.oneFolder hω
    exact ⟨calls, added, ⟨hrec.trace, hrec.objs, hrec.made⟩, hone⟩

/-- **At most one folder for each directory**, at all times of a run in which no answer
is lost, exactly if no directory with a live folder is created again after its
existence query failed. -/
theorem atMostOne_iff (ω : Schedule) (hω : NoneLost ω) (filters : List Str) (checks : Bool)
    (objs : List Obj) (hobjs : Unsynced objs) (actions : List Action) :
    (∀ objs', objs' <+: (run ω filters checks objs actions).world.objs → AtMostOne objs') ↔
      ∀ pre a, pre ++ [a] <+: actions →
        ¬ Recreates (run ω filters checks objs pre).world.objs
          (callsSince (run ω filters checks objs pre).world
            (run ω filters checks objs (pre ++ [a])).world) := by
  constructor
  · rintro h pre a ⟨rest, rfl⟩ hslip
    obtain ⟨calls, added, hrec, -⟩ :=
      step_oneFolder hω filters checks (run ω filters checks objs pre) a
    rw [← run_snoc] at hrec
    rw [hrec.callsSince_eq] at hslip
    exact hrec.not_atMostOne hslip (h _ (run_starts_with ..))
  · intro h
    have hall : ∀ pre, pre <+: actions → AtMostOne (run ω filters checks objs pre).world.objs := by
      intro pre hpre
      induction pre using List.reverseRecOn with
      | nil =>
        obtain ⟨r, w', hstart, he⟩ := start_ends ω filters checks (.fresh objs) []
        obtain ⟨calls, added, hrec, hone⟩ := hstart.oneFolder hω
        rw [show run ω filters checks objs [] = _ from he]
        have hnone := liveFolders_of_unsynced hobjs
        refine hrec.atMostOne hone (fun k => ?_) ?_
        · show (liveFolders objs k).length ≤ 1
          rw [hnone k]
          exact Nat.zero_le _
        · rintro ⟨k, hne, -⟩
          exact hne (hnone k)
      | append_singleton pre a ih =>
        obtain ⟨calls, added, hrec, hone⟩ :=
          step_oneFolder hω filters checks (run ω filters checks objs pre) a
        rw [← run_snoc] at hrec
        have hslip := h pre a hpre
        rw [hrec.callsSince_eq] at hslip
        exact hrec.atMostOne hone (ih ((List.prefix_append _ _).trans hpre)) hslip
    exact fun objs' hpre => (hall actions List.prefix_rfl).of_starts hpre

omit [Base64] in
/-- Two files of one directory, with the cache emptied in between. -/
theorem atMostOne_iff_calm :
    let actions := [.upload everyFile (below [str "a", str "f"]), .expire fun _ => true,
      .upload everyFile (below [str "a", str "g"])]
    (∀ objs', objs' <+: (@run standardBase64 calm [] true [] actions).world.objs →
      AtMostOne objs') ↔
      ∀ pre a, pre ++ [a] <+: actions →
        ¬ Recreates (@run standardBase64 calm [] true [] pre).world.objs
          (callsSince (@run standardBase64 calm [] true [] pre).world
            (@run standardBase64 calm [] true [] (pre ++ [a])).world) :=
  @atMostOne_iff standardBase64 calm (by simp [NoneLost, calm]) [] true [] (by simp [Unsynced]) _

omit [Base64] in
/-- The same run, where the existence query of the second upload fails. -/
theorem failed_query_duplicates_folder :
    let s := @run standardBase64 (calmBut 13 .rejected) [] true []
      [.upload everyFile (below [str "a", str "f"]), .expire fun _ => true,
        .upload everyFile (below [str "a", str "g"])]
    (liveFolders s.world.objs (@keyOf standardBase64 [str "a"])).length = 2 := by
  decide +kernel

end PiDriveSync
