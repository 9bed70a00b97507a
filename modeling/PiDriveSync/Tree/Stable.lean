import PiDriveSync.Tree.Mirror

/-!
# After any damage, a restart is enough

A run may have gone wrong in every way: folders may be missing or double, files may hang
nowhere, the process may have died.  When it is started again and nothing goes wrong any
more, every upload from then on succeeds, and the new file has the content of the local
file and one parent, an object that carries the id of its directory.  This needs nothing of
the drive it starts from (`stabilises`).

What is double stays double, but no directory gets a second folder from then on
(`resume_liveFolders`).
-/

namespace PiDriveSync

open UnixPath Fallible

section Resume

variable [Base64] (ω : Schedule) (filters : List Str) (checks : Bool)

/-- The program is started again, whatever has become of the drive, and goes on. -/
def resume (s : Daemon) (actions : List Action) : Daemon :=
  actions.foldl (Daemon.step ω filters checks) (Daemon.start ω filters checks s.world s.log)

theorem resume_snoc (s : Daemon) (actions : List Action) (a : Action) :
    resume ω filters checks s (actions ++ [a]) =
      (resume ω filters checks s actions).step ω filters checks a := by
  rw [resume, List.foldl_append]
  rfl

/-- What a step adds. -/
theorem step_grows {U : Str → Prop} (s : Daemon) (a : Action)
    (ha : ∀ disk path, a = .upload disk path → U path) :
    Grows (Adds ω U) s.world.objs (s.step ω filters checks a).world.objs := by
  obtain ⟨s', hstep, he⟩ := step_ends ω filters checks s a
  rw [he]
  cases hstep with
  | ignored | expire => exact .refl
  | restart h => exact h.grows
  | @upload disk path _ _ w' h =>
    exact (h.grows (ha disk path rfl) : Grows (Adds ω U) (s.world.withDisk disk).objs w'.objs)

theorem resume_grows (s : Daemon) (actions : List Action) : Grows (Adds ω (Uploads actions))
    s.world.objs (resume ω filters checks s actions).world.objs := by
  refine List.foldlRecOn actions _ (motive := fun s' : Daemon =>
    Grows (Adds ω (Uploads actions)) s.world.objs s'.world.objs) ?_ fun s' hs' a ha => ?_
  · obtain ⟨r, w', h, he⟩ := start_ends ω filters checks s.world s.log
    rw [he]
    exact h.grows
  · refine hs'.trans (step_grows ω filters checks s' a ?_)
    rintro disk path rfl
    exact ⟨disk, ha⟩

end Resume

/-! ## No further folder -/

section Folders

variable [Base64] {ω : Schedule} {U : Str → Prop}

/-- When no call fails, a folder is only added to a directory without an object. -/
theorem Adds.liveFolders_eq (hω : Faultless ω) {objs : List Obj} {o : Obj} (h : Adds ω U objs o)
    {k : Str} (hk : carriers objs k ≠ []) :
    liveFolders (objs ++ [o]) k = liveFolders objs k := by
  have hother : o.isFolder = false ∨ o.syncId ≠ some k := by
    cases h with
    | root n t hf hempty =>
      refine Or.inr fun heq => hk ?_
      rw [newObj_folder_syncId, Option.some.injEq] at heq
      rw [← heq, hempty]
    | folder n t s hpath hrel hlookup hpk =>
      refine Or.inr fun heq => hk ?_
      rw [newObj_folder_syncId, Option.some.injEq] at heq
      rw [← heq]
      exact (lookup_eq_none.mp hlookup).resolve_left fun hf => hf (hω t)
    | file => exact Or.inl newObj_file_isFolder
  have hnone : liveFolders [o] k = [] := by
    rcases hother with ho | ho <;> simp [liveFolders, carriers, ho]
  rw [liveFolders_append, hnone, List.append_nil]

/-- **The folders of a directory**, when no call fails: those it had, or one if it had no
object. -/
theorem liveFolders_of_grows (hω : Faultless ω) {objs objs' : List Obj}
    (h : Grows (Adds ω U) objs objs') (k : Str) :
    (carriers objs k ≠ [] → liveFolders objs' k = liveFolders objs k) ∧
      (carriers objs k = [] → (liveFolders objs' k).length ≤ 1) := by
  refine h.inv (P := fun l => (carriers objs k ≠ [] → carriers l k ≠ [] ∧
    liveFolders l k = liveFolders objs k) ∧ (carriers objs k = [] →
      (liveFolders l k).length ≤ 1)) ⟨fun hk => ⟨hk, rfl⟩, fun hk => ?_⟩ ?_ |>.imp_left
        fun hkept hk => (hkept hk).2
  · rw [liveFolders_eq_nil hk]
    exact Nat.zero_le 1
  · rintro l o ⟨hkept, hone⟩ ho
    refine ⟨fun hk => ?_, fun hk => ?_⟩
    · obtain ⟨hne, heq⟩ := hkept hk
      refine ⟨fun hnil => hne (carriers_eq_nil_of_starts (List.prefix_append _ _) hnil), ?_⟩
      rw [ho.liveFolders_eq hω hne, heq]
    · by_cases hne : carriers l k = []
      · rw [liveFolders_append, liveFolders_eq_nil hne, List.nil_append]
        exact (List.length_filter_le _ _).trans (List.length_filter_le _ _)
      · rw [ho.liveFolders_eq hω hne]
        exact hone hk

end Folders

/-! ## Every upload succeeds -/

section Uploads

variable [Base64]

/-- The object of an upload, below an object that carries the id of its directory. -/
def AttachedFor (objs : List Obj) (u : Disk × Str) (o : Obj) : Prop :=
  ∃ dirs f, IsFilePath u.2 dirs f ∧ o.trashed = false ∧ o.isFolder = false ∧
    o.syncId = some (keyOf (dirs ++ [f])) ∧ o.name = some f ∧ u.1 u.2 = some o.content ∧
    ∃ p ∈ carriers objs (keyOf dirs), o.parents = [p.id]

theorem AttachedFor.mono {objs objs' : List Obj} (hpre : objs <+: objs') {u : Disk × Str} {o : Obj}
    (h : AttachedFor objs u o) : AttachedFor objs' u o := by
  obtain ⟨dirs, f, hpath, hlive, hplain, hkey, hname, hcontent, p, hp, hparent⟩ := h
  obtain ⟨hmem, hrest⟩ := mem_carriers.mp hp
  exact ⟨dirs, f, hpath, hlive, hplain, hkey, hname, hcontent, p,
    mem_carriers.mpr ⟨hpre.subset hmem, hrest⟩, hparent⟩

/-- What has come of the uploads since the program was started again in `s₀`. -/
structure Settled (s₀ : Daemon) (actions : List Action) (files : List Obj) (s : Daemon) :
    Prop where
  alive : s.alive = true
  cache : CacheSound s.world
  root : carriers s.world.objs (keyOf []) ≠ []
  plain : plainSynced s.world.objs = plainSynced s₀.world.objs ++ files
  attached : List.Forall₂ (AttachedFor s.world.objs) (uploadsIn actions) files
  log : s.log = s₀.log ++
    List.zipWith (fun u o => (u.2, .ok (some o.id))) (uploadsIn actions) files

variable {ω : Schedule} (hω : Quiet ω) (filters : List Str) (checks : Bool)

include hω

theorem settled_start (s₀ : Daemon) :
    Settled s₀ [] [] (resume ω filters checks s₀ []) := by
  obtain ⟨r, w', hstart, he⟩ := start_ends ω filters checks s₀.world s₀.log
  rw [show resume ω filters checks s₀ [] = _ from he]
  have hsound : CacheSound (s₀.world.withCache []) := fun _ _ hv => absurd hv (by simp)
  obtain ⟨rfl, hroot⟩ := hstart.quiet hω
  refine ⟨rfl, hstart.cacheSound hsound, hroot, ?_, .nil, by simp [uploadsIn]⟩
  rw [List.append_nil]
  exact plainSynced_of_folders hstart.growsByFolders

/-- **A step.** -/
theorem Settled.step {s₀ s : Daemon} {pre : List Action} {files : List Obj}
    (hs : Settled s₀ pre files s) {a : Action} (ha : ∀ disk path, a = .upload disk path →
      disk path ≠ none ∧ ∃ dirs f, IsFilePath path dirs f) :
    ∃ new, Settled s₀ (pre ++ [a]) (files ++ new) (s.step ω filters checks a) := by
  obtain ⟨s', hstep, he⟩ := step_ends ω filters checks s a
  rw [he]
  cases hstep with
  | ignored _ _ hdead => exact absurd (hdead.symm.trans hs.alive) (by simp)
  | expire gone =>
    have huploads : uploadsIn (pre ++ [.expire gone]) = uploadsIn pre := by simp [uploadsIn]
    refine ⟨[], ⟨hs.alive, hs.cache.withCache fun e he => List.mem_of_mem_filter he, hs.root,
      ?_, ?_, ?_⟩⟩
    · rw [List.append_nil]
      exact hs.plain
    · rw [List.append_nil, huploads]
      exact hs.attached
    · rw [List.append_nil, huploads]
      exact hs.log
  | restart hstart =>
    have huploads : uploadsIn (pre ++ [.restart]) = uploadsIn pre := by simp [uploadsIn]
    have hsound : CacheSound (s.world.withCache []) := hs.cache.withCache (by simp)
    obtain ⟨rfl, hroot⟩ := hstart.quiet hω
    refine ⟨[], ⟨rfl, hstart.cacheSound hsound, hroot, ?_, ?_, ?_⟩⟩
    · rw [List.append_nil, ← hs.plain]
      exact plainSynced_of_folders hstart.growsByFolders
    · rw [List.append_nil, huploads]
      exact hs.attached.imp fun _ _ ho => ho.mono hstart.starts_with
    · rw [List.append_nil, huploads]
      exact hs.log
  | @upload disk path _ r w' hend =>
    obtain ⟨hdisk, dirs, f, hpath⟩ := ha disk path rfl
    obtain ⟨mid, o, rfl, hgrows, hnew, -, hlive, hplain, hkey, hname, hcontent, p, hp,
      hparent⟩ := hend.quiet hω (hs.cache.withDisk disk) hpath hdisk hs.root
    have huploads : uploadsIn (pre ++ [.upload disk path]) = uploadsIn pre ++ [(disk, path)] := by
      simp [uploadsIn]
    have hmid : mid <+: w'.objs := by
      rw [hnew]
      exact List.prefix_append _ _
    have hplains : plainSynced w'.objs = plainSynced s.world.objs ++ [o] := by
      have hfolders : plainSynced mid = plainSynced s.world.objs := plainSynced_of_folders hgrows
      rw [← hfolders, hnew]
      simp [plainSynced, hplain, hkey]
    have hlen : (uploadsIn pre).length = files.length := hs.attached.length_eq
    refine ⟨[o], ⟨rfl, hend.cacheSound (hs.cache.withDisk disk), fun hnil => hs.root ?_,
      ?_, ?_, ?_⟩⟩
    · exact carriers_eq_nil_of_starts (hgrows.starts_with.trans hmid) hnil
    · show plainSynced w'.objs = _
      rw [hplains, hs.plain, List.append_assoc]
    · rw [huploads]
      have hbefore := hs.attached.imp fun _ _ ho => ho.mono (hgrows.starts_with.trans hmid)
      refine List.rel_append hbefore ?_
      obtain ⟨hpmem, hprest⟩ := mem_carriers.mp hp
      exact .cons ⟨dirs, f, hpath, hlive, hplain, hkey, hname, hcontent, p,
        mem_carriers.mpr ⟨hmid.subset hpmem, hprest⟩, hparent⟩ .nil
    · show s.log ++ _ = _
      rw [huploads, List.zipWith_append hlen, hs.log, List.append_assoc]
      rfl

/-- **The run.** -/
theorem settled_resume (s₀ : Daemon) {actions : List Action} (hnormal : Normal actions)
    (hpresent : Present actions) :
    ∃ files, Settled s₀ actions files (resume ω filters checks s₀ actions) := by
  induction actions using List.reverseRecOn with
  | nil => exact ⟨[], settled_start hω filters checks s₀⟩
  | append_singleton pre a ih =>
    obtain ⟨files, hs⟩ := ih (fun disk path h => hnormal disk path (List.mem_append_left _ h))
      fun disk path h => hpresent disk path (List.mem_append_left _ h)
    rw [resume_snoc]
    obtain ⟨new, hnew⟩ := hs.step hω filters checks (a := a) (by
      rintro disk path rfl
      exact ⟨hpresent disk path (by simp), hnormal disk path (by simp)⟩)
    exact ⟨files ++ new, hnew⟩

end Uploads

/-- **A restart is enough.**  Whatever state the daemon and the drive are in, when the
program is started again and nothing goes wrong any more, and the uploads from then on are
of files that are there, strictly below the watched directory, the process stays alive, every
one of them returns the id of a new file that has the content of the local one and hangs
below an object of its directory, nothing is lost, and no directory gets a folder unless it
had no object, and then one. -/
theorem stabilises [Base64] (ω : Schedule) (hω : Quiet ω) (filters : List Str) (checks : Bool)
    (s₀ : Daemon) (actions : List Action) (hnormal : Normal actions)
    (hpresent : Present actions) :
    let s := resume ω filters checks s₀ actions
    s.alive = true ∧ s₀.world.objs <+: s.world.objs ∧
      (∃ files, plainSynced s.world.objs = plainSynced s₀.world.objs ++ files ∧
        List.Forall₂ (AttachedFor s.world.objs) (uploadsIn actions) files ∧
        s.log = s₀.log ++
          List.zipWith (fun u o => (u.2, .ok (some o.id))) (uploadsIn actions) files) ∧
      ∀ k, if carriers s₀.world.objs k = [] then (liveFolders s.world.objs k).length ≤ 1
        else liveFolders s.world.objs k = liveFolders s₀.world.objs k := by
  intro s
  obtain ⟨files, hs⟩ := settled_resume hω filters checks s₀ hnormal hpresent
  have hgrows := resume_grows ω filters checks s₀ actions
  refine ⟨hs.alive, hgrows.starts_with, ⟨files, hs.plain, hs.attached, hs.log⟩, fun k => ?_⟩
  obtain ⟨hkept, hone⟩ := liveFolders_of_grows hω.faultless hgrows k
  split_ifs with hk
  · exact hone hk
  · exact hkept hk

/-- The creation of a folder has been refused and its parent lost; then two files are
uploaded. -/
theorem stabilises_after_fault :
    let s₀ := @run standardBase64 (calmBut 7 .rejected) [] true []
      (uploadsOf [[str "a", str "f"], [str "a", str "b", str "g"]])
    let actions := uploadsOf [[str "a", str "f"], [str "a", str "b", str "g"]]
    let s := @resume standardBase64 calm [] true s₀ actions
    s.alive = true ∧ s₀.world.objs <+: s.world.objs ∧
      (∃ files, plainSynced s.world.objs = plainSynced s₀.world.objs ++ files ∧
        List.Forall₂ (@AttachedFor standardBase64 s.world.objs) (uploadsIn actions) files ∧
        s.log = s₀.log ++
          List.zipWith (fun u o => (u.2, .ok (some o.id))) (uploadsIn actions) files) ∧
      ∀ k, if carriers s₀.world.objs k = [] then (liveFolders s.world.objs k).length ≤ 1
        else liveFolders s.world.objs k = liveFolders s₀.world.objs k :=
  @stabilises standardBase64 calm ⟨fun _ => rfl, fun _ => rfl, fun _ => rfl⟩ [] true _ _
    (normal_uploadsOf (by decide +kernel)) (by
      intro disk path h
      obtain ⟨cs, -, heq⟩ := List.mem_map.mp h
      rw [← (Action.upload.inj heq).1]
      simp [everyFile])

end PiDriveSync
