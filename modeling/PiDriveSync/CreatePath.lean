import PiDriveSync.DriveCli

/-!
# The directories that `createPath` goes through

`createPath` strips the watched directory from a path and walks over the components
that are left, all but the last.  `ensureAll` is that walk without the index and
without the accumulated string: in front of each directory stand the directories
already done, and the string in front of it is `dirPrefix` of those.

`createPath_eq` says that the two agree, for every path: a path outside the watched
directory is a panic, and the watched directory itself is left to the build.

`createDirectories` lists the directories with the strings that the loop builds for
them, and `createPath_eq_forM` says that `createPath` goes through this list.
-/

namespace PiDriveSync

open UnixPath Fallible

/-- The string that `createPath` has built when it is done with some directories. -/
def dirPrefix (done : List Str) : Str :=
  absolute (watchedDir ++ done ++ [[]])

theorem dirPrefix_append (done : List Str) (d : Str) :
    dirPrefix done ++ d = below (done ++ [d]) := by
  rw [dirPrefix, absolute, List.cons_append, joinSegments_fill, List.append_assoc]
  rfl

theorem dirPrefix_snoc (done : List Str) (d : Str) :
    dirPrefix done ++ (d ++ ['/']) = dirPrefix (done ++ [d]) := by
  rw [← List.append_assoc, dirPrefix_append, below, absolute, List.cons_append,
    ← List.append_assoc, joinSegments_slash]
  rfl

theorem getUniqueId_dirPrefix [Base64] {done : List Str} (h : ∀ c ∈ done, Solid c) :
    (SyncableFile.mk (dirPrefix done)).getUniqueId = .ok (keyOf done) :=
  getUniqueId_absolute h (by decide)

/-! ## The walk -/

variable {σ : Type} [Base64]

/-- Make sure that each of `dirs` has a folder, one below the other, starting below
the directories `done`. -/
def ensureAll (c : Drive3Client σ) (done : List Str) : List Str → Sync σ Unit
  | [] => pure ()
  | d :: dirs => do
    c.ensureDir (dirPrefix done) d
    ensureAll c (done ++ [d]) dirs

theorem createPathLoop_eq (c : Drive3Client σ) (done dirs : List Str) (f : Str) :
    c.createPathLoop (done ++ dirs).length done.length (dirs ++ [f]) (dirPrefix done) =
      ensureAll c done dirs := by
  induction dirs generalizing done with
  | nil =>
    rw [List.append_nil, List.nil_append, Drive3Client.createPathLoop,
      if_neg (not_not.mpr rfl), Drive3Client.createPathLoop]
    rfl
  | cons d dirs ih =>
    have hne : done.length ≠ (done ++ d :: dirs).length := by
      rw [List.length_append, List.length_cons]
      omega
    have hlen : (done ++ d :: dirs).length = (done ++ [d] ++ dirs).length := by simp
    have hnext : done.length + 1 = (done ++ [d]).length := by simp
    rw [List.cons_append, Drive3Client.createPathLoop, if_pos hne, ensureAll, dirPrefix_snoc,
      hlen, hnext, ih (done ++ [d])]

/-- The components of a path below the watched directory, if it is one. -/
def relComponents (path : Str) : Option (List Str) :=
  (stripPrefix path (below [])).map fun rel => (components rel).map Component.asOsStr

omit [Base64] in
theorem solid_of_relComponents {path : Str} {cs : List Str} (h : relComponents path = some cs) :
    ∀ c ∈ cs, Solid c := by
  rw [relComponents, below, List.append_nil, Option.map_eq_some_iff] at h
  obtain ⟨rel, hrel, rfl⟩ := h
  obtain ⟨l, -, hsep, -, -, rfl⟩ :=
    exists_of_stripPrefix solid_watchedDir (by simp [watchedDir]) hrel
  have hrest : ∀ c ∈ dropComponents watchedDir.length l, '/' ∉ c :=
    fun c hc => hsep c (dropComponents_subset _ _ c hc)
  intro c hc
  rw [components_joinSegments_trim hrest] at hc
  exact solid_of_mem_filterMap hrest hc

omit [Base64] in
theorem relComponents_below {cs : List Str} (hcs : ∀ c ∈ cs, Solid c) :
    relComponents (below cs) = some cs := by
  have hstrip : stripPrefix (below cs) (below []) = some (joinSegments cs) := by
    have h : stripPrefix (absolute (watchedDir ++ cs ++ [])) (absolute watchedDir) =
        some (joinSegments cs) :=
      stripPrefix_absolute solid_watchedDir (by simp [watchedDir]) hcs (by simp)
    rwa [List.append_nil] at h
  rw [relComponents, hstrip, Option.map_some]
  cases cs with
  | nil => rfl
  | cons c cs =>
    rw [components_joinSegments (hcs c (List.mem_cons_self ..))
      fun d hd => (hcs d (List.mem_cons_of_mem _ hd)).noSep, map_asOsStr_of_solid hcs]

omit [Base64] in
/-- The components of a path, behind those of the watched directory. -/
theorem relComponents_of_components {path : Str} {cs : List Component}
    (h : components path = components (str "/var/www/RpiCamera") ++ cs) :
    relComponents path = some (cs.map Component.asOsStr) := by
  have hbase : str "/var/www/RpiCamera" = absolute watchedDir := by decide +kernel
  have hbelow : below [] = absolute watchedDir := by rw [below, List.append_nil]
  have hstrip : stripPrefix path (absolute watchedDir) =
      some (asPathAfter path (components (absolute watchedDir)).length) := by
    rw [stripPrefix, if_pos]
    rw [h, hbase]
    exact List.prefix_append _ _
  have hrest := components_of_stripPrefix solid_watchedDir (by simp [watchedDir]) hstrip
  rw [h, hbase, List.append_cancel_left_eq] at hrest
  rw [relComponents, hbelow, hstrip, Option.map_some, ← hrest]

/-- The directories above a file, as `createPath` finds them. -/
def directoriesOf (path : Str) : List Str :=
  ((relComponents path).getD []).dropLast

omit [Base64] in
theorem directoriesOf_eq {path f : Str} {dirs : List Str}
    (h : relComponents path = some (dirs ++ [f])) : directoriesOf path = dirs := by
  rw [directoriesOf, h, Option.getD_some, List.dropLast_concat]

/-- What `createPath` comes down to. -/
def createPathOf (c : Drive3Client σ) : Option (List Str) → Sync σ Bool
  | none => abort
  | some [] => if c.machine.overflowChecks then abort else pure true
  | some (d :: cs) => do
    ensureAll c [] (d :: cs).dropLast
    pure true

/-- **`createPath`, for every path.** -/
theorem createPath_eq (c : Drive3Client σ) (path : Str) :
    c.createPath ⟨path⟩ = createPathOf c (relComponents path) := by
  have hbase : str "/var/www/RpiCamera" = below [] := by decide +kernel
  have hstart : str "/var/www/RpiCamera/" = dirPrefix [] := by decide +kernel
  rw [Drive3Client.createPath, SyncableFile.localPath, hbase, hstart, relComponents]
  cases stripPrefix path (below []) with
  | none => rfl
  | some rel =>
    rw [unwrapOption_some, pure_bind_eq, Option.map_some]
    show (usizePred c.machine ((components rel).map Component.asOsStr).length >>= fun i =>
      c.createPathLoop i 0 ((components rel).map Component.asOsStr) (dirPrefix []) >>= fun _ =>
        pure true) = _
    rcases h : (components rel).map Component.asOsStr with _ | ⟨d, cs⟩
    · rw [createPathOf, usizePred, if_pos List.length_nil]
      cases c.machine.overflowChecks <;> rfl
    · have hlen : (d :: cs).length - 1 = ([] ++ (d :: cs).dropLast).length := by
        rw [List.nil_append, List.length_dropLast]
      have hloop := createPathLoop_eq c [] (d :: cs).dropLast
        ((d :: cs).getLast (List.cons_ne_nil _ _))
      rw [List.dropLast_append_getLast] at hloop
      rw [createPathOf, usizePred, if_neg (by simp), pure_bind_eq, hlen, ← hloop]
      rfl

/-! ## The strings of the directories -/

/-- The directories that the loop of `createPath` makes sure of: for each, the string
in front of its name, and the name. -/
def loopDirectories (fileNameIndex : ℕ) : ℕ → List Str → Str → List (Str × Str)
  | _, [], _ => []
  | pathIndex, dir :: dirs, lastDir =>
    let rest := loopDirectories fileNameIndex (pathIndex + 1) dirs (lastDir ++ (dir ++ ['/']))
    if pathIndex ≠ fileNameIndex then (lastDir, dir) :: rest else rest

theorem createPathLoop_eq_forM (c : Drive3Client σ) (fileNameIndex pathIndex : ℕ)
    (comps : List Str) (lastDir : Str) :
    c.createPathLoop fileNameIndex pathIndex comps lastDir =
      (loopDirectories fileNameIndex pathIndex comps lastDir).forM
        fun dir => c.ensureDir dir.1 dir.2 := by
  induction comps generalizing pathIndex lastDir with
  | nil => rfl
  | cons d comps ih =>
    rw [Drive3Client.createPathLoop, loopDirectories, ih]
    split_ifs
    · rfl
    · rfl

omit [Base64] in
/-- The last component is left out. -/
theorem loopDirectories_file (done : List Str) (f : Str) :
    loopDirectories done.length done.length [f] (dirPrefix done) = [] := by
  rw [loopDirectories, if_neg (not_not.mpr rfl), loopDirectories]

omit [Base64] in
theorem loopDirectories_cons (done dirs : List Str) (d f : Str) :
    loopDirectories (done ++ d :: dirs).length done.length (d :: dirs ++ [f]) (dirPrefix done) =
      (dirPrefix done, d) :: loopDirectories (done ++ [d] ++ dirs).length (done ++ [d]).length
        (dirs ++ [f]) (dirPrefix (done ++ [d])) := by
  have hne : done.length ≠ (done ++ d :: dirs).length := by
    rw [List.length_append, List.length_cons]
    omega
  have hlen : (done ++ d :: dirs).length = (done ++ [d] ++ dirs).length := by simp
  have hnext : done.length + 1 = (done ++ [d]).length := by simp
  rw [List.cons_append, loopDirectories, if_pos hne, dirPrefix_snoc, hlen, hnext]

/-- The directories that `createPath` makes sure of. -/
def createDirectories (path : Str) : List (Str × Str) :=
  match stripPrefix path (str "/var/www/RpiCamera") with
  | none => []
  | some relPath =>
    let comps := (components relPath).map Component.asOsStr
    loopDirectories (comps.length - 1) 0 comps (str "/var/www/RpiCamera/")

omit [Base64] in
theorem createDirectories_eq {path : Str} {dirs : List Str} {f : Str}
    (h : relComponents path = some (dirs ++ [f])) :
    createDirectories path =
      loopDirectories ([] ++ dirs).length ([] : List Str).length (dirs ++ [f]) (dirPrefix []) := by
  have hbase : str "/var/www/RpiCamera" = below [] := by decide +kernel
  have hstart : str "/var/www/RpiCamera/" = dirPrefix [] := by decide +kernel
  rw [relComponents, Option.map_eq_some_iff] at h
  obtain ⟨rel, hrel, hcomps⟩ := h
  rw [createDirectories, hbase, hstart, hrel]
  simp only [hcomps, List.length_append, List.length_singleton, Nat.add_sub_cancel,
    List.nil_append, List.length_nil]

/-- **`createPath` is the walk over this list.** -/
theorem createPath_eq_forM (c : Drive3Client σ) {path d : Str} {cs : List Str}
    (h : relComponents path = some (d :: cs)) :
    c.createPath ⟨path⟩ = ((createDirectories path).forM fun dir =>
      c.ensureDir dir.1 dir.2) >>= fun _ => pure true := by
  have hbase : str "/var/www/RpiCamera" = below [] := by decide +kernel
  rw [relComponents, Option.map_eq_some_iff, ← hbase] at h
  obtain ⟨rel, hrel, hcomps⟩ := h
  rw [Drive3Client.createPath, SyncableFile.localPath, hrel, unwrapOption_some, pure_bind_eq,
    createDirectories, hrel]
  simp only [hcomps]
  rw [usizePred, if_neg (by simp), pure_bind_eq, createPathLoop_eq_forM]

omit [Base64] in
/-- **Each directory above the file is among them**, below those above it. -/
theorem mem_createDirectories {path : Str} {ds rest : List Str} {d f : Str}
    (h : relComponents path = some (ds ++ d :: rest ++ [f])) :
    (dirPrefix ds, d) ∈ createDirectories path := by
  have hmem : ∀ (ds done : List Str), (dirPrefix (done ++ ds), d) ∈
      loopDirectories (done ++ (ds ++ d :: rest)).length done.length (ds ++ d :: rest ++ [f])
        (dirPrefix done) := by
    intro ds
    induction ds with
    | nil =>
      intro done
      rw [List.nil_append, List.append_nil, loopDirectories_cons]
      exact List.mem_cons_self ..
    | cons e ds ih =>
      intro done
      have hnext := ih (done ++ [e])
      rw [List.append_assoc done [e] ds, List.singleton_append] at hnext
      rw [List.cons_append, loopDirectories_cons]
      exact List.mem_cons_of_mem _ hnext
  rw [createDirectories_eq h]
  exact hmem ds []

omit [Base64] in
/-- **The last of them** is the one that the file goes into. -/
theorem getLast_createDirectories {path : Str} {ds : List Str} {d f : Str}
    (h : relComponents path = some (ds ++ [d] ++ [f])) :
    (createDirectories path).getLast? = some (dirPrefix ds, d) := by
  have hlast : ∀ (ds done : List Str), (loopDirectories (done ++ (ds ++ [d])).length done.length
      (ds ++ [d] ++ [f]) (dirPrefix done)).getLast? = some (dirPrefix (done ++ ds), d) := by
    intro ds
    induction ds with
    | nil =>
      intro done
      have hdone := loopDirectories_file (done ++ [d]) f
      rw [List.nil_append, List.append_nil, loopDirectories_cons, List.append_nil, List.nil_append,
        hdone]
      rfl
    | cons e ds ih =>
      intro done
      have hnext := ih (done ++ [e])
      rw [List.append_assoc done [e] ds, List.singleton_append] at hnext
      rw [List.cons_append, loopDirectories_cons, List.getLast?_cons, hnext]
      rfl
  rw [createDirectories_eq h]
  exact hlast ds []

end PiDriveSync
