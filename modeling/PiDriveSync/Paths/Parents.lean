import PiDriveSync.CreatePath
import PiDriveSync.Provider.Calm

/-!
# The directory that a path is in

The unique id is made of a string, not of components: what is left of the path behind
`/var/www`, with the passed-over segments at its ends cut off and those in the middle
kept.  `parentPath` cuts the same segments off, so that a path has a parent with the
unique id of the directory it was put below, however that directory is spelled
(`parentPath_carries_id`).

`createPath` builds the strings of its directories from components: it goes through
`createDirectories` (`createPath_eq_forM`), whose last entry is `lastDirectory`.  These
strings are in normal spelling, and so have the unique id that the parent is looked up under
exactly when the path spells its directories in that way too (`same_parent_iff`).
-/

namespace PiDriveSync

open UnixPath

variable [Base64]

/-- The parent of a path whose last component is `f`, and its unique id: that of the
segments in front of `f`. -/
theorem parentPath_spelled {l t : List Str} {f : Str} (hsep : ∀ c ∈ l ++ f :: t, '/' ∉ c)
    (hf : vacuous f = false) (ht : ∀ c ∈ t, vacuous c = true)
    (hpre : localRootDir.filterMap parseSingleComponent <+: l.filterMap parseSingleComponent) :
    ∃ pp, (SyncableFile.mk (absolute (l ++ f :: t))).parentPath = .ok pp ∧
      (SyncableFile.mk pp).getUniqueId =
        .ok (Base64.encode (push driveRootFolder (joinSegments (trim (dropComponents 2 l))))) := by
  refine ⟨absolute (l.rdropWhile vacuous), ?_, ?_⟩
  · rw [SyncableFile.parentPath, pop_spelled hsep ht hf]
  · have hsub : ∀ c ∈ l.rdropWhile vacuous, '/' ∉ c :=
      fun c hc => hsep c (List.mem_append_left _ ((List.rdropWhile_prefix _ _).subset hc))
    have hcomps : (l.rdropWhile vacuous).filterMap parseSingleComponent =
        l.filterMap parseSingleComponent := filterMap_rdropWhile l
    have hne : l.rdropWhile vacuous ≠ [] := by
      intro hnil
      rw [← hcomps, hnil] at hpre
      exact absurd (List.prefix_nil.mp hpre) (by decide +kernel)
    rw [getUniqueId_spelled hne hsub (by rw [hcomps]; exact hpre), trim_dropComponents_rdropWhile]

/-- **A path below a directory has a parent with the directory's unique id**, in
whatever spelling the directory is given. -/
theorem parentPath_carries_id (d n : Str) (hd : ∃ cp, (SyncableFile.mk d).cloudPath = .ok cp)
    (hne : n ≠ []) (hsep : '/' ∉ n) (hdot : n ≠ ['.']) (hdots : n ≠ ['.', '.']) :
    ∃ pp k, (SyncableFile.mk (d ++ '/' :: n)).parentPath = .ok pp ∧
      (SyncableFile.mk d).getUniqueId = .ok k ∧ (SyncableFile.mk pp).getUniqueId = .ok k ∧
      (SyncableFile.mk (d ++ '/' :: n)).getFilename = some n := by
  have hn : IsName n := ⟨(solid_iff n).mpr ⟨hsep, hne, hdot⟩, hdots⟩
  obtain ⟨cp, hcp⟩ := hd
  obtain ⟨l, hl, hlsep, rfl, hpre⟩ := exists_of_cloudPath hcp
  have hall : ∀ c ∈ l ++ n :: [], '/' ∉ c := by
    intro c hc
    rcases List.mem_append.mp hc with hc | hc
    · exact hlsep c hc
    · rw [List.mem_singleton.mp hc]
      exact hsep
  obtain ⟨pp, hpp, hid⟩ := parentPath_spelled hall hn.solid (by simp) hpre
  rw [← absolute_snoc hl]
  refine ⟨pp, _, hpp, getUniqueId_spelled hl hlsep hpre, hid, ?_⟩
  exact fileName_spelled hall (by simp) hn

omit [Base64] in
/-- A directory with redundant separators and a dot. -/
theorem parentPath_carries_id_spelled : ∃ pp k,
    (SyncableFile.mk (str "/var/www//RpiCamera/./a/" ++ '/' :: str "f")).parentPath = .ok pp ∧
      @SyncableFile.getUniqueId ⟨str "/var/www//RpiCamera/./a/"⟩ standardBase64 = .ok k ∧
      @SyncableFile.getUniqueId ⟨pp⟩ standardBase64 = .ok k ∧
      (SyncableFile.mk (str "/var/www//RpiCamera/./a/" ++ '/' :: str "f")).getFilename =
        some (str "f") :=
  @parentPath_carries_id standardBase64 (str "/var/www//RpiCamera/./a/") (str "f")
    ⟨str "RpiCamera/RpiCamera/./a", by decide +kernel⟩ (by decide +kernel) (by decide +kernel)
    (by decide +kernel) (by decide +kernel)

/-! ## The directory of `createPath` -/

/-- The last directory that `createPath` makes sure of, by `createPath_eq_forM`, or the one it
starts with. -/
def lastDirectory (path : Str) : Str :=
  match (createDirectories path).getLast? with
  | some (lastDir, d) => lastDir ++ d
  | none => str "/var/www/RpiCamera/"

/-- The segments of a path behind those of `/var/www` and in front of its last
component, without the passed-over ones at the ends. -/
def dirSegments (path : Str) : List Str :=
  trim (dropComponents 2 ((segments (body path)).rdropWhile vacuous).dropLast)

omit [Base64] in
theorem dirSegments_absolute {l t : List Str} {f : Str} (hsep : ∀ c ∈ l ++ f :: t, '/' ∉ c)
    (hf : vacuous f = false) (ht : ∀ c ∈ t, vacuous c = true) :
    dirSegments (absolute (l ++ f :: t)) = trim (dropComponents 2 l) := by
  rw [dirSegments, body_absolute, segments_joinSegments hsep (by simp), List.append_cons,
    rdropWhile_append_vacuous _ ht, List.rdropWhile_concat_neg _ _ _ (by rw [hf]; simp),
    List.dropLast_concat]

/-- The unique id of the last directory is that of its components. -/
theorem getUniqueId_lastDirectory {path : Str} {dirs : List Str} {f : Str}
    (h : relComponents path = some (dirs ++ [f])) :
    (SyncableFile.mk (lastDirectory path)).getUniqueId = .ok (keyOf dirs) := by
  have hsolid : ∀ c ∈ dirs, Solid c :=
    fun c hc => solid_of_relComponents h c (List.mem_append_left _ hc)
  rcases dirs.eq_nil_or_concat' with rfl | ⟨ds, d, rfl⟩
  · have hstart : str "/var/www/RpiCamera/" = dirPrefix [] := by decide +kernel
    have hnone : createDirectories path = [] := by
      rw [createDirectories_eq h]
      exact loopDirectories_file [] f
    rw [lastDirectory, hnone, List.getLast?_nil]
    simp only
    rw [hstart]
    exact getUniqueId_dirPrefix hsolid
  · rw [lastDirectory, getLast_createDirectories h]
    simp only
    rw [dirPrefix_append]
    exact getUniqueId_below hsolid

omit [Base64] in
/-- The segments of a path to a file below the watched directory: those of its directories,
the name of the file, and what is passed over behind it. -/
theorem exists_segments_of_components {path : Str} {cs : List Component} {f : Str}
    (h : components path = components (str "/var/www/RpiCamera") ++ cs ++ [.normal f]) :
    ∃ m t, path = absolute (m ++ f :: t) ∧ (∀ c ∈ m ++ f :: t, '/' ∉ c) ∧ vacuous f = false ∧
      (∀ c ∈ t, vacuous c = true) ∧ m.filterMap parseSingleComponent =
        localRootDir.filterMap parseSingleComponent ++ .normal driveRootFolder :: cs := by
  have hbase : str "/var/www/RpiCamera" = absolute watchedDir := by decide +kernel
  have hwatched : watchedDir.filterMap parseSingleComponent =
      localRootDir.filterMap parseSingleComponent ++ [.normal driveRootFolder] := by
    decide +kernel
  rw [hbase, components_absolute (fun c hc => (solid_watchedDir c hc).noSep) (by simp [watchedDir]),
    List.cons_append, List.cons_append] at h
  obtain ⟨l, hl, hsep, rfl, hcomps⟩ := exists_absolute_of_components h
  obtain ⟨m, a, t, rfl, hm, ha, ht⟩ := exists_last_component hcomps
  obtain rfl : f = a := asOsStr_of_parse ha
  rw [hwatched, List.append_assoc] at hm
  refine ⟨m, t, rfl, hsep, ?_, ht, hm⟩
  rw [vacuous, ha]
  rfl

omit [Base64] in
/-- The place on the drive that some segments spell is that of their components just if
none of them is passed over. -/
theorem push_trim_eq_cloudBelow_iff {l : List Str} {cs : List Component}
    (hsep : ∀ c ∈ l, '/' ∉ c) (hcs : ∀ c ∈ cs.map Component.asOsStr, Solid c)
    (h : l.filterMap parseSingleComponent = .normal driveRootFolder :: cs) :
    push driveRootFolder (joinSegments (trim l)) = cloudBelow (cs.map Component.asOsStr) ↔
      ∀ seg ∈ trim l, vacuous seg = false := by
  have htrimsep : ∀ c ∈ trim l, '/' ∉ c := fun c hc => hsep c (mem_of_mem_trim hc)
  have hplain := eq_map_asOsStr_iff htrimsep
  rw [filterMap_trim, h, List.map_cons, show (Component.normal driveRootFolder).asOsStr =
    driveRootFolder from rfl] at hplain
  have hpush : push driveRootFolder (joinSegments (trim l)) =
      joinSegments (driveRootFolder :: trim l) := by
    rcases trim_eq_nil_or_cons l with hnil | ⟨a, rest, hcons, ha⟩
    · rw [← filterMap_trim, hnil] at h
      exact absurd h (by simp)
    · rw [hcons] at htrimsep ⊢
      exact push_driveRootFolder ⟨htrimsep a (List.mem_cons_self ..), ha⟩ rest
  have hroot := solid_driveRootFolder.noSep
  rw [hpush, cloudBelow, ← hplain]
  constructor
  · intro heq
    refine List.tail_eq_of_cons_eq (joinSegments_inj ?_ ?_ (by simp) (by simp) heq)
    · exact List.forall_mem_cons.mpr ⟨hroot, htrimsep⟩
    · exact List.forall_mem_cons.mpr ⟨hroot, List.forall_mem_cons.mpr
        ⟨hroot, fun c hc => (hcs c hc).noSep⟩⟩
  · intro heq
    rw [heq]

/-- **When the file goes into the directory that `createPath` made sure of.**  The
lookup of the parent and the last directory of the loop (of the list that `createPath` goes
through, see `createPath_eq_forM`) have the same unique id exactly when no segment between
the first and the last directory below `/var/www` is empty or a dot. -/
theorem same_parent_iff (path : Str) (cs : List Component) (f : Str)
    (hpath : components path = components (str "/var/www/RpiCamera") ++ cs ++ [.normal f]) :
    ∃ pp, (SyncableFile.mk path).parentPath = .ok pp ∧
      ((SyncableFile.mk pp).getUniqueId = (SyncableFile.mk (lastDirectory path)).getUniqueId ↔
        ∀ seg ∈ dirSegments path, vacuous seg = false) := by
  have hrel : relComponents path = some (cs.map Component.asOsStr ++ [f]) := by
    rw [List.append_assoc] at hpath
    rw [relComponents_of_components hpath, List.map_append]
    rfl
  have hsolid : ∀ c ∈ cs.map Component.asOsStr, Solid c :=
    fun c hc => solid_of_relComponents hrel c (List.mem_append_left _ hc)
  obtain ⟨m, t, rfl, hsep, hf, ht, hm⟩ := exists_segments_of_components hpath
  obtain ⟨pp, hpp, hid⟩ := parentPath_spelled hsep hf ht (hm ▸ List.prefix_append _ _)
  refine ⟨pp, hpp, ?_⟩
  -- the segments that the unique id of the parent is made of
  have hdirsep : ∀ c ∈ dropComponents 2 m, '/' ∉ c :=
    fun c hc => hsep c (List.mem_append_left _ (dropComponents_subset 2 m c hc))
  have hdircomps : (dropComponents 2 m).filterMap parseSingleComponent =
      .normal driveRootFolder :: cs := by
    rw [filterMap_dropComponents, hm]
    exact List.drop_left' (by decide +kernel)
  rw [hid, getUniqueId_lastDirectory hrel, dirSegments_absolute hsep hf ht, keyOf,
    Except.ok.injEq, Base64.encode_injective.eq_iff,
    push_trim_eq_cloudBelow_iff hdirsep hsolid hdircomps]

omit [Base64] in
/-- A path in normal spelling, with a separator at its end. -/
theorem same_parent_normal : ∃ pp,
    (SyncableFile.mk (str "/var/www/RpiCamera/a/b/f/")).parentPath = .ok pp ∧
      (@SyncableFile.getUniqueId ⟨pp⟩ standardBase64 =
          @SyncableFile.getUniqueId ⟨lastDirectory (str "/var/www/RpiCamera/a/b/f/")⟩
            standardBase64 ↔
        ∀ seg ∈ dirSegments (str "/var/www/RpiCamera/a/b/f/"), vacuous seg = false) :=
  @same_parent_iff standardBase64 (str "/var/www/RpiCamera/a/b/f/")
    [.normal (str "a"), .normal (str "b")] (str "f") (by decide +kernel)

omit [Base64] in
/-- With two separators between `a` and `b` the folder that the file is put below is
not the one that `createPath` made sure of. -/
theorem doubled_separator_other_parent :
    (SyncableFile.mk (str "/var/www/RpiCamera/a//b/f")).parentPath =
        .ok (str "/var/www/RpiCamera/a//b") ∧
      lastDirectory (str "/var/www/RpiCamera/a//b/f") = str "/var/www/RpiCamera/a/b" ∧
      @SyncableFile.getUniqueId ⟨str "/var/www/RpiCamera/a//b"⟩ standardBase64 ≠
        @SyncableFile.getUniqueId ⟨str "/var/www/RpiCamera/a/b"⟩ standardBase64 := by
  decide +kernel

end PiDriveSync
