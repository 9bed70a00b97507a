import PiDriveSync.Provider.Calm

/-!
# Which paths share a unique id

A file is found again by the unique id of its path, so two paths with one id are one file to
the program.  `same_id_iff` says when this is so, for any two strings: when they are the same
path to the standard library, component by component, and spell what comes behind
`/var/www` with the same segments, but for those that are passed over at its ends.

So an id never stands for two different files.  But one file can have two ids, as soon as a
separator is doubled, or a dot put in, between two components (`doubled_separator_other_id`).
-/

namespace PiDriveSync

open UnixPath

/-! ## What an id is made of -/

/-- The segments of a path behind those of `/var/www`, without the passed-over ones at the
ends. -/
def cloudSegments (path : Str) : List Str :=
  trim (dropComponents 2 (segments (body path)))

theorem cloudSegments_absolute {l : List Str} (hl : l ≠ []) (hsep : ∀ c ∈ l, '/' ∉ c) :
    cloudSegments (absolute l) = trim (dropComponents 2 l) := by
  rw [cloudSegments, body_absolute, segments_joinSegments hsep hl]

/-- The segments are read back from the string that they spell. -/
theorem joinSegments_trim_inj {l m : List Str} (hl : ∀ c ∈ l, '/' ∉ c) (hm : ∀ c ∈ m, '/' ∉ c)
    (h : joinSegments (trim l) = joinSegments (trim m)) : trim l = trim m := by
  -- nothing at all is not spelled like a segment that is a component
  have hempty : ∀ {l : List Str}, (∀ c ∈ l, '/' ∉ c) → joinSegments (trim l) = [] →
      trim l = [] := by
    intro l hl hnil
    rcases trim_eq_nil_or_cons l with hl' | ⟨a, rest, hcons, ha⟩
    · exact hl'
    · rw [hcons] at hnil
      have hsolid : Solid a := ⟨hl a (mem_of_mem_trim (by rw [hcons]; simp)), ha⟩
      have hne : a ≠ [] := ((solid_iff a).mp hsolid).2.1
      rcases rest with _ | ⟨b, rest⟩
      · exact absurd (by simpa using hnil) hne
      · rw [joinSegments_cons (List.cons_ne_nil _ _), List.append_eq_nil_iff] at hnil
        exact absurd hnil.1 hne
  by_cases hl0 : trim l = []
  · rw [hl0, joinSegments_nil] at h
    rw [hl0, hempty hm h.symm]
  · by_cases hm0 : trim m = []
    · rw [hm0, joinSegments_nil] at h
      exact absurd (hempty hl h) hl0
    · exact joinSegments_inj (fun c hc => hl c (mem_of_mem_trim hc))
        (fun c hc => hm c (mem_of_mem_trim hc)) hl0 hm0 h

/-- Behind the root folder of the drive, what is left of a path is read back. -/
theorem push_trim_inj {l m : List Str} (hl : ∀ c ∈ l, '/' ∉ c) (hm : ∀ c ∈ m, '/' ∉ c)
    (h : push driveRootFolder (joinSegments (trim l)) =
      push driveRootFolder (joinSegments (trim m))) : trim l = trim m := by
  have hpush : ∀ {l : List Str}, (∀ c ∈ l, '/' ∉ c) → push driveRootFolder (joinSegments (trim l)) =
      driveRootFolder ++ '/' :: joinSegments (trim l) := by
    intro l hl
    have hrel : hasRoot (joinSegments (trim l)) = false := by
      rcases trim_eq_nil_or_cons l with hnil | ⟨a, rest, hcons, ha⟩
      · rw [hnil]
        rfl
      · have hsolid : Solid a := ⟨hl a (mem_of_mem_trim (by rw [hcons]; simp)), ha⟩
        rw [hcons]
        exact hasRoot_joinSegments hsolid rest
    rw [push, if_neg (by rw [hrel]; simp), if_pos (by decide +kernel)]
  rw [hpush hl, hpush hm, List.append_cancel_left_eq, List.cons.injEq] at h
  exact joinSegments_trim_inj hl hm h.2

/-- The components of a path below `/var/www` are those of `/var/www` and those that its id
is made of. -/
theorem components_eq_cloudSegments {l : List Str} (hl : l ≠ []) (hsep : ∀ c ∈ l, '/' ∉ c)
    (hpre : localRootDir.filterMap parseSingleComponent <+: l.filterMap parseSingleComponent) :
    components (absolute l) = components localRootFolder ++
      (cloudSegments (absolute l)).filterMap parseSingleComponent := by
  obtain ⟨rest, hrest⟩ := hpre
  have hroot : components localRootFolder =
      .rootDir :: localRootDir.filterMap parseSingleComponent := by decide +kernel
  have hlen : (localRootDir.filterMap parseSingleComponent).length = 2 := by decide +kernel
  rw [cloudSegments_absolute hl hsep, filterMap_trim, filterMap_dropComponents, ← hrest, ← hlen,
    List.drop_left, components_absolute hsep hl, hroot, ← hrest]
  rfl

/-- A path below `/var/www` is a list of segments that begins with those of `/var/www`. -/
theorem exists_spelling {p : Str} (h : components localRootFolder <+: components p) :
    ∃ l, l ≠ [] ∧ (∀ c ∈ l, '/' ∉ c) ∧ p = absolute l ∧
      localRootDir.filterMap parseSingleComponent <+: l.filterMap parseSingleComponent := by
  have hcloud : ∃ cp, (SyncableFile.mk p).cloudPath = .ok cp := by
    rw [SyncableFile.cloudPath, SyncableFile.localPath, stripPrefix, if_pos h]
    exact ⟨_, rfl⟩
  obtain ⟨cp, hcp⟩ := hcloud
  exact exists_of_cloudPath hcp

variable [Base64]

theorem under_of_getUniqueId {p k : Str} (h : (SyncableFile.mk p).getUniqueId = .ok k) :
    components localRootFolder <+: components p := by
  by_contra hnot
  rw [SyncableFile.getUniqueId, SyncableFile.cloudPath, SyncableFile.localPath, stripPrefix,
    if_neg hnot] at h
  exact absurd h (by simp)

/-- **Which paths share a unique id**, among all strings: those that are the same path below
`/var/www`, component by component, and have the same segments there, but for those that
are passed over at the ends. -/
theorem same_id_iff (p q : Str) :
    (∃ k, (SyncableFile.mk p).getUniqueId = .ok k ∧ (SyncableFile.mk q).getUniqueId = .ok k) ↔
      components localRootFolder <+: components p ∧ components p = components q ∧
        cloudSegments p = cloudSegments q := by
  constructor
  · rintro ⟨k, hp, hq⟩
    have hunder := under_of_getUniqueId hp
    obtain ⟨l, hl, hlsep, rfl, hlpre⟩ := exists_spelling hunder
    obtain ⟨m, hm, hmsep, rfl, hmpre⟩ := exists_spelling (under_of_getUniqueId hq)
    rw [getUniqueId_spelled hl hlsep hlpre, Except.ok.injEq] at hp
    rw [getUniqueId_spelled hm hmsep hmpre, Except.ok.injEq, ← hp] at hq
    have hsame : cloudSegments (absolute l) = cloudSegments (absolute m) := by
      rw [cloudSegments_absolute hl hlsep, cloudSegments_absolute hm hmsep]
      exact push_trim_inj (fun c hc => hlsep c (dropComponents_subset 2 l c hc))
        (fun c hc => hmsep c (dropComponents_subset 2 m c hc))
        (Base64.encode_injective hq).symm
    refine ⟨hunder, ?_, hsame⟩
    rw [components_eq_cloudSegments hl hlsep hlpre, components_eq_cloudSegments hm hmsep hmpre,
      hsame]
  · rintro ⟨hunder, hcomps, hsame⟩
    obtain ⟨l, hl, hlsep, rfl, hlpre⟩ := exists_spelling hunder
    obtain ⟨m, hm, hmsep, rfl, hmpre⟩ := exists_spelling (hcomps ▸ hunder)
    rw [cloudSegments_absolute hl hlsep, cloudSegments_absolute hm hmsep] at hsame
    refine ⟨_, getUniqueId_spelled hl hlsep hlpre, ?_⟩
    rw [getUniqueId_spelled hm hmsep hmpre, hsame]

/-- One file, in two spellings, with two ids. -/
example :
    components (str "/var/www/RpiCamera/a//f") = components (str "/var/www/RpiCamera/a/f") ∧
      @SyncableFile.getUniqueId ⟨str "/var/www/RpiCamera/a//f"⟩ standardBase64 ≠
        @SyncableFile.getUniqueId ⟨str "/var/www/RpiCamera/a/f"⟩ standardBase64 := by
  decide +kernel

end PiDriveSync
