import PiDriveSync.PiErr
import PiDriveSync.Unix.Spelling

/-!
# Files to sync: paths and unique ids

`SyncableFile` is a path on the local disk.  Its place on the drive is
`cloudPath`, and `getUniqueId` encodes that place in base64: the `pi_sync_id`
under which the object is found again.

The encoder is the `base64` crate, of which `Base64` keeps what is relied on:
distinct strings have distinct encodings, and an encoding uses the standard
alphabet with padding.
-/

namespace PiDriveSync

open UnixPath

/-- The characters of the standard base64 alphabet, and the padding. -/
def base64Alphabet : Str :=
  str "ABCDEFGHIJKLMNOPQRSTUVWXYZabcdefghijklmnopqrstuvwxyz0123456789+/="

/-- The `base64` crate. -/
class Base64 where
  /-- `base64::encode`. -/
  encode : Str → Str
  /-- Distinct strings have distinct encodings. -/
  encode_injective : Function.Injective encode
  /-- An encoding is written in the standard alphabet. -/
  encode_alphabet : ∀ s, ∀ c ∈ encode s, c ∈ base64Alphabet

def localRootFolder : Str :=
  str "/var/www"

def driveRootFolder : Str :=
  str "RpiCamera"

/-- A path on the local disk. -/
structure SyncableFile where
  localDiskPath : Str
  deriving DecidableEq, Repr

namespace SyncableFile

variable (s : SyncableFile)

/-- The path to the file on disk. -/
def localPath : Str :=
  s.localDiskPath

/-- Where on the storage provider the file is to be created. -/
def cloudPath : Except SyncerErrors Str :=
  match stripPrefix s.localPath localRootFolder with
  | some rest => .ok (push driveRootFolder rest)
  | none => .error (.fromStripPrefixError ⟨⟩)

/-- The parent directory on the local disk. -/
def parentPath : Except SyncerErrors Str :=
  match pop s.localDiskPath with
  | some p => .ok p
  | none => .error .invalidPathError

/-- The base64 representation of the path on the storage host. -/
def getUniqueId [Base64] : Except SyncerErrors Str :=
  match s.cloudPath with
  | .ok cp => .ok (Base64.encode cp)
  | .error e => .error e

/-- The file name. -/
def getFilename : Option Str :=
  fileName s.localPath

end SyncableFile

/-! ## Unique ids in any spelling -/

/-- The segments of the folder that paths are made relative to. -/
def localRootDir : List Str :=
  [str "var", str "www"]

theorem localRootFolder_eq : localRootFolder = absolute localRootDir := by
  decide +kernel

theorem solid_localRootDir : ∀ c ∈ localRootDir, Solid c := by
  decide +kernel

theorem localRootDir_ne_nil : localRootDir ≠ [] :=
  List.cons_ne_nil _ _

theorem solid_driveRootFolder : Solid driveRootFolder := by
  decide +kernel

/-- A path behind the root folder of the drive. -/
theorem push_driveRootFolder {a : Str} (ha : Solid a) (l : List Str) :
    push driveRootFolder (joinSegments (a :: l)) = joinSegments (driveRootFolder :: a :: l) := by
  rw [push, if_neg (by rw [hasRoot_joinSegments ha]; simp), if_pos (by decide +kernel)]
  exact (joinSegments_cons (List.cons_ne_nil _ _)).symm

/-- A path that has a place on the drive is a list of segments, the first components of
which are those of the folder that paths are made relative to. -/
theorem exists_of_cloudPath {d cp : Str} (h : (SyncableFile.mk d).cloudPath = .ok cp) :
    ∃ l, l ≠ [] ∧ (∀ c ∈ l, '/' ∉ c) ∧ d = absolute l ∧
      localRootDir.filterMap parseSingleComponent <+: l.filterMap parseSingleComponent := by
  cases hstrip : stripPrefix d localRootFolder with
  | none =>
    rw [SyncableFile.cloudPath, SyncableFile.localPath, hstrip] at h
    exact absurd h (by simp)
  | some rel =>
    rw [localRootFolder_eq] at hstrip
    obtain ⟨l, hl, hsep, hd, hpre, -⟩ :=
      exists_of_stripPrefix solid_localRootDir localRootDir_ne_nil hstrip
    exact ⟨l, hl, hsep, hd, hpre⟩

section UniqueIds

variable [Base64]

theorem getUniqueId_of_stripPrefix {path rel : Str}
    (h : stripPrefix path (absolute localRootDir) = some rel) :
    (SyncableFile.mk path).getUniqueId = .ok (Base64.encode (push driveRootFolder rel)) := by
  rw [← localRootFolder_eq] at h
  simp only [SyncableFile.getUniqueId, SyncableFile.cloudPath, SyncableFile.localPath, h]

/-- **The unique id of a path in any spelling.** -/
theorem getUniqueId_spelled {l : List Str} (hl : l ≠ []) (hsep : ∀ c ∈ l, '/' ∉ c)
    (hpre : localRootDir.filterMap parseSingleComponent <+: l.filterMap parseSingleComponent) :
    (SyncableFile.mk (absolute l)).getUniqueId =
      .ok (Base64.encode (push driveRootFolder (joinSegments (trim (dropComponents 2 l))))) :=
  getUniqueId_of_stripPrefix
    (stripPrefix_spelled solid_localRootDir localRootDir_ne_nil hl hsep hpre)

/-- In normal spelling, up to what is passed over at the end. -/
theorem getUniqueId_plain {cs t : List Str} (hcs : ∀ c ∈ cs, Solid c)
    (ht : ∀ c ∈ t, vacuous c = true ∧ '/' ∉ c) :
    (SyncableFile.mk (absolute (localRootDir ++ cs ++ t))).getUniqueId =
      .ok (Base64.encode (push driveRootFolder (joinSegments cs))) :=
  getUniqueId_of_stripPrefix (stripPrefix_absolute solid_localRootDir localRootDir_ne_nil hcs ht)

end UniqueIds

/-! ## Paths below the watched directory -/

/-- The segments of the watched directory. -/
def watchedDir : List Str :=
  [str "var", str "www", driveRootFolder]

/-- The path with these components below the watched directory, in normal
spelling. -/
def below (cs : List Str) : Str :=
  absolute (watchedDir ++ cs)

theorem solid_watchedDir : ∀ c ∈ watchedDir, Solid c := by
  decide +kernel

/-- The place on the drive of the object with these components below the root
folder. -/
def cloudBelow (cs : List Str) : Str :=
  joinSegments (driveRootFolder :: driveRootFolder :: cs)

/-- The unique id of the object with these components below the root folder. -/
def keyOf [Base64] (cs : List Str) : Str :=
  Base64.encode (cloudBelow cs)

theorem cloudBelow_inj {cs ds : List Str} (hcs : ∀ c ∈ cs, '/' ∉ c) (hds : ∀ c ∈ ds, '/' ∉ c)
    (h : cloudBelow cs = cloudBelow ds) : cs = ds := by
  have hroot := solid_driveRootFolder.noSep
  have hsep : ∀ {es : List Str}, (∀ c ∈ es, '/' ∉ c) →
      ∀ c ∈ driveRootFolder :: driveRootFolder :: es, '/' ∉ c :=
    fun hes => List.forall_mem_cons.mpr ⟨hroot, List.forall_mem_cons.mpr ⟨hroot, hes⟩⟩
  have hl := joinSegments_inj (hsep hcs) (hsep hds) (by simp) (by simp) h
  exact List.tail_eq_of_cons_eq (List.tail_eq_of_cons_eq hl)

/-- **Unique ids identify places.** -/
theorem keyOf_inj [Base64] {cs ds : List Str} (hcs : ∀ c ∈ cs, Solid c)
    (hds : ∀ c ∈ ds, Solid c) : keyOf cs = keyOf ds ↔ cs = ds := by
  constructor
  · intro h
    exact cloudBelow_inj (fun c hc => (hcs c hc).noSep) (fun c hc => (hds c hc).noSep)
      (Base64.encode_injective h)
  · rintro rfl
    rfl

/-- The unique id of a path below the watched directory.  Segments at the end that
are passed over, such as the empty one behind a trailing separator, do not
matter. -/
theorem getUniqueId_absolute [Base64] {cs t : List Str} (hcs : ∀ c ∈ cs, Solid c)
    (ht : ∀ c ∈ t, vacuous c = true ∧ '/' ∉ c) :
    (SyncableFile.mk (absolute (watchedDir ++ cs ++ t))).getUniqueId = .ok (keyOf cs) := by
  have hsolid : ∀ c ∈ driveRootFolder :: cs, Solid c :=
    List.forall_mem_cons.mpr ⟨solid_driveRootFolder, hcs⟩
  have hid := getUniqueId_plain hsolid ht
  rwa [push_driveRootFolder solid_driveRootFolder] at hid

theorem getUniqueId_below [Base64] {cs : List Str} (hcs : ∀ c ∈ cs, Solid c) :
    (SyncableFile.mk (below cs)).getUniqueId = .ok (keyOf cs) := by
  have h : (SyncableFile.mk (absolute (watchedDir ++ cs ++ []))).getUniqueId = .ok (keyOf cs) :=
    getUniqueId_absolute hcs (by simp)
  rwa [List.append_nil] at h

/-- The parent of a path below the watched directory. -/
theorem parentPath_below {cs : List Str} {f : Str} (hcs : ∀ c ∈ cs, Solid c) (hf : Solid f) :
    (SyncableFile.mk (below (cs ++ [f]))).parentPath = .ok (below cs) := by
  have hsolid : ∀ c ∈ watchedDir ++ cs, Solid c := by
    intro c hc
    rcases List.mem_append.mp hc with hc | hc
    · exact solid_watchedDir c hc
    · exact hcs c hc
  have hsep : ∀ c ∈ watchedDir ++ cs ++ f :: [], '/' ∉ c := by
    intro c hc
    rcases List.mem_append.mp hc with hc | hc
    · exact (hsolid c hc).noSep
    · rw [List.mem_singleton.mp hc]
      exact hf.noSep
  rw [SyncableFile.parentPath, below, ← List.append_assoc, pop_spelled hsep (by simp) hf.solid,
    rdropWhile_eq_self fun c hc => (hsolid c hc).solid]
  rfl

/-- The file name of a path below the watched directory. -/
theorem fileName_below {cs : List Str} {f : Str} (hcs : ∀ c ∈ cs, '/' ∉ c) (hf : IsName f) :
    fileName (below (cs ++ [f])) = some f := by
  have hsep : ∀ c ∈ watchedDir ++ cs ++ f :: [], '/' ∉ c := by
    intro c hc
    rw [List.mem_append, List.mem_append] at hc
    rcases hc with (hc | hc) | hc
    · exact (solid_watchedDir c hc).noSep
    · exact hcs c hc
    · rw [List.mem_singleton.mp hc]
      exact hf.noSep
  rw [below, ← List.append_assoc]
  exact fileName_spelled hsep (by simp) hf

end PiDriveSync
