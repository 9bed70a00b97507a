import PiDriveSync.Encoding.Base64
import PiDriveSync.Provider.Daemon

/-!
# An outside in which nothing goes wrong

A concrete provider and machine: the base64 crate with the standard alphabet, ids that
are longer than those in use, answers in the order of creation, and no fault.
`calmBut` puts one fault into it.  `uploadsOf` is a run that uploads some files, one
after the other; `normal_uploadsOf` and `noClash_uploadsOf` read off its files what is
asked of the paths of a run.
-/

namespace PiDriveSync

open UnixPath

/-- The `base64` crate. -/
@[reducible] def standardBase64 : Base64 where
  encode := Encoding.encode
  encode_injective := Encoding.encode_injective
  encode_alphabet := by
    have halphabet : base64Alphabet = Encoding.digits ++ ['='] := by decide +kernel
    rw [halphabet]
    exact fun s => Encoding.encodeBytes_alphabet _

/-- Answers come in the order of creation. -/
def oldestFirst : Order where
  arrange := fun l => l
  perm := List.Perm.refl

/-- A number that no id in the list is longer than. -/
def longest (ids : List Str) : ℕ :=
  (ids.map List.length).foldr max 0

theorem length_le_longest {ids : List Str} {i : Str} (h : i ∈ ids) :
    i.length ≤ longest ids := by
  induction ids with
  | nil => simp at h
  | cons j ids ih =>
    rw [longest, List.map_cons, List.foldr_cons]
    rcases List.mem_cons.mp h with rfl | h
    · exact le_max_left _ _
    · exact (ih h).trans (le_max_right _ _)

/-- Each id is longer than those in use. -/
def longerIds : IdSupply where
  fresh := fun ids => List.replicate (longest ids + 1) 'i'
  fresh_notMem := by
    intro ids h
    have hlen := length_le_longest h
    rw [List.length_replicate] at hlen
    omega

/-- Nothing fails and nothing leaves the cache. -/
def calm : Schedule :=
  fun _ => ⟨.none, .failure, oldestFirst, longerIds, fun _ => false, true, true⟩

/-- One call goes wrong. -/
def calmBut (t : ℕ) (f : Fault) : Schedule :=
  fun n => if n = t then { calm n with fault := f } else calm n

/-- Every file is there, with something in it. -/
def everyFile : Disk :=
  fun _ => some [1]

/-! ## Runs that upload some files -/

/-- The run that uploads these files, given by their components below the watched
directory. -/
def uploadsOf (files : List (List Str)) : List Action :=
  files.map fun cs => .upload everyFile (below cs)

theorem below_inj {cs ds : List Str} (hcs : ∀ c ∈ cs, Solid c) (hds : ∀ c ∈ ds, Solid c)
    (h : below cs = below ds) : cs = ds := by
  have hc := relComponents_below hcs
  rw [h, relComponents_below hds, Option.some.injEq] at hc
  exact hc.symm

theorem normal_uploadsOf {files : List (List Str)}
    (hfiles : ∀ cs ∈ files, cs ≠ [] ∧ ∀ c ∈ cs, IsName c) : Normal (uploadsOf files) := by
  intro disk path h
  obtain ⟨cs, hcs, heq⟩ := List.mem_map.mp h
  obtain ⟨-, rfl⟩ := Action.upload.inj heq
  obtain ⟨hne, hnames⟩ := hfiles cs hcs
  refine ⟨cs.dropLast, cs.getLast hne, ?_, ?_, ?_⟩
  · rw [List.dropLast_append_getLast]
  · exact fun c hc => hnames c (List.mem_of_mem_dropLast hc)
  · exact hnames _ (List.getLast_mem hne)

theorem noClash_uploadsOf {files : List (List Str)}
    (hfiles : ∀ cs ∈ files, cs ≠ [] ∧ ∀ c ∈ cs, IsName c)
    (hapart : ∀ cs ∈ files, ∀ ds ∈ files, cs <+: ds → cs = ds) : NoClash (uploadsOf files) := by
  -- a file of the run, spelled with names, is one of the list
  have hmem : ∀ cs : List Str, (∀ c ∈ cs, IsName c) → Uploads (uploadsOf files) (below cs) →
      cs ∈ files := by
    rintro cs hnames ⟨disk, h⟩
    obtain ⟨ds, hds, heq⟩ := List.mem_map.mp h
    have hbelow := (Action.upload.inj heq).2
    have hsame : ds = cs := below_inj (fun c hc => ((hfiles ds hds).2 c hc).toSolid)
      (fun c hc => (hnames c hc).toSolid) hbelow
    rwa [← hsame]
  intro cs ds hnames hcs hds hpre
  exact hapart cs (hmem cs (fun c hc => hnames c (hpre.subset hc)) hcs) ds (hmem ds hnames hds) hpre

end PiDriveSync
