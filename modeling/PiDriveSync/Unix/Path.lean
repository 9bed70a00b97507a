import Mathlib.Data.List.DropRight

/-!
# Unix paths, as the standard library reads them

A path is a string.  `components` is the reading everything else rests on: a
leading `/` is the root, and after it the string is cut at every `/` into
*segments*, of which the empty ones and `.` are passed over.  The operations
answer with *strings* again, not with lists of components: `stripPrefix` and
`parent` cut the string they are given, trim the separators and dots at the ends
of what is left, and keep every redundancy in the middle.

* `components`, `fileName`: the component iterator from the front and its last
  item.
* `stripPrefix`: the rest of the string after the components of another path.
* `parent`, `pop`: the string without its last component.
* `push`: one path behind another, with a separator only where it is needed.

An absolute path is `absolute l`, where `l` lists its segments, redundant ones
included.  `components_absolute` reads its components, and `joinSegments_inj` says
that plain segments are read back from the string they spell.
-/

namespace PiDriveSync

/-- A UTF-8 string, as its characters. -/
abbrev Str := List Char

/-- The characters of a string literal.  It is irreducible: a literal is compared
by evaluation and never unfolded by unification. -/
@[irreducible] def str (s : String) : Str :=
  s.toList

namespace UnixPath

/-! ## Segments -/

/-- The pieces of a string between its separators. -/
def segments (s : Str) : List Str :=
  s.splitOn '/'

/-- The string whose pieces these are. -/
def joinSegments (l : List Str) : Str :=
  ['/'].intercalate l

@[simp] theorem joinSegments_nil : joinSegments [] = [] := rfl

@[simp] theorem joinSegments_singleton (a : Str) : joinSegments [a] = a := by
  simp [joinSegments]

theorem joinSegments_cons {a : Str} {l : List Str} (hl : l ≠ []) :
    joinSegments (a :: l) = a ++ '/' :: joinSegments l := by
  simp [joinSegments, List.intercalate_cons_of_ne_nil hl]

theorem segments_joinSegments {l : List Str} (h : ∀ c ∈ l, '/' ∉ c) (hl : l ≠ []) :
    segments (joinSegments l) = l :=
  List.splitOn_intercalate '/' h hl

/-- Writing behind an empty last segment fills that segment. -/
theorem joinSegments_fill (l : List Str) (d : Str) :
    joinSegments (l ++ [[]]) ++ d = joinSegments (l ++ [d]) := by
  induction l with
  | nil => simp
  | cons a l ih =>
    rw [List.cons_append, List.cons_append, joinSegments_cons (by simp),
      joinSegments_cons (by simp), List.append_assoc, List.cons_append, ih]

/-- A separator at the end opens an empty segment. -/
theorem joinSegments_slash (l : List Str) (d : Str) :
    joinSegments (l ++ [d]) ++ ['/'] = joinSegments (l ++ [d] ++ [[]]) := by
  induction l with
  | nil => simp [joinSegments_cons]
  | cons a l ih =>
    rw [List.cons_append, List.cons_append, joinSegments_cons (by simp),
      joinSegments_cons (by simp), List.append_assoc, List.cons_append, ih]

/-- **Plain segments are read back.**  Two lists of segments without separators
spell the same string only when they are equal. -/
theorem joinSegments_inj {l m : List Str} (hl : ∀ c ∈ l, '/' ∉ c) (hm : ∀ c ∈ m, '/' ∉ c)
    (hl0 : l ≠ []) (hm0 : m ≠ []) (h : joinSegments l = joinSegments m) : l = m := by
  rw [← segments_joinSegments hl hl0, h, segments_joinSegments hm hm0]

/-! ## Components -/

/-- What one item of the component iterator is. -/
inductive Component where
  | rootDir
  | curDir
  | parentDir
  | normal (name : Str)
  deriving DecidableEq, Repr

/-- The text of a component. -/
def Component.asOsStr : Component → Str
  | .rootDir => ['/']
  | .curDir => ['.']
  | .parentDir => ['.', '.']
  | .normal name => name

/-- The component a segment stands for, if it is one: an empty segment and `.`
are passed over. -/
def parseSingleComponent : Str → Option Component
  | [] => none
  | ['.'] => none
  | ['.', '.'] => some .parentDir
  | name => some (.normal name)

/-- A segment that the iterator passes over. -/
def vacuous (seg : Str) : Bool :=
  (parseSingleComponent seg).isNone

/-- Whether the path starts at the root. -/
def hasRoot : Str → Bool
  | '/' :: _ => true
  | _ => false

/-- Whether the path starts with a `.` of its own, which is then a component. -/
def includeCurDir : Str → Bool
  | ['.'] => true
  | '.' :: '/' :: _ => true
  | _ => false

/-- The component before the body, if there is one. -/
def startComponents (s : Str) : List Component :=
  if hasRoot s then [.rootDir] else if includeCurDir s then [.curDir] else []

/-- The characters before the body: the root or the leading `.`. -/
def beforeBody (s : Str) : Str :=
  s.take (startComponents s).length

/-- The characters after the root or the leading `.`. -/
def body (s : Str) : Str :=
  s.drop (startComponents s).length

/-- The components of a path, from the front. -/
def components (s : Str) : List Component :=
  startComponents s ++ (segments (body s)).filterMap parseSingleComponent

/-- The segments that are left when `n` components have been taken. -/
def dropComponents : ℕ → List Str → List Str
  | 0, l => l
  | _ + 1, [] => []
  | n + 1, seg :: l =>
    if vacuous seg then dropComponents (n + 1) l else dropComponents n l

/-- The string that is left when `n` components have been taken from the front:
trimmed at its right end, and at its left end too unless nothing was taken. -/
def asPathAfter (s : Str) : ℕ → Str
  | 0 => beforeBody s ++ joinSegments ((segments (body s)).rdropWhile vacuous)
  | n + 1 => joinSegments (((dropComponents (n + 1 - (startComponents s).length)
      (segments (body s))).dropWhile vacuous).rdropWhile vacuous)

/-- The rest of `s` after the components of `base`, or nothing if `base` is not a
prefix of `s` component by component. -/
def stripPrefix (s base : Str) : Option Str :=
  if components base <+: components s then
    some (asPathAfter s (components base).length)
  else
    none

/-- The path without its last component.  The root alone and the empty path have
none. -/
def parent (s : Str) : Option Str :=
  match (segments (body s)).rdropWhile vacuous with
  | [] => if includeCurDir s then some [] else none
  | l => some (beforeBody s ++ joinSegments (l.dropLast.rdropWhile vacuous))

/-- The path cut back to the length of its parent. -/
def pop (s : Str) : Option Str :=
  (parent s).map fun p => s.take p.length

/-- The last component, when it is a name. -/
def fileName (s : Str) : Option Str :=
  match (components s).getLast? with
  | some (.normal name) => some name
  | _ => none

/-- One path behind another.  An absolute second path replaces the first. -/
def push (s t : Str) : Str :=
  if hasRoot t then t
  else if s ≠ [] ∧ s.getLast? ≠ some '/' then s ++ '/' :: t
  else s ++ t

/-! ## Absolute paths -/

/-- The absolute path with the given segments. -/
def absolute (l : List Str) : Str :=
  '/' :: joinSegments l

/-- A segment that is a component: it has no separator and is not passed over. -/
structure Solid (seg : Str) : Prop where
  noSep : '/' ∉ seg
  solid : vacuous seg = false

/-- A segment that is a name. -/
structure IsName (seg : Str) : Prop extends Solid seg where
  notParent : seg ≠ ['.', '.']

theorem vacuous_iff (seg : Str) : vacuous seg = true ↔ seg = [] ∨ seg = ['.'] := by
  unfold vacuous parseSingleComponent
  split <;> simp_all

theorem solid_iff (seg : Str) : Solid seg ↔ '/' ∉ seg ∧ seg ≠ [] ∧ seg ≠ ['.'] := by
  constructor
  · rintro ⟨hsep, hs⟩
    have hne : ¬ (seg = [] ∨ seg = ['.']) := fun h => by
      rw [(vacuous_iff seg).mpr h] at hs
      exact absurd hs (by simp)
    exact ⟨hsep, fun h => hne (Or.inl h), fun h => hne (Or.inr h)⟩
  · rintro ⟨hsep, h0, h1⟩
    refine ⟨hsep, ?_⟩
    rw [← Bool.not_eq_true, vacuous_iff]
    rintro (h | h)
    · exact h0 h
    · exact h1 h

instance (seg : Str) : Decidable (Solid seg) :=
  decidable_of_iff _ (solid_iff seg).symm

instance (seg : Str) : Decidable (IsName seg) :=
  decidable_of_iff (Solid seg ∧ seg ≠ ['.', '.'])
    ⟨fun h => ⟨h.1, h.2⟩, fun h => ⟨h.toSolid, h.notParent⟩⟩

/-- A path that starts with a solid segment is relative. -/
theorem hasRoot_joinSegments {a : Str} (ha : Solid a) (l : List Str) :
    hasRoot (joinSegments (a :: l)) = false := by
  obtain ⟨hsep, h0, -⟩ := (solid_iff a).mp ha
  obtain ⟨x, a, rfl⟩ := List.exists_cons_of_ne_nil h0
  have hx : x ≠ '/' := fun h => hsep (h ▸ List.mem_cons_self ..)
  cases l with
  | nil =>
    rw [joinSegments_singleton, hasRoot]
    simpa using hx
  | cons b l =>
    rw [joinSegments_cons (List.cons_ne_nil _ _), List.cons_append, hasRoot]
    simpa using hx

/-- A name is the component of its own text. -/
theorem IsName.parse {seg : Str} (h : IsName seg) :
    parseSingleComponent seg = some (.normal seg) := by
  obtain ⟨-, h0, h1⟩ := (solid_iff seg).mp h.toSolid
  have h2 := h.notParent
  unfold parseSingleComponent
  split <;> simp_all

/-- The text of a component that a segment stands for is the segment. -/
theorem asOsStr_of_parse {seg : Str} {c : Component}
    (h : parseSingleComponent seg = some c) : c.asOsStr = seg := by
  unfold parseSingleComponent at h
  split at h <;> simp_all [Component.asOsStr] <;> subst h <;> rfl

@[simp] theorem startComponents_absolute (l : List Str) :
    startComponents (absolute l) = [.rootDir] := by
  simp [startComponents, absolute, hasRoot]

@[simp] theorem beforeBody_absolute (l : List Str) : beforeBody (absolute l) = ['/'] := by
  rw [beforeBody, startComponents_absolute]
  rfl

@[simp] theorem body_absolute (l : List Str) : body (absolute l) = joinSegments l := by
  rw [body, startComponents_absolute]
  rfl

section Absolute

variable {l : List Str} (hsep : ∀ c ∈ l, '/' ∉ c) (hl : l ≠ [])
include hsep hl

theorem components_absolute :
    components (absolute l) = .rootDir :: l.filterMap parseSingleComponent := by
  rw [components, startComponents_absolute, body_absolute, segments_joinSegments hsep hl]
  rfl

end Absolute

/-- Taking as many components as there are solid segments at the front leaves the
segments after them. -/
theorem dropComponents_append {bs : List Str} (hbs : ∀ c ∈ bs, vacuous c = false)
    (l : List Str) : dropComponents bs.length (bs ++ l) = l := by
  induction bs with
  | nil => rw [List.length_nil, List.nil_append, dropComponents]
  | cons b bs ih =>
    have hb : vacuous b = false := hbs b (List.mem_cons_self ..)
    rw [List.length_cons, List.cons_append, dropComponents, hb]
    exact ih fun c hc => hbs c (List.mem_cons_of_mem _ hc)

theorem dropComponents_subset (n : ℕ) (l : List Str) : ∀ c ∈ dropComponents n l, c ∈ l := by
  induction l generalizing n with
  | nil => cases n <;> simp [dropComponents]
  | cons seg l ih =>
    intro c hc
    cases n with
    | zero => rwa [dropComponents] at hc
    | succ n =>
      rw [dropComponents] at hc
      split_ifs at hc
      · exact List.mem_cons_of_mem _ (ih _ c hc)
      · exact List.mem_cons_of_mem _ (ih _ c hc)

theorem length_filterMap_parse {bs : List Str} (hbs : ∀ c ∈ bs, vacuous c = false) :
    (bs.filterMap parseSingleComponent).length = bs.length := by
  induction bs with
  | nil => rfl
  | cons b bs ih =>
    have hb := hbs b (List.mem_cons_self ..)
    have ih := ih fun c hc => hbs c (List.mem_cons_of_mem _ hc)
    rw [vacuous] at hb
    cases hp : parseSingleComponent b with
    | none => rw [hp] at hb; exact absurd hb (by simp)
    | some c => rw [List.filterMap_cons_some hp, List.length_cons, List.length_cons, ih]

/-! ## What is left of a path, read again -/

/-- The pieces between separators contain none. -/
theorem noSep_of_mem_segments {s seg : Str} (h : seg ∈ segments s) : '/' ∉ seg := by
  induction s generalizing seg with
  | nil =>
    rw [segments, List.splitOn_nil, List.mem_singleton] at h
    rw [h]
    exact List.not_mem_nil
  | cons a s ih =>
    rw [segments, List.splitOn_cons_eq_if_modifyHead] at h
    split_ifs at h with ha
    · rcases List.mem_cons.mp h with rfl | h
      · exact List.not_mem_nil
      · exact ih h
    · obtain ⟨r, rs, hr⟩ := List.exists_cons_of_ne_nil (List.splitOn_ne_nil '/' s)
      have ih' : ∀ c ∈ r :: rs, '/' ∉ c := fun c hc => ih (by rw [segments, hr]; exact hc)
      rw [hr, List.modifyHead_cons] at h
      rcases List.mem_cons.mp h with rfl | h
      · intro hmem
        rcases List.mem_cons.mp hmem with hsep | hmem
        · exact ha (by rw [← hsep]; exact beq_self_eq_true _)
        · exact ih' r (List.mem_cons_self ..) hmem
      · exact ih' seg (List.mem_cons_of_mem _ h)

/-- A path that starts with a solid segment has no component before its body. -/
theorem startComponents_joinSegments {a : Str} (ha : Solid a) (l : List Str) :
    startComponents (joinSegments (a :: l)) = [] := by
  have hdot : includeCurDir (joinSegments (a :: l)) = false := by
    obtain ⟨hsep, h0, h1⟩ := (solid_iff a).mp ha
    obtain ⟨x, a, rfl⟩ := List.exists_cons_of_ne_nil h0
    have hcur : ∀ t : Str, (t = [] ∨ ∃ u, t = '/' :: u) →
        includeCurDir (x :: a ++ t) = false := by
      intro t ht
      cases a with
      | nil =>
        have hx : x ≠ '.' := fun h => h1 (by rw [h])
        rcases ht with rfl | ⟨u, rfl⟩ <;> simp [includeCurDir, hx]
      | cons y a =>
        have hy : y ≠ '/' := fun h => hsep (by rw [h]; simp)
        simp [includeCurDir, hy]
    cases l with
    | nil => simpa using hcur [] (Or.inl rfl)
    | cons b l =>
      rw [joinSegments_cons (List.cons_ne_nil _ _)]
      exact hcur _ (Or.inr ⟨_, rfl⟩)
  rw [startComponents, hasRoot_joinSegments ha, hdot]
  rfl

/-- The components of a relative path, when its first segment is solid. -/
theorem components_joinSegments {a : Str} {l : List Str} (ha : Solid a)
    (hl : ∀ c ∈ l, '/' ∉ c) :
    components (joinSegments (a :: l)) = (a :: l).filterMap parseSingleComponent := by
  have hsep : ∀ c ∈ a :: l, '/' ∉ c := by
    intro c hc
    rcases List.mem_cons.mp hc with rfl | hc
    · exact ha.noSep
    · exact hl c hc
  rw [components, body, startComponents_joinSegments ha, List.length_nil, List.drop_zero,
    List.nil_append, segments_joinSegments hsep (List.cons_ne_nil _ _)]

/-- Solid segments are the texts of their components. -/
theorem map_asOsStr_of_solid {l : List Str} (hl : ∀ c ∈ l, Solid c) :
    (l.filterMap parseSingleComponent).map Component.asOsStr = l := by
  induction l with
  | nil => rfl
  | cons a l ih =>
    have ha := (hl a (List.mem_cons_self ..)).solid
    rw [vacuous] at ha
    cases hp : parseSingleComponent a with
    | none => rw [hp] at ha; exact absurd ha (by simp)
    | some c =>
      rw [List.filterMap_cons_some hp, List.map_cons, asOsStr_of_parse hp,
        ih fun d hd => hl d (List.mem_cons_of_mem _ hd)]

/-- The text of a component that comes from a segment is solid. -/
theorem solid_of_mem_filterMap {l : List Str} (hl : ∀ c ∈ l, '/' ∉ c) {d : Str}
    (hd : d ∈ (l.filterMap parseSingleComponent).map Component.asOsStr) : Solid d := by
  obtain ⟨c, hc, rfl⟩ := List.mem_map.mp hd
  obtain ⟨seg, hseg, hp⟩ := List.mem_filterMap.mp hc
  rw [asOsStr_of_parse hp]
  refine ⟨hl seg hseg, ?_⟩
  rw [vacuous, hp]
  rfl

end UnixPath
end PiDriveSync
