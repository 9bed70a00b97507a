import PiDriveSync.Unix.Path

/-!
# Paths in any spelling

A path may be spelled with empty segments and dots where they say nothing.  Every
string that starts at the root is `absolute l` for the list `l` of its segments, so
that a statement about all spellings is one about all lists.

What an operation leaves of a spelling is a piece of `l` with the passed-over segments
at its ends cut off (`trim`); those in the middle stay.

* `stripPrefix_spelled`, `exists_of_stripPrefix`: what is left behind a prefix, and
  that a path with the prefix is of this kind.
* `components_of_stripPrefix`: the components of a path are those of the prefix and
  those of what is left.
* `parent_spelled`, `pop_spelled`, `fileName_spelled`: the last component goes, and so
  does what is passed over in front of it.
-/

namespace PiDriveSync
namespace UnixPath

/-! ## Cutting off what is passed over -/

/-- The segments without the passed-over ones at both ends. -/
def trim (l : List Str) : List Str :=
  (l.dropWhile vacuous).rdropWhile vacuous

theorem mem_of_mem_trim {l : List Str} {c : Str} (h : c ∈ trim l) : c ∈ l :=
  (List.dropWhile_sublist _).subset ((List.rdropWhile_prefix _ _).subset h)

/-- Passed-over segments at the end are cut off with the rest. -/
theorem rdropWhile_append_vacuous (l : List Str) {t : List Str} (ht : ∀ c ∈ t, vacuous c = true) :
    (l ++ t).rdropWhile vacuous = l.rdropWhile vacuous := by
  induction t using List.reverseRecOn with
  | nil => rw [List.append_nil]
  | append_singleton t x ih =>
    rw [← List.append_assoc, List.rdropWhile_concat_pos _ _ _ (ht x (by simp))]
    exact ih fun c hc => ht c (by simp [hc])

theorem trim_append_vacuous (l : List Str) {t : List Str} (ht : ∀ c ∈ t, vacuous c = true) :
    trim (l ++ t) = trim l := by
  have hnil : t.dropWhile vacuous = [] := List.dropWhile_eq_nil_iff.mpr ht
  rw [trim, trim, List.dropWhile_append]
  split_ifs with h
  · rw [List.isEmpty_iff.mp h, hnil]
  · exact rdropWhile_append_vacuous _ ht

theorem rdropWhile_eq_self {l : List Str} (h : ∀ c ∈ l, vacuous c = false) :
    l.rdropWhile vacuous = l := by
  rw [List.rdropWhile_eq_self_iff]
  intro hne
  rw [h _ (List.getLast_mem hne)]
  simp

/-- Nothing is cut off between solid ends. -/
theorem trim_eq_self {l : List Str} (h : ∀ c ∈ l, vacuous c = false) : trim l = l := by
  have hleft : l.dropWhile vacuous = l := by
    cases l with
    | nil => rfl
    | cons a l => exact List.dropWhile_cons_of_neg (by simp [h a (List.mem_cons_self ..)])
  rw [trim, hleft, rdropWhile_eq_self h]

theorem parse_eq_none {c : Str} : parseSingleComponent c = none ↔ vacuous c = true := by
  rw [vacuous, Option.isNone_iff_eq_none]

/-- What is cut off are no components. -/
theorem filterMap_rdropWhile (l : List Str) :
    (l.rdropWhile vacuous).filterMap parseSingleComponent = l.filterMap parseSingleComponent := by
  induction l using List.reverseRecOn with
  | nil => rfl
  | append_singleton l a ih =>
    cases ha : vacuous a with
    | true =>
      rw [List.rdropWhile_concat_pos _ _ _ ha, ih, List.filterMap_append,
        List.filterMap_cons_none (parse_eq_none.mpr ha), List.filterMap_nil, List.append_nil]
    | false => rw [List.rdropWhile_concat_neg _ _ _ (by simp [ha])]

theorem filterMap_trim (l : List Str) :
    (trim l).filterMap parseSingleComponent = l.filterMap parseSingleComponent := by
  have hleft : (l.dropWhile vacuous).filterMap parseSingleComponent =
      l.filterMap parseSingleComponent := by
    induction l with
    | nil => rfl
    | cons a l ih =>
      cases ha : vacuous a with
      | true =>
        rw [List.dropWhile_cons_of_pos ha, ih, List.filterMap_cons_none (parse_eq_none.mpr ha)]
      | false => rw [List.dropWhile_cons_of_neg (by simp [ha])]
  rw [trim, filterMap_rdropWhile, hleft]

/-- What is left behind the first segment that is not passed over begins with it. -/
theorem trim_eq_nil_or_cons (l : List Str) :
    trim l = [] ∨ ∃ a m, trim l = a :: m ∧ vacuous a = false := by
  rcases hl : trim l with _ | ⟨a, m⟩
  · exact Or.inl rfl
  · refine Or.inr ⟨a, m, rfl, ?_⟩
    obtain ⟨t, ht⟩ := List.rdropWhile_prefix vacuous (l.dropWhile vacuous)
    rw [trim] at hl
    rw [hl, List.cons_append] at ht
    have hne : l.dropWhile vacuous ≠ [] := by
      rw [← ht]
      exact List.cons_ne_nil _ _
    have hhead := List.head_dropWhile_not vacuous hne
    simp only [← ht, List.head_cons] at hhead
    simpa using hhead

/-- Segments in normal spelling are the texts of their components. -/
theorem eq_map_asOsStr_iff {l : List Str} (hl : ∀ c ∈ l, '/' ∉ c) :
    l = (l.filterMap parseSingleComponent).map Component.asOsStr ↔
      ∀ c ∈ l, vacuous c = false := by
  constructor
  · intro h c hc
    rw [h] at hc
    exact (solid_of_mem_filterMap hl hc).solid
  · exact fun h => (map_asOsStr_of_solid fun c hc => ⟨hl c hc, h c hc⟩).symm

/-! ## Taking components off -/

theorem filterMap_dropComponents (n : ℕ) (l : List Str) :
    (dropComponents n l).filterMap parseSingleComponent =
      (l.filterMap parseSingleComponent).drop n := by
  induction l generalizing n with
  | nil => cases n <;> simp [dropComponents]
  | cons a l ih =>
    cases n with
    | zero => rw [dropComponents, List.drop_zero]
    | succ n =>
      rw [dropComponents]
      cases hp : parseSingleComponent a with
      | none => rw [if_pos (parse_eq_none.mp hp), ih, List.filterMap_cons_none hp]
      | some c =>
        have ha : ¬ vacuous a = true := fun h => by
          rw [parse_eq_none.mpr h] at hp
          exact absurd hp (by simp)
        rw [if_neg ha, ih, List.filterMap_cons_some hp, List.drop_succ_cons]

/-- Passed-over segments at the end do not change what is left, once it is trimmed. -/
theorem trim_dropComponents_append (n : ℕ) (l : List Str) {t : List Str}
    (ht : ∀ c ∈ t, vacuous c = true) :
    trim (dropComponents n (l ++ t)) = trim (dropComponents n l) := by
  induction l generalizing n with
  | nil =>
    have hnone : trim (dropComponents n t) = [] := by
      rw [← List.nil_append (dropComponents n t),
        trim_append_vacuous [] fun c hc => ht c (dropComponents_subset n t c hc)]
      rfl
    rw [List.nil_append, hnone]
    cases n <;> rfl
  | cons a l ih =>
    cases n with
    | zero =>
      rw [dropComponents, dropComponents]
      exact trim_append_vacuous _ ht
    | succ n =>
      rw [List.cons_append, dropComponents, dropComponents]
      split_ifs
      · exact ih (n + 1)
      · exact ih n

/-- As many components as there are in front of some segments: what is left are these. -/
theorem trim_dropComponents_of_length {n : ℕ} {r : List Str}
    (hr : (r.filterMap parseSingleComponent).length = n) (l : List Str) :
    trim (dropComponents n (r ++ l)) = trim l := by
  induction r generalizing n with
  | nil =>
    obtain rfl : 0 = n := hr
    rw [dropComponents, List.nil_append]
  | cons a r ih =>
    cases hp : parseSingleComponent a with
    | none =>
      rw [List.filterMap_cons_none hp] at hr
      have ha : vacuous a = true := parse_eq_none.mp hp
      cases n with
      | zero =>
        have hcut : trim (a :: (r ++ l)) = trim (r ++ l) := by
          rw [trim, List.dropWhile_cons_of_pos ha, trim]
        rw [dropComponents, List.cons_append, hcut, ← ih hr, dropComponents]
      | succ n => rw [List.cons_append, dropComponents, if_pos ha, ih hr]
    | some c =>
      rw [List.filterMap_cons_some hp] at hr
      obtain rfl : (r.filterMap parseSingleComponent).length + 1 = n := hr
      have ha : ¬ vacuous a = true := fun h => by
        rw [parse_eq_none.mpr h] at hp
        exact absurd hp (by simp)
      rw [List.cons_append, dropComponents, if_neg ha, ih rfl]

/-- What is passed over behind the last component does not matter to what is left. -/
theorem trim_dropComponents_rdropWhile (n : ℕ) (l : List Str) :
    trim (dropComponents n (l.rdropWhile vacuous)) = trim (dropComponents n l) := by
  have htail : ∀ c ∈ l.rtakeWhile vacuous, vacuous c = true :=
    fun c hc => List.mem_rtakeWhile_imp hc
  rw [← trim_dropComponents_append n (l.rdropWhile vacuous) htail,
    List.rdropWhile_append_rtakeWhile]

/-- The last component of a list of segments, with what is passed over behind it. -/
theorem exists_last_component {l : List Str} {cs : List Component} {c : Component}
    (h : l.filterMap parseSingleComponent = cs ++ [c]) :
    ∃ m a t, l = m ++ a :: t ∧ m.filterMap parseSingleComponent = cs ∧
      parseSingleComponent a = some c ∧ ∀ b ∈ t, vacuous b = true := by
  obtain ⟨m, rest, rfl, hm, hrest⟩ := List.filterMap_eq_append_iff.mp h
  obtain ⟨u, a, t, rfl, hu, ha, ht⟩ := List.filterMap_eq_cons_iff.mp hrest
  refine ⟨m ++ u, a, t, by simp, ?_, ha, ?_⟩
  · rw [List.filterMap_append, hm, List.filterMap_eq_nil_iff.mpr hu, List.append_nil]
  · exact fun b hb => parse_eq_none.mp (List.filterMap_eq_nil_iff.mp ht b hb)

/-! ## Strings -/

theorem joinSegments_segments (s : Str) : joinSegments (segments s) = s :=
  List.intercalate_splitOn '/'

/-- **Every path from the root is a list of segments.** -/
theorem exists_absolute {s : Str} (h : hasRoot s = true) :
    ∃ l, l ≠ [] ∧ (∀ c ∈ l, '/' ∉ c) ∧ s = absolute l := by
  unfold hasRoot at h
  split at h
  · rename_i rest
    exact ⟨segments rest, List.splitOn_ne_nil _ _, fun c hc => noSep_of_mem_segments hc,
      by rw [absolute, joinSegments_segments]⟩
  · exact absurd h (by simp)

/-- The components tell whether a path starts at the root. -/
theorem exists_absolute_of_components {s : Str} {cs : List Component}
    (h : components s = .rootDir :: cs) :
    ∃ l, l ≠ [] ∧ (∀ c ∈ l, '/' ∉ c) ∧ s = absolute l ∧ l.filterMap parseSingleComponent = cs := by
  have hroot : hasRoot s = true := by
    by_contra hrel
    have hmem : Component.rootDir ∈ components s := by
      rw [h]
      exact List.mem_cons_self ..
    rw [components, List.mem_append, startComponents, if_neg hrel] at hmem
    rcases hmem with hmem | hmem
    · split_ifs at hmem <;> simp at hmem
    · obtain ⟨seg, -, hseg⟩ := List.mem_filterMap.mp hmem
      unfold parseSingleComponent at hseg
      split at hseg <;> simp at hseg
  obtain ⟨l, hl, hsep, rfl⟩ := exists_absolute hroot
  rw [components_absolute hsep hl, List.cons.injEq] at h
  exact ⟨l, hl, hsep, rfl, h.2⟩

/-- The first segments of a string are its beginning. -/
theorem joinSegments_starts {l m : List Str} (h : l <+: m) : joinSegments l <+: joinSegments m := by
  obtain ⟨t, rfl⟩ := h
  induction l with
  | nil => exact List.nil_prefix
  | cons a l ih =>
    rcases l with _ | ⟨b, l⟩
    · rcases t with _ | ⟨c, t⟩
      · exact List.prefix_rfl
      · rw [joinSegments_singleton, List.singleton_append, joinSegments_cons (List.cons_ne_nil _ _)]
        exact List.prefix_append _ _
    · show joinSegments (a :: b :: l) <+: joinSegments (a :: (b :: l ++ t))
      rw [joinSegments_cons (List.cons_ne_nil _ _),
        joinSegments_cons (List.append_ne_nil_of_left_ne_nil (List.cons_ne_nil _ _) _)]
      exact (List.prefix_append_right_inj _).mpr ((List.prefix_cons_inj _).mpr ih)

theorem absolute_starts {l m : List Str} (h : l <+: m) : absolute l <+: absolute m :=
  (List.prefix_cons_inj _).mpr (joinSegments_starts h)

/-- One more segment is one more separator. -/
theorem absolute_snoc {l : List Str} (hl : l ≠ []) (d : Str) :
    absolute (l ++ [d]) = absolute l ++ '/' :: d := by
  obtain ⟨m, a, rfl⟩ := (List.eq_nil_or_concat' l).resolve_left hl
  rw [absolute, ← joinSegments_fill, ← joinSegments_slash]
  simp [absolute]

/-- What is left of some segments, read as a path. -/
theorem components_joinSegments_trim {l : List Str} (hl : ∀ c ∈ l, '/' ∉ c) :
    components (joinSegments (trim l)) = l.filterMap parseSingleComponent := by
  rw [← filterMap_trim]
  have hsep : ∀ c ∈ trim l, '/' ∉ c := fun c hc => hl c (mem_of_mem_trim hc)
  rcases trim_eq_nil_or_cons l with hnil | ⟨a, m, hcons, ha⟩
  · rw [hnil]
    rfl
  · rw [hcons] at hsep ⊢
    exact components_joinSegments ⟨hsep a (List.mem_cons_self ..), ha⟩
      fun c hc => hsep c (List.mem_cons_of_mem _ hc)

/-! ## Stripping a prefix -/

section Strip

variable {bs : List Str} (hbs : ∀ c ∈ bs, Solid c) (h0 : bs ≠ [])
include hbs h0

theorem length_components_absolute : (components (absolute bs)).length = bs.length + 1 := by
  rw [components_absolute (fun c hc => (hbs c hc).noSep) h0, List.length_cons,
    length_filterMap_parse fun c hc => (hbs c hc).solid]

/-- **Stripping a prefix, in any spelling.** -/
theorem stripPrefix_spelled {l : List Str} (hl : l ≠ []) (hsep : ∀ c ∈ l, '/' ∉ c)
    (hpre : bs.filterMap parseSingleComponent <+: l.filterMap parseSingleComponent) :
    stripPrefix (absolute l) (absolute bs) =
      some (joinSegments (trim (dropComponents bs.length l))) := by
  have hcomp : components (absolute bs) <+: components (absolute l) := by
    rw [components_absolute (fun c hc => (hbs c hc).noSep) h0, components_absolute hsep hl]
    exact (List.prefix_cons_inj _).mpr hpre
  rw [stripPrefix, if_pos hcomp, length_components_absolute hbs h0, asPathAfter,
    startComponents_absolute, body_absolute, segments_joinSegments hsep hl,
    List.length_singleton, Nat.add_sub_cancel, trim]

/-- In normal spelling, up to what is passed over at the end. -/
theorem stripPrefix_absolute {cs t : List Str} (hcs : ∀ c ∈ cs, Solid c)
    (ht : ∀ c ∈ t, vacuous c = true ∧ '/' ∉ c) :
    stripPrefix (absolute (bs ++ cs ++ t)) (absolute bs) = some (joinSegments cs) := by
  have hsep : ∀ c ∈ bs ++ cs ++ t, '/' ∉ c := by
    intro c hc
    rw [List.mem_append, List.mem_append] at hc
    rcases hc with (hc | hc) | hc
    · exact (hbs c hc).noSep
    · exact (hcs c hc).noSep
    · exact (ht c hc).2
  have hpre : bs.filterMap parseSingleComponent <+:
      (bs ++ cs ++ t).filterMap parseSingleComponent := by
    rw [List.append_assoc, List.filterMap_append]
    exact List.prefix_append _ _
  rw [stripPrefix_spelled hbs h0 (by simp [h0]) hsep hpre, List.append_assoc,
    dropComponents_append fun c hc => (hbs c hc).solid,
    trim_append_vacuous _ fun c hc => (ht c hc).1, trim_eq_self fun c hc => (hcs c hc).solid]

/-- **A path with the prefix** is one of these. -/
theorem exists_of_stripPrefix {s rel : Str} (h : stripPrefix s (absolute bs) = some rel) :
    ∃ l, l ≠ [] ∧ (∀ c ∈ l, '/' ∉ c) ∧ s = absolute l ∧
      bs.filterMap parseSingleComponent <+: l.filterMap parseSingleComponent ∧
      rel = joinSegments (trim (dropComponents bs.length l)) := by
  have hpre : components (absolute bs) <+: components s := by
    unfold stripPrefix at h
    split_ifs at h with hpre
    exact hpre
  rw [components_absolute (fun c hc => (hbs c hc).noSep) h0] at hpre
  obtain ⟨rest, hrest⟩ := hpre
  obtain ⟨l, hl, hsep, rfl, hcomps⟩ := exists_absolute_of_components hrest.symm
  have hpre : bs.filterMap parseSingleComponent <+: l.filterMap parseSingleComponent :=
    ⟨rest, hcomps.symm⟩
  rw [stripPrefix_spelled hbs h0 hl hsep hpre, Option.some.injEq] at h
  exact ⟨l, hl, hsep, rfl, hpre, h.symm⟩

/-- **What is left are the other components.** -/
theorem components_of_stripPrefix {s rel : Str} (h : stripPrefix s (absolute bs) = some rel) :
    components s = components (absolute bs) ++ components rel := by
  obtain ⟨l, hl, hsep, rfl, hpre, rfl⟩ := exists_of_stripPrefix hbs h0 h
  have hrest : ∀ c ∈ dropComponents bs.length l, '/' ∉ c :=
    fun c hc => hsep c (dropComponents_subset _ _ c hc)
  obtain ⟨rest, hsplit⟩ := hpre
  have hlen : (bs.filterMap parseSingleComponent).length = bs.length :=
    length_filterMap_parse fun c hc => (hbs c hc).solid
  rw [components_joinSegments_trim hrest, components_absolute hsep hl,
    components_absolute (fun c hc => (hbs c hc).noSep) h0, filterMap_dropComponents, ← hsplit,
    ← hlen, List.drop_left]
  rfl

end Strip

/-! ## The last component -/

section Last

variable {l t : List Str} {f : Str} (hsep : ∀ c ∈ l ++ f :: t, '/' ∉ c)
  (ht : ∀ c ∈ t, vacuous c = true)
include hsep ht

/-- **The parent, in any spelling.** -/
theorem parent_spelled (hf : vacuous f = false) :
    parent (absolute (l ++ f :: t)) = some (absolute (l.rdropWhile vacuous)) := by
  have htrim : (l ++ f :: t).rdropWhile vacuous = l ++ [f] := by
    rw [List.append_cons, rdropWhile_append_vacuous _ ht]
    exact List.rdropWhile_concat_neg _ _ _ (by rw [hf]; simp)
  rw [parent, body_absolute, segments_joinSegments hsep (by simp), htrim]
  split
  · rename_i h
    exact absurd h (by simp)
  · rw [List.dropLast_concat, beforeBody_absolute]
    rfl

theorem pop_spelled (hf : vacuous f = false) :
    pop (absolute (l ++ f :: t)) = some (absolute (l.rdropWhile vacuous)) := by
  have hpre : absolute (l.rdropWhile vacuous) <+: absolute (l ++ f :: t) :=
    absolute_starts ((List.rdropWhile_prefix _ _).trans (List.prefix_append _ _))
  rw [pop, parent_spelled hsep ht hf, Option.map_some, ← List.prefix_iff_eq_take.mp hpre]

theorem fileName_spelled (hf : IsName f) : fileName (absolute (l ++ f :: t)) = some f := by
  have hnone : t.filterMap parseSingleComponent = [] :=
    List.filterMap_eq_nil_iff.mpr fun c hc => parse_eq_none.mpr (ht c hc)
  rw [fileName, components_absolute hsep (by simp), List.filterMap_append,
    List.filterMap_cons_some hf.parse, hnone, ← List.cons_append, List.getLast?_append]
  rfl

end Last

end UnixPath
end PiDriveSync
