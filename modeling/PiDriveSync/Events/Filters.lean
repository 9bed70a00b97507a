import PiDriveSync.Main
import PiDriveSync.Provider.Calm

/-!
# The filter option

The option `regexp_filter` is a comma separated list.  The program splits it at every
comma, each piece is an expression of its own, and a piece that does not compile matches
nothing.  So the option stands for the union of its expressions as long as none of them
has a comma in it (`passesFilter_option`).  A bounded repetition such as `a\x7b1,3\x7d`
has one, and is taken apart (`repetition_taken_apart`).
-/

namespace PiDriveSync

open UnixPath Fallible

/-- Splitting what was joined with a separator: each of the parts is split. -/
theorem splitOn_intercalate_flatMap {α : Type} [BEq α] [LawfulBEq α] (sep : α) {ls : List (List α)}
    (hls : ls ≠ []) : ([sep].intercalate ls).splitOn sep = ls.flatMap fun l => l.splitOn sep := by
  induction ls with
  | nil => exact absurd rfl hls
  | cons l ls ih =>
    rcases ls with _ | ⟨l', ls⟩
    · rw [List.intercalate_singleton, List.flatMap_cons, List.flatMap_nil, List.append_nil]
    · rw [List.intercalate_cons_of_ne_nil (List.cons_ne_nil _ _), List.append_assoc,
        List.singleton_append, List.splitOn_append_cons_self, ih (List.cons_ne_nil _ _),
        ← List.flatMap_cons]

variable {σ : Type} [RegexCrate]

/-- The expression compiles, and matches the text. -/
def ExprMatches (expr text : Str) : Prop :=
  ∃ re, RegexCrate.new expr = some re ∧ re text = true

/-- Some filter matches the name, when there are filters. -/
theorem passes_iff (c : Drive3Client σ) (hc : c.filters ≠ []) (filename : Str) :
    c.passes filename = true ↔ ∃ val ∈ c.filters, ExprMatches val filename := by
  rw [Drive3Client.passes, Bool.or_eq_true, List.isEmpty_iff, or_iff_right hc, List.any_eq_true]
  refine exists_congr fun val => and_congr_right fun _ => ?_
  rw [ExprMatches]
  cases RegexCrate.new val with
  | none => simp
  | some re => simp

/-- The client that the program starts with. -/
def optionClient (hub : Hub σ) (machine : Machine σ) (regexpFilter : Option Str) : Drive3Client σ :=
  Drive3Client.new (some hub) (fileNameFilters regexpFilter) machine

/-- The pieces of the option between commas. -/
theorem passesFilter_pieces (hub : Hub σ) (machine : Machine σ) (regexpFilter : Option Str)
    {path filename : Str} (hname : (SyncableFile.mk path).getFilename = some filename) :
    ∃ b, (optionClient hub machine regexpFilter).passesFilter path = pure b ∧
      (b = true ↔ ∃ piece ∈ fileNameFilters regexpFilter, ExprMatches piece filename) :=
  ⟨_, Drive3Client.passesFilter_eq _ hname, passes_iff _ (List.splitOn_ne_nil _ _) _⟩

/-- **The option stands for the union of its expressions**, those between commas.  So if
no comma is in an expression, a path passes just if one of the expressions matches its
file name.  Without the option every path passes. -/
theorem passesFilter_option (hub : Hub σ) (machine : Machine σ) (path filename : Str)
    (hname : (SyncableFile.mk path).getFilename = some filename)
    (hempty : ∃ re, RegexCrate.new [] = some re ∧ ∀ text, re text = true) (w : World σ) :
    (∀ rs, rs ≠ [] → ∃ b,
      (optionClient hub machine (some ([','].intercalate rs))).passesFilter path w = (.ok b, w) ∧
        (b = true ↔ ∃ r ∈ rs, ∃ piece ∈ r.splitOn ',', ExprMatches piece filename) ∧
        ((∀ r ∈ rs, ',' ∉ r) → (b = true ↔ ∃ r ∈ rs, ExprMatches r filename))) ∧
      (optionClient hub machine none).passesFilter path w = (.ok true, w) := by
  refine ⟨fun rs hrs => ?_, ?_⟩
  · obtain ⟨b, hb, hpieces⟩ :=
      passesFilter_pieces hub machine (some ([','].intercalate rs)) hname
    have hsplit : fileNameFilters (some ([','].intercalate rs)) =
        rs.flatMap fun r => r.splitOn ',' := splitOn_intercalate_flatMap ',' hrs
    have hunion : b = true ↔ ∃ r ∈ rs, ∃ piece ∈ r.splitOn ',', ExprMatches piece filename := by
      rw [hpieces, hsplit]
      simp only [List.mem_flatMap]
      constructor
      · rintro ⟨piece, ⟨r, hr, hpiece⟩, hmatch⟩
        exact ⟨r, hr, piece, hpiece, hmatch⟩
      · rintro ⟨r, hr, piece, hpiece, hmatch⟩
        exact ⟨piece, ⟨r, hr, hpiece⟩, hmatch⟩
    refine ⟨b, by rw [hb]; rfl, hunion, fun hcomma => ?_⟩
    -- without a comma an expression is its only piece
    rw [hunion]
    refine exists_congr fun r => and_congr_right fun hr => ?_
    rw [List.splitOn_eq_singleton (hcomma r hr)]
    simp
  · obtain ⟨b, hb, hpieces⟩ := passesFilter_pieces hub machine none hname
    obtain ⟨re, hre, hall⟩ := hempty
    have htrue : b = true := hpieces.mpr ⟨[], by decide +kernel, re, hre, hall filename⟩
    rw [hb, htrue]
    rfl

/-- The `regex` crate, on a bounded repetition and its pieces: `a` up to three times, the
piece in front of the comma that is no expression, and texts without special characters,
which match where they occur. -/
@[reducible] def repetitionRegex : RegexCrate where
  new := fun val =>
    if val = str "a\x7b1,3\x7d" then some fun text => decide ('a' ∈ text)
    else if val = str "a\x7b1" then none
    else some fun text => decide (val <:+: text)

omit [RegexCrate] in
/-- A file with an ordinary name. -/
theorem passesFilter_option_ordinary :
    (∀ rs, rs ≠ [] → ∃ b, @Drive3Client.passesFilter _ (optionClient (driveHub calm)
        (driveMachine calm true) (some ([','].intercalate rs))) repetitionRegex
          (str "/var/www/RpiCamera/im1jpg") (.fresh []) = (.ok b, .fresh []) ∧
        (b = true ↔ ∃ r ∈ rs, ∃ piece ∈ r.splitOn ',',
          @ExprMatches repetitionRegex piece (str "im1jpg")) ∧
        ((∀ r ∈ rs, ',' ∉ r) →
          (b = true ↔ ∃ r ∈ rs, @ExprMatches repetitionRegex r (str "im1jpg")))) ∧
      @Drive3Client.passesFilter _ (optionClient (driveHub calm) (driveMachine calm true) none)
        repetitionRegex (str "/var/www/RpiCamera/im1jpg") (.fresh []) = (.ok true, .fresh []) :=
  @passesFilter_option _ repetitionRegex (driveHub calm) (driveMachine calm true)
    (str "/var/www/RpiCamera/im1jpg") (str "im1jpg") (by decide +kernel)
    ⟨fun text => decide ([] <:+: text),
      (if_neg (by decide +kernel)).trans (if_neg (by decide +kernel)),
      fun text => decide_eq_true List.nil_infix⟩ (.fresh [])

omit [RegexCrate] in
/-- A file with the name `a` is kept off the drive by the filter `a\x7b1,3\x7d`, which
matches it. -/
theorem repetition_taken_apart :
    @ExprMatches repetitionRegex (str "a\x7b1,3\x7d") (str "a") ∧
      (@Drive3Client.passesFilter _ (optionClient (driveHub calm) (driveMachine calm true)
        (some ([','].intercalate [str "a\x7b1,3\x7d"]))) repetitionRegex
        (str "/var/www/RpiCamera/a") (.fresh [])).1 = .ok false :=
  ⟨⟨fun text => decide ('a' ∈ text), if_pos rfl, by decide +kernel⟩, by decide +kernel⟩

end PiDriveSync
