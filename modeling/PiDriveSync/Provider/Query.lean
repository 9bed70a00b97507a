import PiDriveSync.DriveCli

/-!
# The search language of the drive

The drive answers a search text of the form

    appProperties has { key='K' and value='V' } and trashed = false

with the objects outside the trash whose property `K` is `V`.  Blanks between
tokens do not matter; a text between quotes may hold any character, with a
backslash before a quote or a backslash.

`parseQuery_idQuery`: the text that the client builds for a unique id asks for that
id, provided the id needs no backslash.  Base64 never does.
-/

namespace PiDriveSync
namespace Query

inductive Token where
  | word (w : Str)
  | text (t : Str)
  | opening
  | closing
  | equals
  deriving DecidableEq, Repr

/-- Where the lexer stands: between tokens, or in a token whose characters so far
are kept in reverse. -/
inductive Mode where
  | between
  | word (acc : Str)
  | text (acc : Str)
  | escaped (acc : Str)
  deriving DecidableEq, Repr

/-- One character between two tokens. -/
def begin (c : Char) : List Token × Mode :=
  if c = ' ' then ([], .between)
  else if c = '\x7b' then ([.opening], .between)
  else if c = '\x7d' then ([.closing], .between)
  else if c = '=' then ([.equals], .between)
  else if c = '\'' then ([], .text [])
  else ([], .word [c])

/-- One character: the tokens it completes, and the mode after it. -/
def step : Mode → Char → List Token × Mode
  | .between, c => begin c
  | .word acc, c =>
    if c = ' ' ∨ c = '\x7b' ∨ c = '\x7d' ∨ c = '=' ∨ c = '\'' then
      (.word acc.reverse :: (begin c).1, (begin c).2)
    else
      ([], .word (c :: acc))
  | .text acc, c =>
    if c = '\'' then ([.text acc.reverse], .between)
    else if c = '\\' then ([], .escaped acc)
    else ([], .text (c :: acc))
  | .escaped acc, c => ([], .text (c :: acc))

/-- The tokens of a text, and the mode at its end. -/
def lex : Mode → Str → List Token × Mode
  | m, [] => ([], m)
  | m, c :: s => ((step m c).1 ++ (lex (step m c).2 s).1, (lex (step m c).2 s).2)

theorem lex_append (m : Mode) (s t : Str) :
    lex m (s ++ t) = ((lex m s).1 ++ (lex (lex m s).2 t).1, (lex (lex m s).2 t).2) := by
  induction s generalizing m with
  | nil => simp [lex]
  | cons c s ih => rw [List.cons_append, lex, lex, ih, List.append_assoc]

/-- A text without quotes and backslashes is read as it stands. -/
theorem lex_text {s : Str} (h : ∀ c ∈ s, c ≠ '\'' ∧ c ≠ '\\') (acc : Str) :
    lex (.text acc) s = ([], .text (s.reverse ++ acc)) := by
  induction s generalizing acc with
  | nil => rfl
  | cons c s ih =>
    obtain ⟨hquote, hslash⟩ := h c (List.mem_cons_self ..)
    have hstep : step (.text acc) c = ([], .text (c :: acc)) := by
      rw [step, if_neg hquote, if_neg hslash]
    rw [lex, hstep, ih fun d hd => h d (List.mem_cons_of_mem _ hd)]
    simp

/-- All tokens of a text, if it does not end inside a quoted one. -/
def tokens (s : Str) : Option (List Token) :=
  match lex .between s with
  | (ts, .between) => some ts
  | (ts, .word acc) => some (ts ++ [.word acc.reverse])
  | _ => none

/-- The tokens of a search for a property. -/
def propertySearch (key value : Str) : List Token :=
  [.word (str "appProperties"), .word (str "has"), .opening, .word (str "key"), .equals,
    .text key, .word (str "and"), .word (str "value"), .equals, .text value, .closing,
    .word (str "and"), .word (str "trashed"), .equals, .word (str "false")]

/-- The property some tokens ask for, and its value. -/
def parseTokens (ts : List Token) : Option (Str × Str) :=
  match ts with
  | [_, _, _, _, _, .text key, _, _, _, .text value, _, _, _, _, _] =>
    if ts = propertySearch key value then some (key, value) else none
  | _ => none

/-- The property a search text asks for, and its value. -/
def parseQuery (q : Str) : Option (Str × Str) :=
  (tokens q).bind parseTokens

theorem parseTokens_propertySearch (key value : Str) :
    parseTokens (propertySearch key value) = some (key, value) := by
  rw [propertySearch, parseTokens, if_pos]
  rw [propertySearch]

/-- A base64 text needs no backslash between quotes. -/
theorem base64Alphabet_plain {s : Str} (h : ∀ c ∈ s, c ∈ base64Alphabet) :
    ∀ c ∈ s, c ≠ '\'' ∧ c ≠ '\\' := by
  have hquote : '\'' ∉ base64Alphabet := by decide +kernel
  have hslash : '\\' ∉ base64Alphabet := by decide +kernel
  intro c hc
  refine ⟨?_, ?_⟩
  · rintro rfl
    exact hquote (h _ hc)
  · rintro rfl
    exact hslash (h _ hc)

/-- **The client asks for what it means.**  The text built for a unique id is a
search for the objects with that id. -/
theorem parseQuery_idQuery {k : Str} (h : ∀ c ∈ k, c ≠ '\'' ∧ c ≠ '\\') :
    parseQuery (Drive3Client.idQuery k) = some (piDriveSyncPropsKey, k) := by
  -- the text before the id ends inside a quote, and the text after it closes the quote
  have hbefore : lex .between (str "appProperties has " ++ str " \x7b key='" ++
      piDriveSyncPropsKey ++ str "' and value='") =
      ([.word (str "appProperties"), .word (str "has"), .opening, .word (str "key"), .equals,
        .text piDriveSyncPropsKey, .word (str "and"), .word (str "value"), .equals],
        .text []) := by
    decide +kernel
  have hclose : str "' \x7d and " = '\'' :: str " \x7d and " := by decide +kernel
  have hafter : lex .between (str " \x7d and " ++ str "trashed" ++ str " = " ++
      str "false") =
      ([.closing, .word (str "and"), .word (str "trashed"), .equals],
        .word (str "eslaf")) := by
    decide +kernel
  have hsplit : Drive3Client.idQuery k = (str "appProperties has " ++
      str " \x7b key='" ++ piDriveSyncPropsKey ++ str "' and value='") ++
      (k ++ ('\'' :: (str " \x7d and " ++ str "trashed" ++ str " = " ++
        str "false"))) := by
    rw [← List.cons_append, ← List.cons_append, ← List.cons_append, ← hclose]
    simp only [Drive3Client.idQuery, List.append_assoc]
  have hend : step (.text k.reverse) '\'' = ([.text k], .between) := by
    rw [step, if_pos rfl, List.reverse_reverse]
  have hlex : tokens (Drive3Client.idQuery k) =
      some (propertySearch piDriveSyncPropsKey k) := by
    have hfalse : (str "eslaf").reverse = str "false" := by decide +kernel
    rw [tokens, hsplit, lex_append, hbefore, lex_append, lex_text h, List.append_nil, lex, hend,
      hafter]
    simp only [List.nil_append, List.cons_append, hfalse, propertySearch]
  rw [parseQuery, hlex, Option.bind_some, parseTokens_propertySearch]

end Query
end PiDriveSync
