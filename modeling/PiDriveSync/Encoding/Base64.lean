import Mathlib.Init
import Mathlib.Tactic.IntervalCases

/-!
# Base64 with padding

`encodeBytes` turns three bytes into four characters of the standard alphabet, and
fills a last group of one or two bytes up with `=`.  `encode` does this for the UTF-8
bytes of a string.

Distinct byte strings have distinct encodings: four characters determine the three
bytes behind them, and the padding says how many bytes the last group had.  UTF-8 is
left to the standard library, where a string is determined by its bytes.
-/

namespace PiDriveSync
namespace Encoding

/-- The digits, in the order of their values. -/
def digits : List Char :=
  ['A', 'B', 'C', 'D', 'E', 'F', 'G', 'H', 'I', 'J', 'K', 'L', 'M', 'N', 'O', 'P', 'Q', 'R', 'S',
    'T', 'U', 'V', 'W', 'X', 'Y', 'Z', 'a', 'b', 'c', 'd', 'e', 'f', 'g', 'h', 'i', 'j', 'k', 'l',
    'm', 'n', 'o', 'p', 'q', 'r', 's', 't', 'u', 'v', 'w', 'x', 'y', 'z', '0', '1', '2', '3', '4',
    '5', '6', '7', '8', '9', '+', '/']

/-- The digit of a value below 64. -/
def digit (n : ℕ) : Char :=
  digits.getD n '='

theorem digit_inj {m n : ℕ} (hm : m < 64) (hn : n < 64) (h : digit m = digit n) : m = n := by
  have hall : ∀ m < 64, ∀ n < 64, digit m = digit n → m = n := by decide +kernel
  exact hall m hm n hn h

theorem digit_ne_pad {n : ℕ} (hn : n < 64) : digit n ≠ '=' := by
  have hall : ∀ n < 64, digit n ≠ '=' := by decide +kernel
  exact hall n hn

theorem digit_mem (n : ℕ) : digit n ∈ digits ++ ['='] := by
  rw [digit, List.getD_eq_getElem?_getD]
  cases h : digits[n]? with
  | none => simp
  | some c => exact List.mem_append_left _ (List.mem_of_getElem? h)

/-- The encoding of some bytes. -/
def encodeBytes : List UInt8 → List Char
  | [] => []
  | [a] => [digit (a.toNat / 4), digit (a.toNat % 4 * 16), '=', '=']
  | [a, b] =>
    [digit (a.toNat / 4), digit (a.toNat % 4 * 16 + b.toNat / 16), digit (b.toNat % 16 * 4), '=']
  | a :: b :: c :: rest =>
    digit (a.toNat / 4) :: digit (a.toNat % 4 * 16 + b.toNat / 16) ::
      digit (b.toNat % 16 * 4 + c.toNat / 64) :: digit (c.toNat % 64) :: encodeBytes rest

/-- The first two digits of a group determine its first byte. -/
theorem first_byte {a a' : UInt8} {x x' : ℕ} (hx : x < 16) (hx' : x' < 16)
    (h₁ : digit (a.toNat / 4) = digit (a'.toNat / 4))
    (h₂ : digit (a.toNat % 4 * 16 + x) = digit (a'.toNat % 4 * 16 + x')) : a = a' ∧ x = x' := by
  have ha := a.toNat_lt
  have ha' := a'.toNat_lt
  have hhigh := digit_inj (by omega) (by omega) h₁
  have hlow := digit_inj (by omega) (by omega) h₂
  exact ⟨UInt8.toNat_inj.mp (by omega), by omega⟩

/-- The rest of the second digit and the third determine its second byte. -/
theorem second_byte {b b' : UInt8} {y y' : ℕ} (hy : y < 4) (hy' : y' < 4)
    (h₁ : b.toNat / 16 = b'.toNat / 16)
    (h₂ : digit (b.toNat % 16 * 4 + y) = digit (b'.toNat % 16 * 4 + y')) : b = b' ∧ y = y' := by
  have hb := b.toNat_lt
  have hb' := b'.toNat_lt
  have hlow := digit_inj (by omega) (by omega) h₂
  exact ⟨UInt8.toNat_inj.mp (by omega), by omega⟩

/-- **Distinct byte strings have distinct encodings.** -/
theorem encodeBytes_injective : Function.Injective encodeBytes := by
  intro l
  induction l using encodeBytes.induct with
  | case1 =>
    intro m h
    match m, h with
    | [], _ => rfl
    | [_], h => exact absurd h (by simp [encodeBytes])
    | [_, _], h => exact absurd h (by simp [encodeBytes])
    | _ :: _ :: _ :: _, h => exact absurd h (by simp [encodeBytes])
  | case2 a =>
    have hpad : ∀ (b : UInt8) (y : ℕ), y < 4 → digit (b.toNat % 16 * 4 + y) ≠ '=' :=
      fun b y hy => digit_ne_pad (by omega)
    intro m h
    match m, h with
    | [], h => exact absurd h (by simp [encodeBytes])
    | [a'], h =>
      simp only [encodeBytes, List.cons.injEq] at h
      have hbyte := @first_byte a a' 0 0 (by omega) (by omega) h.1 h.2.1
      rw [hbyte.1]
    | [_, b], h =>
      simp only [encodeBytes, List.cons.injEq] at h
      exact absurd h.2.2.1.symm (hpad b 0 (by omega))
    | _ :: b :: c :: _, h =>
      simp only [encodeBytes, List.cons.injEq] at h
      have hc := c.toNat_lt
      exact absurd h.2.2.1.symm (hpad b _ (by omega))
  | case3 a b =>
    intro m h
    have hb := b.toNat_lt
    match m, h with
    | [], h => exact absurd h (by simp [encodeBytes])
    | [_], h =>
      simp only [encodeBytes, List.cons.injEq] at h
      exact absurd h.2.2.1 (digit_ne_pad (by omega))
    | [a', b'], h =>
      simp only [encodeBytes, List.cons.injEq] at h
      have hb' := b'.toNat_lt
      obtain ⟨ha, hx⟩ := first_byte (by omega) (by omega) h.1 h.2.1
      have hbyte := @second_byte b b' 0 0 (by omega) (by omega) hx h.2.2.1
      rw [ha, hbyte.1]
    | _ :: _ :: c :: _, h =>
      simp only [encodeBytes, List.cons.injEq] at h
      exact absurd h.2.2.2.1.symm (digit_ne_pad (by omega))
  | case4 a b c rest ih =>
    intro m h
    have hb := b.toNat_lt
    have hc := c.toNat_lt
    match m, h with
    | [], h => exact absurd h (by simp [encodeBytes])
    | [_], h =>
      simp only [encodeBytes, List.cons.injEq] at h
      exact absurd h.2.2.1 (digit_ne_pad (by omega))
    | [_, _], h =>
      simp only [encodeBytes, List.cons.injEq] at h
      exact absurd h.2.2.2.1 (digit_ne_pad (by omega))
    | a' :: b' :: c' :: rest', h =>
      simp only [encodeBytes, List.cons.injEq] at h
      have hb' := b'.toNat_lt
      have hc' := c'.toNat_lt
      obtain ⟨ha, hx⟩ := first_byte (by omega) (by omega) h.1 h.2.1
      obtain ⟨hbb, hy⟩ := second_byte (by omega) (by omega) hx h.2.2.1
      have hlast := digit_inj (by omega) (by omega) h.2.2.2.1
      have hcc : c = c' := UInt8.toNat_inj.mp (by omega)
      rw [ha, hbb, hcc, ih h.2.2.2.2]

theorem encodeBytes_alphabet (l : List UInt8) : ∀ c ∈ encodeBytes l, c ∈ digits ++ ['='] := by
  have hpad : '=' ∈ digits ++ ['='] := by simp
  induction l using encodeBytes.induct with
  | case1 => simp [encodeBytes]
  | case2 a =>
    intro c hc
    simp only [encodeBytes, List.mem_cons, List.not_mem_nil, or_false] at hc
    rcases hc with rfl | rfl | rfl | rfl
    · exact digit_mem _
    · exact digit_mem _
    · exact hpad
    · exact hpad
  | case3 a b =>
    intro c hc
    simp only [encodeBytes, List.mem_cons, List.not_mem_nil, or_false] at hc
    rcases hc with rfl | rfl | rfl | rfl
    · exact digit_mem _
    · exact digit_mem _
    · exact digit_mem _
    · exact hpad
  | case4 a b c rest ih =>
    intro d hd
    simp only [encodeBytes, List.mem_cons] at hd
    rcases hd with rfl | rfl | rfl | rfl | hd
    · exact digit_mem _
    · exact digit_mem _
    · exact digit_mem _
    · exact digit_mem _
    · exact ih d hd

/-- The UTF-8 bytes of a string. -/
def utf8 (s : List Char) : List UInt8 :=
  s.flatMap String.utf8EncodeChar

theorem utf8_injective : Function.Injective utf8 := by
  intro s t h
  have hbytes : (String.ofList s).toByteArray = (String.ofList t).toByteArray := by
    rw [String.toByteArray_ofList, String.toByteArray_ofList, List.utf8Encode, List.utf8Encode]
    exact congrArg List.toByteArray h
  have hstring := String.toByteArray_inj.mp hbytes
  rw [← String.toList_ofList (l := s), hstring, String.toList_ofList]

/-- The encoding of a string. -/
def encode (s : List Char) : List Char :=
  encodeBytes (utf8 s)

theorem encode_injective : Function.Injective encode :=
  encodeBytes_injective.comp utf8_injective

example : encode ['M', 'a', 'n', 'y'] = ['T', 'W', 'F', 'u', 'e', 'Q', '=', '='] := by
  decide +kernel

end Encoding
end PiDriveSync
