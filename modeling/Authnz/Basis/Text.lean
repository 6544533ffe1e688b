/-
Text as the standard library and the base64 crate treat it.

`trim` removes every leading and trailing character of the Unicode class
White_Space, which is wider than the ASCII blanks.  `base64url` is the URL-safe
alphabet without padding: three bytes make four digits, and a last group of one or
two bytes makes two or three.
-/
import Mathlib.Tactic.Common

namespace Basis

/-- The Unicode White_Space characters. -/
def isWhite (ch : Char) : Bool :=
  let n := ch.toNat
  (9 ≤ n && n ≤ 13) || n == 0x20 || n == 0x85 || n == 0xA0 || n == 0x1680 ||
    (0x2000 ≤ n && n ≤ 0x200A) || n == 0x2028 || n == 0x2029 || n == 0x202F || n == 0x205F ||
    n == 0x3000

/-- The text without the white space around it. -/
def trim (s : String) : String :=
  String.ofList (((s.toList.dropWhile isWhite).reverse.dropWhile isWhite).reverse)

/-- The sixty-four digits in order. -/
def base64Alphabet : List Char :=
  "ABCDEFGHIJKLMNOPQRSTUVWXYZabcdefghijklmnopqrstuvwxyz0123456789-_".toList

def base64Digit (n : Nat) : Char := base64Alphabet.getD n 'A'

/-- The digits of a byte string, six bits each. -/
def base64Digits : List UInt8 → List Char
  | [] => []
  | [a] => [base64Digit (a.toNat / 4), base64Digit (a.toNat % 4 * 16)]
  | [a, b] =>
      [base64Digit (a.toNat / 4), base64Digit (a.toNat % 4 * 16 + b.toNat / 16),
        base64Digit (b.toNat % 16 * 4)]
  | a :: b :: c :: rest =>
      base64Digit (a.toNat / 4) :: base64Digit (a.toNat % 4 * 16 + b.toNat / 16) ::
        base64Digit (b.toNat % 16 * 4 + c.toNat / 64) :: base64Digit (c.toNat % 64) ::
        base64Digits rest

def base64url (bytes : List UInt8) : String := String.ofList (base64Digits bytes)

example : base64url [0xFB, 0xEF, 0xFF, 0x01] = "--__AQ" := by decide

/-- The letters, the ten figures, `-` and `_`: what a URL takes as it is. -/
def isUrlSafe (ch : Char) : Bool := ch.isAlphanum || ch == '-' || ch == '_'

/-! ### What the digits are -/

theorem base64Digit_mem (n : Nat) : base64Digit n ∈ base64Alphabet := by
  unfold base64Digit
  rw [List.getD_eq_getElem?_getD]
  cases hn : base64Alphabet[n]? with
  | none => exact List.mem_cons_self
  | some ch => exact List.mem_of_getElem? hn

theorem mem_base64Digits : ∀ {bytes : List UInt8} {ch : Char}, ch ∈ base64Digits bytes →
    ch ∈ base64Alphabet
  | [], ch, h => by cases h
  | [a], ch, h => by
      simp only [base64Digits, List.mem_cons, List.not_mem_nil, or_false] at h
      rcases h with rfl | rfl <;> exact base64Digit_mem _
  | [a, b], ch, h => by
      simp only [base64Digits, List.mem_cons, List.not_mem_nil, or_false] at h
      rcases h with rfl | rfl | rfl <;> exact base64Digit_mem _
  | a :: b :: c :: rest, ch, h => by
      simp only [base64Digits, List.mem_cons] at h
      rcases h with rfl | rfl | rfl | rfl | h
      · exact base64Digit_mem _
      · exact base64Digit_mem _
      · exact base64Digit_mem _
      · exact base64Digit_mem _
      · exact mem_base64Digits h

theorem mem_base64url {bytes : List UInt8} {ch : Char} (h : ch ∈ (base64url bytes).toList) :
    ch ∈ base64Alphabet := mem_base64Digits (by simpa [base64url] using h)

theorem base64url_url_safe {bytes : List UInt8} {ch : Char} (h : ch ∈ (base64url bytes).toList) :
    isUrlSafe ch = true := by
  have hall : base64Alphabet.all isUrlSafe = true := by decide
  exact List.all_eq_true.mp hall ch (mem_base64url h)

theorem base64url_not_white {bytes : List UInt8} {ch : Char} (h : ch ∈ (base64url bytes).toList) :
    isWhite ch = false := by
  have hall : (base64Alphabet.all fun ch => !isWhite ch) = true := by decide
  exact (Bool.not_eq_true' _).mp (List.all_eq_true.mp hall ch (mem_base64url h))

/-- Six bits a digit, the last one filled up. -/
theorem base64Digits_length : ∀ bytes : List UInt8,
    (base64Digits bytes).length = (bytes.length * 4 + 2) / 3
  | [] => rfl
  | [a] => by simp [base64Digits]
  | [a, b] => by simp [base64Digits]
  | a :: b :: c :: rest => by
      have ih := base64Digits_length rest
      simp only [base64Digits, List.length_cons, ih]
      omega

theorem base64url_length (bytes : List UInt8) :
    (base64url bytes).length = (bytes.length * 4 + 2) / 3 := by
  rw [base64url, String.length_ofList, base64Digits_length]

theorem base64url_isEmpty {bytes : List UInt8} (h : bytes ≠ []) :
    (base64url bytes).isEmpty = false := by
  have hpos := List.length_pos_iff.mpr h
  have hlen := base64Digits_length bytes
  have hdigits : base64Digits bytes ≠ [] := List.ne_nil_of_length_pos (by omega)
  simp [base64url, hdigits]

/-! ### Reading the digits back -/

/-- The six bits a digit stands for. -/
def base64Value (ch : Char) : Nat := base64Alphabet.idxOf ch

/-- The bytes of a digit string: four digits make three bytes, a last group of two or three makes
one or two. -/
def base64Bytes : List Char → List UInt8
  | p :: q :: r :: s :: rest =>
      UInt8.ofNat (base64Value p * 4 + base64Value q / 16) ::
        UInt8.ofNat (base64Value q % 16 * 16 + base64Value r / 4) ::
        UInt8.ofNat (base64Value r % 4 * 64 + base64Value s) :: base64Bytes rest
  | [p, q, r] =>
      [UInt8.ofNat (base64Value p * 4 + base64Value q / 16),
        UInt8.ofNat (base64Value q % 16 * 16 + base64Value r / 4)]
  | [p, q] => [UInt8.ofNat (base64Value p * 4 + base64Value q / 16)]
  | _ => []

theorem base64Value_digit {n : Nat} (h : n < 64) : base64Value (base64Digit n) = n := by
  have hdistinct : base64Alphabet.Nodup := by decide
  have hn : n < base64Alphabet.length := h
  have hdigit : base64Digit n = base64Alphabet[n] := by
    rw [base64Digit, List.getD_eq_getElem?_getD, List.getElem?_eq_getElem hn, Option.getD_some]
  rw [base64Value, hdigit]
  exact hdistinct.idxOf_getElem n hn

/-- A byte put together from its parts. -/
theorem byte_of_value {n : Nat} {a : UInt8} (h : n = a.toNat) : UInt8.ofNat n = a := by
  rw [h, UInt8.ofNat_toNat]

/-- **What was written is read back.** -/
theorem base64Bytes_digits : ∀ bytes : List UInt8, base64Bytes (base64Digits bytes) = bytes
  | [] => rfl
  | [a] => by
      have ha := a.toNat_lt
      have hp := base64Value_digit (n := a.toNat / 4) (by omega)
      have hq := base64Value_digit (n := a.toNat % 4 * 16) (by omega)
      simp only [base64Digits, base64Bytes, hp, hq]
      rw [byte_of_value (a := a) (by omega)]
  | [a, b] => by
      have ha := a.toNat_lt
      have hb := b.toNat_lt
      have hp := base64Value_digit (n := a.toNat / 4) (by omega)
      have hq := base64Value_digit (n := a.toNat % 4 * 16 + b.toNat / 16) (by omega)
      have hr := base64Value_digit (n := b.toNat % 16 * 4) (by omega)
      simp only [base64Digits, base64Bytes, hp, hq, hr]
      rw [byte_of_value (a := a) (by omega), byte_of_value (a := b) (by omega)]
  | a :: b :: c :: rest => by
      have ha := a.toNat_lt
      have hb := b.toNat_lt
      have hc := c.toNat_lt
      have hp := base64Value_digit (n := a.toNat / 4) (by omega)
      have hq := base64Value_digit (n := a.toNat % 4 * 16 + b.toNat / 16) (by omega)
      have hr := base64Value_digit (n := b.toNat % 16 * 4 + c.toNat / 64) (by omega)
      have hs := base64Value_digit (n := c.toNat % 64) (by omega)
      simp only [base64Digits, base64Bytes, hp, hq, hr, hs, base64Bytes_digits rest]
      rw [byte_of_value (a := a) (by omega), byte_of_value (a := b) (by omega),
        byte_of_value (a := c) (by omega)]

theorem base64url_injective {xs ys : List UInt8} (h : base64url xs = base64url ys) : xs = ys := by
  have hdigits : base64Digits xs = base64Digits ys := String.ofList_injective h
  rw [← base64Bytes_digits xs, hdigits, base64Bytes_digits]

/-! ### Base64 text has no blanks -/

theorem dropWhile_white {l : List Char} (h : ∀ ch ∈ l, isWhite ch = false) :
    l.dropWhile isWhite = l := by
  cases l with
  | nil => rfl
  | cons ch rest => exact List.dropWhile_cons_of_neg (by simp [h ch List.mem_cons_self])

/-- Trimming takes away the blanks around a text that has none inside. -/
theorem trim_padded {before s after : String} (hbefore : ∀ ch ∈ before.toList, isWhite ch = true)
    (hafter : ∀ ch ∈ after.toList, isWhite ch = true) (hs : ∀ ch ∈ s.toList, isWhite ch = false) :
    trim (before ++ s ++ after) = s := by
  have hrev : ∀ {l : List Char} {b : Bool}, (∀ ch ∈ l, isWhite ch = b) →
      ∀ ch ∈ l.reverse, isWhite ch = b := fun hl ch hch => hl ch (List.mem_reverse.mp hch)
  unfold trim
  rw [String.toList_append, String.toList_append, List.append_assoc,
    List.dropWhile_append_of_pos hbefore]
  cases hl : s.toList with
  | nil =>
      have hnone : after.toList.dropWhile isWhite = [] := by
        rw [← List.append_nil after.toList, List.dropWhile_append_of_pos hafter]
        rfl
      rw [List.nil_append, hnone, ← String.ofList_toList (s := s), hl]
      rfl
  | cons ch rest =>
      rw [hl] at hs
      have hfirst : ¬ isWhite ch = true := by simp [hs ch List.mem_cons_self]
      rw [List.cons_append, List.dropWhile_cons_of_neg hfirst, ← List.cons_append,
        List.reverse_append, List.dropWhile_append_of_pos (hrev hafter),
        dropWhile_white (hrev hs), List.reverse_reverse, ← hl, String.ofList_toList]

theorem trim_base64url_padded (bytes : List UInt8) {before after : String}
    (hbefore : ∀ ch ∈ before.toList, isWhite ch = true)
    (hafter : ∀ ch ∈ after.toList, isWhite ch = true) :
    trim (before ++ base64url bytes ++ after) = base64url bytes :=
  trim_padded hbefore hafter fun _ hch => base64url_not_white hch

/-- A token is presented as it was handed out. -/
theorem trim_base64url (bytes : List UInt8) : trim (base64url bytes) = base64url bytes := by
  have h : trim ("" ++ base64url bytes ++ "") = base64url bytes :=
    trim_base64url_padded bytes (by simp) (by simp)
  simpa using h

/-! ### UTF-8 -/

/-- The UTF-8 bytes of a text. -/
def utf8 (s : String) : List UInt8 := s.toByteArray.data.toList

theorem utf8_injective {s t : String} (h : utf8 s = utf8 t) : s = t := by
  rw [← String.toByteArray_inj]
  exact ByteArray.ext (Array.toList_inj.mp h)

theorem utf8_append (s t : String) : utf8 (s ++ t) = utf8 s ++ utf8 t := by
  unfold utf8
  rw [String.toByteArray_append, ByteArray.data_append, Array.toList_append]

theorem utf8_push_nul (s : String) : utf8 (s.push (Char.ofNat 0)) = utf8 s ++ [0] := by
  unfold utf8
  rw [String.toByteArray_push, ByteArray.data_append, Array.toList_append]
  rfl

theorem utf8_length (s : String) : (utf8 s).length = s.utf8ByteSize := rfl

end Basis
