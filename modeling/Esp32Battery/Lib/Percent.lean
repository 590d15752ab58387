import Mathlib

/-!
# Percent-encoding

The decoding of a form value, where a `+` is a space and a `%` not followed by two hex digits
stands for itself, and the encoding that leaves the unreserved characters alone. Both are about
bytes; text is its UTF-8 encoding.
-/

namespace Lib

section text

/-- The bytes of a text. -/
def utf8 (s : String) : List UInt8 := s.toByteArray.data.toList

/-- `str::from_utf8`. -/
def fromUtf8 (l : List UInt8) : Option String := String.fromUTF8? ⟨l.toArray⟩

theorem utf8_inj {s t : String} : utf8 s = utf8 t ↔ s = t := by
  unfold utf8
  rw [Array.toList_inj, ByteArray.ext_iff.symm, String.toByteArray_inj]

theorem length_utf8 (s : String) : (utf8 s).length = s.utf8ByteSize := rfl

theorem fromUtf8_utf8 (s : String) : fromUtf8 (utf8 s) = some s := by
  unfold fromUtf8 utf8 String.fromUTF8?
  simp only [Array.toArray_toList]
  rw [dif_pos s.isValidUTF8]
  rfl

theorem fromUtf8_eq_some {l : List UInt8} {s : String} : fromUtf8 l = some s ↔ utf8 s = l := by
  constructor
  · intro h
    unfold fromUtf8 String.fromUTF8? at h
    split_ifs at h
    cases h
    rfl
  · rintro rfl
    exact fromUtf8_utf8 s

theorem utf8_ofList (l : List Char) : utf8 (.ofList l) = l.flatMap String.utf8EncodeChar := by
  unfold utf8
  rw [String.toByteArray_ofList, List.utf8Encode, List.data_toByteArray]

theorem utf8_ascii : ∀ n < 128, String.utf8EncodeChar (.ofNat n) = [UInt8.ofNat n] := by
  decide

theorem exists_utf8_of_ascii {l : List UInt8} (h : ∀ b ∈ l, b.toNat < 128) :
    ∃ s, utf8 s = l := by
  refine ⟨.ofList (l.map fun b => .ofNat b.toNat), ?_⟩
  rw [utf8_ofList]
  induction l with
  | nil => rfl
  | cons b l ih =>
    have hb := utf8_ascii b.toNat (h b (by simp))
    rw [UInt8.ofNat_toNat] at hb
    rw [List.map_cons, List.flatMap_cons, hb, ih fun c hc => h c (by simp [hc])]
    rfl

end text

/-- `char::to_digit(16)` of an ASCII character. -/
def toDigit16 (b : UInt8) : Option ℕ :=
  if 48 ≤ b.toNat ∧ b.toNat ≤ 57 then some (b.toNat - 48)
  else if 65 ≤ b.toNat ∧ b.toNat ≤ 70 then some (b.toNat - 55)
  else if 97 ≤ b.toNat ∧ b.toNat ≤ 102 then some (b.toNat - 87)
  else none

def hexDigit (n : ℕ) : UInt8 := .ofNat (if n < 10 then 48 + n else 55 + n)

/-- The byte that `b` and what follows it start with, and what is left. -/
def decodeByte (b : UInt8) (rest : List UInt8) : UInt8 × List UInt8 :=
  if b = 0x2B then (0x20, rest)
  else if b = 0x25 then
    match rest with
    | hi :: lo :: rest' =>
      match toDigit16 hi, toDigit16 lo with
      | some h, some l => (.ofNat (h * 16 + l), rest')
      | _, _ => (b, rest)
    | _ => (b, rest)
  else (b, rest)

theorem length_decodeByte_le (b : UInt8) (rest : List UInt8) :
    (decodeByte b rest).2.length ≤ rest.length := by
  unfold decodeByte
  split_ifs
  · exact le_rfl
  · rcases rest with _ | ⟨hi, _ | ⟨lo, rest'⟩⟩
    · exact le_rfl
    · exact le_rfl
    · simp only []
      split
      · simp only [List.length_cons]
        omega
      · exact le_rfl
  · exact le_rfl

def percentDecode : List UInt8 → List UInt8
  | [] => []
  | b :: rest => (decodeByte b rest).1 :: percentDecode (decodeByte b rest).2
termination_by l => l.length
decreasing_by
  have := length_decodeByte_le b rest
  simp only [List.length_cons]
  omega

/-- Letters, digits and `-_.!~*'()`. -/
def unreserved (b : UInt8) : Bool :=
  48 ≤ b.toNat ∧ b.toNat ≤ 57 ∨ 65 ≤ b.toNat ∧ b.toNat ≤ 90 ∨ 97 ≤ b.toNat ∧ b.toNat ≤ 122 ∨
    b.toNat ∈ [45, 95, 46, 33, 126, 42, 39, 40, 41]

def encodeByte (b : UInt8) : List UInt8 :=
  if unreserved b then [b] else [0x25, hexDigit (b.toNat / 16), hexDigit (b.toNat % 16)]

/-- `encodeURIComponent`, of the bytes of a text. -/
def percentEncode (l : List UInt8) : List UInt8 := l.flatMap encodeByte

@[simp] theorem percentDecode_nil : percentDecode [] = [] := by
  rw [percentDecode]

@[simp] theorem percentDecode_cons (b : UInt8) (rest : List UInt8) :
    percentDecode (b :: rest) = (decodeByte b rest).1 :: percentDecode (decodeByte b rest).2 := by
  rw [percentDecode]

theorem toDigit16_hexDigit {n : ℕ} (h : n < 16) : toDigit16 (hexDigit n) = some n := by
  interval_cases n <;> rfl

theorem hexDigit_ascii {n : ℕ} (h : n < 16) : (hexDigit n).toNat < 128 ∧ hexDigit n ≠ 0x26 := by
  interval_cases n <;> decide

theorem decodeByte_plus (rest : List UInt8) : decodeByte 0x2B rest = (0x20, rest) := if_pos rfl

theorem decodeByte_other {b : UInt8} (hplus : b ≠ 0x2B) (hpercent : b ≠ 0x25)
    (rest : List UInt8) : decodeByte b rest = (b, rest) := by
  unfold decodeByte
  rw [if_neg hplus, if_neg hpercent]

theorem decodeByte_hex {hi lo : UInt8} {h l : ℕ} (hh : toDigit16 hi = some h)
    (hl : toDigit16 lo = some l) (rest : List UInt8) :
    decodeByte 0x25 (hi :: lo :: rest) = (.ofNat (h * 16 + l), rest) := by
  unfold decodeByte
  rw [if_neg (by decide), if_pos rfl]
  simp only [hh, hl]

theorem percentDecode_encodeByte (b : UInt8) (rest : List UInt8) :
    percentDecode (encodeByte b ++ rest) = b :: percentDecode rest := by
  have hlt := b.toNat_lt
  unfold encodeByte
  split_ifs with h
  · have hplus : b ≠ 0x2B := by
      rintro rfl
      cases h
    have hpercent : b ≠ 0x25 := by
      rintro rfl
      cases h
    rw [List.singleton_append, percentDecode_cons, decodeByte_other hplus hpercent]
  · have hb : UInt8.ofNat (b.toNat / 16 * 16 + b.toNat % 16) = b := by
      rw [Nat.div_add_mod', UInt8.ofNat_toNat]
    have hhi : toDigit16 (hexDigit (b.toNat / 16)) = some (b.toNat / 16) :=
      toDigit16_hexDigit (by omega)
    have hlo : toDigit16 (hexDigit (b.toNat % 16)) = some (b.toNat % 16) :=
      toDigit16_hexDigit (by omega)
    simp only [List.cons_append, List.nil_append]
    rw [percentDecode_cons, decodeByte_hex hhi hlo, hb]

theorem percentDecode_percentEncode (l : List UInt8) : percentDecode (percentEncode l) = l := by
  unfold percentEncode
  induction l with
  | nil => exact percentDecode_nil
  | cons b l ih => rw [List.flatMap_cons, percentDecode_encodeByte, ih]

theorem length_percentEncode_le (l : List UInt8) : (percentEncode l).length ≤ 3 * l.length := by
  unfold percentEncode
  induction l with
  | nil => exact le_rfl
  | cons b l ih =>
    have hb : (encodeByte b).length ≤ 3 := by
      unfold encodeByte
      split_ifs <;> simp
    rw [List.flatMap_cons, List.length_append, List.length_cons]
    omega

theorem ascii_of_unreserved {b : UInt8} (h : unreserved b = true) :
    b.toNat < 128 ∧ b ≠ 0x26 := by
  unfold unreserved at h
  simp only [List.mem_cons, List.not_mem_nil, or_false, decide_eq_true_eq] at h
  refine ⟨by omega, ?_⟩
  rintro rfl
  simp only [UInt8.reduceToNat] at h
  omega

/-- What is encoded is ASCII, and never ends a field. -/
theorem ascii_of_mem_percentEncode {l : List UInt8} {c : UInt8} (h : c ∈ percentEncode l) :
    c.toNat < 128 ∧ c ≠ 0x26 := by
  unfold percentEncode at h
  obtain ⟨b, -, hc⟩ := List.mem_flatMap.1 h
  have hlt := b.toNat_lt
  unfold encodeByte at hc
  split_ifs at hc with hu
  · rw [List.mem_singleton] at hc
    rw [hc]
    exact ascii_of_unreserved hu
  · simp only [List.mem_cons, List.not_mem_nil, or_false] at hc
    rcases hc with rfl | rfl | rfl
    · decide
    · exact hexDigit_ascii (by omega)
    · exact hexDigit_ascii (by omega)

end Lib
