import Esp32Battery.Lib.Percent

/-!
# Form bodies

A `&str` is its UTF-8 bytes, which splitting at an ASCII character splits alike.
-/

namespace Esp32Battery

open Lib

/-- The `while` loop of `urlDecode`. -/
def urlDecodeLoop (bytes out : List UInt8) (i o : ℕ) : List UInt8 × ℕ :=
  if h : i < bytes.length ∧ o < out.length then
    if getElem bytes i h.1 = 0x2B then urlDecodeLoop bytes (out.set o 0x20) (i + 1) (o + 1)
    else if h' : getElem bytes i h.1 = 0x25 ∧ i + 2 < bytes.length then
      match toDigit16 (getElem bytes (i + 1) (Nat.lt_of_succ_lt h'.2)),
        toDigit16 (getElem bytes (i + 2) h'.2) with
      | some h, some l => urlDecodeLoop bytes (out.set o (.ofNat (h * 16 + l))) (i + 3) (o + 1)
      | _, _ => urlDecodeLoop bytes (out.set o (getElem bytes i h.1)) (i + 1) (o + 1)
    else urlDecodeLoop bytes (out.set o (getElem bytes i h.1)) (i + 1) (o + 1)
  else (out, o)
termination_by bytes.length - i

/-- What is left in `out`, and how much of it was written. -/
def urlDecode (input out : List UInt8) : List UInt8 × ℕ := urlDecodeLoop input out 0 0

/-- `str::split_once`. -/
def splitOnce (sep : UInt8) (s : List UInt8) : Option (List UInt8 × List UInt8) :=
  if sep ∈ s then some (s.takeWhile (· ≠ sep), (s.dropWhile (· ≠ sep)).tail) else none

/-- The values kept so far, and one more pair. -/
def parsePair (acc : Option (List UInt8) × Option (List UInt8)) (pair : List UInt8) :
    Option (List UInt8) × Option (List UInt8) :=
  match splitOnce 0x3D pair with
  | some (key, value) =>
    if key = utf8 "ssid" then (some value, acc.2)
    else if key = utf8 "pass" then (acc.1, some value)
    else acc
  | none => acc

/-- The raw values of `ssid` and `pass`, still encoded. -/
def parseForm (body : List UInt8) : Option (List UInt8 × List UInt8) := do
  let (ssid, pass) := (body.splitOn 0x26).foldl parsePair (none, none)
  return (← ssid, pass.getD [])

/-- The value of the last of `pairs` called `key`. -/
def lastOf (pairs : List (List UInt8)) (key : List UInt8) : Option (List UInt8) :=
  ((pairs.filterMap (splitOnce 0x3D)).filter (·.1 = key)).getLast?.map Prod.snd

def lastValue (body key : List UInt8) : Option (List UInt8) := lastOf (body.splitOn 0x26) key

theorem splitOnce_append {sep : UInt8} {key : List UInt8} (h : sep ∉ key) (value : List UInt8) :
    splitOnce sep (key ++ sep :: value) = some (key, value) := by
  have hkey : ∀ b ∈ key, decide (b ≠ sep) = true := by
    intro b hb
    rw [decide_eq_true_iff]
    rintro rfl
    exact h hb
  unfold splitOnce
  rw [if_pos (by simp), List.takeWhile_append_of_pos hkey, List.dropWhile_append_of_pos hkey]
  simp

/-- One turn of the loop is one byte of the decoding. -/
theorem urlDecodeLoop_step {bytes out : List UInt8} {i o : ℕ} (hi : i < bytes.length)
    (ho : o < out.length) : ∃ i', i < i' ∧
      bytes.drop i' = (decodeByte bytes[i] (bytes.drop (i + 1))).2 ∧
      urlDecodeLoop bytes out i o =
        urlDecodeLoop bytes (out.set o (decodeByte bytes[i] (bytes.drop (i + 1))).1) i'
          (o + 1) := by
  rw [urlDecodeLoop, dif_pos ⟨hi, ho⟩]
  by_cases hplus : bytes[i] = 0x2B
  · rw [if_pos hplus, hplus, decodeByte_plus]
    exact ⟨i + 1, by omega, rfl, rfl⟩
  rw [if_neg hplus]
  by_cases hpercent : bytes[i] = 0x25
  · by_cases hroom : i + 2 < bytes.length
    · have hrest : bytes.drop (i + 1) = bytes[i + 1] :: bytes[i + 2] :: bytes.drop (i + 3) := by
        rw [List.drop_eq_getElem_cons (by omega), List.drop_eq_getElem_cons hroom]
      rw [dif_pos ⟨hpercent, hroom⟩]
      unfold decodeByte
      simp only [if_neg hplus, if_pos hpercent, hrest]
      rcases toDigit16 bytes[i + 1] with _ | h
      · exact ⟨i + 1, by omega, hrest, rfl⟩
      rcases toDigit16 bytes[i + 2] with _ | l
      · exact ⟨i + 1, by omega, hrest, rfl⟩
      · exact ⟨i + 3, by omega, rfl, rfl⟩
    · have hshort : ∀ hi lo rest', bytes.drop (i + 1) ≠ hi :: lo :: rest' := by
        intro hi lo rest' h
        have := congrArg List.length h
        simp only [List.length_drop, List.length_cons] at this
        omega
      have hdecode : decodeByte bytes[i] (bytes.drop (i + 1)) = (bytes[i], bytes.drop (i + 1)) := by
        unfold decodeByte
        rw [if_neg hplus, if_pos hpercent]
        split
        · exact absurd ‹_› (hshort _ _ _)
        · rfl
      rw [dif_neg fun h => hroom h.2, hdecode]
      exact ⟨i + 1, by omega, rfl, rfl⟩
  · rw [dif_neg fun h => hpercent h.1, decodeByte_other hplus hpercent]
    exact ⟨i + 1, by omega, rfl, rfl⟩

/-- The loop writes what the rest decodes to, as far as the buffer goes. -/
theorem urlDecodeLoop_eq (bytes out : List UInt8) (i o : ℕ) (ho : o ≤ out.length) :
    (urlDecodeLoop bytes out i o).2 = min (o + (percentDecode (bytes.drop i)).length) out.length ∧
      (urlDecodeLoop bytes out i o).1.take (urlDecodeLoop bytes out i o).2 =
        out.take o ++ (percentDecode (bytes.drop i)).take (out.length - o) := by
  by_cases hi : i < bytes.length
  · have hdrop := List.drop_eq_getElem_cons hi
    by_cases hroom : o < out.length
    · obtain ⟨i', hlt, hrest, hloop⟩ := urlDecodeLoop_step hi hroom
      have ih := urlDecodeLoop_eq bytes (out.set o (decodeByte bytes[i] (bytes.drop (i + 1))).1) i'
        (o + 1) (by rw [List.length_set]; omega)
      rw [← hloop, List.length_set, hrest] at ih
      rw [hdrop, percentDecode_cons]
      refine ⟨?_, ?_⟩
      · rw [ih.1, List.length_cons]
        omega
      · have hset : (out.set o (decodeByte bytes[i] (bytes.drop (i + 1))).1).take (o + 1) =
            out.take o ++ [(decodeByte bytes[i] (bytes.drop (i + 1))).1] := by
          rw [← List.take_concat_get' _ o (by rw [List.length_set]; exact hroom),
            List.take_set_of_le le_rfl, List.getElem_set_self]
        rw [ih.2, hset, List.append_assoc, List.singleton_append]
        congr 1
        rw [show out.length - o = out.length - (o + 1) + 1 by omega, List.take_succ_cons]
    · obtain rfl : o = out.length := by omega
      rw [urlDecodeLoop, dif_neg fun h => hroom h.2]
      simp
  · rw [urlDecodeLoop, dif_neg fun h => hi h.1, List.drop_eq_nil_of_le (by omega),
      percentDecode_nil]
    simp [ho]
termination_by bytes.length - i

theorem urlDecode_eq (input out : List UInt8) :
    (urlDecode input out).2 = min (percentDecode input).length out.length ∧
      (urlDecode input out).1.take (urlDecode input out).2 =
        (percentDecode input).take out.length := by
  have h := urlDecodeLoop_eq input out 0 0 (Nat.zero_le _)
  rw [List.drop_zero, Nat.zero_add, List.take_zero, List.nil_append, Nat.sub_zero] at h
  exact h

theorem lastOf_concat (pairs : List (List UInt8)) (pair key : List UInt8) :
    lastOf (pairs ++ [pair]) key =
      (((splitOnce 0x3D pair).filter (·.1 = key)).map Prod.snd).or (lastOf pairs key) := by
  unfold lastOf
  rw [List.filterMap_append, List.filter_append, List.getLast?_append, Option.map_or]
  congr 1
  rcases hp : splitOnce 0x3D pair with _ | ⟨key', value⟩
  · simp [hp]
  · by_cases hk : key' = key <;> simp [hp, hk]

theorem foldl_parsePair (pairs : List (List UInt8)) : pairs.foldl parsePair (none, none) =
    (lastOf pairs (utf8 "ssid"), lastOf pairs (utf8 "pass")) := by
  induction pairs using List.reverseRecOn with
  | nil => rfl
  | append_singleton pairs pair ih =>
    rw [List.foldl_concat, ih, lastOf_concat, lastOf_concat]
    unfold parsePair
    have hne : utf8 "ssid" ≠ utf8 "pass" := by decide
    rcases splitOnce 0x3D pair with _ | ⟨key, value⟩
    · rfl
    · simp only []
      by_cases hssid : key = utf8 "ssid"
      · subst hssid
        simp [Option.filter_some, hne]
      · by_cases hpass : key = utf8 "pass"
        · subst hpass
          simp [Option.filter_some, hne.symm]
        · simp [Option.filter_some, hssid, hpass]

theorem parseForm_eq (body : List UInt8) : parseForm body =
    (lastValue body (utf8 "ssid")).map fun ssid =>
      (ssid, (lastValue body (utf8 "pass")).getD []) := by
  unfold parseForm lastValue
  rw [foldl_parsePair]
  simp only []
  rcases lastOf (body.splitOn 0x26) (utf8 "ssid") with _ | ssid <;> rfl

end Esp32Battery
