import Esp32Battery.Lib.Slice

/-!
# The log ring

A byte ring that keeps the most recent bytes written to it. It refines the queue that drops its
oldest bytes: what `slices` reads is the end of everything written.
-/

namespace Esp32Battery

open Lib

structure Ring where
  data : List UInt8
  head : ℕ
  wrapped : Bool
deriving DecidableEq

namespace Ring

def fromBuf (data : List UInt8) : Except Panic Ring := do
  require (!data.isEmpty) "Ring capacity must be > 0"
  return { data := List.replicate data.length 0, head := 0, wrapped := false }

/-- The copy itself, of bytes cut to the capacity. -/
def put (r : Ring) (bytes : List UInt8) : Except Panic Ring := do
  let cap := r.data.length
  let tail := cap - r.head
  if bytes.length ≤ tail then
    let data ← copyInto r.data r.head (r.head + bytes.length) bytes
    let head := r.head + bytes.length
    return if head = cap then { data, head := 0, wrapped := true } else { r with data, head }
  else
    let (first, rest) ← splitAt bytes tail
    let data ← copyInto r.data r.head cap first
    let data ← copyInto data 0 rest.length rest
    return { data, head := rest.length, wrapped := true }

def write (r : Ring) (bytes : List UInt8) : Except Panic Ring := do
  let cap := r.data.length
  if cap < bytes.length then
    let bytes ← slice bytes (bytes.length - cap) bytes.length
    put { r with head := 0, wrapped := true } bytes
  else
    put r bytes

def slices (r : Ring) : Except Panic (List UInt8 × List UInt8) := do
  if r.wrapped then
    let older ← slice r.data r.head r.data.length
    let newer ← slice r.data 0 r.head
    return (older, newer)
  else
    let older ← slice r.data 0 r.head
    return (older, [])

/-- The bytes the ring holds, oldest first. -/
def contents (r : Ring) : List UInt8 :=
  if r.wrapped then r.data.drop r.head ++ r.data.take r.head else r.data.take r.head

theorem slices_contents {r : Ring} (h : r.head ≤ r.data.length) :
    ∃ older newer, r.slices = .ok (older, newer) ∧ older ++ newer = r.contents := by
  unfold slices contents
  have htake : slice r.data 0 r.head = .ok (r.data.take r.head) := by
    rw [slice_of_le (Nat.zero_le _) h, List.drop_zero]
  by_cases hw : r.wrapped = true
  · rw [if_pos hw, if_pos hw, htake, slice_of_le h le_rfl, List.take_length]
    exact ⟨_, _, rfl, rfl⟩
  · rw [if_neg hw, if_neg hw, htake]
    exact ⟨_, [], rfl, List.append_nil _⟩

/-- `r'` holds the last bytes, as many as fit, of what `r` held and `bytes`. -/
structure Takes (r : Ring) (bytes : List UInt8) (r' : Ring) : Prop where
  length : r'.data.length = r.data.length
  head : r'.head < r'.data.length
  contents : r'.contents = (r.contents ++ bytes).rtake r.data.length

theorem contents_wrapped (front back : List UInt8) :
    contents ⟨front ++ back, front.length, true⟩ = back ++ front := by
  unfold contents
  rw [if_pos rfl, List.drop_left, List.take_left]

theorem contents_unwrapped (front back : List UInt8) :
    contents ⟨front ++ back, front.length, false⟩ = front := by
  unfold contents
  rw [if_neg (by simp), List.take_left]

theorem put_fits {r : Ring} {bytes : List UInt8} (h : r.head < r.data.length)
    (hb : bytes.length ≤ r.data.length - r.head) :
    ∃ r', r.put bytes = .ok r' ∧ r.Takes bytes r' := by
  obtain ⟨data, head, wrapped⟩ := r
  simp only [] at h hb
  obtain ⟨front, old, back, rfl, rfl, hold⟩ : ∃ front old back : List UInt8,
      data = front ++ (old ++ back) ∧ front.length = head ∧ old.length = bytes.length := by
    refine ⟨data.take head, (data.drop head).take bytes.length,
      (data.drop head).drop bytes.length, ?_, ?_, ?_⟩
    · rw [List.take_append_drop, List.take_append_drop]
    · rw [List.length_take]
      omega
    · rw [List.length_take, List.length_drop]
      omega
  have hcopy := copyInto_append front old bytes back hold
  rw [List.append_assoc, List.append_assoc] at hcopy
  have hlen : (front ++ (old ++ back)).length = front.length + bytes.length + back.length := by
    simp only [List.length_append]
    omega
  have hlen' : (front ++ (bytes ++ back)).length = (front ++ (old ++ back)).length := by
    simp only [List.length_append, hold]
  unfold put
  simp only []
  rw [if_pos hb, hcopy, ok_bind]
  by_cases hfull : front.length + bytes.length = (front ++ (old ++ back)).length
  · -- the copy ends at the boundary, and the head goes back to the start
    rw [if_pos hfull]
    refine ⟨_, rfl, hlen', by simp only []; omega, ?_⟩
    obtain rfl : back = [] := List.eq_nil_of_length_eq_zero (by omega)
    have hfront : (front ++ bytes).length = (front ++ (old ++ [])).length := by
      rw [List.length_append, hfull]
    rw [show contents ⟨front ++ (bytes ++ []), 0, true⟩ = front ++ bytes by simp [contents]]
    cases wrapped
    · rw [contents_unwrapped, rtake_of_length_le hfront.le]
    · rw [contents_wrapped, List.append_assoc, rtake_append_of_length _ hfront]
  · rw [if_neg hfull]
    refine ⟨_, rfl, hlen', by simp only []; omega, ?_⟩
    have hmid : front.length + bytes.length = (front ++ bytes).length := by
      rw [List.length_append]
    simp only []
    rw [← List.append_assoc front bytes back, hmid]
    cases wrapped
    · rw [contents_unwrapped, contents_unwrapped, rtake_of_length_le (by omega)]
    · rw [contents_wrapped, contents_wrapped, List.append_assoc old back front, List.append_assoc,
        List.append_assoc, rtake_append_of_length old]
      simp only [List.length_append] at hlen ⊢
      omega

theorem put_wraps {r : Ring} {bytes : List UInt8} (h : r.head < r.data.length)
    (hb : r.data.length - r.head < bytes.length) (hcap : bytes.length ≤ r.data.length) :
    ∃ r', r.put bytes = .ok r' ∧ r.Takes bytes r' := by
  obtain ⟨data, head, wrapped⟩ := r
  simp only [] at h hb hcap
  obtain ⟨first, rest, rfl, hfirst⟩ : ∃ first rest : List UInt8,
      bytes = first ++ rest ∧ first.length = data.length - head := by
    refine ⟨bytes.take (data.length - head), bytes.drop (data.length - head),
      (List.take_append_drop _ _).symm, ?_⟩
    rw [List.length_take]
    omega
  rw [List.length_append] at hb hcap
  obtain ⟨old, front, back, rfl, rfl, hold⟩ : ∃ old front back : List UInt8,
      data = old ++ front ++ back ∧ (old ++ front).length = head ∧ old.length = rest.length := by
    refine ⟨data.take rest.length, (data.take head).drop rest.length, data.drop head, ?_, ?_, ?_⟩
    · have htake : data.take rest.length = (data.take head).take rest.length := by
        rw [List.take_take]
        congr 1
        omega
      rw [htake, List.take_append_drop, List.take_append_drop]
    · simp only [List.length_append, List.length_take, List.length_drop]
      omega
    · rw [List.length_take]
      omega
  have hlen : (old ++ front ++ back).length = (old ++ front).length + first.length := by
    rw [hfirst]
    omega
  have hback : back.length = first.length := by
    rw [List.length_append] at hlen
    omega
  have hcopy := copyInto_append (old ++ front) back first [] hback
  have hcopy' := copyInto_append [] old rest (front ++ first) hold
  rw [List.append_nil, List.append_nil, ← hlen] at hcopy
  rw [List.nil_append, List.nil_append, List.length_nil, Nat.zero_add,
    ← List.append_assoc] at hcopy'
  unfold put
  simp only []
  rw [if_neg (by simp only [List.length_append] at hb ⊢; omega),
    splitAt_of_le (by simp only [List.length_append] at hb ⊢; omega), ← hfirst, List.take_left,
    List.drop_left, ok_bind]
  simp only []
  rw [hcopy, ok_bind, hcopy', ok_bind]
  refine ⟨_, rfl, ?_, ?_, ?_⟩
  · simp only [List.length_append]
    omega
  · simp only [List.length_append] at h ⊢
    omega
  · simp only [List.length_append] at hlen
    rw [contents_wrapped]
    have hfull : (front ++ first ++ rest).length = (old ++ (front ++ back)).length := by
      simp only [List.length_append]
      omega
    rw [List.append_assoc old front back]
    cases wrapped
    · have hall : old ++ front ++ (first ++ rest) = old ++ (front ++ first ++ rest) := by
        simp only [List.append_assoc]
      rw [← List.append_assoc old, contents_unwrapped, hall, rtake_append_of_length old]
      rw [hfull, List.append_assoc]
    · have hall : back ++ (old ++ front) ++ (first ++ rest) =
          back ++ old ++ (front ++ first ++ rest) := by
        simp only [List.append_assoc]
      rw [← List.append_assoc old, contents_wrapped, hall, rtake_append_of_length (back ++ old)]
      rw [hfull, List.append_assoc]

theorem put_takes {r : Ring} {bytes : List UInt8} (h : r.head < r.data.length)
    (hb : bytes.length ≤ r.data.length) : ∃ r', r.put bytes = .ok r' ∧ r.Takes bytes r' := by
  by_cases hfits : bytes.length ≤ r.data.length - r.head
  · exact put_fits h hfits
  · exact put_wraps h (by omega) hb

theorem write_takes {r : Ring} (bytes : List UInt8) (h : r.head < r.data.length) :
    ∃ r', r.write bytes = .ok r' ∧ r.Takes bytes r' := by
  unfold write
  simp only []
  by_cases hover : r.data.length < bytes.length
  · -- the bytes that fill the ring are all that counts, whatever it held
    have hcut : (bytes.take bytes.length).drop (bytes.length - r.data.length) =
        bytes.rtake r.data.length := by
      rw [List.take_length]
      rfl
    have hlen : (bytes.rtake r.data.length).length = r.data.length := by
      unfold List.rtake
      rw [List.length_drop]
      omega
    rw [if_pos hover, slice_of_le (by omega) le_rfl, ok_bind, hcut]
    obtain ⟨r', hput, hlength, hhead, hcontents⟩ :=
      put_takes (r := { r with head := 0, wrapped := true }) (by simp only []; omega) hlen.le
    refine ⟨r', hput, hlength, hhead, ?_⟩
    rw [hcontents, rtake_append_of_length _ hlen]
    have hsplit : r.contents ++ bytes =
        r.contents ++ bytes.take (bytes.length - r.data.length) ++ bytes.rtake r.data.length := by
      unfold List.rtake
      rw [List.append_assoc, List.take_append_drop]
    rw [hsplit, rtake_append_of_length _ hlen]
  · rw [if_neg hover]
    exact put_takes h (by omega)

theorem length_contents_le {r : Ring} (h : r.head ≤ r.data.length) :
    r.contents.length ≤ r.data.length := by
  unfold contents
  split_ifs
  · simp only [List.length_append, List.length_drop, List.length_take]
    omega
  · rw [List.length_take]
    omega

theorem Takes.refl {r : Ring} (h : r.head < r.data.length) : r.Takes [] r where
  length := rfl
  head := h
  contents := by rw [List.append_nil, rtake_of_length_le (length_contents_le h.le)]

theorem Takes.trans {r r₁ r₂ : Ring} {bytes bytes' : List UInt8} (h₁ : r.Takes bytes r₁)
    (h₂ : r₁.Takes bytes' r₂) : r.Takes (bytes ++ bytes') r₂ where
  length := h₂.length.trans h₁.length
  head := h₂.head
  contents := by
    rw [h₂.contents, h₁.contents, h₁.length, rtake_rtake_append, List.append_assoc]

theorem writes_take (writes : List (List UInt8)) {r : Ring} (h : r.head < r.data.length) :
    ∃ r', writes.foldlM write r = .ok r' ∧ r.Takes writes.flatten r' := by
  induction writes generalizing r with
  | nil => exact ⟨r, rfl, .refl h⟩
  | cons bytes writes ih =>
    obtain ⟨r₁, hw, h₁⟩ := write_takes bytes h
    obtain ⟨r₂, hws, h₂⟩ := ih h₁.head
    refine ⟨r₂, ?_, ?_⟩
    · rw [List.foldlM_cons, hw, ok_bind, hws]
    · rw [List.flatten_cons]
      exact h₁.trans h₂

/-- A fresh ring given any writes never indexes out of bounds, and reads back the last bytes of
all that was written, as many as it can hold. -/
theorem refines_queue (buf : List UInt8) (hbuf : buf ≠ []) (writes : List (List UInt8)) :
    ∃ r₀ r older newer, fromBuf buf = .ok r₀ ∧ writes.foldlM write r₀ = .ok r ∧
      r.slices = .ok (older, newer) ∧
      older ++ newer = writes.flatten.rtake (min buf.length writes.flatten.length) := by
  have hcap : 0 < buf.length := List.length_pos_of_ne_nil hbuf
  have hfresh : fromBuf buf = .ok ⟨List.replicate buf.length 0, 0, false⟩ := by
    unfold fromBuf
    rw [show (!buf.isEmpty) = true by simpa using hbuf]
    rfl
  obtain ⟨r, hrun, htakes⟩ := writes_take writes
    (r := ⟨List.replicate buf.length 0, 0, false⟩) (by rw [List.length_replicate]; exact hcap)
  obtain ⟨older, newer, hslices, hread⟩ := slices_contents htakes.head.le
  refine ⟨_, r, older, newer, hfresh, hrun, hslices, ?_⟩
  rw [hread, htakes.contents, List.length_replicate]
  show List.rtake ([] ++ writes.flatten) buf.length = _
  rw [List.nil_append]
  by_cases hle : writes.flatten.length ≤ buf.length
  · rw [min_eq_right hle, rtake_of_length_le hle, rtake_of_length_le le_rfl]
  · rw [min_eq_left (by omega)]

/-- Three writes into four bytes: one that fits, one that wraps, one that overflows. -/
theorem refines_queue_four : ∃ r₀ r older newer, fromBuf [7, 7, 7, 7] = .ok r₀ ∧
    [[1, 2, 3], [4, 5], [6, 7, 8, 9, 10]].foldlM write r₀ = .ok r ∧
    r.slices = .ok (older, newer) ∧ older ++ newer = [7, 8, 9, 10] :=
  refines_queue [7, 7, 7, 7] (by simp) [[1, 2, 3], [4, 5], [6, 7, 8, 9, 10]]

end Ring

end Esp32Battery
