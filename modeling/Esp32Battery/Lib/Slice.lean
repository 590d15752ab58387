import Esp32Battery.Lib.Panic

/-!
# Slices

Indexing, slicing and copying into a slice, each panicking outside its bounds.
-/

namespace Lib

variable {α : Type}

def index (s : List α) (i : ℕ) : Except Panic α := expect s[i]? "index out of bounds"

/-- `s[i] = a`. -/
def store (s : List α) (i : ℕ) (a : α) : Except Panic (List α) := do
  require (i < s.length) "index out of bounds"
  return s.set i a

/-- `&s[i..j]`. -/
def slice (s : List α) (i j : ℕ) : Except Panic (List α) := do
  require (i ≤ j) "slice index starts after it ends"
  require (j ≤ s.length) "range end index out of range"
  return (s.take j).drop i

/-- `s[i..j].copy_from_slice(src)`. -/
def copyInto (s : List α) (i j : ℕ) (src : List α) : Except Panic (List α) := do
  let dst ← slice s i j
  require (dst.length = src.length) "copy_from_slice: the lengths do not match"
  return s.take i ++ src ++ s.drop j

/-- `s.split_at(mid)`. -/
def splitAt (s : List α) (mid : ℕ) : Except Panic (List α × List α) := do
  require (mid ≤ s.length) "mid > len"
  return (s.take mid, s.drop mid)

theorem index_of_lt {s : List α} {i : ℕ} (h : i < s.length) : index s i = .ok s[i] := by
  unfold index
  rw [List.getElem?_eq_getElem h, expect_some]

theorem store_of_lt {s : List α} {i : ℕ} (h : i < s.length) (a : α) :
    store s i a = .ok (s.set i a) := by
  unfold store
  rw [decide_eq_true h]
  rfl

theorem slice_of_le {s : List α} {i j : ℕ} (hij : i ≤ j) (hj : j ≤ s.length) :
    slice s i j = .ok ((s.take j).drop i) := by
  unfold slice
  rw [decide_eq_true hij, decide_eq_true hj]
  rfl

theorem copyInto_of_le {s src : List α} {i j : ℕ} (hj : j ≤ s.length)
    (hsrc : i + src.length = j) : copyInto s i j src = .ok (s.take i ++ src ++ s.drop j) := by
  unfold copyInto
  have hlen : ((s.take j).drop i).length = src.length := by
    rw [List.length_drop, List.length_take]
    omega
  rw [slice_of_le (by omega) hj, ok_bind, decide_eq_true hlen]
  rfl

/-- Writing over the part between a front and a back. -/
theorem copyInto_append (front old src back : List α) (h : old.length = src.length) :
    copyInto (front ++ old ++ back) front.length (front.length + src.length) src =
      .ok (front ++ src ++ back) := by
  rw [copyInto_of_le (by simp [h]) rfl]
  have htake : (front ++ old ++ back).take front.length = front := by
    rw [List.append_assoc, List.take_left' rfl]
  have hdrop : (front ++ old ++ back).drop (front.length + src.length) = back := by
    rw [List.drop_left' (by simp [h])]
  rw [htake, hdrop]

/-- The buffer `s` filled with `w` from its front. -/
structure Filled (s w s' : List α) : Prop where
  le : w.length ≤ s.length
  eq : s' = w ++ s.drop w.length

namespace Filled

variable {s w s' : List α} {i : ℕ}

theorem start (s : List α) : Filled s [] s := ⟨Nat.zero_le _, rfl⟩

theorem length_eq (h : Filled s w s') : s'.length = s.length := by
  have := h.le
  rw [h.eq, List.length_append, List.length_drop]
  omega

theorem take_eq (h : Filled s w s') : s'.take w.length = w := by
  rw [h.eq, List.take_left]

theorem drop_eq (h : Filled s w s') : s'.drop w.length = s.drop w.length := by
  rw [h.eq, List.drop_left]

theorem store (h : Filled s w s') (a : α) (hi : w.length = i) (hlt : i < s.length) :
    ∃ s'', Lib.store s' i a = .ok s'' ∧ Filled s (w ++ [a]) s'' := by
  subst hi
  refine ⟨_, store_of_lt (by rw [h.length_eq]; exact hlt) a, ?_, ?_⟩
  · rw [List.length_append]
    exact hlt
  · rw [h.eq, List.set_append_right _ _ le_rfl, Nat.sub_self, List.drop_eq_getElem_cons hlt,
      List.set_cons_zero, List.append_assoc, List.length_append]
    rfl

theorem copyInto {j : ℕ} (h : Filled s w s') (src : List α) (hi : w.length = i)
    (hj : i + src.length = j) (hle : j ≤ s.length) :
    ∃ s'', Lib.copyInto s' i j src = .ok s'' ∧ Filled s (w ++ src) s'' := by
  subst hi hj
  refine ⟨_, copyInto_of_le (by rw [h.length_eq]; exact hle) rfl, ?_, ?_⟩
  · rw [List.length_append]
    exact hle
  · rw [h.take_eq, ← List.drop_drop, h.drop_eq, List.drop_drop, List.length_append]

end Filled

theorem splitAt_of_le {s : List α} {mid : ℕ} (h : mid ≤ s.length) :
    splitAt s mid = .ok (s.take mid, s.drop mid) := by
  unfold splitAt
  rw [decide_eq_true h]
  rfl

theorem rtake_of_length_le {n : ℕ} {l : List α} (h : l.length ≤ n) : l.rtake n = l := by
  unfold List.rtake
  rw [Nat.sub_eq_zero_of_le h, List.drop_zero]

theorem rtake_append_of_length {n : ℕ} (l : List α) {m : List α} (h : m.length = n) :
    (l ++ m).rtake n = m := by
  unfold List.rtake
  rw [List.drop_left' (by simp [h])]

/-- Only the last `n` of what comes before count towards the last `n`. -/
theorem rtake_rtake_append (n : ℕ) (l m : List α) :
    (l.rtake n ++ m).rtake n = (l ++ m).rtake n := by
  unfold List.rtake
  simp only [List.drop_append, List.drop_drop, List.length_append, List.length_drop]
  congr 1
  · congr 1
    omega
  · congr 1
    omega

end Lib
