import Mathlib

/-!
# Durations and bounded queues

A `Duration` counts nanoseconds up to `u64::MAX` seconds and `999_999_999` nanoseconds; its
additions and subtractions saturate at the two ends. A `Deque` holds at most `n` items.
-/

namespace Lib

/-- `Duration::MAX` in nanoseconds. -/
def maxNanos : ℕ := (2 ^ 64 - 1) * 1000000000 + 999999999

@[ext]
structure Duration where
  nanos : ℕ
  nanos_le : nanos ≤ maxNanos
deriving DecidableEq

namespace Duration

def zero : Duration := ⟨0, Nat.zero_le _⟩

def max : Duration := ⟨maxNanos, le_rfl⟩

def fromSecs (s : UInt64) : Duration :=
  ⟨s.toNat * 1000000000, by have := s.toNat_lt; unfold maxNanos; omega⟩

instance : LE Duration := ⟨fun a b => a.nanos ≤ b.nanos⟩

instance : LT Duration := ⟨fun a b => a.nanos < b.nanos⟩

instance : DecidableLE Duration := fun a b => inferInstanceAs (Decidable (a.nanos ≤ b.nanos))

instance : DecidableLT Duration := fun a b => inferInstanceAs (Decidable (a.nanos < b.nanos))

def saturatingAdd (a b : Duration) : Duration :=
  ⟨min (a.nanos + b.nanos) maxNanos, min_le_right _ _⟩

def saturatingSub (a b : Duration) : Duration :=
  ⟨a.nanos - b.nanos, (Nat.sub_le _ _).trans a.nanos_le⟩

/-- `none` when the sum overflows. -/
def checkedAdd (a b : Duration) : Option Duration :=
  if h : a.nanos + b.nanos ≤ maxNanos then some ⟨a.nanos + b.nanos, h⟩ else none

theorem le_def {a b : Duration} : a ≤ b ↔ a.nanos ≤ b.nanos := Iff.rfl

theorem lt_def {a b : Duration} : a < b ↔ a.nanos < b.nanos := Iff.rfl

@[simp] theorem nanos_zero : zero.nanos = 0 := rfl

@[simp] theorem nanos_fromSecs (s : UInt64) : (fromSecs s).nanos = s.toNat * 1000000000 := rfl

@[simp] theorem nanos_saturatingAdd (a b : Duration) :
    (a.saturatingAdd b).nanos = min (a.nanos + b.nanos) maxNanos := rfl

@[simp] theorem nanos_saturatingSub (a b : Duration) :
    (a.saturatingSub b).nanos = a.nanos - b.nanos := rfl

section Split

variable {a b c : Duration}

theorem nanos_of_checkedAdd (h : a.checkedAdd b = some c) : c.nanos = a.nanos + b.nanos := by
  unfold checkedAdd at h
  split_ifs at h
  cases h
  rfl

theorem checkedAdd_assoc {d e : Duration} (h : a.checkedAdd b = some c)
    (h' : c.checkedAdd d = some e) :
    ∃ f, b.checkedAdd d = some f ∧ a.checkedAdd f = some e := by
  have hc := nanos_of_checkedAdd h
  have he := nanos_of_checkedAdd h'
  have hle := e.nanos_le
  have hf : b.nanos + d.nanos ≤ maxNanos := by omega
  refine ⟨⟨b.nanos + d.nanos, hf⟩, dif_pos hf, ?_⟩
  unfold checkedAdd
  rw [dif_pos (by simp only []; omega), Option.some.injEq]
  ext
  simp only []
  omega

theorem saturatingAdd_split (h : a.checkedAdd b = some c) (x : Duration) :
    (x.saturatingAdd a).saturatingAdd b = x.saturatingAdd c := by
  have hc := nanos_of_checkedAdd h
  ext
  simp only [nanos_saturatingAdd]
  omega

theorem saturatingSub_split (h : a.checkedAdd b = some c) (x : Duration) :
    (x.saturatingSub a).saturatingSub b = x.saturatingSub c := by
  have hc := nanos_of_checkedAdd h
  ext
  simp only [nanos_saturatingSub]
  omega

end Split

end Duration

@[ext]
structure Deque (α : Type) (n : ℕ) where
  items : List α
  length_le : items.length ≤ n
deriving DecidableEq

namespace Deque

variable {α : Type} {n : ℕ}

def new : Deque α n := ⟨[], Nat.zero_le _⟩

theorem eq_new {d : Deque α n} (h : d.items = []) : d = new := by
  cases d
  cases h
  rfl

def isFull (d : Deque α n) : Bool := d.items.length = n

def popFront (d : Deque α n) : Option α × Deque α n :=
  (d.items.head?, ⟨d.items.tail, by have := d.length_le; simp; omega⟩)

/-- `none` when the queue is full. -/
def pushBack (d : Deque α n) (a : α) : Option (Deque α n) :=
  if h : d.items.length < n then some ⟨d.items ++ [a], by simp; omega⟩ else none

/-- A queue that made room first takes the item. -/
theorem pushBack_evict (d : Deque α n) (a : α) (hn : 0 < n) :
    ∃ d', (if d.isFull then d.popFront.2 else d).pushBack a = some d' := by
  have := d.length_le
  split_ifs with h
  · refine ⟨_, dif_pos ?_⟩
    simp only [isFull, decide_eq_true_eq] at h
    simp only [popFront, List.length_tail]
    omega
  · refine ⟨_, dif_pos ?_⟩
    simp only [isFull, decide_eq_true_eq] at h
    omega

/-- What it holds then are the last `n`. -/
theorem items_pushBack_evict {d d' : Deque α n} {a : α} (hn : 0 < n)
    (h : (if d.isFull then d.popFront.2 else d).pushBack a = some d') :
    d'.items = (d.items ++ [a]).rtake n := by
  have hle := d.length_le
  have hitems : ∀ {x : Deque α n}, x.pushBack a = some d' → d'.items = x.items ++ [a] := by
    intro x hx
    unfold pushBack at hx
    split_ifs at hx
    cases hx
    rfl
  unfold List.rtake
  by_cases hfull : d.isFull = true
  · rw [if_pos hfull] at h
    simp only [isFull, decide_eq_true_eq] at hfull
    rw [hitems h, List.length_append, List.length_singleton, hfull, Nat.add_sub_cancel_left,
      List.drop_append_of_le_length (by omega), List.drop_one]
    rfl
  · rw [if_neg hfull] at h
    simp only [isFull, decide_eq_true_eq] at hfull
    rw [hitems h, List.length_append, List.length_singleton, Nat.sub_eq_zero_of_le (by omega),
      List.drop_zero]

end Deque

end Lib
