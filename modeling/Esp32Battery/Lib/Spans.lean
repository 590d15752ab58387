import Mathlib

/-!
# Logs that coarsen as they fill

A log of bounded length over an unbounded stream holds the stream in blocks: what has slid out of
the log, the blocks its rows stand for, and what the next row is being gathered from. A full log
first joins neighbouring blocks, doubling what a row may stand for, and once that is at its limit
lets the oldest block go.
-/

namespace Lib

variable {α β : Type*}

section pairs

/-- `f` over the neighbours `2i`, `2i + 1`; a last one without a partner is dropped. -/
def foldPairs (f : α → α → α) : List α → List α
  | a :: b :: rest => f a b :: foldPairs f rest
  | [] | [_] => []

/-- `P` of the neighbours `2i`, `2i + 1`. -/
def Paired (P : α → α → Prop) : List α → Prop
  | a :: b :: rest => P a b ∧ Paired P rest
  | [] | [_] => True

@[simp] theorem length_foldPairs (f : α → α → α) :
    ∀ l : List α, (foldPairs f l).length = l.length / 2
  | a :: b :: rest => by
    have ih := length_foldPairs f rest
    simp only [foldPairs, List.length_cons, ih]
    omega
  | [] | [_] => by simp [foldPairs]

theorem mem_foldPairs {f : α → α → α} {c : α} :
    ∀ {l : List α}, c ∈ foldPairs f l → ∃ a ∈ l, ∃ b ∈ l, f a b = c
  | a :: b :: rest, h => by
    rw [foldPairs, List.mem_cons] at h
    rcases h with rfl | h
    · exact ⟨a, by simp, b, by simp, rfl⟩
    · obtain ⟨x, hx, y, hy, hxy⟩ := mem_foldPairs h
      exact ⟨x, by simp [hx], y, by simp [hy], hxy⟩
  | [], h | [_], h => by simp [foldPairs] at h

/-- Where `f` keeps the key of its second argument, pairing off only drops keys. -/
theorem foldPairs_sublist {f : α → α → α} {key : α → β} (hf : ∀ a b, key (f a b) = key b) :
    ∀ l : List α, ((foldPairs f l).map key).Sublist (l.map key)
  | a :: b :: rest => by
    rw [foldPairs, List.map_cons, hf]
    exact ((foldPairs_sublist hf rest).cons_cons (key b)).cons (key a)
  | [] => .refl _
  | [_] => List.nil_sublist _

theorem flatten_foldPairs_append :
    ∀ {l : List (List α)}, Even l.length → (foldPairs (· ++ ·) l).flatten = l.flatten
  | a :: b :: rest, h => by
    have hrest : Even rest.length := by
      rw [Nat.even_iff] at h ⊢
      simp only [List.length_cons] at h
      omega
    simp [foldPairs, flatten_foldPairs_append hrest]
  | [], _ => rfl
  | [_], h => by simp at h

theorem Paired.of_forall {P : α → α → Prop} :
    ∀ {l : List α}, (∀ a ∈ l, ∀ b ∈ l, P a b) → Paired P l
  | a :: b :: rest, h =>
    ⟨h a (by simp) b (by simp),
      Paired.of_forall fun x hx y hy => h x (by simp [hx]) y (by simp [hy])⟩
  | [], _ | [_], _ => trivial

theorem Paired.congr {P Q : α → α → Prop} :
    ∀ {l : List α}, (∀ a ∈ l, ∀ b ∈ l, P a b ↔ Q a b) → (Paired P l ↔ Paired Q l)
  | a :: b :: rest, h => by
    have hab := h a (by simp) b (by simp)
    have hrest : Paired P rest ↔ Paired Q rest :=
      Paired.congr fun x hx y hy => h x (by simp [hx]) y (by simp [hy])
    simp only [Paired, hab, hrest]
  | [], _ | [_], _ => Iff.rfl

/-- Two lists paired off side by side stay related exactly where each two pairs do. -/
theorem forall₂_foldPairs {R S : α → β → Prop} {f : α → α → α} {g : β → β → β} {l : List α}
    {m : List β} (h : List.Forall₂ R l m) :
    List.Forall₂ S (foldPairs f l) (foldPairs g m) ↔
      Paired (fun p q => S (f p.1 q.1) (g p.2 q.2)) (l.zip m) := by
  match l, m, h with
  | a :: b :: l, a' :: b' :: m, .cons _ (.cons _ h) =>
    have ih := forall₂_foldPairs (S := S) (f := f) (g := g) h
    simp only [foldPairs, List.forall₂_cons, List.zip_cons_cons, Paired, ih]
  | [], [], _ => simp [foldPairs, Paired]
  | [_], [_], _ => simp [foldPairs, Paired]

theorem forall₂_concat {R : α → β → Prop} {l : List α} {m : List β} {a : α} {b : β} :
    List.Forall₂ R (l ++ [a]) (m ++ [b]) ↔ List.Forall₂ R l m ∧ R a b := by
  rw [← List.forall₂_reverse_iff, ← @List.forall₂_reverse_iff _ _ _ l]
  simp [and_comm]

end pairs

structure Spans (α : Type*) where
  lost : List α
  blocks : List (List α)
  pending : List α
  width : ℕ

namespace Spans

def empty : Spans α := ⟨[], [], [], 1⟩

section steps
variable (capacity limit : ℕ)

def makeRoom (g : Spans α) : Spans α :=
  if g.blocks.length = capacity then
    if g.width < limit then
      { g with blocks := foldPairs (· ++ ·) g.blocks, width := g.width * 2 }
    else { g with lost := g.lost ++ g.blocks.head?.getD [], blocks := g.blocks.tail }
  else g

def push (g : Spans α) (x : α) : Spans α :=
  let row := g.pending ++ [x]
  if row.length < g.width then { g with pending := row }
  else
    let g := g.makeRoom capacity limit
    { g with blocks := g.blocks ++ [row], pending := [] }

def ofStream (xs : List α) : Spans α := xs.foldl (push capacity limit) empty

/-- The blocks are the stream `xs`, none of it twice, and none of it lost below the limit. -/
structure Sound (xs : List α) (g : Spans α) : Prop where
  whole : g.lost ++ g.blocks.flatten ++ g.pending = xs
  gathering : g.pending.length < g.width
  fits : g.blocks.length ≤ capacity
  sized : ∀ b ∈ g.blocks, b.length ≤ g.width ∧ g.width ≤ 2 * b.length
  width_pow : ∃ k, g.width = 2 ^ k
  width_le : g.width ≤ limit
  kept : g.width < limit → g.lost = []

end steps

variable {capacity limit : ℕ}

@[simp] theorem ofStream_nil : ofStream capacity limit ([] : List α) = empty := rfl

@[simp] theorem ofStream_concat (xs : List α) (x : α) :
    ofStream capacity limit (xs ++ [x]) = (ofStream capacity limit xs).push capacity limit x := by
  simp [ofStream]

theorem makeRoom_pending (g : Spans α) : (g.makeRoom capacity limit).pending = g.pending := by
  unfold makeRoom
  split_ifs <;> rfl

theorem push_lost (g : Spans α) (x : α) :
    (g.push capacity limit x).lost = g.lost ∨
      g.width ≤ (g.pending ++ [x]).length ∧ g.blocks.length = capacity ∧ limit ≤ g.width ∧
        (g.push capacity limit x).lost = g.lost ++ g.blocks.head?.getD [] := by
  unfold push makeRoom
  simp only []
  split_ifs with hgather hfull hlimit
  · exact .inl rfl
  · exact .inl rfl
  · exact .inr ⟨not_lt.1 hgather, hfull, not_lt.1 hlimit, rfl⟩
  · exact .inl rfl

theorem sound_empty (hlimit : 0 < limit) : (empty : Spans α).Sound capacity limit [] where
  whole := rfl
  gathering := Nat.one_pos
  fits := Nat.zero_le _
  sized := by simp [empty]
  width_pow := ⟨0, rfl⟩
  width_le := hlimit
  kept _ := rfl

/-- Making room leaves a log that lacks nothing but what it let go, and has room. -/
theorem Sound.makeRoom {xs : List α} {g : Spans α} (heven : Even capacity) (hpos : 0 < capacity)
    (hlimit : ∃ k, limit = 2 ^ k) (h : g.Sound capacity limit xs) :
    (g.makeRoom capacity limit).Sound capacity limit xs ∧
      (g.makeRoom capacity limit).blocks.length < capacity ∧
      (g.makeRoom capacity limit).width ≤ 2 * g.width ∧
      g.width ≤ (g.makeRoom capacity limit).width := by
  unfold Spans.makeRoom
  split_ifs with hfull hbelow
  · have hhalf := length_foldPairs (· ++ ·) g.blocks
    have hgather := h.gathering
    refine ⟨⟨?_, ?_, ?_, ?_, ?_, ?_, ?_⟩, ?_, ?_, ?_⟩
    · rw [flatten_foldPairs_append (hfull ▸ heven)]
      exact h.whole
    · simp only []
      omega
    · simp only []
      omega
    · intro b hb
      obtain ⟨l, hl, r, hr, rfl⟩ := mem_foldPairs hb
      have hl := h.sized l hl
      have hr := h.sized r hr
      simp only [List.length_append]
      omega
    · obtain ⟨k, hk⟩ := h.width_pow
      exact ⟨k + 1, by simp only [hk, pow_succ]⟩
    · -- two powers of two, the smaller doubled still below the larger
      obtain ⟨k, hk⟩ := h.width_pow
      obtain ⟨m, hm⟩ := hlimit
      rw [hk, hm, Nat.pow_lt_pow_iff_right (by omega)] at hbelow
      calc g.width * 2 = 2 ^ (k + 1) := by rw [hk, pow_succ]
        _ ≤ 2 ^ m := Nat.pow_le_pow_right (by omega) hbelow
        _ = limit := hm.symm
    · intro _
      exact h.kept hbelow
    · simp only []
      omega
    · simp only []
      omega
    · simp only []
      omega
  · obtain ⟨b, rest, hb⟩ : ∃ b rest, g.blocks = b :: rest :=
      List.exists_cons_of_length_pos (by omega)
    have hwhole := h.whole
    have hlen : rest.length + 1 = capacity := by rw [← hfull, hb, List.length_cons]
    refine ⟨⟨?_, h.gathering, ?_, ?_, h.width_pow, h.width_le, ?_⟩, ?_, ?_, le_refl _⟩
    · rw [← hwhole]
      simp [hb]
    · simp only [hb, List.tail_cons]
      omega
    · intro b hb
      exact h.sized b (List.mem_of_mem_tail hb)
    · intro hlt
      exact absurd hlt hbelow
    · simp only [hb, List.tail_cons]
      omega
    · simp only []
      omega
  · exact ⟨h, lt_of_le_of_ne h.fits hfull, by omega, le_refl _⟩

theorem Sound.push {xs : List α} {g : Spans α} (heven : Even capacity) (hpos : 0 < capacity)
    (hlimit : ∃ k, limit = 2 ^ k) (h : g.Sound capacity limit xs) (x : α) :
    (g.push capacity limit x).Sound capacity limit (xs ++ [x]) := by
  obtain ⟨hroom, hlt, hwidth, hmono⟩ := h.makeRoom heven hpos hlimit
  have hgather := h.gathering
  have hwhole := hroom.whole
  rw [makeRoom_pending] at hwhole
  unfold Spans.push
  simp only [List.length_append, List.length_singleton]
  split_ifs with hshort
  · refine ⟨?_, ?_, h.fits, h.sized, h.width_pow, h.width_le, h.kept⟩
    · rw [← h.whole]
      simp
    · simp only [List.length_append, List.length_singleton]
      exact hshort
  · refine ⟨?_, ?_, ?_, ?_, hroom.width_pow, hroom.width_le, hroom.kept⟩
    · rw [← hwhole]
      simp
    · simp only [List.length_nil]
      omega
    · simp only [List.length_append, List.length_singleton]
      omega
    · intro b hb
      rcases List.mem_append.1 hb with hb | hb
      · exact hroom.sized b hb
      · rw [List.mem_singleton.1 hb]
        simp only [List.length_append, List.length_singleton]
        omega

theorem sound_ofStream (heven : Even capacity) (hpos : 0 < capacity)
    (hlimit : ∃ k, limit = 2 ^ k) (xs : List α) :
    (ofStream capacity limit xs).Sound capacity limit xs := by
  induction xs using List.reverseRecOn with
  | nil =>
    obtain ⟨k, hk⟩ := hlimit
    exact sound_empty (hk ▸ Nat.two_pow_pos k)
  | append_singleton xs x ih =>
    rw [ofStream_concat]
    exact ih.push heven hpos hlimit x

end Spans

end Lib
