import Mathlib

/-!
# The greatest value of each key

A list of pairs told one by one, of which the greatest value of each key is kept: a value for a
key that is there raises it, one for a new key is added.
-/

namespace Lib

variable {κ β : Type*} [LinearOrder β] {seen l : List (κ × β)} {k : κ} {b : β}

/-- `l` has each key of `seen` once, with its greatest value. -/
structure Tops (seen l : List (κ × β)) : Prop where
  nodup : (l.map Prod.fst).Nodup
  mem_iff : ∀ k b, (k, b) ∈ l ↔ IsGreatest {b | (k, b) ∈ seen} b

namespace Tops

theorem nil : Tops ([] : List (κ × β)) [] where
  nodup := List.nodup_nil
  mem_iff k b := by simp [IsGreatest]

theorem perm {l' : List (κ × β)} (h : Tops seen l) (hp : l'.Perm l) : Tops seen l' where
  nodup := (hp.map _).nodup_iff.2 h.nodup
  mem_iff k b := hp.mem_iff.trans (h.mem_iff k b)

theorem key_iff (h : Tops seen l) : k ∈ l.map Prod.fst ↔ ∃ b, (k, b) ∈ seen := by
  constructor
  · intro hk
    obtain ⟨⟨k, b⟩, hmem, rfl⟩ := List.mem_map.1 hk
    exact ⟨b, ((h.mem_iff k b).1 hmem).1⟩
  · rintro ⟨b, hb⟩
    have hfin : {b | (k, b) ∈ seen}.Finite :=
      (seen.map Prod.snd).finite_toSet.subset fun b hb => List.mem_map.2 ⟨(k, b), hb, rfl⟩
    obtain ⟨top, htop⟩ := hfin.exists_maximal ⟨b, hb⟩
    exact List.mem_map.2 ⟨(k, top), (h.mem_iff k top).2 ⟨htop.prop, fun c hc =>
      (le_total c top).elim id fun hle => htop.le_of_ge hc hle⟩, rfl⟩

/-- No more entries than were told. -/
theorem length_le (h : Tops seen l) : l.length ≤ seen.length := by
  have hsub : l ⊆ seen := fun x hx => ((h.mem_iff x.1 x.2).1 hx).1
  exact ((List.Nodup.of_map _ h.nodup).subperm hsub).length_le

/-- A key that was never told is added. -/
theorem push (h : Tops seen l) (hk : k ∉ l.map Prod.fst) :
    Tops (seen ++ [(k, b)]) (l ++ [(k, b)]) where
  nodup := by
    rw [List.map_append]
    exact List.nodup_append.2 ⟨h.nodup, by simp, by
      rintro _ hk' _ hmem rfl
      rw [List.mem_singleton.1 hmem] at hk'
      exact hk hk'⟩
  mem_iff k' b' := by
    have hnone : ∀ b, (k, b) ∉ seen := fun b hb => hk (h.key_iff.2 ⟨b, hb⟩)
    by_cases hkk : k' = k
    · subst hkk
      have hset : {c | (k', c) ∈ seen ++ [(k', b)]} = {b} := by
        ext c
        simp [hnone]
      rw [hset]
      constructor
      · intro hmem
        rcases List.mem_append.1 hmem with hmem | hmem
        · exact absurd (List.mem_map.2 ⟨_, hmem, rfl⟩) hk
        · rw [(Prod.mk.inj (List.mem_singleton.1 hmem)).2]
          exact isGreatest_singleton
      · intro hgreatest
        rw [show b' = b from hgreatest.1]
        simp
    · have hset : {c | (k', c) ∈ seen ++ [(k, b)]} = {c | (k', c) ∈ seen} := by
        ext c
        simp [hkk]
      rw [hset, ← h.mem_iff]
      simp [hkk]

end Tops

section Raise

variable [DecidableEq κ]

/-- Raise the first entry of key `k` to `b`, unless it is there already. -/
def raise (k : κ) (b : β) : List (κ × β) → List (κ × β)
  | [] => []
  | e :: es => if e.1 = k then (if e.2 < b then (e.1, b) else e) :: es else e :: raise k b es

@[simp] theorem map_fst_raise : (raise k b l).map Prod.fst = l.map Prod.fst := by
  induction l with
  | nil => rfl
  | cons e es ih =>
    unfold raise
    split_ifs <;> simp [ih]

/-- The keys being distinct, an entry is raised where it has the key. -/
theorem mem_raise (hl : (l.map Prod.fst).Nodup) {k' : κ} {b' : β} :
    (k', b') ∈ raise k b l ↔ if k' = k then ∃ c, (k, c) ∈ l ∧ b' = max c b else (k', b') ∈ l := by
  induction l with
  | nil => simp [raise]
  | cons e es ih =>
    obtain ⟨k₀, b₀⟩ := e
    rw [List.map_cons, List.nodup_cons] at hl
    obtain ⟨hk₀, hes⟩ := hl
    have hfresh : ∀ {c}, (k₀, c) ∉ es := fun hc => hk₀ (List.mem_map.2 ⟨_, hc, rfl⟩)
    unfold raise
    by_cases hk : k₀ = k
    · subst hk
      rw [if_pos rfl, show (if b₀ < b then (k₀, b) else (k₀, b₀)) = (k₀, max b₀ b) by
        split_ifs with hlt
        · rw [max_eq_right hlt.le]
        · rw [max_eq_left (not_lt.1 hlt)]]
      by_cases hk' : k' = k₀
      · subst hk'
        simp [hfresh]
      · simp [hk']
    · rw [if_neg hk, List.mem_cons, ih hes]
      by_cases hk' : k' = k
      · subst hk'
        simp [Ne.symm hk]
      · simp [hk']

/-- A key that was told before is raised. -/
theorem Tops.raise (h : Tops seen l) (hk : k ∈ l.map Prod.fst) :
    Tops (seen ++ [(k, b)]) (Lib.raise k b l) where
  nodup := by
    rw [map_fst_raise]
    exact h.nodup
  mem_iff k' b' := by
    rw [mem_raise h.nodup]
    by_cases hkk : k' = k
    · subst hkk
      obtain ⟨⟨k', top⟩, htop, rfl⟩ := List.mem_map.1 hk
      have hgreatest := (h.mem_iff _ _).1 htop
      have hset : {c | (k', c) ∈ seen ++ [(k', b)]} = insert b {c | (k', c) ∈ seen} := by
        ext c
        simp [or_comm]
      rw [if_pos rfl, hset]
      have hmax := hgreatest.insert b
      constructor
      · rintro ⟨c, hc, rfl⟩
        obtain rfl := ((h.mem_iff _ _).1 hc).unique hgreatest
        rw [max_comm]
        exact hmax
      · intro hb'
        exact ⟨top, htop, by rw [max_comm]; exact hb'.unique hmax⟩
    · have hset : {c | (k', c) ∈ seen ++ [(k, b)]} = {c | (k', c) ∈ seen} := by
        ext c
        simp [hkk]
      rw [if_neg hkk, hset]
      exact h.mem_iff k' b'

end Raise

end Lib
