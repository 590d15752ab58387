import Mathlib

/-!
# Piecewise linear functions

A function given by its knots, straight between two of them and level before the first and after
the last. Where the knots rise it is monotone, goes through every knot and takes every value
between the first and the last.
-/

namespace Lib

variable {K : Type*} [Field K] [LinearOrder K]

/-- The line from `lo` to `hi`. -/
def chord (lo hi : K × K) (v : K) : K := lo.2 + (v - lo.1) / (hi.1 - lo.1) * (hi.2 - lo.2)

/-- From the knot `lo` on. -/
def polylineFrom (lo : K × K) : List (K × K) → K → K
  | [], _ => lo.2
  | hi :: rest, v => if v ≤ hi.1 then chord lo hi v else polylineFrom hi rest v

def polyline (first : K × K) (rest : List (K × K)) (v : K) : K :=
  if v ≤ first.1 then first.2 else polylineFrom first rest v

/-- One knot lies before another, and no higher. -/
def Rises (lo hi : K × K) : Prop := lo.1 < hi.1 ∧ lo.2 ≤ hi.2

variable {lo hi k : K × K} {rest : List (K × K)} {v w : K}

omit [Field K] in
theorem Rises.trans (h : Rises lo hi) (h' : Rises hi k) : Rises lo k :=
  ⟨h.1.trans h'.1, h.2.trans h'.2⟩

omit [Field K] in
/-- Knots each of which rises to the next rise to every later one. -/
theorem pairwise_rises {l : List (K × K)} (h : l.IsChain Rises) : l.Pairwise Rises :=
  have : Trans (Rises (K := K)) Rises Rises := ⟨Rises.trans⟩
  List.isChain_iff_pairwise.1 h

omit [LinearOrder K] in
theorem chord_left : chord lo hi lo.1 = lo.2 := by
  simp [chord]

variable [IsStrictOrderedRing K]

section Chord

variable (h : Rises lo hi)

include h

theorem chord_right : chord lo hi hi.1 = hi.2 := by
  have hne : hi.1 - lo.1 ≠ 0 := (sub_pos.2 h.1).ne'
  rw [chord, div_self hne]
  ring

theorem chord_mono (hvw : v ≤ w) : chord lo hi v ≤ chord lo hi w := by
  have hwidth : 0 ≤ hi.1 - lo.1 := (sub_pos.2 h.1).le
  have hrise : 0 ≤ hi.2 - lo.2 := sub_nonneg.2 h.2
  unfold chord
  gcongr

theorem chord_mem (hlo : lo.1 ≤ v) (hhi : v ≤ hi.1) :
    lo.2 ≤ chord lo hi v ∧ chord lo hi v ≤ hi.2 := by
  have hleft := chord_mono h hlo
  have hright := chord_mono h hhi
  rw [chord_left] at hleft
  rw [chord_right h] at hright
  exact ⟨hleft, hright⟩

/-- The line takes every value between its ends. -/
theorem exists_chord_eq {y : K} (hlo : lo.2 ≤ y) (hhi : y ≤ hi.2) :
    ∃ v, lo.1 ≤ v ∧ v ≤ hi.1 ∧ chord lo hi v = y := by
  have hwidth : 0 < hi.1 - lo.1 := sub_pos.2 h.1
  rcases h.2.eq_or_lt with hlevel | hrise
  · refine ⟨lo.1, le_rfl, h.1.le, ?_⟩
    rw [chord_left]
    exact hlo.antisymm (hlevel ▸ hhi)
  · have hheight : 0 < hi.2 - lo.2 := sub_pos.2 hrise
    have hpart : (y - lo.2) / (hi.2 - lo.2) * (hi.1 - lo.1) ≤ hi.1 - lo.1 := by
      refine mul_le_of_le_one_left hwidth.le ((div_le_one hheight).2 ?_)
      linarith
    have hpos : 0 ≤ (y - lo.2) / (hi.2 - lo.2) * (hi.1 - lo.1) :=
      mul_nonneg (div_nonneg (sub_nonneg.2 hlo) hheight.le) hwidth.le
    refine ⟨lo.1 + (y - lo.2) / (hi.2 - lo.2) * (hi.1 - lo.1), by linarith, by linarith, ?_⟩
    unfold chord
    field_simp
    ring

end Chord

/-- The last of the knots. -/
def lastKnot (lo : K × K) (rest : List (K × K)) : K × K :=
  (lo :: rest).getLast (List.cons_ne_nil lo rest)

omit [Field K] [LinearOrder K] [IsStrictOrderedRing K] in
theorem lastKnot_cons : lastKnot lo (hi :: rest) = lastKnot hi rest :=
  List.getLast_cons_cons

omit [Field K] [LinearOrder K] [IsStrictOrderedRing K] in
theorem lastKnot_mem : lastKnot lo rest ∈ lo :: rest := List.getLast_mem _

section From

variable (h : (lo :: rest).Pairwise Rises)

include h

omit [Field K] [IsStrictOrderedRing K] in
theorem lastKnot_ge : lo.1 ≤ (lastKnot lo rest).1 ∧ lo.2 ≤ (lastKnot lo rest).2 := by
  have hlast : lastKnot lo rest ∈ lo :: rest := lastKnot_mem
  rcases List.mem_cons.1 hlast with heq | hmem
  · rw [heq]
    exact ⟨le_rfl, le_rfl⟩
  · have hrise := (List.pairwise_cons.1 h).1 _ hmem
    exact ⟨hrise.1.le, hrise.2⟩

theorem polylineFrom_mem (hlo : lo.1 ≤ v) :
    lo.2 ≤ polylineFrom lo rest v ∧ polylineFrom lo rest v ≤ (lastKnot lo rest).2 := by
  induction rest generalizing lo with
  | nil => exact ⟨le_rfl, le_rfl⟩
  | cons hi rest ih =>
    obtain ⟨hfirst, hrest⟩ := List.pairwise_cons.1 h
    have hrise := hfirst hi List.mem_cons_self
    have hlast := (lastKnot_ge hrest).2
    rw [lastKnot_cons]
    unfold polylineFrom
    by_cases hv : v ≤ hi.1
    · rw [if_pos hv]
      obtain ⟨hleft, hright⟩ := chord_mem hrise hlo hv
      exact ⟨hleft, hright.trans hlast⟩
    · rw [if_neg hv]
      obtain ⟨hleft, hright⟩ := ih hrest (not_le.1 hv).le
      exact ⟨hrise.2.trans hleft, hright⟩

theorem polylineFrom_mono (hlo : lo.1 ≤ v) (hvw : v ≤ w) :
    polylineFrom lo rest v ≤ polylineFrom lo rest w := by
  induction rest generalizing lo with
  | nil => exact le_rfl
  | cons hi rest ih =>
    obtain ⟨hfirst, hrest⟩ := List.pairwise_cons.1 h
    have hrise := hfirst hi List.mem_cons_self
    unfold polylineFrom
    by_cases hw : w ≤ hi.1
    · rw [if_pos (hvw.trans hw), if_pos hw]
      exact chord_mono hrise hvw
    · rw [if_neg hw]
      by_cases hv : v ≤ hi.1
      · rw [if_pos hv]
        exact (chord_mem hrise hlo hv).2.trans (polylineFrom_mem hrest (not_le.1 hw).le).1
      · rw [if_neg hv]
        exact ih hrest (not_le.1 hv).le

/-- It goes through its knots: the two lines that meet at one agree there. -/
theorem polylineFrom_knot (hk : k ∈ lo :: rest) : polylineFrom lo rest k.1 = k.2 := by
  induction rest generalizing lo with
  | nil =>
    obtain rfl := List.mem_singleton.1 hk
    rfl
  | cons hi rest ih =>
    obtain ⟨hfirst, hrest⟩ := List.pairwise_cons.1 h
    have hrise := hfirst hi List.mem_cons_self
    unfold polylineFrom
    rcases List.mem_cons.1 hk with rfl | hk
    · rw [if_pos hrise.1.le, chord_left]
    · by_cases hle : k.1 ≤ hi.1
      · -- no later knot is that early
        have hhi : k = hi := by
          rcases List.mem_cons.1 hk with rfl | hk
          · rfl
          · exact absurd ((List.pairwise_cons.1 hrest).1 k hk).1 (not_lt.2 hle)
        subst hhi
        rw [if_pos hle, chord_right hrise]
      · rw [if_neg hle, ih hrest hk]

theorem exists_polylineFrom_eq {y : K} (hlo : lo.2 ≤ y) (hlast : y ≤ (lastKnot lo rest).2) :
    ∃ v, lo.1 ≤ v ∧ polylineFrom lo rest v = y := by
  induction rest generalizing lo with
  | nil => exact ⟨lo.1, le_rfl, hlo.antisymm hlast⟩
  | cons hi rest ih =>
    obtain ⟨hfirst, hrest⟩ := List.pairwise_cons.1 h
    have hrise := hfirst hi List.mem_cons_self
    unfold polylineFrom
    by_cases hy : y ≤ hi.2
    · obtain ⟨v, hv, hle, hchord⟩ := exists_chord_eq hrise hlo hy
      exact ⟨v, hv, by rw [if_pos hle, hchord]⟩
    · obtain ⟨v, hv, hline⟩ := ih hrest (not_le.1 hy).le (lastKnot_cons ▸ hlast)
      refine ⟨v, hrise.1.le.trans hv, ?_⟩
      have hlt : ¬ v ≤ hi.1 := by
        intro hle
        rw [hv.antisymm hle |>.symm, polylineFrom_knot hrest List.mem_cons_self] at hline
        exact hy hline.ge
      rw [if_neg hlt, hline]

/-- Past the last knot it is level. -/
theorem polylineFrom_of_last_le (hv : (lastKnot lo rest).1 ≤ v) :
    polylineFrom lo rest v = (lastKnot lo rest).2 := by
  have hlast := (lastKnot_ge h).1
  refine (polylineFrom_mem h (hlast.trans hv)).2.antisymm ?_
  rw [← polylineFrom_knot h lastKnot_mem]
  exact polylineFrom_mono h hlast hv

end From

variable {first : K × K}

section Polyline

variable (h : (first :: rest).Pairwise Rises)

include h

theorem polyline_mem (v : K) :
    first.2 ≤ polyline first rest v ∧ polyline first rest v ≤ (lastKnot first rest).2 := by
  unfold polyline
  by_cases hv : v ≤ first.1
  · rw [if_pos hv]
    exact ⟨le_rfl, (lastKnot_ge h).2⟩
  · rw [if_neg hv]
    exact polylineFrom_mem h (not_le.1 hv).le

theorem polyline_mono : Monotone (polyline first rest) := by
  intro v w hvw
  by_cases hv : v ≤ first.1
  · have hleft : polyline first rest v = first.2 := if_pos hv
    rw [hleft]
    exact (polyline_mem h w).1
  · unfold polyline
    rw [if_neg hv, if_neg (not_le.2 ((not_le.1 hv).trans_le hvw))]
    exact polylineFrom_mono h (not_le.1 hv).le hvw

theorem polyline_eq_polylineFrom (hv : first.1 ≤ v) :
    polyline first rest v = polylineFrom first rest v := by
  unfold polyline
  by_cases hle : v ≤ first.1
  · rw [if_pos hle, hle.antisymm hv, polylineFrom_knot h List.mem_cons_self]
  · rw [if_neg hle]

theorem polyline_knot (hk : k ∈ first :: rest) : polyline first rest k.1 = k.2 := by
  have hle : first.1 ≤ k.1 := by
    rcases List.mem_cons.1 hk with rfl | hk
    · exact le_rfl
    · exact ((List.pairwise_cons.1 h).1 k hk).1.le
  rw [polyline_eq_polylineFrom h hle, polylineFrom_knot h hk]

theorem range_polyline :
    Set.range (polyline first rest) = Set.Icc first.2 (lastKnot first rest).2 := by
  ext y
  constructor
  · rintro ⟨v, rfl⟩
    exact polyline_mem h v
  · rintro ⟨hlo, hhi⟩
    obtain ⟨v, hv, hline⟩ := exists_polylineFrom_eq h hlo hhi
    exact ⟨v, by rw [polyline_eq_polylineFrom h hv, hline]⟩

end Polyline

end Lib
