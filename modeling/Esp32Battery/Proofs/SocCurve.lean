import Esp32Battery.Charging.ChargeSupervisor
import Esp32Battery.Lib.ExactField
import Esp32Battery.Lib.Polyline

/-!
# The state-of-charge curve

Where nothing rounds, `interpolate` is the piecewise linear function of its knots, and what holds
of that function holds of the curve: it answers for every voltage, goes through the knots and
never falls.
-/

namespace Esp32Battery

open Lib

variable {F : Type} [ExactField F] {lo first k : F × F} {rest : List (F × F)} {v : F}

theorem interpolateSegments_eq (h : (lo :: rest).Pairwise Rises) (hlo : lo.1 < v)
    (hlast : v < (lastKnot lo rest).1) :
    interpolateSegments v lo rest = .ok (polylineFrom lo rest v) := by
  induction rest generalizing lo with
  | nil => exact absurd hlo (not_lt.2 hlast.le)
  | cons hi rest ih =>
    obtain ⟨-, hrest⟩ := List.pairwise_cons.1 h
    unfold interpolateSegments polylineFrom
    by_cases hv : v ≤ hi.1
    · rw [if_pos hv, if_pos hv]
      rfl
    · rw [if_neg hv, if_neg hv]
      exact ih hrest (not_le.1 hv) (lastKnot_cons ▸ hlast)

theorem interpolate_eq (h : (first :: rest).Pairwise Rises) (v : F) :
    interpolate (first :: rest) v = .ok (polyline first rest v) := by
  unfold interpolate polyline
  by_cases hfirst : v ≤ first.1
  · simp only [if_pos hfirst]
  · simp only [if_neg hfirst]
    rw [show (first :: rest).getLast (List.cons_ne_nil first rest) = lastKnot first rest from rfl]
    by_cases hlast : (lastKnot first rest).1 ≤ v
    · rw [if_pos hlast, polylineFrom_of_last_le h hlast]
    · rw [if_neg hlast]
      exact interpolateSegments_eq h (not_le.1 hfirst) (not_le.1 hlast)

theorem ocvCurve_rises (chemistry : Chemistry) :
    (chemistry.ocvCurve : List (F × F)).Pairwise Rises := by
  refine pairwise_rises ?_
  cases chemistry
  all_goals
    simp only [Chemistry.ocvCurve, lfpOcv, liionOcv, List.isChain_cons_cons, Rises,
      ExactField.ofScientific_eq]
    norm_num

/-- What `interpolate` computes from a curve that rises. -/
theorem interpolate_curve {curve : List (F × F)} (hne : curve ≠ []) (h : curve.Pairwise Rises) :
    ∃ f : F → F, (∀ v, interpolate curve v = .ok (f v)) ∧ (∀ k ∈ curve, f k.1 = k.2) ∧
      Monotone f ∧ Set.range f = Set.Icc (curve.head hne).2 (curve.getLast hne).2 := by
  rcases curve with _ | ⟨first, rest⟩
  · exact absurd rfl hne
  · exact ⟨polyline first rest, interpolate_eq h, fun _ => polyline_knot h, polyline_mono h,
      range_polyline h⟩

/-- The curve of a chemistry, over the voltage of one cell. -/
theorem ocvSoc_curve (chemistry : Chemistry) : ∃ f : F → F, Monotone f ∧
    Set.range f = Set.Icc 0 100 ∧
    ∀ cells, 0 < cells → ∀ v : F, ocvSoc chemistry cells v = .ok (f (v / cells)) := by
  have hne : (chemistry.ocvCurve : List (F × F)) ≠ [] := by
    cases chemistry <;> exact List.cons_ne_nil _ _
  obtain ⟨f, hf, -, hmono, hrange⟩ := interpolate_curve hne (ocvCurve_rises chemistry)
  refine ⟨f, hmono, ?_, fun cells hcells v => ?_⟩
  · rw [hrange]
    cases chemistry
    all_goals
      simp only [Chemistry.ocvCurve, lfpOcv, liionOcv, List.head_cons, List.getLast_cons_cons,
        List.getLast_singleton, ExactField.ofScientific_eq]
      norm_num
  · unfold ocvSoc
    rw [decide_eq_true hcells, require_true, ok_bind, ExactField.finite]
    exact hf _

theorem restedFull_mono {s : ChargeSupervisor F} (hcells : 0 < s.profile.cells)
    {b b' : BatterySample F} (hcurrent : b.current = b'.current) (hvolts : b.voltage ≤ b'.voltage)
    (h : s.restedFull b = .ok true) : s.restedFull b' = .ok true := by
  obtain ⟨f, hmono, -, hf⟩ := ocvSoc_curve (F := F) s.profile.chemistry
  have hcells' : (0 : F) < s.profile.cells := by exact_mod_cast hcells
  have hsoc : f (b.voltage / s.profile.cells) ≤ f (b'.voltage / s.profile.cells) :=
    hmono ((div_le_div_iff_of_pos_right hcells').2 hvolts)
  unfold ChargeSupervisor.restedFull Profile.fullRestSoc Profile.soc at h ⊢
  simp only [hf _ hcells, ok_bind] at h ⊢
  rw [← hcurrent]
  by_cases hrest : FloatLike.abs b.current < s.profile.exitAbsorbA
  · rw [if_pos hrest] at h ⊢
    have hfull : f (s.profile.floatV / s.profile.cells) - fullSocMargin
        ≤ f (b.voltage / s.profile.cells) := by
      have hdec := Except.ok.inj h
      simpa using hdec
    refine congrArg Except.ok ?_
    simpa using hfull.trans hsoc
  · rw [if_neg hrest] at h
    cases h

/-- In exact arithmetic `interpolate` is a monotone curve through its knots, whatever the knots, so
long as their voltages rise and their charges do not fall. So the state of charge is a monotone
function of the voltage of a cell onto `[0, 100]`, and a pack that rests higher counts as full
where one that rests lower does. -/
theorem soc_monotone (F : Type) [ExactField F] :
    (∀ (curve : List (F × F)) (hne : curve ≠ []), curve.IsChain Rises →
      (∀ lo hi, [lo, hi] <:+: curve → hi.1 - lo.1 ≠ 0) ∧
      ∃ f : F → F, (∀ v, interpolate curve v = .ok (f v)) ∧ (∀ k ∈ curve, f k.1 = k.2) ∧
        (∀ v, (curve.head hne).2 ≤ f v ∧ f v ≤ (curve.getLast hne).2) ∧ Monotone f) ∧
    (∀ chemistry : Chemistry, ∃ f : F → F, Set.range f = Set.Icc 0 100 ∧
      ∀ cells, 0 < cells → (∀ v, ocvSoc chemistry cells v = .ok (f (v / cells))) ∧
        Monotone fun v => f (v / cells)) ∧
    ∀ s : ChargeSupervisor F, 0 < s.profile.cells → ∀ b b' : BatterySample F,
      b.current = b'.current → b.voltage ≤ b'.voltage →
        s.restedFull b = .ok true → s.restedFull b' = .ok true := by
  refine ⟨fun curve hne hchain => ⟨fun lo hi hseg => ?_, ?_⟩, fun chemistry => ?_,
    fun s hcells b b' => restedFull_mono hcells⟩
  · have hpair := List.IsChain.infix hchain hseg
    have hrise := (List.isChain_cons_cons.1 hpair).1
    exact (sub_pos.2 hrise.1).ne'
  · obtain ⟨f, hf, hknot, hmono, hrange⟩ := interpolate_curve hne (pairwise_rises hchain)
    exact ⟨f, hf, hknot, fun v => hrange.subset (Set.mem_range_self v), hmono⟩
  · obtain ⟨f, hmono, hrange, hf⟩ := ocvSoc_curve (F := F) chemistry
    refine ⟨f, hrange, fun cells hcells => ⟨hf cells hcells, fun v w hvw => hmono ?_⟩⟩
    exact div_le_div_of_nonneg_right hvw (Nat.cast_nonneg _)

end Esp32Battery
