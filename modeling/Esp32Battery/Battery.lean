import Esp32Battery.Lib.FloatLike
import Esp32Battery.Lib.Panic

/-!
# Battery chemistry

Charge setpoints and the open-circuit-voltage curve, both per cell.
-/

namespace Esp32Battery

open Lib

inductive Chemistry where
  | liFePo4
  | liFePo4TopBalance
  | liIon
deriving DecidableEq, Repr

variable {F : Type} [FloatLike F]

structure CellVoltages (F : Type) where
  absorbV : F
  floatV : F

/-- Resting voltage per cell against state of charge, for LFP. -/
def lfpOcv : List (F × F) :=
  [(2.500, 0.0), (2.540, 0.5), (2.800, 5.0), (3.000, 9.5), (3.050, 15.0), (3.200, 20.0),
   (3.230, 30.0), (3.250, 40.0), (3.260, 50.0), (3.280, 60.0), (3.300, 70.0), (3.330, 80.0),
   (3.350, 90.0), (3.380, 99.0), (3.450, 99.5), (3.650, 100.0)]

def liionOcv : List (F × F) :=
  [(3.00, 0.0), (3.40, 5.0), (3.50, 10.0), (3.57, 20.0), (3.63, 30.0), (3.70, 40.0),
   (3.75, 50.0), (3.82, 60.0), (3.90, 70.0), (3.98, 80.0), (4.08, 90.0), (4.15, 95.0),
   (4.20, 100.0)]

def Chemistry.chargeVoltages : Chemistry → CellVoltages F
  | .liFePo4 => { absorbV := 3.60, floatV := 3.375 }
  | .liFePo4TopBalance => { absorbV := 3.65, floatV := 3.375 }
  | .liIon => { absorbV := 4.10, floatV := 4.00 }

def Chemistry.ocvCurve : Chemistry → List (F × F)
  | .liFePo4 | .liFePo4TopBalance => lfpOcv
  | .liIon => liionOcv

/-- The loop of `interpolate` over the segments: from the knot `lo` to each of the later ones. -/
def interpolateSegments (cellV : F) : F × F → List (F × F) → Except Panic F
  | _, [] => .error ⟨"internal error: entered unreachable code"⟩
  | (vLo, socLo), (vHi, socHi) :: rest =>
    if cellV ≤ vHi then
      let t := (cellV - vLo) / (vHi - vLo)
      .ok (socLo + t * (socHi - socLo))
    else interpolateSegments cellV (vHi, socHi) rest

def interpolate (curve : List (F × F)) (cellV : F) : Except Panic F :=
  match curve with
  | [] => .error ⟨"index out of bounds: the len is 0 but the index is 0"⟩
  | first :: rest =>
    if cellV ≤ first.1 then .ok first.2
    else
      let last := (first :: rest).getLast (List.cons_ne_nil first rest)
      if last.1 ≤ cellV then .ok last.2 else interpolateSegments cellV first rest

def ocvSoc (chemistry : Chemistry) (cells : ℕ) (packVoltageV : F) : Except Panic F := do
  require (0 < cells) "assertion failed: cells > 0"
  if !FloatLike.isFinite packVoltageV then return 0.0
  interpolate chemistry.ocvCurve (packVoltageV / (cells : F))

section Float32

variable {cellV : Float32} {curve : List (Float32 × Float32)}

/-- A number below the last knot lies in some segment. -/
theorem interpolateSegments_ok (hv : cellV ≠ .nan) (lo : Float32 × Float32) (hne : curve ≠ [])
    (hlast : (curve.getLast hne).1 ≠ .nan) (hbelow : ¬ (curve.getLast hne).1 ≤ cellV) :
    ∃ soc, interpolateSegments cellV lo curve = .ok soc := by
  induction curve generalizing lo with
  | nil => exact absurd rfl hne
  | cons hi rest ih =>
    unfold interpolateSegments
    split_ifs with hle
    · exact ⟨_, rfl⟩
    · rcases rest with _ | ⟨next, rest⟩
      · rw [List.getLast_singleton, Float32.not_le hlast hv] at *
        exact absurd ((Float32.not_lt hlast hv).1 (Float32.lt_asymm hbelow)) hle
      · rw [List.getLast_cons_cons] at hlast hbelow
        exact ih hi (List.cons_ne_nil _ _) hlast hbelow

theorem interpolate_ok (hv : cellV ≠ .nan) (hne : curve ≠ [])
    (hlast : (curve.getLast hne).1 ≠ .nan) : ∃ soc, interpolate curve cellV = .ok soc := by
  rcases curve with _ | ⟨first, rest⟩
  · exact absurd rfl hne
  unfold interpolate
  simp only []
  split_ifs with hfirst hge
  · exact ⟨_, rfl⟩
  · exact ⟨_, rfl⟩
  · rcases rest with _ | ⟨next, rest⟩
    · rw [List.getLast_singleton] at hlast hge
      exact absurd ((Float32.not_lt hlast hv).1 (Float32.lt_asymm
        ((Float32.not_le hlast hv).1 hge))) hfirst
    · rw [List.getLast_cons_cons] at hlast hge
      exact interpolateSegments_ok hv first (List.cons_ne_nil _ _) hlast hge

/-- The curve answers for any voltage, of a pack that has a cell. -/
theorem ocvSoc_ok (chemistry : Chemistry) {cells : ℕ} (hc : 0 < cells) (hu8 : cells < 256)
    (packVoltageV : Float32) : ∃ soc, ocvSoc chemistry cells packVoltageV = .ok soc := by
  unfold ocvSoc
  simp only [hc, decide_true, require_true, ok_bind, FloatLike.isFinite_float32]
  split_ifs with hf
  · exact ⟨_, rfl⟩
  have hv : packVoltageV / (cells : Float32) ≠ .nan :=
    Float32.div_ne_nan (by simpa using hf) (Float32.ofNat_pos cells hu8 hc)
  cases chemistry <;> exact interpolate_ok hv (List.cons_ne_nil _ _) (by decide +kernel)

end Float32

end Esp32Battery
