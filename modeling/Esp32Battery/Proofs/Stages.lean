import Esp32Battery.Charging.ChargeState

/-!
# What the transition log tells of the machine

A machine is dark until the unit energises, then up or held, from some park on parked, up or held,
and out once it latched. Every move of the table is a move between these stages or within one, and
the entries of a sequence of moves read as one route.
-/

namespace Esp32Battery

open RegularExpression

namespace ChargeTransition

/-- Protection holds that cleared. -/
def episodes : RegularExpression ChargeTransition := star (char protectHold * char protectCleared)

/-- What the log of a whole run reads. -/
def routes : RegularExpression ChargeTransition :=
  star (char latched) +
    char energised * episodes * (1 + char parked * episodes) * (1 + char protectHold) *
      star (char latched)

variable {l : List ChargeTransition}

theorem latched_mem (h : l ∈ routes.matches') : l ++ [latched] ∈ routes.matches' := by
  have hle : routes.matches' * (char latched).matches' ≤ routes.matches' := by
    unfold routes
    rw [matches'_add, matches'_mul, matches'_star, add_mul, mul_assoc]
    gcongr <;> exact kstar_mul_le_kstar
  exact hle (Language.append_mem_mul h rfl)

theorem cleared_mem {P : RegularExpression ChargeTransition}
    (h : l ∈ (P * episodes * char protectHold).matches') :
    l ++ [protectCleared] ∈ (P * episodes).matches' := by
  have hle : (P * episodes * char protectHold).matches' * (char protectCleared).matches'
      ≤ (P * episodes).matches' := by
    unfold episodes
    simp only [matches'_mul, matches'_star, mul_assoc]
    gcongr
    exact kstar_mul_le_kstar
  exact hle (Language.append_mem_mul h rfl)

/-- A route may end before it parks, in a hold, and before it latches. -/
theorem le_routes {park hold : Language ChargeTransition}
    (hpark : park ≤ (1 + char parked * episodes).matches')
    (hhold : hold ≤ (1 + char protectHold).matches') :
    (char energised * episodes).matches' * park * hold ≤ routes.matches' := by
  have hlatched : (1 : Language ChargeTransition) ≤ (star (char latched)).matches' :=
    one_le_kstar
  calc (char energised * episodes).matches' * park * hold
      = (char energised * episodes).matches' * park * hold * 1 := (mul_one _).symm
    _ ≤ (char energised * episodes).matches' * (1 + char parked * episodes).matches' *
          (1 + char protectHold).matches' * (star (char latched)).matches' := by gcongr
    _ ≤ routes.matches' := le_add_self

end ChargeTransition

open ChargeTransition

/-- How far the machine has come, as far as the log can tell. -/
inductive Stage where
  | dark
  | up
  | held
  | parkedUp
  | parkedHeld
  | out
deriving DecidableEq

def ChargeState.stage : ChargeState → Stage
  | .boot => .dark
  | .float | .absorb | .toAbsorb | .toFloat => .up
  | .holdFloat | .holdAbsorb => .held
  | .toParked | .parked => .parkedUp
  | .holdParked => .parkedHeld
  | .tripping | .latched => .out

namespace Stage

/-- What the log reads once the machine has come as far. -/
def logs : Stage → RegularExpression ChargeTransition
  | dark => 1
  | up => char energised * episodes
  | held => char energised * episodes * char protectHold
  | parkedUp => char energised * episodes * char parked * episodes
  | parkedHeld => char energised * episodes * char parked * episodes * char protectHold
  | out => routes

/-- What a move adds to the log. -/
inductive Move : Stage → Option ChargeTransition → Stage → Prop
  | silent (x : Stage) : Move x none x
  | energise : Move dark (some .energised) up
  | hold : Move up (some .protectHold) held
  | clear : Move held (some .protectCleared) up
  | park : Move up (some .parked) parkedUp
  | holdParked : Move parkedUp (some .protectHold) parkedHeld
  | clearParked : Move parkedHeld (some .protectCleared) parkedUp
  | latch (x : Stage) : Move x (some .latched) out

end Stage

theorem ChargeState.next_stage {s d : ChargeState} {event : ChargeEvent}
    (h : s.next event = some d) : Stage.Move s.stage (s.loggedAs d) d.stage := by
  cases s <;> cases event <;> cases h <;> constructor

theorem Stage.logs_le (x : Stage) : x.logs.matches' ≤ routes.matches' := by
  have hnone : ∀ P : RegularExpression ChargeTransition, 1 ≤ (1 + P).matches' :=
    fun P => le_self_add
  have hsome : ∀ P : RegularExpression ChargeTransition, P.matches' ≤ (1 + P).matches' :=
    fun P => le_add_self
  cases x with
  | dark => exact one_le_kstar.trans le_self_add
  | up => simpa [logs] using le_routes (hnone _) (hnone _)
  | held => simpa [logs] using le_routes (hnone _) (hsome _)
  | parkedUp => simpa [logs, mul_assoc] using le_routes (hsome _) (hnone _)
  | parkedHeld => simpa [logs, mul_assoc] using le_routes (hsome _) (hsome _)
  | out => exact le_refl _

/-- A move keeps the log true to how far the machine has come. -/
theorem Stage.Move.logs {x y : Stage} {o : Option ChargeTransition} {l : List ChargeTransition}
    (h : Stage.Move x o y) (hl : l ∈ x.logs.matches') : l ++ o.toList ∈ y.logs.matches' := by
  cases h with
  | silent => simpa using hl
  | energise =>
    rw [(Language.mem_one l).1 hl]
    exact Language.append_mem_mul (a := [ChargeTransition.energised]) rfl (Language.nil_mem_kstar _)
  | hold => exact Language.append_mem_mul hl rfl
  | clear => exact cleared_mem hl
  | park =>
    rw [← List.append_nil (l ++ _)]
    exact Language.append_mem_mul (Language.append_mem_mul hl rfl) (Language.nil_mem_kstar _)
  | holdParked => exact Language.append_mem_mul hl rfl
  | clearParked => exact cleared_mem hl
  | latch => exact latched_mem (Stage.logs_le x hl)

namespace Stage

/-- A sequence of moves, and the entries they add. -/
inductive Path (x : Stage) : List ChargeTransition → Stage → Prop
  | nil : Path x [] x
  | move {y z : Stage} {o : Option ChargeTransition} {l : List ChargeTransition} :
      Path x l y → Move y o z → Path x (l ++ o.toList) z

namespace Path

variable {x y z : Stage} {l l' log : List ChargeTransition}

theorem trans (h : Path x l y) (h' : Path y l' z) : Path x (l ++ l') z := by
  induction h' with
  | nil =>
    rw [List.append_nil]
    exact h
  | move _ hm ih =>
    rw [← List.append_assoc]
    exact ih.move hm

theorem logs (h : Path x l y) (hlog : log ∈ x.logs.matches') : log ++ l ∈ y.logs.matches' := by
  induction h with
  | nil =>
    rw [List.append_nil]
    exact hlog
  | move _ hm ih =>
    rw [← List.append_assoc]
    exact hm.logs ih

/-- A move adds one entry at most, so a path may be left at any entry. -/
theorem of_prefix (h : Path x l y) (hpre : l' <+: l) : ∃ z, Path x l' z := by
  induction h with
  | nil =>
    rw [List.prefix_nil.1 hpre]
    exact ⟨x, .nil⟩
  | @move y z o l hp hm ih =>
    rcases o with _ | t
    · rw [Option.toList_none, List.append_nil] at hpre
      exact ih hpre
    · rcases List.prefix_concat_iff.1 hpre with rfl | hpre
      · exact ⟨z, hp.move hm⟩
      · exact ih hpre

theorem routes (h : Path dark l x) (hpre : l' <+: l) : l' ∈ ChargeTransition.routes.matches' := by
  obtain ⟨y, hy⟩ := h.of_prefix hpre
  exact Stage.logs_le y (hy.logs (Language.nil_mem_one))

end Path

end Stage

end Esp32Battery
