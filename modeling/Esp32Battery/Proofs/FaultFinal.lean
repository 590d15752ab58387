import Esp32Battery.Board
import Esp32Battery.Proofs.Tick

/-!
# A fault is final

The fault field and the state stay in step over every run, so what the state may do once a fault
is raised is all the machine may ever do again. And no tick ends with the machine believing the
opposite of what the output read.
-/

namespace Esp32Battery

open Lib Automaton

namespace ChargeSupervisor

variable {F : Type} [FloatLike F] {s s' : ChargeSupervisor F} {p : PollResult F} {e : Duration}
  {i : Input F} {a : Action F} {is : List (Input F)} {as : List (Action F)}

theorem turn_consistent (h : s.turn i = .ok (a, s')) (hs : Consistent s.view) :
    Consistent s'.view := by
  obtain ⟨v, act, hb, -, hv | ⟨hc, hf, -⟩⟩ := turn_beat h
  · rw [hv]
    exact hb.consistent hs
  · have := hb.consistent hs
    unfold Consistent at this ⊢
    rw [show s'.view.fault = v.fault from hf, show s'.view.state.faulted = v.state.faulted
      from hc.faulted, this]

theorem Reachable.consistent (h : s.Reachable) : Consistent s.view := by
  induction h with
  | new h =>
    obtain ⟨-, -, rfl⟩ := new_eq_ok h
    rfl
  | turn _ h ih => exact turn_consistent h ih

/-- A retarget to absorb is asked for by a machine with no fault. -/
theorem turn_absorb (h : s.turn i = .ok (a, s')) (hs : Consistent s.view)
    (hf : s'.fault.isSome = true) (t : VoltageTicket F) (ha : a = .updateVoltage t) :
    t.phase = .float := by
  obtain ⟨v, act, hb, ⟨s₁, hv₁, -, hre⟩, hv⟩ := turn_beat h
  have hfv : v.fault.isSome = true := by
    rcases hv with hv | ⟨-, hf', -⟩
    · rw [← hv]
      exact hf
    · rw [← hf']
      exact hf
  subst ha
  cases act with
  | retarget phase =>
    obtain ⟨live, -, rfl⟩ := hre
    cases phase with
    | float => rfl
    | absorb =>
      have hst := (ChargeState.retargetTo_absorb hb.retargetTo).1
      have hc := hb.consistent hs
      rw [Consistent, hst, hfv] at hc
      cases hc
  | none | enable | disable => cases hre

theorem turn_faulted (h : s.turn i = .ok (a, s')) (hs : s.fault.isSome = true) :
    s'.fault.isSome = true := by
  obtain ⟨v, act, hb, -, hv⟩ := turn_beat h
  have hfv := hb.fault_isSome hs
  rcases hv with hv | ⟨-, hf, -⟩
  · rw [← hv] at hfv
    exact hfv
  · rw [← hf] at hfv
    exact hfv

theorem turn_terminal (h : s.turn i = .ok (a, s')) (hs : Terminal s.state) :
    Terminal s'.state ∧ s'.fault = s.fault ∧
      (a = .none ∨ ∃ r, s.fault = some r ∧ a = .disableOutput ⟨r⟩) := by
  obtain ⟨v, act, hb, ⟨s₁, -, -, hre⟩, hv⟩ := turn_beat h
  obtain ⟨ht, hf, ha⟩ := hb.terminal hs
  have ha' : a = .none ∨ ∃ r, s.fault = some r ∧ a = .disableOutput ⟨r⟩ := by
    rcases ha with rfl | ⟨r, hr, rfl⟩
    · cases a <;> first | exact .inl rfl | cases hre
    · cases a with
      | disableOutput t => exact .inr ⟨r, hr, by cases hre; rfl⟩
      | none | enableOutput | updateVoltage => cases hre
  rcases hv with hv | ⟨hc, hf', -⟩
  · rw [← hv] at ht hf
    exact ⟨ht, hf, ha'⟩
  · exact ⟨hc.terminal ht, hf'.trans hf, ha'⟩

/-- The states a charge that no fault has ended may be in. -/
def charging : List ChargeState :=
  [.float, .absorb, .toAbsorb, .toFloat, .holdFloat, .holdAbsorb]

theorem Reachable.fault_iff (h : s.Reachable) : s.fault.isSome = true ↔
    s.state ∈ [.toParked, .parked, .holdParked, .tripping, .latched] := by
  have hc : s.fault.isSome = s.state.faulted := h.consistent
  rw [hc]
  cases s.state <;> decide

theorem fault_final (h : s.Reachable) :
    (s.fault.isSome = true ↔
      s.state ∈ [.toParked, .parked, .holdParked, .tripping, .latched]) ∧
    (∀ i a s', s.turn i = .ok (a, s') → s'.fault.isSome = true →
      ∀ t, a = .updateVoltage t → t.phase = .float) ∧
    (s.fault.isSome = true → ∀ is as s', s.run is = .ok (as, s') →
      s'.fault.isSome = true ∧ s'.state ∉ charging ∧
        ∀ t, .updateVoltage t ∈ as → t.phase = .float) ∧
    (s.state = .tripping ∨ s.state = .latched → ∀ is as s', s.run is = .ok (as, s') →
      (s'.state = .tripping ∨ s'.state = .latched) ∧ s'.fault = s.fault ∧
        ∀ a ∈ as, a = .none ∨ ∃ r, s.fault = some r ∧ a = .disableOutput ⟨r⟩) := by
  refine ⟨h.fault_iff, ?_, ?_, ?_⟩
  · intro i a s' ht hf t ha
    exact turn_absorb ht h.consistent hf t ha
  · intro hf is as s' hr
    have hstep : ∀ (s : ChargeSupervisor F) i a s', s.Reachable ∧ s.fault.isSome = true →
        s.turn i = .ok (a, s') → (s'.Reachable ∧ s'.fault.isSome = true) ∧
          ∀ t, a = .updateVoltage t → t.phase = .float := by
      rintro s i a s' ⟨hs, hf⟩ ht
      have hf' := turn_faulted ht hf
      exact ⟨⟨hs.turn ht, hf'⟩, turn_absorb ht hs.consistent hf'⟩
    obtain ⟨⟨hs', hf'⟩, has⟩ := run_induction hstep ⟨h, hf⟩ hr
    refine ⟨hf', ?_, fun t ht => has _ ht t rfl⟩
    have hmem := hs'.fault_iff.1 hf'
    revert hmem
    cases s'.state <;> decide
  · intro hs is as s' hr
    have hstep : ∀ (s₁ : ChargeSupervisor F) i a s', Terminal s₁.state ∧ s₁.fault = s.fault →
        s₁.turn i = .ok (a, s') → (Terminal s'.state ∧ s'.fault = s.fault) ∧
          (a = .none ∨ ∃ r, s.fault = some r ∧ a = .disableOutput ⟨r⟩) := by
      rintro s₁ i a s' ⟨hs, hf⟩ ht
      obtain ⟨hs', hf', ha⟩ := turn_terminal ht hs
      exact ⟨⟨hs', hf'.trans hf⟩, hf ▸ ha⟩
    obtain ⟨⟨hs', hf'⟩, has⟩ := run_induction hstep ⟨hs, rfl⟩ hr
    exact ⟨hs', hf', has⟩

def pendingTurns : List (Input Float32) :=
  [⟨restPoll (some .on), .fromSecs 1, true, 1⟩, ⟨restPoll none, .fromSecs 1, true, 0⟩]

/-- A buck found on at boot, its first disable dropped. -/
def pendingSupervisor : ChargeSupervisor Float32 :=
  after (bootSupervisor .absent) [⟨restPoll (some .on), .fromSecs 1, false, 0⟩]

theorem fault_final_pending : (after pendingSupervisor pendingTurns).state = .latched ∧
    (after pendingSupervisor pendingTurns).fault = some .outputOnInPending ∧
    (after pendingSupervisor pendingTurns).state ∉ charging := by
  have hrun : pendingSupervisor.run pendingTurns
      = .ok ([.disableOutput ⟨.outputOnInPending⟩, .none],
        after pendingSupervisor pendingTurns) := rfl
  have hf : pendingSupervisor.fault = some .outputOnInPending := rfl
  obtain ⟨-, -, hfault, hlatch⟩ :=
    fault_final (s := pendingSupervisor) (after_reachable (bootSupervisor_reachable .absent) _)
  obtain ⟨-, hf', -⟩ := hlatch (.inl rfl) _ _ _ hrun
  exact ⟨by rfl, hf'.trans hf, (hfault (by rw [hf]; rfl) _ _ _ hrun).2.1⟩

theorem tick_agrees (h : s.tick p e = .ok (a, s')) :
    (∀ cause, p.output = some (.off cause) →
      s'.state.sourcing = false ∧ s'.phase = .ok none ∧ s'.parked = false) ∧
    (p.output = some .on → s'.state.sourcing = true ∨ s'.state = .tripping) ∧
    (p.output = some .on → s.state = .boot ∨ s.state = .tripping ∨ s.state = .latched →
      s'.state = .tripping ∧ ∃ r, s'.fault = some r ∧ a = .disableOutput ⟨r⟩) := by
  obtain ⟨act, hb, hre⟩ := tick_beat h
  obtain ⟨hoff, hon⟩ := hb.agrees
  refine ⟨fun cause ho => ?_, hon, fun ho hs => ?_⟩
  · have hs : s'.state.sourcing = false := hoff cause ho
    refine ⟨hs, by simp [phase, ChargeState.regulatingPhase, hs], ?_⟩
    unfold parked
    revert hs
    cases s'.state <;> decide
  · obtain ⟨hst, r, hf, rfl⟩ := hb.disables ho hs
    refine ⟨hst, r, hf, ?_⟩
    cases a with
    | disableOutput t => cases hre; rfl
    | none | enableOutput | updateVoltage => cases hre

theorem tick_agrees_boot : pendingSupervisor.state = .tripping ∧
    (after (bootSupervisor .absent)
      [⟨restPoll (some (.off .normal)), .fromSecs 1, false, 0⟩]).state.sourcing = false := by
  have ht : (bootSupervisor .absent).tick (restPoll (some .on)) (.fromSecs 1)
      = .ok (.disableOutput ⟨.outputOnInPending⟩, pendingSupervisor) := rfl
  have ht' : (bootSupervisor .absent).tick (restPoll (some (.off .normal))) (.fromSecs 1)
      = .ok (.enableOutput ⟨true⟩, after (bootSupervisor .absent)
        [⟨restPoll (some (.off .normal)), .fromSecs 1, false, 0⟩]) := rfl
  exact ⟨((tick_agrees ht).2.2 rfl (.inl rfl)).1, ((tick_agrees ht').1 _ rfl).1⟩

end ChargeSupervisor

end Esp32Battery
