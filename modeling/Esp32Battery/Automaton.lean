import Esp32Battery.Charging.ChargeState
import Esp32Battery.Charging.Reasons

/-!
# The automaton behind the supervisor

What a supervisor shows of itself is its state, its fault and its inhibit. `Beat` says what one
tick may make of them for what OUTPUT_EN reads, with every window, reading and threshold left
out: first the machine agrees with the output, then the verdict on it is acted on.
-/

namespace Esp32Battery

/-- What a supervisor shows of itself. -/
@[ext]
structure View where
  state : ChargeState
  fault : Option FaultReason
  inhibit : Option InhibitReason
deriving DecidableEq

inductive Act where
  | none
  | enable
  | retarget (phase : Phase)
  | disable (reason : FaultReason)

/-- The states a fault leaves the machine in. -/
def ChargeState.faulted : ChargeState → Bool
  | .toParked | .parked | .holdParked | .tripping | .latched => true
  | _ => false

namespace Automaton

variable (drift : Phase → Prop)

/-- What a tick may do once the machine agrees with the output. `drift` says against which target
the readback is off. -/
inductive Judged : View → View → Act → Prop
  | trip {v : View} {phase : Phase} (r : FaultReason) : v.state.setpointPhase = some phase →
      (r = .settingsDrift → drift phase) →
      (v.state.sourcing = true ∨ r = .protectionFlapping) →
      (r.response = .park → v.state.isParked = true) →
      Judged v ⟨.tripping, some r, none⟩ (.disable r)
  | park {v : View} {s : ChargeState} (r : FaultReason) : r.response = .park →
      v.state.next .park = some s → s.retargetTo = none → Judged v ⟨s, some r, none⟩ .none
  | toPark {v : View} {s : ChargeState} {phase : Phase} (r : FaultReason) : r.response = .park →
      v.state.next .park = some s → s.retargetTo = some phase →
      Judged v ⟨s, some r, none⟩ (.retarget phase)
  | inhibit {v : View} {phase : Phase} (i : InhibitReason) : v.state.setpointPhase = some phase →
      (i = .settingsDrift → drift phase) → (v.state.sourcing = true → i = .noBatterySample) →
      Judged v ⟨v.state, v.fault, some i⟩ .none
  | enable {v : View} : v.state.bringingUp = true → Judged v ⟨v.state, v.fault, none⟩ .enable
  | retarget {v : View} {phase : Phase} : v.state.retargetTo = some phase →
      Judged v ⟨v.state, v.fault, none⟩ (.retarget phase)
  | rise {v : View} : v.state = .float → Judged v ⟨.toAbsorb, v.fault, none⟩ (.retarget .absorb)
  | fall {v : View} : v.state = .absorb → Judged v ⟨.toFloat, v.fault, none⟩ (.retarget .float)
  | idle {v : View} : v.state.sourcing = true → v.state.retargetTo = none →
      Judged v ⟨v.state, v.fault, none⟩ .none

/-- Whether a machine in this state expects the output it reads. -/
def Agrees (output : Option BuckOutput) (s : ChargeState) : Prop :=
  match output with
  | none => s.sourcing = true ∨ s.bringingUp = true
  | some .on => s.sourcing = true
  | some (.off _) => s.bringingUp = true

/-- One tick, `output` being what OUTPUT_EN read. -/
inductive Beat (output : Option BuckOutput) : View → View → Act → Prop
  | tripping {v : View} (r : FaultReason) : v.state = .tripping → v.fault = some r →
      Beat output v v (.disable r)
  | resurfaced {v : View} (r : FaultReason) : v.state = .latched → v.fault = some r →
      output = some .on → Beat output v ⟨.tripping, v.fault, v.inhibit⟩ (.disable r)
  | dark {v : View} : v.state = .latched → output ≠ some .on → Beat output v v .none
  | lost {v : View} (cause : ProtectionStatus) : v.state.sourcing = true →
      output = some (.off cause) →
      Beat output v ⟨.tripping, some (.outputUnexpectedlyOff cause), none⟩
        (.disable (.outputUnexpectedlyOff cause))
  | pending {v : View} : v.state = .boot → output = some .on →
      Beat output v ⟨.tripping, some .outputOnInPending, none⟩ (.disable .outputOnInPending)
  | agree {v w : View} {a : Act} : Agrees output v.state → Judged drift v w a →
      Beat output v w a
  | hold {v w : View} {a : Act} {s : ChargeState} (cause : ProtectionStatus) :
      output = some (.off cause) → cause.isSelfClearing = true → v.state.sourcing = true →
      v.state.next .selfDisabled = some s → Judged drift ⟨s, v.fault, v.inhibit⟩ w a →
      Beat output v w a
  | resume {v w : View} {a : Act} {s : ChargeState} : output = some .on →
      v.state.holding = true → v.state.next .selfEnabled = some s →
      Judged drift ⟨s, v.fault, v.inhibit⟩ w a → Beat output v w a

/-- The moves that committing a ticket for `a` may make. -/
inductive Committed : Act → ChargeState → ChargeState → Prop
  | none (s : ChargeState) : Committed .none s s
  | enable {s s' : ChargeState} (resume : Bool) :
      s.next (if resume then .enabledBelowFull else .enabled) = some s' → Committed .enable s s'
  | retarget {s s' : ChargeState} {phase : Phase} : s.retargetTo = some phase →
      s.next .voltageWritten = some s' → Committed (.retarget phase) s s'
  | disable {s s' : ChargeState} (r : FaultReason) : s.next .disabled = some s' →
      Committed (.disable r) s s'

section Faults

variable {drift : Phase → Prop} {output : Option BuckOutput} {v w : View} {a : Act}

/-- The two records of a fault, the field and the state, agree. -/
def Consistent (v : View) : Prop := v.fault.isSome = v.state.faulted

theorem next_selfDisabled_faulted {s d : ChargeState} (h : s.next .selfDisabled = some d) :
    d.faulted = s.faulted := by
  cases s <;> cases h <;> rfl

theorem next_selfEnabled_faulted {s d : ChargeState} (hs : s.holding = true)
    (h : s.next .selfEnabled = some d) : d.faulted = s.faulted := by
  cases s <;> cases hs <;> cases h <;> rfl

theorem Judged.consistent (h : Judged drift v w a) (hv : Consistent v) : Consistent w := by
  unfold Consistent at hv ⊢
  cases h with
  | trip => rfl
  | park _ _ hn | toPark _ _ hn =>
    obtain ⟨-, rfl | ⟨rfl, -⟩⟩ := ChargeState.next_park hn <;> rfl
  | inhibit | enable | retarget | idle => exact hv
  | rise hs | fall hs => rw [hv, hs]; rfl

theorem Beat.consistent (h : Beat drift output v w a) (hv : Consistent v) : Consistent w := by
  have move : ∀ {s : ChargeState}, s.faulted = v.state.faulted →
      Consistent ⟨s, v.fault, v.inhibit⟩ := fun hs => by rw [Consistent, hs, ← hv]
  cases h with
  | tripping | dark => exact hv
  | resurfaced r hs hf => rw [Consistent, hf]; rfl
  | lost | pending => rfl
  | agree _ hj => exact hj.consistent hv
  | hold _ _ _ _ hn hj => exact hj.consistent (move (next_selfDisabled_faulted hn))
  | resume _ hh hn hj => exact hj.consistent (move (next_selfEnabled_faulted hh hn))

theorem Committed.faulted {s s' : ChargeState} (h : Committed a s s') :
    s'.faulted = s.faulted := by
  cases h with
  | none => rfl
  | enable resume hn =>
    revert hn
    cases resume <;> cases s <;> rintro ⟨⟩ <;> rfl
  | retarget _ hn | disable _ hn =>
    revert hn
    cases s <;> rintro ⟨⟩ <;> rfl

/-- A beat forgets no fault. -/
theorem Beat.fault_isSome (h : Beat drift output v w a) (hv : v.fault.isSome = true) :
    w.fault.isSome = true := by
  cases h with
  | tripping | dark | resurfaced => exact hv
  | lost | pending => rfl
  | agree _ hj | hold _ _ _ _ _ hj | resume _ _ _ hj => cases hj <;> first | exact hv | rfl

/-- A retarget is only ever asked for by a machine that owes it. -/
theorem Beat.retargetTo {phase : Phase} (h : Beat drift output v w (.retarget phase)) :
    w.state.retargetTo = some phase := by
  have judged : ∀ {v : View}, Judged drift v w (.retarget phase) →
      w.state.retargetTo = some phase := by
    intro v hj
    cases hj with
    | toPark r _ _ hr => exact hr
    | retarget hr => exact hr
    | rise | fall => rfl
  cases h with
  | agree _ hj | hold _ _ _ _ _ hj | resume _ _ _ hj => exact judged hj

/-- The states no beat leaves. -/
def Terminal (s : ChargeState) : Prop := s = .tripping ∨ s = .latched

theorem Agrees.ready {s : ChargeState} (h : Agrees output s) :
    s.sourcing = true ∨ s.bringingUp = true := by
  unfold Agrees at h
  split at h
  · exact h
  · exact .inl h
  · exact .inr h

theorem not_terminal {s : ChargeState} (h : s.sourcing = true ∨ s.bringingUp = true) :
    ¬ Terminal s := by
  rintro (rfl | rfl) <;> rcases h with h | h <;> cases h

theorem Beat.terminal (h : Beat drift output v w a) (hv : Terminal v.state) :
    Terminal w.state ∧ w.fault = v.fault ∧
      (a = .none ∨ ∃ r, v.fault = some r ∧ a = .disable r) := by
  cases h with
  | tripping r hs hf => exact ⟨.inl hs, rfl, .inr ⟨r, hf, rfl⟩⟩
  | resurfaced r hs hf => exact ⟨.inl rfl, rfl, .inr ⟨r, hf, rfl⟩⟩
  | dark hs => exact ⟨.inr hs, rfl, .inl rfl⟩
  | lost _ hs => rcases hv with hv | hv <;> rw [hv] at hs <;> cases hs
  | pending hs => rcases hv with hv | hv <;> rw [hv] at hs <;> cases hs
  | agree hag => exact absurd hv (not_terminal hag.ready)
  | hold _ _ _ hs => rcases hv with hv | hv <;> rw [hv] at hs <;> cases hs
  | resume _ hs => rcases hv with hv | hv <;> rw [hv] at hs <;> cases hs

theorem next_terminal {s d : ChargeState} {event : ChargeEvent} (hs : Terminal s)
    (h : s.next event = some d) : Terminal d := by
  rcases hs with rfl | rfl <;> cases event <;> cases h
  · exact .inr rfl
  · exact .inl rfl

theorem Committed.terminal {s s' : ChargeState} (h : Committed a s s') (hs : Terminal s) :
    Terminal s' := by
  cases h with
  | none => exact hs
  | enable _ hn | retarget _ hn | disable _ hn => exact next_terminal hs hn

end Faults

section Output

variable {drift : Phase → Prop} {output : Option BuckOutput} {v w : View} {a : Act}

theorem Judged.bringingUp (h : Judged drift v w a) (hv : v.state.bringingUp = true) :
    w.state.sourcing = false := by
  have hs := ChargeState.sourcing_of_bringingUp hv
  cases h with
  | trip => rfl
  | park _ _ hn | toPark _ _ hn =>
    rw [(ChargeState.next_park hn).1] at hs
    cases hs
  | inhibit | enable | retarget => exact hs
  | rise hst | fall hst => rw [hst] at hv; cases hv
  | idle h => rw [hs] at h; cases h

theorem Judged.sourcing (h : Judged drift v w a) (hv : v.state.sourcing = true) :
    w.state.sourcing = true ∨ w.state = .tripping := by
  cases h with
  | trip => exact .inr rfl
  | park _ _ hn | toPark _ _ hn =>
    obtain ⟨-, rfl | ⟨rfl, -⟩⟩ := ChargeState.next_park hn <;> exact .inl rfl
  | inhibit | enable | retarget | idle => exact .inl hv
  | rise | fall => exact .inl rfl

/-- No beat ends believing the opposite of what the output read. -/
theorem Beat.agrees (h : Beat drift output v w a) :
    (∀ cause, output = some (.off cause) → w.state.sourcing = false) ∧
      (output = some .on → w.state.sourcing = true ∨ w.state = .tripping) := by
  cases h with
  | tripping r hs => exact ⟨fun _ _ => by rw [hs]; rfl, fun _ => .inr hs⟩
  | resurfaced => exact ⟨fun _ _ => rfl, fun _ => .inr rfl⟩
  | dark hs ho => exact ⟨fun _ _ => by rw [hs]; rfl, fun h => absurd h ho⟩
  | lost | pending => exact ⟨fun _ _ => rfl, fun _ => .inr rfl⟩
  | agree hag hj =>
    refine ⟨?_, ?_⟩
    · rintro cause rfl
      exact hj.bringingUp hag
    · rintro rfl
      exact hj.sourcing hag
  | hold cause ho _ _ hn hj =>
    have hb := ChargeState.bringingUp_of_holding (ChargeState.next_selfDisabled hn)
    exact ⟨fun _ _ => hj.bringingUp hb, fun h => by rw [ho] at h; cases h⟩
  | resume ho hh hn hj =>
    exact ⟨fun _ h => by (rw [ho] at h; cases h), fun _ =>
      hj.sourcing (ChargeState.next_selfEnabled hh hn)⟩

/-- A buck found on under a latch or a cold boot is being disabled. -/
theorem Beat.disables (h : Beat drift output v w a) (ho : output = some .on)
    (hv : v.state = .boot ∨ Terminal v.state) :
    w.state = .tripping ∧ ∃ r, w.fault = some r ∧ a = .disable r := by
  cases h with
  | tripping r hs hf => exact ⟨hs, r, hf, rfl⟩
  | resurfaced r _ hf => exact ⟨rfl, r, hf, rfl⟩
  | dark _ hno => exact absurd ho hno
  | lost cause hs ho' => rw [ho] at ho'; cases ho'
  | pending => exact ⟨rfl, _, rfl, rfl⟩
  | agree hag =>
    rw [ho] at hag
    rcases hv with hv | hv | hv <;> rw [Agrees, hv] at hag <;> cases hag
  | hold _ ho' => rw [ho] at ho'; cases ho'
  | resume _ hh => rcases hv with hv | hv | hv <;> rw [hv] at hh <;> cases hh

end Output

section Targets

variable {drift : Phase → Prop} {output : Option BuckOutput} {v w : View} {a : Act}

/-- Neither record shows a drift. -/
def NoDrift (v : View) : Prop := v.fault ≠ some .settingsDrift ∧ v.inhibit ≠ some .settingsDrift

theorem next_self_setpointPhase {s d : ChargeState}
    (h : s.next .selfDisabled = some d ∨ s.holding = true ∧ s.next .selfEnabled = some d) :
    d.setpointPhase = s.setpointPhase := by
  rcases h with h | ⟨hs, h⟩
  · cases s <;> cases h <;> rfl
  · cases s <;> cases hs <;> cases h <;> rfl

theorem next_park_setpointPhase {s d : ChargeState} (h : s.next .park = some d) :
    d.setpointPhase = s.setpointPhase := by
  cases s <;> cases h <;> rfl

/-- No beat raises a drift where the readback is on the target the machine holds. -/
theorem Beat.noDrift (h : Beat drift output v w a)
    (hd : ∀ phase, v.state.setpointPhase = some phase → ¬ drift phase) (hv : NoDrift v) :
    NoDrift w := by
  have judged : ∀ {v : View}, Judged drift v w a → NoDrift v →
      (∀ phase, v.state.setpointPhase = some phase → ¬ drift phase) → NoDrift w := by
    intro v hj hv hd
    cases hj with
    | trip r hp hr =>
      refine ⟨fun hf => ?_, by simp⟩
      cases hf
      exact hd _ hp (hr rfl)
    | park r hr | toPark r hr =>
      refine ⟨fun hf => ?_, by simp⟩
      cases hf
      cases hr
    | inhibit i hp hi =>
      refine ⟨hv.1, fun hf => ?_⟩
      cases hf
      exact hd _ hp (hi rfl)
    | enable | retarget | rise | fall | idle => exact ⟨hv.1, by simp⟩
  cases h with
  | tripping | dark | resurfaced => exact hv
  | lost | pending => exact ⟨by simp, by simp⟩
  | agree _ hj => exact judged hj hv hd
  | hold _ _ _ _ hn hj =>
    exact judged hj hv fun phase hp => hd phase ((next_self_setpointPhase (.inl hn)).symm.trans hp)
  | resume _ hh hn hj =>
    exact judged hj hv fun phase hp =>
      hd phase ((next_self_setpointPhase (.inr ⟨hh, hn⟩)).symm.trans hp)

/-- A beat leaves the target the machine holds, or gives up. -/
theorem Beat.setpointPhase (h : Beat drift output v w a) :
    Terminal w.state ∨ w.state.setpointPhase = v.state.setpointPhase := by
  have judged : ∀ {v : View}, Judged drift v w a →
      Terminal w.state ∨ w.state.setpointPhase = v.state.setpointPhase := by
    intro v hj
    cases hj with
    | trip => exact .inl (.inl rfl)
    | park _ _ hn | toPark _ _ hn => exact .inr (next_park_setpointPhase hn)
    | rise hs | fall hs => exact .inr (by rw [hs]; rfl)
    | inhibit | enable | retarget | idle => exact .inr rfl
  cases h with
  | tripping _ hs => exact .inl (.inl hs)
  | dark hs => exact .inl (.inr hs)
  | resurfaced | lost | pending => exact .inl (.inl rfl)
  | agree _ hj => exact judged hj
  | hold _ _ _ _ hn hj => exact (judged hj).imp_right (·.trans (next_self_setpointPhase (.inl hn)))
  | resume _ hh hn hj =>
    exact (judged hj).imp_right (·.trans (next_self_setpointPhase (.inr ⟨hh, hn⟩)))

/-- A commit leaves the target too, unless it is a retarget's. -/
theorem Committed.setpointPhase {s s' : ChargeState} (h : Committed a s s') :
    Terminal s' ∨ s'.setpointPhase = match a with
      | .retarget phase => some phase
      | _ => s.setpointPhase := by
  cases h with
  | none => exact .inr rfl
  | enable resume hn =>
    refine .inr ?_
    revert hn
    cases resume <;> cases s <;> rintro ⟨⟩ <;> rfl
  | retarget hr hn =>
    refine .inr ?_
    revert hr hn
    cases s <;> rintro ⟨⟩ ⟨⟩ <;> rfl
  | disable _ hn =>
    revert hn
    cases s <;> rintro ⟨⟩
    exact .inl (.inr rfl)

end Targets

end Automaton

end Esp32Battery
