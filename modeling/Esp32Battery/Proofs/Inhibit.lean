import Esp32Battery.Board
import Esp32Battery.Proofs.FaultFinal

/-!
# What the machine says it waits for

A waiting reason stands exactly while the machine holds the output off and asks for nothing, but
for the ticks of a live buck that have no sample yet: those leave a reason on a machine that is
sourcing.
-/

namespace Esp32Battery

open Lib Automaton

namespace Automaton

variable {drift : Phase → Prop} {output : Option BuckOutput} {v w : View} {a : Act}

/-- A waiting reason stands for a bring-up that asked for nothing. -/
def Waits (w : View) (a : Act) : Prop :=
  w.inhibit.isSome = true ↔ w.state.bringingUp = true ∧ a = .none

/-- A reason stands for a machine that is sourcing. -/
def Overstated (w : View) : Prop := w.state.sourcing = true ∧ w.inhibit.isSome = true

theorem Overstated.not_waits (h : Overstated w) : ¬ Waits w a := by
  intro hw
  have hb := (hw.1 h.2).1
  have hs := ChargeState.sourcing_of_bringingUp hb
  rw [h.1] at hs
  cases hs

theorem waits_of_sourcing (hs : w.state.sourcing = true) (hi : w.inhibit = none) : Waits w a := by
  unfold Waits
  rw [hi]
  simp only [Option.isSome_none, Bool.false_eq_true, false_iff, not_and]
  intro hb
  rw [ChargeState.sourcing_of_bringingUp hb] at hs
  cases hs

theorem waits_of_terminal (hs : Terminal w.state) (hi : w.inhibit = none) : Waits w a := by
  unfold Waits
  rw [hi]
  rcases hs with hs | hs <;> rw [hs] <;> simp [ChargeState.bringingUp]

theorem Judged.waits (h : Judged drift v w a) : Waits w a ∨ Overstated w := by
  cases h with
  | trip => exact .inl (waits_of_terminal (.inl rfl) rfl)
  | park _ _ hn | toPark _ _ hn =>
    obtain ⟨-, rfl | ⟨rfl, -⟩⟩ := ChargeState.next_park hn <;>
      exact .inl (waits_of_sourcing rfl rfl)
  | inhibit i hp =>
    by_cases hs : v.state.sourcing = true
    · exact .inr ⟨hs, rfl⟩
    · have hb : v.state.bringingUp = true := by
        revert hp hs
        cases v.state <;> simp [ChargeState.setpointPhase, ChargeState.sourcing,
          ChargeState.bringingUp]
      exact .inl (by simp [Waits, hb])
  | enable => exact .inl (by simp [Waits])
  | retarget => exact .inl (by simp [Waits])
  | rise | fall => exact .inl (waits_of_sourcing rfl rfl)
  | idle hs => exact .inl (waits_of_sourcing hs rfl)

/-- One beat of a machine that gave up its reason with its charge. -/
theorem Beat.waits (h : Beat drift output v w a) (hv : Terminal v.state → v.inhibit = none) :
    Waits w a ∨ Overstated w := by
  cases h with
  | tripping r hs => exact .inl (waits_of_terminal (.inl hs) (hv (.inl hs)))
  | resurfaced r hs => exact .inl (waits_of_terminal (.inl rfl) (hv (.inr hs)))
  | dark hs => exact .inl (waits_of_terminal (.inr hs) (hv (.inr hs)))
  | lost | pending => exact .inl (waits_of_terminal (.inl rfl) rfl)
  | agree _ hj | hold _ _ _ _ _ hj | resume _ _ _ hj => exact hj.waits

theorem Beat.inhibit_terminal (h : Beat drift output v w a)
    (hv : Terminal v.state → v.inhibit = none) (hw : Terminal w.state) : w.inhibit = none := by
  rcases h.waits hv with hwait | ⟨hs, -⟩
  · by_contra hne
    have hb := (hwait.1 (Option.isSome_iff_ne_none.2 hne)).1
    rcases hw with hw | hw <;> rw [hw] at hb <;> cases hb
  · rcases hw with hw | hw <;> rw [hw] at hs <;> cases hs

/-- An action that asks for something leaves no reason behind. -/
theorem Beat.inhibit_none (h : Beat drift output v w a)
    (hv : Terminal v.state → v.inhibit = none) (ha : a ≠ .none) : w.inhibit = none := by
  have judged : ∀ {v : View}, Judged drift v w a → w.inhibit = none := by
    intro v hj
    cases hj with
    | inhibit => exact absurd rfl ha
    | trip | park | toPark | enable | retarget | rise | fall | idle => rfl
  cases h with
  | tripping r hs => exact hv (.inl hs)
  | resurfaced r hs => exact hv (.inr hs)
  | dark hs => exact hv (.inr hs)
  | lost | pending => rfl
  | agree _ hj | hold _ _ _ _ _ hj | resume _ _ _ hj => exact judged hj

end Automaton

namespace ChargeSupervisor

variable {F : Type} [FloatLike F] {s s' s₁ : ChargeSupervisor F} {p : PollResult F} {e : Duration}
  {i : Input F} {a : Action F}

theorem turn_inhibit (h : s.turn i = .ok (a, s'))
    (hs : Terminal s.state → s.inhibit = none) : Terminal s'.state → s'.inhibit = none := by
  obtain ⟨v, act, hb, -, hv | ⟨hc, -, hi⟩⟩ := turn_beat h
  · intro ht
    rw [← hv] at hb
    exact hb.inhibit_terminal hs ht
  · intro ht
    rw [hi]
    by_cases ha : act = .none
    · subst ha
      have hst : v.state = s'.state := by
        generalize s'.state = d at hc
        cases hc
        rfl
      exact hb.inhibit_terminal hs (hst ▸ ht)
    · exact hb.inhibit_none hs ha

theorem Reachable.inhibit_terminal (h : s.Reachable) : Terminal s.state → s.inhibit = none := by
  induction h with
  | new h =>
    obtain ⟨-, -, rfl⟩ := new_eq_ok h
    exact fun _ => rfl
  | turn _ h ih => exact turn_inhibit h ih

/-- The buck is on: the machine believes it is and the poll does not say otherwise, or it comes
back out of a hold. -/
def Live (s : ChargeSupervisor F) (p : PollResult F) : Prop :=
  s.state.sourcing = true ∧ (∀ cause, p.output ≠ some (.off cause)) ∨
    s.state.holding = true ∧ p.output = some .on

/-- A live buck, a poll with no usable sample, and nothing before the sample check that decides:
no flapping, no drift, the link and the sensor not yet given up. -/
structure SampleGap (s : ChargeSupervisor F) (p : PollResult F) (e : Duration) : Prop where
  live : s.Live p
  flap : (s.holds.step e).1 = false
  drift : s.setpointsDrift p.setpoints = .ok false
  modbus : (s.modbusErr.step p.setpoints.isNone e modbusUnhealthyTimeout).1 = false
  missing : (s.batteryMissing.step true e batteryMissingTimeout).1 = false
  battery : p.usableBattery = none

/-- Agreeing with a live output changes nothing that the checks up to the sample read. -/
structure SameEarly (s s' : ChargeSupervisor F) : Prop where
  holds : s'.holds = s.holds
  modbus : s'.modbusErr = s.modbusErr
  missing : s'.batteryMissing = s.batteryMissing
  drift : ∀ sp, s'.setpointsDrift sp = s.setpointsDrift sp

theorem reconcile_live {o : Option (Action F)} (h : s.reconcile p = .ok (o, s₁)) :
    (s.Live p ↔ o = none ∧ s₁.state.sourcing = true) ∧ (s.Live p → s.SameEarly s₁) := by
  have hsame : s.SameEarly s := ⟨rfl, rfl, rfl, fun _ => rfl⟩
  have hdead : ∀ {o : Option (Action F)} {s₁ : ChargeSupervisor F}, ¬ s.Live p →
      ¬ (o = none ∧ s₁.state.sourcing = true) →
      (s.Live p ↔ o = none ∧ s₁.state.sourcing = true) ∧ (s.Live p → s.SameEarly s₁) :=
    fun hl ho => ⟨⟨fun h => absurd h hl, fun h => absurd h ho⟩, fun h => absurd h hl⟩
  cases reconcile_cases h with
  | tripping r hs | resurfaced r hs | dark hs =>
    refine hdead ?_ (by simp)
    rintro (⟨hl, -⟩ | ⟨hl, -⟩) <;> rw [hs] at hl <;> cases hl
  | lost cause ho hs =>
    refine hdead ?_ (by simp)
    rintro (⟨-, hl⟩ | ⟨-, hl⟩)
    · exact hl cause ho
    · rw [ho] at hl
      cases hl
  | pending ho hs =>
    refine hdead ?_ (by simp)
    rintro (⟨hl, -⟩ | ⟨hl, -⟩) <;> rw [hs] at hl <;> cases hl
  | agree hag =>
    refine ⟨⟨?_, fun hs => .inl ⟨hs.2, ?_⟩⟩, fun _ => hsame⟩
    · rintro (⟨hs, -⟩ | ⟨hh, ho⟩)
      · exact ⟨rfl, hs⟩
      · rw [ho] at hag
        exact ⟨rfl, hag⟩
    · rintro cause ho
      rw [ho] at hag
      rw [ChargeState.sourcing_of_bringingUp hag] at hs
      exact absurd hs.2 (by simp)
  | hold cause ho _ hs hn hm =>
    refine hdead ?_ ?_
    · rintro (⟨-, hl⟩ | ⟨-, hl⟩)
      · exact hl cause ho
      · rw [ho] at hl
        cases hl
    · rintro ⟨-, hsrc⟩
      rw [hm.state, ChargeState.sourcing_of_bringingUp (ChargeState.bringingUp_of_holding
        (ChargeState.next_selfDisabled hn))] at hsrc
      cases hsrc
  | resume ho hh hn hm =>
    refine ⟨⟨fun _ => ⟨rfl, ?_⟩, fun _ => .inr ⟨hh, ho⟩⟩, fun _ => ?_⟩
    · rw [hm.state]
      exact ChargeState.next_selfEnabled hh hn
    · have hphase := next_self_setpointPhase (.inr ⟨hh, hn⟩)
      have hd := ChargeState.next_not_holding (by simp) hn
      obtain ⟨tr, rfl⟩ := hm
      refine ⟨by simp [land, hd], rfl, rfl, fun sp => ?_⟩
      simp only [setpointsDrift, expectedSetpoints, land, hphase]
      rfl

/-- Only the verdict to wait leaves a reason, and on a live machine it waits for a sample. -/
theorem dispatch_overstated {s₂ : ChargeSupervisor F} {v : Verdict F}
    (hg : s₁.gauntlet p e = .ok (v, s₂)) (h : s₂.dispatch v e = .ok (a, s'))
    (hi : s'.inhibit.isSome = true) : ∃ i, v = .inhibit i ∧ s'.state = s₁.state := by
  cases dispatch_cases h with
  | latch r hf =>
    obtain ⟨d, hm, -⟩ := onFault_eq_ok hf
    rw [show s'.inhibit = none from congrArg View.inhibit hm.view] at hi
    cases hi
  | inhibit i => exact ⟨i, rfl, congrArg View.state (gauntlet_clocked hg).view⟩
  | enable => cases hi
  | regulate b _ hreg =>
    have hnone : s'.inhibit = none := by
      cases regulate_cases hreg with
      | retarget | absorbing | idle => rfl
      | rise _ _ _ hm | fall _ _ hm => exact congrArg View.inhibit hm.view
      | absorbTimeout _ _ _ hf | chargeTimeout _ _ _ _ hf =>
        obtain ⟨d, hm, -⟩ := onFault_eq_ok hf
        exact congrArg View.inhibit hm.view
    rw [hnone] at hi
    cases hi

theorem tick_overstated (h : s.tick p e = .ok (a, s')) :
    Overstated s'.view ↔ s.SampleGap p e := by
  rcases tick_eq_ok h with hr | ⟨s₁, v, s₂, hr, hg, hd⟩
  · refine ⟨fun ⟨hs, hi⟩ => ?_, fun hgap => ?_⟩
    · have ht : ¬ Terminal s'.state := not_terminal (.inl hs)
      generalize ho : some a = o at hr
      cases reconcile_cases hr with
      | tripping r hst => exact absurd (.inl hst) ht
      | resurfaced r _ _ _ hm => exact absurd (.inl hm.state) ht
      | dark hst => exact absurd (.inr hst) ht
      | lost _ _ _ _ hf | pending _ _ hf =>
        exact absurd (.inl (congrArg View.state (onFault_disable hf rfl).1)) ht
      | agree | hold | resume => cases ho
    · cases ((reconcile_live hr).1.1 hgap.live).1
  · obtain ⟨hlive, hearly⟩ := reconcile_live hr
    refine ⟨fun ⟨hs, hi⟩ => ?_, fun hgap => ?_⟩
    · replace hs : s'.state.sourcing = true := hs
      obtain ⟨i, rfl, hst⟩ := dispatch_overstated hg hd hi
      have hl := hlive.2 ⟨rfl, by rw [← hst]; exact hs⟩
      obtain ⟨hholds, hmodbus, hmissing, hdrift⟩ := hearly hl
      rcases gauntlet_cases hg with ⟨b, hsam, hon⟩ | ⟨hu, -⟩
      · have := (gauntletOn_cases hon).of_inhibit.1
        rw [show (s₁.sampling p e).state = s₁.state from rfl, ← hst, hs] at this
        cases this
      · cases hu with
        | inhibit r i hn =>
          rw [← hst, hs] at hn
          cases hn
        | noSample hf hdr hm hb hn =>
          exact ⟨hl, by rw [← hholds]; exact hf, by rw [← hdrift]; exact hdr,
            by rw [← hmodbus]; exact hm, by rw [← hmissing]; exact hb, hn⟩
    · obtain ⟨-, hs⟩ := hlive.1 hgap.live
      obtain ⟨hholds, hmodbus, hmissing, hdrift⟩ := hearly hgap.live
      rw [gauntlet_noSample (by rw [hholds]; exact hgap.flap) (by rw [hdrift]; exact hgap.drift)
        (by rw [hmodbus]; exact hgap.modbus) (by rw [hmissing]; exact hgap.missing)
        hgap.battery] at hg
      cases hg
      cases hd
      exact ⟨hs, rfl⟩

/-- From any reachable state, a tick leaves a waiting reason just where the machine holds the
output off and asks for nothing, unless a live buck has no sample yet. -/
theorem inhibit_iff (hs : s.Reachable) (h : s.tick p e = .ok (a, s')) :
    (s'.inhibit.isSome = true ↔ s'.state.bringingUp = true ∧ a = .none) ↔
      ¬ s.SampleGap p e := by
  obtain ⟨act, hb, hre⟩ := tick_beat h
  have hact : a = .none ↔ act = .none := by
    cases act <;> cases a <;>
      first
        | exact iff_of_true rfl rfl
        | (cases hre; done)
        | exact iff_of_false (by simp) (by simp)
  have hover := tick_overstated h
  rw [hact]
  rcases hb.waits hs.inhibit_terminal with hwait | ho
  · exact iff_of_true hwait fun hgap => (hover.2 hgap).not_waits hwait
  · exact iff_of_false ho.not_waits fun hn => hn (hover.1 ho)

/-- The bring-up waits for the setpoints, and says so. -/
theorem inhibit_iff_boot : ∃ s', (bootSupervisor .absent).tick
      { restPoll (some (.off .normal)) with setpoints := none } (.fromSecs 1) = .ok (.none, s') ∧
    s'.inhibit = some .modbusUnhealthy ∧ s'.state.bringingUp = true := by
  have htick : ∃ s', (bootSupervisor .absent).tick
      { restPoll (some (.off .normal)) with setpoints := none } (.fromSecs 1) = .ok (.none, s') ∧
      s'.inhibit = some .modbusUnhealthy := ⟨_, rfl, rfl⟩
  obtain ⟨s', ht, hi⟩ := htick
  have hiff := (inhibit_iff (bootSupervisor_reachable .absent) ht).2 fun hgap => by
    rcases hgap.live with ⟨hs, -⟩ | ⟨hs, -⟩ <;> cases hs
  exact ⟨s', ht, hi, (hiff.1 (by rw [hi]; rfl)).1⟩

/-- One poll without a sample leaves a waiting reason on a buck regulating in float. -/
theorem inhibit_overstated : floatSupervisor.Reachable ∧
    ∃ s', floatSupervisor.tick { fullPoll .on none with battery := none } (.fromSecs 1)
        = .ok (.none, s') ∧
      s'.state = .float ∧ s'.state.sourcing = true ∧ s'.inhibit = some .noBatterySample := by
  refine ⟨after_reachable (bootSupervisor_reachable .absent) _, ?_⟩
  have hfloat : floatSupervisor.state = .float ∧ (floatSupervisor.tick
      { fullPoll .on none with battery := none } (.fromSecs 1)).toOption.map
        (fun x => (x.1, x.2.state, x.2.inhibit)) = some (.none, .float, some .noBatterySample) := by
    decide +kernel
  rcases ht : floatSupervisor.tick { fullPoll .on none with battery := none } (.fromSecs 1)
    with e | ⟨a, s'⟩
  · simp [ht, Except.toOption] at hfloat
  · simp only [ht, Except.toOption, Option.map_some, Option.some.injEq, Prod.mk.injEq] at hfloat
    obtain ⟨-, rfl, hst, hi⟩ := hfloat
    exact ⟨s', rfl, hst, by rw [hst]; rfl, hi⟩

end ChargeSupervisor

end Esp32Battery
