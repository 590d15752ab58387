import Esp32Battery.Proofs.Glitch
import Esp32Battery.Proofs.Published

/-!
# The load is fed

Behind a buck that takes every write and trips on nothing, with a pack no check has anything
against, the output is on whenever a status is published, at the target of the phase it shows: it
comes up in the first turn, a step-down gives it back, and reaching a cap parks the charge with the
output up. Nothing latches, however long the turns are.
-/

namespace Esp32Battery

open Lib Automaton

/-- What an exchange leaves in the registers of a buck that takes what it acknowledges. -/
def BuckRegs.after (regs : BuckRegs) (x : Answered (XyOp Float32) XyOp.Reply) : BuckRegs :=
  match x with
  | ⟨.setVoltage _, .error _⟩ | ⟨.setOutput _, .error _⟩ | ⟨.setCurrentLimit _, .error _⟩
  | ⟨.clearProtectionStatus, .error _⟩ => regs
  | ⟨op, _⟩ => regs.wrote op

def BuckRegs.heard (regs : BuckRegs) (past : Talk Float32) : BuckRegs := past.foldl .after regs

/-- A buck that takes every write, reads its registers back and trips on nothing, and a healthy
pack behind it. -/
def Obliging (profile : Profile Float32) (regs : BuckRegs) (past : Talk Float32)
    (x : Answered (XyOp Float32) XyOp.Reply) : Prop :=
  match x with
  | ⟨.readStatus, r⟩ => ∃ st, r = .ok st ∧
      st.setpoints = ⟨(regs.heard past).vSet, (regs.heard past).iSet⟩ ∧
      st.outputOn = (regs.heard past).outputOn ∧ st.protection = (regs.heard past).protection
  | ⟨.setVoltage _, r⟩ | ⟨.setOutput _, r⟩ => r = .ok ()
  | ⟨.batteryReading, bat⟩ => ∃ b, bat = some b ∧ Healthy profile b.voltage b.current
  | _ => True

/-- An enable goes on at the target the output was off at. -/
theorem ChargeState.next_enabled {s d : ChargeState} {event : ChargeEvent}
    (he : event = .enabled ∨ event = .enabledBelowFull) (hs : s.bringingUp = true)
    (h : s.next event = some d) :
    d.sourcing = true ∧ d.setpointPhase = s.setpointPhase := by
  rcases he with rfl | rfl <;> cases s <;> cases hs <;> cases h <;> exact ⟨rfl, rfl⟩

def FaultReason.isCap : FaultReason → Bool
  | absorbTimeout | chargeTimeout => true
  | _ => false

/-- A budget that is not exceeded is not exceeded by waiting. -/
theorem HoldBudget.step_within {h : HoldBudget} {e : Duration} (hh : h.holds ≤ maxHolds) :
    (h.step e).1 = false ∧ (h.step e).2.holds ≤ maxHolds := by
  simp only [HoldBudget.step, decide_eq_false_iff_not]
  split_ifs <;> omega

/-- The operations that write a register. -/
def XyOp.writes : XyOp Float32 → Bool
  | .setVoltage _ | .setOutput _ | .setCurrentLimit _ | .clearProtectionStatus => true
  | _ => false

section Registers

variable {regs : BuckRegs} {past c : Talk Float32}

theorem heard_append : regs.heard (past ++ c) = (regs.heard past).heard c := List.foldl_append

/-- What writes no register leaves them alone. -/
theorem heard_of_not_writes (h : ∀ x ∈ c, x.op.writes = false) : regs.heard c = regs := by
  induction c generalizing regs with
  | nil => rfl
  | cons x c ih =>
    obtain ⟨hx, hc⟩ := List.forall_mem_cons.1 h
    have hsame : regs.after x = regs := by
      obtain ⟨op, r⟩ := x
      cases op <;> first | rfl | cases hx
    exact (congrArg (BuckRegs.heard · c) hsame).trans (ih hc)

end Registers

namespace ChargeSupervisor

/-- The holds are within budget, and no fault is on record but of the kind `ends`. -/
structure Steady (profile : Profile Float32) (ends : FaultReason → Prop)
    (s : ChargeSupervisor Float32) : Prop where
  profile : s.profile = profile
  packTemp : s.packTemp = .absent
  holds : s.holds.holds ≤ maxHolds
  fault : ∀ r, s.fault = some r → ends r

/-- The registers are at the target the supervisor holds, and the output is where it takes it to
be, or on where it waits for it to be. -/
structure Matches (s : ChargeSupervisor Float32) (regs : BuckRegs) : Prop where
  iSet : regs.iSet = s.iSetA
  target : ∃ phase, s.state.setpointPhase = some phase ∧ regs.vSet = s.voltageForPhase phase
  off : regs.outputOn = false → s.state.bringingUp = true
  on : regs.outputOn = true → s.state.holding = true ∨ s.state.sourcing = true

variable {profile : Profile Float32} {ends : FaultReason → Prop}
  {s s' s₁ : ChargeSupervisor Float32} {regs : BuckRegs} {p : PollResult Float32}
  {b : BatterySample Float32} {e : Duration} {a : Action Float32}

/-- A move that keeps the target and the output keeps the match. -/
theorem Matches.congr (h : s.Matches regs) (hb : s.SameBoard s')
    (hp : s'.state.setpointPhase = s.state.setpointPhase)
    (hs : s'.state = s.state ∨ s.state.sourcing = true ∧ s'.state.sourcing = true) :
    s'.Matches regs where
  iSet := h.iSet.trans hb.iSetA.symm
  target := by
    obtain ⟨phase, hphase, hv⟩ := h.target
    exact ⟨phase, hp.trans hphase, hv.trans (hb.voltageForPhase phase).symm⟩
  off := by
    rcases hs with hs | ⟨hs, -⟩
    · rw [hs]
      exact h.off
    · intro hoff
      rw [ChargeState.sourcing_of_bringingUp (h.off hoff)] at hs
      cases hs
  on := by
    rcases hs with hs | ⟨-, hs'⟩
    · rw [hs]
      exact h.on
    · exact fun _ => .inr hs'

theorem Matches.outputOn (h : s.Matches regs) (hs : s.state.sourcing = true) :
    regs.outputOn = true := by
  by_contra hoff
  rw [ChargeState.sourcing_of_bringingUp (h.off (by simpa using hoff))] at hs
  cases hs

theorem Steady.congr (h : s.Steady profile ends) (hb : s.SameBoard s')
    (hh : s'.holds.holds ≤ maxHolds) (hf : ∀ r, s'.fault = some r → ends r) :
    s'.Steady profile ends :=
  ⟨hb.profile.trans h.profile, hb.packTemp.trans h.packTemp, hh, hf⟩

theorem Moved.holds {d : ChargeState} (h : s.Moved d s') (hd : d.holding = false) :
    s'.holds = s.holds := by
  obtain ⟨tr, rfl⟩ := h
  simp [land, hd]

/-- The machine comes to agree with the output it reads, going back to its phase from a hold. -/
theorem reconcile_steady (h : s.Steady profile ends) (hm : s.Matches regs)
    (hp : Polled profile regs p) : ∃ s₁, s.reconcile p = .ok (none, s₁) ∧
      s₁.Steady profile ends ∧ s₁.Matches regs := by
  have hout := hp.output
  by_cases hon : regs.outputOn = true
  · rw [if_pos hon] at hout
    rcases hm.on hon with hhold | hs
    · obtain ⟨d, hd⟩ : ∃ d, s.state.next .selfEnabled = some d := by
        revert hhold
        cases s.state <;> rintro ⟨⟩ <;> exact ⟨_, rfl⟩
      obtain ⟨s₁, hstep, hmoved⟩ := step_ok hd
      have hsrc : s₁.state.sourcing = true := by
        rw [hmoved.state]
        exact ChargeState.next_selfEnabled hhold hd
      have hholds : s₁.holds = s.holds :=
        hmoved.holds (ChargeState.next_not_holding (by decide) hd)
      refine ⟨s₁, ?_, h.congr (.of_moved hmoved) ?_ ?_,
        ⟨hm.iSet.trans (SameBoard.of_moved hmoved).iSetA.symm, ?_, ?_, fun _ => .inr hsrc⟩⟩
      · unfold reconcile
        rw [hout]
        revert hhold
        cases hs : s.state <;> rintro ⟨⟩ <;>
          simp [ChargeState.bringingUp, ChargeState.holding, hstep]
      · rw [hholds]
        exact h.holds
      · rw [show s₁.fault = s.fault from congrArg View.fault hmoved.view]
        exact h.fault
      · obtain ⟨phase, hphase, hv⟩ := hm.target
        refine ⟨phase, ?_, hv.trans ?_⟩
        · rw [hmoved.state, next_self_setpointPhase (.inr ⟨hhold, hd⟩)]
          exact hphase
        · exact ((SameBoard.of_moved hmoved).voltageForPhase phase).symm
      · intro hoff
        rw [hon] at hoff
        cases hoff
    · have hag : Agrees p.output s.state := by
        rw [hout]
        exact hs
      exact ⟨s, reconcile_agrees hag, h, hm⟩
  · rw [if_neg hon] at hout
    have hag : Agrees p.output s.state := by
      rw [hout]
      exact hm.off (by simpa using hon)
    exact ⟨s, reconcile_agrees hag, h, hm⟩

/-- Every check passes on the poll of an obliging buck. -/
theorem gauntlet_steady (h : s.Steady profile ends) (hm : s.Matches regs)
    (hp : Polled profile regs p) (hn : regs.protection = .normal) : ∃ b, s.gauntlet p e =
      .ok (.clear b, (s.sampling p e).examined p b e) := by
  obtain ⟨b, hb, hh⟩ := hp.battery
  obtain ⟨phase, hphase, hv⟩ := hm.target
  have hflap : (s.holds.step e).1 = false := (HoldBudget.step_within h.holds).1
  have hdrift : s.setpointsDrift p.setpoints = .ok false := by
    rw [setpointsDrift_eq hp.setpoints hphase, Except.ok.injEq]
    refine decide_eq_false (not_or.2 ⟨?_, ?_⟩)
    · show ¬ setpointDriftTol ≤ (regs.vSet - s.voltageForPhase phase).abs
      rw [hv]
      exact Float32.not_le_abs_sub_self setpointDriftTol_pos _
    · show ¬ setpointDriftTol ≤ (regs.iSet - s.iSetA).abs
      rw [hm.iSet]
      exact Float32.not_le_abs_sub_self setpointDriftTol_pos _
  have husable : p.usableBattery = some b := by
    simp [PollResult.usableBattery, hb, hh.finiteVoltage, hh.finiteCurrent]
  have hsampled : s.Sampled p e b := ⟨hflap, hdrift, by rw [hp.setpoints]; rfl, husable⟩
  have hov : (s.sampling p e).overvolts b = false := by
    unfold overvolts
    rw [show (s.sampling p e).profile = profile from h.profile]
    exact decide_eq_false hh.noOvervoltage
  have hoc : (s.sampling p e).overdraws b = false := by
    unfold overdraws
    rw [show (s.sampling p e).profile = profile from h.profile]
    exact decide_eq_false hh.noOvercurrent
  have hgate : (s.sampling p e).bringUpGate p b = .clear b := by
    by_cases hbring : s.state.bringingUp = true
    · refine (bringUpGate_clear (by exact hbring)).2 ⟨rfl, by rw [hp.setpoints]; rfl, ?_⟩
      intro cause ho
      rw [hp.output, hn] at ho
      split_ifs at ho <;> cases ho
      rfl
    · unfold bringUpGate
      rw [if_neg (by exact hbring)]
  refine ⟨b, hsampled.gauntlet.trans ?_⟩
  rw [gauntletOn_gate, hgate]
  · unfold OvPasses
    split_ifs <;> simp [hov]
  · intro _
    simp [hoc]
  · intro hfit
    rw [show (s.sampling p e).packTemp = .absent from h.packTemp] at hfit
    cases hfit

/-- What a tick asks for behind an obliging buck: the enable while the output is off, the write it
owes or nothing while sourcing. -/
def AsksFor (s : ChargeSupervisor Float32) (a : Action Float32) : Prop :=
  (s.state.bringingUp = true ∧ ∃ t, a = .enableOutput t) ∨
    s.state.sourcing = true ∧ (a = .none ∨
      ∃ phase, s.state.retargetTo = some phase ∧ s.Realizes a (.retarget phase))

/-- A cap parks the charge, with the output as it was. -/
theorem park_steady {r : FaultReason} (hf : s.onFault r = .ok (a, s')) (hst : s.state = .absorb)
    (hr : r.isCap = true) (hends : ends r) (h : s.Steady profile ends) :
    s'.Steady profile ends ∧ s'.state.setpointPhase = s.state.setpointPhase ∧ s'.AsksFor a ∧
      s'.state.sourcing = true := by
  obtain ⟨d, hm, ⟨hpark, -, hn, hw⟩ | ⟨hpark, -⟩⟩ := onFault_eq_ok hf
  · rw [show ({ s with fault := some r, inhibit := none } : ChargeSupervisor Float32).state
      = .absorb from hst] at hn
    cases hn
    have hfault : s'.fault = some r := congrArg View.fault hm.view
    have hsrc : s'.state.sourcing = true := by
      rw [hm.state]
      rfl
    refine ⟨h.congr (.of_onFault hf) ?_ ?_, by rw [hm.state, hst]; rfl, .inr ⟨hsrc, ?_⟩, hsrc⟩
    · rw [hm.holds rfl]
      exact h.holds
    · rintro r' hr'
      rw [hfault] at hr'
      cases hr'
      exact hends
    · rcases hw with ⟨hnone, -⟩ | ⟨next, hnext, hu⟩
      · cases hnone
      · exact .inr ⟨next, by rw [hm.state]; exact hnext, .retarget hu⟩
  · rw [hst] at hpark
    cases r <;> cases hr <;> cases hpark rfl

theorem regulate_steady (hcap : ∀ r : FaultReason, r.isCap = true → ends r)
    (hr : s.regulate b e = .ok (a, s')) (hs : s.state.sourcing = true)
    (h : s.Steady profile ends) : s'.Steady profile ends ∧
      s'.state.setpointPhase = s.state.setpointPhase ∧ s'.AsksFor a ∧
      s'.state.sourcing = true := by
  cases regulate_cases hr with
  | retarget next hn hu => exact ⟨h, rfl, .inr ⟨hs, .inr ⟨next, hn, .retarget hu⟩⟩, hs⟩
  | rise hst _ _ hm hu =>
    have hsrc : s'.state.sourcing = true := by
      rw [hm.state]
      rfl
    refine ⟨h.congr (.of_regulate hr) ?_ ?_, by rw [hm.state, hst]; rfl,
      .inr ⟨hsrc, .inr ⟨_, by rw [hm.state]; rfl, .retarget hu⟩⟩, hsrc⟩
    · rw [hm.holds rfl]
      exact h.holds
    · rw [show s'.fault = s.fault from congrArg View.fault hm.view]
      exact h.fault
  | fall hst _ hm hu =>
    have hsrc : s'.state.sourcing = true := by
      rw [hm.state]
      rfl
    refine ⟨h.congr (.of_regulate hr) ?_ ?_, by rw [hm.state, hst]; rfl,
      .inr ⟨hsrc, .inr ⟨_, by rw [hm.state]; rfl, .retarget hu⟩⟩, hsrc⟩
    · rw [hm.holds rfl]
      exact h.holds
    · rw [show s'.fault = s.fault from congrArg View.fault hm.view]
      exact h.fault
  | absorbTimeout hst _ _ hf | chargeTimeout hst _ _ _ hf =>
    have hpark := park_steady hf (by exact hst) rfl (hcap _ rfl) ⟨h.1, h.2, h.3, h.4⟩
    exact hpark
  | absorbing | idle => exact ⟨⟨h.1, h.2, h.3, h.4⟩, rfl, .inr ⟨hs, .inl rfl⟩, hs⟩

theorem tick_steady (hcap : ∀ r : FaultReason, r.isCap = true → ends r)
    (h : s.Steady profile ends) (hm : s.Matches regs) (hp : Polled profile regs p)
    (hn : regs.protection = .normal) (ht : s.tick p e = .ok (a, s')) :
    s'.Steady profile ends ∧ s'.Matches regs ∧ s'.AsksFor a := by
  obtain ⟨s₁, hrec, h₁, hm₁⟩ := reconcile_steady h hm hp
  obtain ⟨b, hgauntlet⟩ := gauntlet_steady (e := e) h₁ hm₁ hp hn
  rcases tick_eq_ok ht with hr | ⟨s₁', v, s₂, hr, hg, hd⟩
  · cases hrec.symm.trans hr
  cases hrec.symm.trans hr
  cases hgauntlet.symm.trans hg
  have hholds : ((s₁.sampling p e).examined p b e).holds.holds ≤ maxHolds :=
    (HoldBudget.step_within h₁.holds).2
  have hboard : s₁.SameBoard ((s₁.sampling p e).examined p b e) := ⟨rfl, rfl, rfl⟩
  cases dispatch_cases hd with
  | enable b full hbring =>
    exact ⟨⟨h₁.1, h₁.2, hholds, h₁.4⟩, hm₁.congr ⟨rfl, rfl, rfl⟩ rfl (.inl rfl),
      .inl ⟨hbring, _, rfl⟩⟩
  | regulate b hbring hreg =>
    have hs : s₁.state.sourcing = true := by
      by_cases hon : regs.outputOn = true
      · refine (hm₁.on hon).resolve_left fun hhold => ?_
        rw [show ((s₁.sampling p e).examined p b e).state = s₁.state from rfl,
          ChargeState.bringingUp_of_holding hhold] at hbring
        cases hbring
      · rw [show ((s₁.sampling p e).examined p b e).state = s₁.state from rfl,
          hm₁.off (by simpa using hon)] at hbring
        cases hbring
    obtain ⟨hsteady, hphase, hask, hs'⟩ :=
      regulate_steady hcap hreg (by exact hs) ⟨h₁.1, h₁.2, hholds, h₁.4⟩
    exact ⟨hsteady, hm₁.congr ⟨(SameBoard.of_regulate hreg).1, (SameBoard.of_regulate hreg).2,
      (SameBoard.of_regulate hreg).3⟩ hphase (.inr ⟨hs, hs'⟩), hask⟩

end ChargeSupervisor

section Turn

variable {profile : Profile Float32} {ends : FaultReason → Prop}
  {s s₁ s₂ : ChargeSupervisor Float32} {regs regs₀ : BuckRegs} {past c : Talk Float32}
  {p : PollResult Float32} {e : Duration} {a : Action Float32} {log log' : ProtectionLog}

/-- A retarget that an obliging buck takes is committed, and moves V_SET alone. -/
theorem Written.obliged {t : VoltageTicket Float32} {o : VoltageWriteOutcome}
    (h : Written t c o) (hob : Throughout (Obliging profile regs₀) past c)
    (hon : regs.outputOn = true) :
    o = .committed ∧ regs.heard c = { regs with vSet := t.targetV } := by
  cases h with
  | live => exact ⟨rfl, rfl⟩
  | cycled =>
    refine ⟨rfl, ?_⟩
    show ({ regs with vSet := t.targetV, outputOn := true } : BuckRegs) = _
    rw [← hon]
  | unwritten | undisabled => cases hob.1
  | secondTry | leftOff => cases hob.2.2.2.1
  | restored | unrestored => cases hob.2.2.1

open ChargeSupervisor in
/-- What it asked for is done: the output is on, at the target of the phase. -/
theorem Applied.powered (ha : Applied s₁ a c (.ok s₂)) (h : s₁.Steady profile ends)
    (hm : s₁.Matches regs) (hask : s₁.AsksFor a)
    (hob : Throughout (Obliging profile regs₀) past c) :
    s₂.Steady profile ends ∧ s₂.Matches (regs.heard c) ∧ s₂.state.sourcing = true ∧
      (regs.heard c).protection = regs.protection := by
  have hsteady : ∀ {b : Action Float32}, s₁.commit b = .ok s₂ → s₂.Steady profile ends := fun hc =>
    h.congr (.of_commit hc) (by rw [(SameWindows.of_commit hc).holds]; exact h.holds)
      (by rw [commit_fault hc]; exact h.fault)
  rcases hask with ⟨hbring, t, rfl⟩ | ⟨hs, rfl | ⟨phase, hretarget, hre⟩⟩
  · generalize hx : Except.ok s₂ = x at ha
    cases ha with
    | unenabled => cases hob.1
    | enabled =>
      have hc : s₁.commit (.enableOutput t) = .ok s₂ := hx.symm
      obtain ⟨d, hn, hd⟩ := step_eq_ok (show s₁.step _ = .ok s₂ from hx.symm)
      have hst : s₂.state.sourcing = true ∧
          s₂.state.setpointPhase = s₁.state.setpointPhase := by
        rw [hd.state]
        exact ChargeState.next_enabled (by split_ifs <;> simp) hbring hn
      obtain ⟨phase, hphase, hv⟩ := hm.target
      have hboard := SameBoard.of_commit hc
      exact ⟨hsteady hc, ⟨hm.iSet.trans hboard.iSetA.symm,
        ⟨phase, hst.2.trans hphase, hv.trans (hboard.voltageForPhase phase).symm⟩,
        fun h => (by cases h), fun _ => .inr hst.1⟩, hst.1, rfl⟩
  · generalize hx : Except.ok s₂ = x at ha
    cases ha
    cases hx
    exact ⟨h, hm, hs, rfl⟩
  · have hon : regs.outputOn = true := hm.outputOn hs
    cases a with
    | updateVoltage t =>
      have htarget : t.targetV = s₁.voltageForPhase phase := by
        obtain ⟨-, -, rfl⟩ := hre
        rfl
      generalize hx : Except.ok s₂ = x at ha
      cases ha with
      | unretargeted hw => cases (hw.obliged hob hon).1
      | retargeted hw =>
        have hc : s₁.commit (.updateVoltage t) = .ok s₂ := hx.symm
        obtain ⟨hcom, -, -⟩ := commit_committed hre hc
        have hsrc := hcom.sourcing hs
        have hphase := hcom.setpointPhase.resolve_left (not_terminal (.inl hsrc))
        rw [(hw.obliged hob hon).2]
        refine ⟨hsteady hc, ⟨hm.iSet.trans (SameBoard.of_commit hc).iSetA.symm,
          ⟨phase, hphase, ?_⟩, fun h => ?_, fun _ => .inr hsrc⟩, hsrc, rfl⟩
        · show t.targetV = s₂.voltageForPhase phase
          rw [htarget, (SameBoard.of_commit hc).voltageForPhase]
        · rw [hon] at h
          cases h
    | none | enableOutput | disableOutput => cases hre

theorem PolledAs.not_writes (h : PolledAs log c p log') : ∀ x ∈ c, x.op.writes = false :=
  h.forall_op (P := fun op => op.writes = false) rfl (fun _ => rfl) (fun _ => rfl) rfl

/-- An obliging buck is read as it is. -/
theorem PolledAs.polled (h : PolledAs log c p log')
    (hob : Throughout (Obliging profile regs₀) past c) : Polled profile (regs₀.heard past) p := by
  cases h with
  | unread =>
    obtain ⟨st, hst, -⟩ := hob.1
    cases hst
  | read st bat =>
    rw [List.cons_append] at hob
    obtain ⟨⟨st', hst, hsp, hout, hprot⟩, hrest⟩ := hob
    cases hst
    obtain ⟨-, -, ⟨b, rfl, hh⟩, -⟩ := Throughout.append_iff.1 hrest
    refine ⟨congrArg some hsp, ?_, _, rfl, hh⟩
    unfold Status.output
    rw [hout, hprot]

/-- Between turns: nothing held against the pack, and the registers as they should be. -/
structure Feeding (profile : Profile Float32) (ends : FaultReason → Prop)
    (s : ChargeSupervisor Float32) (regs : BuckRegs) : Prop where
  steady : s.Steady profile ends
  matching : s.Matches regs
  normal : regs.protection = .normal

/-- A status is published with the output on, at the target of the phase it shows, and with no fault
but of the kind `ends`. -/
def Powered (profile : Profile Float32) (ends : FaultReason → Prop) (regs₀ : BuckRegs)
    (past : Talk Float32) (x : Answered (XyOp Float32) XyOp.Reply) : Prop :=
  ∀ st, x.op = .publish st → (regs₀.heard past).outputOn = true ∧
    (∃ phase, st.phase = some phase ∧ (regs₀.heard past).vSet = match phase with
      | .float => profile.floatV
      | .absorb => profile.absorbV) ∧
    ∀ r, st.fault = some r → ends r

theorem Unpublished.powered (h : Unpublished c) :
    Throughout (Powered profile ends regs₀) past c :=
  .of_forall fun x hx _ st hop => absurd hop (h x hx st)

theorem drained_not_writes (s : ChargeSupervisor Float32) :
    ∀ x ∈ s.drained, x.op.writes = false :=
  drained_forall_op (P := fun op => op.writes = false) (fun _ => rfl) s

theorem Turned.powered {x : Except Panic (ChargeSupervisor Float32 × ProtectionLog)}
    (hcap : ∀ r : FaultReason, r.isCap = true → ends r) (h : Turned s log c x)
    (hI : Feeding profile ends s (regs₀.heard past))
    (hob : Throughout (Obliging profile regs₀) past c) :
    Throughout (Powered profile ends regs₀) past c ∧
      ∀ s' log', x = .ok (s', log') → Feeding profile ends s' (regs₀.heard (past ++ c)) := by
  rcases x with e | ⟨s', log'⟩
  · exact ⟨h.quiet_of_panic.powered, by simp⟩
  cases h with
  | @turn c c' p log₂ elapsed a s₁ s₂ phase hp ht ha hph =>
    have hall : c ++ ⟨.lap, elapsed⟩ :: (c' ++ (s₂.drained ++
        [⟨.publish (s₂.status p phase), ()⟩, ⟨.sleep pollInterval, ()⟩])) =
        c ++ [⟨.lap, elapsed⟩] ++ c' ++ s₂.drained ++
          [⟨.publish (s₂.status p phase), ()⟩, ⟨.sleep pollInterval, ()⟩] := by
      simp
    rw [hall] at hob ⊢
    obtain ⟨hobs, -⟩ := Throughout.append_iff.1 hob
    obtain ⟨hobs, -⟩ := Throughout.append_iff.1 hobs
    obtain ⟨hobp, hoba⟩ := Throughout.append_iff.1 hobs
    have hquiet : regs₀.heard (past ++ (c ++ [⟨.lap, elapsed⟩])) = regs₀.heard past := by
      rw [heard_append, heard_of_not_writes]
      exact List.forall_mem_append.2 ⟨hp.not_writes, by simp [XyOp.writes]⟩
    obtain ⟨hsteady, hmatch, hask⟩ := ChargeSupervisor.tick_steady hcap hI.steady hI.matching
      (hp.polled (Throughout.append_iff.1 hobp).1) hI.normal ht
    obtain ⟨hsteady₂, hmatch₂, hsrc, hnormal⟩ := ha.powered hsteady hmatch hask hoba
    have hregs : regs₀.heard (past ++ ((c ++ [⟨.lap, elapsed⟩]) ++ c' ++ s₂.drained))
        = (regs₀.heard past).heard c' := by
      rw [← List.append_assoc, heard_append, heard_of_not_writes (drained_not_writes s₂),
        ← List.append_assoc, heard_append, hquiet]
    refine ⟨.append ?_ ⟨?_, Unpublished.powered (by simp [Unpublished])⟩, ?_⟩
    · exact (hp.unpublished_turn ha s₂).powered
    · rintro st ⟨⟩
      rw [hregs]
      obtain ⟨ph, hph', hv⟩ := hmatch₂.target
      refine ⟨hmatch₂.outputOn hsrc, ⟨ph, ?_, ?_⟩, hsteady₂.fault⟩
      · have hphase : s₂.phase = .ok (some ph) := by
          simp [ChargeSupervisor.phase, ChargeState.regulatingPhase, hsrc, hph']
        rw [hphase] at hph
        cases hph
        rfl
      · rw [hv]
        cases ph <;> simp only [ChargeSupervisor.voltageForPhase, hsteady₂.profile]
    · rintro s' log' ⟨⟩
      rw [← List.append_assoc, heard_append, hregs, heard_of_not_writes (by simp [XyOp.writes])]
      exact ⟨⟨hsteady₂.1, hsteady₂.2, hsteady₂.3, hsteady₂.4⟩,
        ⟨hmatch₂.1, hmatch₂.2, hmatch₂.3, hmatch₂.4⟩, hnormal.trans hI.normal⟩

theorem LoopTurns.powered {n : ℕ} {cs : List (Talk Float32)}
    {x : Except Panic (ChargeSupervisor Float32)}
    (hcap : ∀ r : FaultReason, r.isCap = true → ends r) (h : LoopTurns n s log cs x)
    (hI : Feeding profile ends s (regs₀.heard past))
    (hob : Throughout (Obliging profile regs₀) past cs.flatten) :
    Throughout (Powered profile ends regs₀) past cs.flatten := by
  have hquiet : ∀ {past : Talk Float32}, Powered profile ends regs₀ past fed :=
    fun _ h => by cases h
  have hfed : ∀ {past : Talk Float32} {s : ChargeSupervisor Float32},
      Feeding profile ends s (regs₀.heard past) →
        Feeding profile ends s (regs₀.heard (past ++ [fed])) := fun h => by
    rw [heard_append]
    exact h
  induction h generalizing past with
  | done => trivial
  | panic h =>
    rw [List.flatten_singleton] at hob ⊢
    exact ⟨hquiet, (h.powered hcap (hfed hI) hob.2).1⟩
  | turn h _ ih =>
    rw [List.flatten_cons] at hob ⊢
    obtain ⟨-, hob⟩ := hob
    obtain ⟨hob₁, hob₂⟩ := Throughout.append_iff.1 hob
    obtain ⟨hpow, hnext⟩ := h.powered hcap (hfed hI) hob₁
    exact ⟨hquiet, hpow.append (ih (hnext _ _ rfl) hob₂)⟩

end Turn

section Session

variable {profile : Profile Float32} {buck : BuckSetup Float32} {c : Talk Float32}
  {regs₀ : BuckRegs}

/-- A boot that succeeds leaves the output off at the float target, whatever it found. -/
theorem heard_opening {bs : List (Talk Float32)} {check : ModelCheck} {st : Status Float32}
    {limits : SafetyLimits Float32} : regs₀.heard (opening profile buck bs check st limits) =
      ⟨profile.floatV, buck.iSetA, false, .normal⟩ := by
  obtain ⟨before, hb⟩ := retried_concat bs (bootTalk profile buck check st limits)
  rw [opening, hb, List.append_assoc, ← List.cons_append, heard_append]
  rfl

/-- With the loop's buck obliging and its pack healthy, whatever the boot met. -/
theorem load_fed {n : ℕ} {x : Option (Except Panic (ChargeSupervisor Float32))}
    {c₁ c₂ : Talk Float32} {st : ChargeStatus} (h : (session profile buck .absent n).Says c x)
    (hob : ∀ before y later, c = before ++ y :: later →
      (∃ code, ⟨.publishModel code, ()⟩ ∈ before) → Obliging profile regs₀ before y)
    (hc : c = c₁ ++ ⟨.publish st, ()⟩ :: c₂) :
    (regs₀.heard c₁).outputOn = true ∧
      (∃ phase, st.phase = some phase ∧ (regs₀.heard c₁).vSet = match phase with
        | .float => profile.floatV
        | .absorb => profile.absorbV) ∧
      ∀ r, st.fault = some r → r.isCap = true ∧ st.parked = true := by
  obtain ⟨bs, check, st', limits, post, s, x', -, -, rfl, hnew, hloop⟩ := session_loop h rfl hc
  set boot := opening profile buck bs check st' limits with hboot
  obtain ⟨cs, hcs, hflat⟩ := says_loop hloop
  have hreach : s.Reachable := .new hnew
  have hcoherent : Throughout Candid boot cs.flatten := hcs.candid hreach
  have hI : Feeding profile (·.isCap = true) s (regs₀.heard boot) := by
    obtain ⟨-, -, rfl⟩ := ChargeSupervisor.new_eq_ok hnew
    rw [hboot, heard_opening]
    exact ⟨⟨rfl, rfl, Nat.zero_le _, by simp⟩,
      ⟨rfl, ⟨.float, rfl, rfl⟩, fun _ => rfl, fun h => (by cases h)⟩, rfl⟩
  have hobliging : Throughout (Obliging profile regs₀) boot cs.flatten := by
    refine .intro fun l₁ y l₂ hl => hob _ y l₂ ?_ ⟨check.deviceCode, ?_⟩
    · calc c = boot ++ (post ++ ⟨.publish st, ()⟩ :: c₂) := hc.trans (List.append_assoc ..)
        _ = boot ++ (l₁ ++ y :: l₂) := congrArg (boot ++ ·) (hflat.trans hl)
        _ = boot ++ l₁ ++ y :: l₂ := (List.append_assoc ..).symm
    · simp [hboot, opening]
  have hpow := hcs.powered (fun _ hr => hr) hI hobliging
  rw [← hflat] at hcoherent hpow
  obtain ⟨hon, ⟨phase, hphase, hv⟩, hfault⟩ := hpow.at_entry st rfl
  obtain ⟨hco, -⟩ := hcoherent.at_entry st rfl
  refine ⟨hon, ⟨phase, hphase, hv⟩, fun r hr => ⟨hfault r hr, hco.parked.2 ⟨?_, ?_⟩⟩⟩
  · rw [hphase]
    rfl
  · rw [hr]
    rfl

end Session

/-- An obliging buck, polled once a minute with a pack behind it that charges slowly. -/
def obliging (regs : BuckRegs) (op : XyOp Float32) : op.Reply × BuckRegs :=
  match op with
  | .checkModel => (.ok ⟨25856, true⟩, regs)
  | .readStatus => (.ok {
      setpoints := { vSet := regs.vSet, iSet := regs.iSet }
      vOut := regs.vSet
      iOut := 0.0
      pOut := 0.0
      protection := regs.protection
      outputOn := regs.outputOn }, regs)
  | .readSafetyLimits => (.ok buck.limits, regs)
  | .setVoltage v => (.ok (), regs.wrote (.setVoltage v))
  | .setOutput on => (.ok (), regs.wrote (.setOutput on))
  | .setCurrentLimit a => (.ok (), regs.wrote (.setCurrentLimit a))
  | .clearProtectionStatus => (.ok (), regs.wrote .clearProtectionStatus)
  | .setPowerOnDefault _ | .setSafetyLimits _ => (.ok (), regs)
  | .lap => (.fromSecs 60, regs)
  | .batteryReading => (some ⟨13.0, -0.1, 1.3⟩, regs)
  | .wdtSubscribe | .wdtReset | .sleep _ | .record _ | .updatePs _ | .publishModel _
  | .publish _ => ((), regs)

theorem obliging_answers {regs₀ : BuckRegs} {α : Type} (p : XyProg Float32 α) :
    Throughout (Obliging packProfile regs₀) [] (p.converse obliging regs₀).1 := by
  refine Prog.throughout_converse (I := fun past regs => regs₀.heard past = regs) ?_ p rfl
  rintro past regs op rfl
  refine ⟨?_, ?_⟩
  · cases op with
    | readStatus => exact ⟨_, rfl, rfl, rfl, rfl⟩
    | setVoltage | setOutput => rfl
    | batteryReading => exact ⟨_, rfl, healthy_slow⟩
    | _ => trivial
  · rw [heard_append]
    cases op <;> rfl

def obligingSession : Talk Float32 :=
  ((session packProfile buck .absent 4).converse obliging ⟨14.4, 10.0, true, .ovp⟩).1

theorem load_fed_obliging : ∃ c₁ c₂ st, obligingSession = c₁ ++ ⟨.publish st, ()⟩ :: c₂ ∧
    st.phase = some .absorb ∧
    ((BuckRegs.mk 14.4 10.0 true .ovp).heard c₁).outputOn = true ∧
    ∃ phase, st.phase = some phase ∧ ((BuckRegs.mk 14.4 10.0 true .ovp).heard c₁).vSet =
      match phase with
      | .float => packProfile.floatV
      | .absorb => packProfile.absorbV := by
  have hany : (obligingSession.any fun x => match x.op with
      | .publish st => st.phase == some .absorb
      | _ => false) = true := by
    decide +kernel
  obtain ⟨⟨op, r⟩, hmem, hop⟩ := List.any_eq_true.1 hany
  obtain ⟨c₁, c₂, hc⟩ := List.append_of_mem hmem
  cases op with
  | publish st =>
    obtain ⟨hon, hphase, -⟩ := load_fed (Prog.says_converse obliging _ _)
      (fun before y later h _ => ((h ▸ obliging_answers _).at_entry : _)) hc
    exact ⟨c₁, c₂, st, hc, by simpa using hop, hon, hphase⟩
  | _ => cases hop

end Esp32Battery
