import Esp32Battery.Board
import Esp32Battery.Proofs.Actions
import Esp32Battery.Proofs.Session

/-!
# What was commanded is what the buck holds

Between a supervisor that has not given up and the buck there is one tie: the register holds the
target of the phase the supervisor takes it to be on. A write and its commit move both or neither,
so a readback close to the register never shows a drift.
-/

namespace Esp32Battery

open Lib Automaton

/-- The registers of a buck whose output comes and goes by itself. -/
structure BuckRegs where
  vSet : Float32
  iSet : Float32
  outputOn : Bool
  protection : ProtectionStatus
deriving DecidableEq

/-- A device that never changes a setpoint by itself, leaves it on a write that returned an error,
and reads it back within the tolerance. -/
def regsEnv : Env BuckRegs (XyOp Float32) XyOp.Reply where
  self s s' := s'.vSet = s.vSet ∧ s'.iSet = s.iSet
  answer s op r s' :=
    match op, r with
    | .setVoltage v, .ok () => s' = { s with vSet := v }
    | .setCurrentLimit a, .ok () => s' = { s with iSet := a }
    | .setOutput on, .ok () => s' = { s with outputOn := on }
    | .clearProtectionStatus, .ok () => s' = { s with protection := .normal }
    | .readStatus, .ok st => s' = s ∧ st.outputOn = s.outputOn ∧ st.protection = s.protection ∧
        (st.setpoints.vSet - s.vSet).abs < setpointDriftTol ∧
        (st.setpoints.iSet - s.iSet).abs < setpointDriftTol
    | _, _ => s' = s

def unguarded (_ : BuckRegs) (_ : XyOp Float32) : Prop := True

/-- The setpoint registers hold `v` and `i`. -/
def AtSetpoints (v i : Float32) (s : BuckRegs) : Prop := s.vSet = v ∧ s.iSet = i

theorem atSetpoints_stable {v i : Float32} : regsEnv.Stable (AtSetpoints v i) := by
  rintro s s' ⟨hv, hi⟩ hs
  exact ⟨hv.trans hs.1, hi.trans hs.2⟩

theorem answer_atSetpoints {v i : Float32} {op : XyOp Float32} (hv : ∀ v, op ≠ .setVoltage v)
    (hi : ∀ a, op ≠ .setCurrentLimit a) {s s' : BuckRegs} {r : op.Reply} (hs : AtSetpoints v i s)
    (h : regsEnv.answer s op r s') : AtSetpoints v i s' := by
  unfold regsEnv at h
  simp only [] at h
  split at h
  · exact absurd rfl (hv _)
  · exact absurd rfl (hi _)
  · rw [h]; exact hs
  · rw [h]; exact hs
  · rw [h.1]; exact hs
  · rw [h]; exact hs

theorem keeps_atSetpoints {v i : Float32} {op : XyOp Float32} (hv : ∀ v, op ≠ .setVoltage v)
    (hi : ∀ a, op ≠ .setCurrentLimit a) : regsEnv.Keeps unguarded (AtSetpoints v i) op :=
  ⟨atSetpoints_stable, fun _ _ => trivial, fun _ _ _ hs ha => answer_atSetpoints hv hi hs ha⟩

theorem regsWrite {v i : Float32} (ticket : VoltageTicket Float32) :
    WriteRule regsEnv unguarded ticket (AtSetpoints v i) (AtSetpoints v i)
      (AtSetpoints ticket.targetV i) where
  records _ := keeps_atSetpoints (by simp) (by simp)
  switches _ := keeps_atSetpoints (by simp) (by simp)
  recordsWritten _ := keeps_atSetpoints (by simp) (by simp)
  switchesWritten _ := keeps_atSetpoints (by simp) (by simp)
  disabled _ _ hs ha := answer_atSetpoints (by simp) (by simp) hs ha
  settles := keeps_atSetpoints (by simp) (by simp)
  live _ _ _ := trivial
  cycled _ _ := trivial
  write s s' hs ha := by
    rw [show s' = { s with vSet := ticket.targetV } from ha]
    exact ⟨rfl, (hs.elim id id).2⟩
  failed s e s' hs ha := by
    rw [show s' = s from ha]
    exact hs.elim id id

/-- No drift is on record, the current limit is the supervisor's, and so is the voltage unless it
has given up. -/
def Commanded (s : ChargeSupervisor Float32) (v i : Float32) : Prop :=
  NoDrift s.view ∧ i = s.iSetA ∧
    (Terminal s.state ∨ ∃ phase, s.state.setpointPhase = some phase ∧ v = s.voltageForPhase phase)

section Supervisor

variable {s s₁ s₂ : ChargeSupervisor Float32} {p : PollResult Float32} {e : Duration}
  {a : Action Float32} {v i : Float32}

theorem Commanded.congr (h : Commanded s v i) (hb : s.SameBoard s₁) (hn : NoDrift s₁.view)
    (hp : Terminal s₁.state ∨ s₁.state.setpointPhase = s.state.setpointPhase)
    (ht : Terminal s.state → Terminal s₁.state) : Commanded s₁ v i := by
  refine ⟨hn, h.2.1.trans hb.iSetA.symm, ?_⟩
  rcases hp with hp | hp
  · exact .inl hp
  rcases h.2.2 with hs | ⟨phase, hs, hv⟩
  · exact .inl (ht hs)
  · exact .inr ⟨phase, hp.trans hs, hv.trans (hb.voltageForPhase phase).symm⟩

/-- What a readback tells of the register it was taken from. -/
def Sees (s : ChargeSupervisor Float32) (sp : Setpoints Float32) : Prop :=
  ∀ phase, s.state.setpointPhase = some phase → drifts sp (s.setpointsFor phase) = false

theorem drifts_eq_false {sp want : Setpoints Float32}
    (hv : (sp.vSet - want.vSet).abs < setpointDriftTol)
    (hi : (sp.iSet - want.iSet).abs < setpointDriftTol) : drifts sp want = false := by
  have hle : ∀ {d : Float32}, d < setpointDriftTol → ¬ setpointDriftTol ≤ d :=
    fun hd h => Float32.not_lt_of_le h hd
  simp [drifts, hle hv, hle hi]

/-- A tick moves no target and finds no drift. -/
theorem tick_commanded (h : Commanded s v i) (hsees : ∀ sp, p.setpoints = some sp → Sees s sp)
    (ht : s.tick p e = .ok (a, s₁)) : Commanded s₁ v i := by
  obtain ⟨act, hb, -⟩ := ChargeSupervisor.tick_beat ht
  refine h.congr (.of_tick ht) (hb.noDrift ?_ h.1) hb.setpointPhase fun hs => (hb.terminal hs).1
  rintro phase hp ⟨sp, hsp, hd⟩
  rw [hsees sp hsp phase hp] at hd
  cases hd

/-- A commit follows its write. -/
theorem commit_commanded (h : Commanded s v i) (ht : s.tick p e = .ok (a, s₁))
    (hsees : ∀ sp, p.setpoints = some sp → Sees s sp) (hc : s₁.commit a = .ok s₂) :
    Commanded s₂ (match a with | .updateVoltage t => t.targetV | _ => v) i := by
  obtain ⟨act, hb, hre⟩ := ChargeSupervisor.tick_beat ht
  have h₁ := tick_commanded h hsees ht
  obtain ⟨hcom, hf, hi⟩ := ChargeSupervisor.commit_committed hre hc
  have hsame := ChargeSupervisor.SameBoard.of_commit hc
  have hn : NoDrift s₂.view :=
    ⟨fun h => h₁.1.1 (hf.symm.trans h), fun h => h₁.1.2 (hi.symm.trans h)⟩
  have hphase := hcom.setpointPhase
  cases act with
  | none => cases a <;> first | exact h₁.congr hsame hn hphase hcom.terminal | cases hre
  | enable => cases a <;> first | exact h₁.congr hsame hn hphase hcom.terminal | cases hre
  | disable => cases a <;> first | exact h₁.congr hsame hn hphase hcom.terminal | cases hre
  | retarget phase =>
    cases a with
    | updateVoltage t =>
      obtain ⟨live, -, rfl⟩ := hre
      exact ⟨hn, h₁.2.1.trans hsame.iSetA.symm, hphase.imp_right fun hp =>
        ⟨phase, hp, (hsame.voltageForPhase phase).symm⟩⟩
    | none | enableOutput | disableOutput => cases hre

end Supervisor

theorem keeps_commanded (s : ChargeSupervisor Float32) {op : XyOp Float32}
    (hv : ∀ v, op ≠ .setVoltage v) (hi : ∀ a, op ≠ .setCurrentLimit a) :
    regsEnv.Keeps unguarded (fun dev => Commanded s dev.vSet dev.iSet) op where
  stable := fun dev dev' hs hI => by
    show Commanded s dev'.vSet dev'.iSet
    rw [hs.1, hs.2]
    exact hI
  safe := fun _ _ => trivial
  answer := by
    intro dev r dev' hI ha
    obtain ⟨hvSet, hiSet⟩ := answer_atSetpoints (v := dev.vSet) (i := dev.iSet) hv hi ⟨rfl, rfl⟩ ha
    rwa [hvSet, hiSet]

theorem commanded_sees {s : ChargeSupervisor Float32} {dev dev' : BuckRegs} {st : Status Float32}
    (hI : Commanded s dev.vSet dev.iSet)
    (ha : regsEnv.answer dev .readStatus (.ok st) dev') : Sees s st.setpoints := by
  obtain ⟨-, -, -, hv, hi⟩ := ha
  obtain ⟨-, hiSet, hphase⟩ := hI
  intro phase hp
  rcases hphase with (ht | ht) | ⟨phase', hp', hvSet⟩
  · rw [ht] at hp
    cases hp
  · rw [ht] at hp
    cases hp
  · rw [hp] at hp'
    cases hp'
    refine drifts_eq_false ?_ ?_
    · rwa [hvSet] at hv
    · rwa [hiSet] at hi

/-- Carrying out what a tick asks for leaves the register where the supervisor then takes it to
be. -/
theorem applyAction_commanded {s s₁ : ChargeSupervisor Float32} {p : PollResult Float32}
    {e : Duration} {a : Action Float32} {v i : Float32} (h : Commanded s v i)
    (hsees : ∀ sp, p.setpoints = some sp → Sees s sp) (ht : s.tick p e = .ok (a, s₁)) :
    regsEnv.Holds unguarded (AtSetpoints v i) (applyAction s₁ a)
      fun x dev => ∀ s₂, x = .ok s₂ → Commanded s₂ dev.vSet dev.iSet := by
  have h₁ := tick_commanded h hsees ht
  refine holds_applyAction (fun _ => keeps_atSetpoints (by simp) (by simp))
    (fun _ => keeps_atSetpoints (by simp) (by simp)) ?_ ?_ ?_
  · rintro dev ⟨hv, hi⟩
    rw [hv, hi]
    exact h₁
  · rintro s₂ hc hne dev ⟨hv, hi⟩
    rw [hv, hi]
    have hcom := commit_commanded h ht hsees hc
    cases a with
    | updateVoltage t => exact absurd rfl (hne t)
    | none | enableOutput | disableOutput => exact hcom
  · rintro t rfl
    refine ⟨_, _, regsWrite t, ?_⟩
    rintro s₂ hc dev ⟨hv, hi⟩
    rw [hv, hi]
    exact commit_commanded h ht hsees hc

theorem regsLoop : LoopInvariant regsEnv unguarded
    (fun s dev => Commanded s dev.vSet dev.iSet) Sees where
  quiet s op hq := keeps_commanded s (by rintro v rfl; cases hq) (by rintro a rfl; cases hq)
  reads s := keeps_commanded s (by simp) (by simp)
  sees _ _ _ _ hI ha := commanded_sees hI ha
  acts _ _ _ _ _ hsees ht := .of_forall fun dev hI =>
    ⟨AtSetpoints dev.vSet dev.iSet, ⟨rfl, rfl⟩, applyAction_commanded hI hsees ht⟩
  pops _ _ hI := hI

section Boot

variable {profile : Profile Float32} {buck : BuckSetup Float32}

theorem regsBoot : BootInvariant regsEnv unguarded profile buck (fun _ => True)
    (fun s => s.vSet = profile.floatV) (AtSetpoints profile.floatV buck.iSetA) where
  others _ _ _ := trivial
  off_stable _ _ _ _ := trivial
  set_stable _ _ hs hv := hs.1.trans hv
  done_stable := atSetpoints_stable
  disabled _ _ _ := trivial
  cleared _ _ _ _ := trivial
  defaulted _ _ _ _ := trivial
  limited _ _ _ _ := trivial
  writable _ _ := trivial
  written s s' _ ha := by
    rw [show s' = { s with vSet := profile.floatV } from ha]
  current s s' hs ha := by
    rw [show s' = { s with iSet := buck.iSetA } from ha]
    exact ⟨hs, rfl⟩
  status _ _ _ hs ha := answer_atSetpoints (by simp) (by simp) hs ha
  limits _ _ _ hs ha := answer_atSetpoints (by simp) (by simp) hs ha

theorem commanded_new {packTemp : PackTemp} {s : ChargeSupervisor Float32}
    (h : ChargeSupervisor.new profile buck.iSetA packTemp = .ok s) :
    Commanded s profile.floatV buck.iSetA := by
  obtain ⟨-, -, rfl⟩ := ChargeSupervisor.new_eq_ok h
  exact ⟨⟨by simp [ChargeSupervisor.view], by simp [ChargeSupervisor.view]⟩, rfl,
    .inr ⟨.float, rfl, rfl⟩⟩

/-- After any number of turns the register holds the target of the supervisor's phase, unless it
has given up, and no drift was ever seen. -/
theorem agreement {packTemp : PackTemp} {n : ℕ} {dev₀ dev : BuckRegs}
    {tr : List (BuckRegs × XyOp Float32)} {s : ChargeSupervisor Float32}
    (h : regsEnv.Run (session profile buck packTemp n) dev₀ tr (some (some (.ok s))) dev) :
    (s.state ≠ .tripping → s.state ≠ .latched → ∃ phase, s.state.setpointPhase = some phase ∧
      dev.vSet = s.voltageForPhase phase) ∧
    s.fault ≠ some .settingsDrift ∧ s.inhibit ≠ some .settingsDrift := by
  have hboot : ∀ s, ChargeSupervisor.new profile buck.iSetA packTemp = .ok s →
      ∀ dev, AtSetpoints profile.floatV buck.iSetA dev → Commanded s dev.vSet dev.iSet := by
    rintro s hs dev ⟨hv, hi⟩
    rw [hv, hi]
    exact commanded_new hs
  have hsession := regsBoot.session regsLoop.rule packTemp atSetpoints_stable
    (fun _ => (keeps_atSetpoints (by simp) (by simp)).perform) hboot n
  obtain ⟨hn, -, hphase⟩ := (hsession _ _ _ _ trivial h).2 _ rfl s rfl
  refine ⟨fun ht hl => ?_, hn⟩
  rcases hphase with (hs | hs) | hs
  · exact absurd hs ht
  · exact absurd hs hl
  · exact hs

/-- A buck that takes every write and reads its registers back as they are, with a half-charged
pack behind it. -/
def faithful (s : BuckRegs) : (op : XyOp Float32) → op.Reply × BuckRegs
  | .checkModel => (.ok ⟨25856, true⟩, s)
  | .readStatus =>
    if (s.vSet - s.vSet).abs < setpointDriftTol ∧ (s.iSet - s.iSet).abs < setpointDriftTol then
      (.ok {
        setpoints := { vSet := s.vSet, iSet := s.iSet }
        vOut := s.vSet
        iOut := 0.0
        pOut := 0.0
        protection := s.protection
        outputOn := s.outputOn }, s)
    else (.error .mk, s)
  | .readSafetyLimits => (.ok Esp32Battery.buck.limits, s)
  | .setVoltage v => (.ok (), { s with vSet := v })
  | .setOutput on => (.ok (), { s with outputOn := on })
  | .setCurrentLimit a => (.ok (), { s with iSet := a })
  | .clearProtectionStatus => (.ok (), { s with protection := .normal })
  | .setPowerOnDefault _ | .setSafetyLimits _ => (.ok (), s)
  | .lap => (.fromSecs 1, s)
  | .batteryReading => (some ⟨13.0, -0.1, 1.3⟩, s)
  | .wdtSubscribe | .wdtReset | .sleep _ | .record _ | .updatePs _ | .publishModel _
  | .publish _ => ((), s)

theorem faithful_answers (s : BuckRegs) (op : XyOp Float32) :
    regsEnv.answer s op (faithful s op).1 (faithful s op).2 := by
  cases op with
  | readStatus =>
    unfold faithful
    split_ifs with h
    · exact ⟨rfl, rfl, rfl, h⟩
    · rfl
  | _ => rfl

/-- From a reset at the absorb target, the output on, back up to absorb in three turns. -/
theorem agreement_reset :
    let x := Env.exec faithful (session packProfile Esp32Battery.buck .absent 3)
      ⟨14.4, 10.0, true, .normal⟩
    ∃ s, x.2.1 = some (.ok s) ∧ s.state = .absorb ∧ x.2.2.vSet = s.voltageForPhase .absorb ∧
      s.fault ≠ some .settingsDrift ∧ s.inhibit ≠ some .settingsDrift := by
  intro x
  have hrun := Env.exec_run faithful_answers (session packProfile Esp32Battery.buck .absent 3)
    ⟨14.4, 10.0, true, .normal⟩
  have hstate : (x.2.1.map fun r => r.map ChargeSupervisor.state) = some (.ok .absorb) := by
    rfl
  obtain ⟨r, hr, hs⟩ := Option.map_eq_some_iff.1 hstate
  rcases r with e | s
  · cases hs
  have habsorb : s.state = .absorb := by simpa [Except.map] using hs
  rw [show (Env.exec faithful (session packProfile Esp32Battery.buck .absent 3)
    ⟨14.4, 10.0, true, .normal⟩).2.1 = some (.ok s) from hr] at hrun
  obtain ⟨hv, hdrift⟩ := agreement hrun
  rw [habsorb] at hv
  obtain ⟨phase, hp, hv⟩ := hv (by simp) (by simp)
  cases hp
  exact ⟨s, hr, habsorb, hv, hdrift⟩

end Boot

end Esp32Battery
