import Esp32Battery.Board
import Esp32Battery.Proofs.Actions
import Esp32Battery.Proofs.Session

/-!
# No live step-down

V_SET is written below its value only while the output is off, from any device state a boot finds
and through any failed, half-applied and repeated write. Live writes are steps up to the absorb
target, and after a boot the register only ever holds one of the profile's two targets.
-/

namespace Esp32Battery

open Lib Automaton

/-- The buck's registers. `held` while a disable that was confirmed waits for the V_SET write of
its sequence. -/
structure LiveBuck (F : Type) where
  vSet : F
  outputOn : Bool
  held : Bool
deriving DecidableEq

section Device

variable {F : Type}

/-- A device that never moves V_SET by itself, nor enables its own output while held. A write that
returned an error may have taken effect or not; an error ends the sequence. -/
def liveEnv : Env (LiveBuck F) (XyOp F) XyOp.Reply where
  self s s' := s'.vSet = s.vSet ∧ s'.held = s.held ∧
    (s.held = true → s'.outputOn = true → s.outputOn = true)
  answer s op r s' :=
    match op, r with
    | .setVoltage v, .ok () => s' = { s with vSet := v, held := false }
    | .setVoltage v, .error _ => s' = { s with vSet := v, held := false } ∨
        s' = { s with held := false }
    | .setOutput on, .ok () => s' = { s with outputOn := on, held := !on }
    | .setOutput on, .error _ => s' = { s with outputOn := on, held := false } ∨
        s' = { s with held := false }
    | .clearProtectionStatus, .ok () | .setPowerOnDefault _, .ok () | .setSafetyLimits _, .ok () =>
      s' = s
    | .sleep d, () => s' = { s with held := s.held && d = stepDownSettle }
    | _, _ => s' = { s with held := false }

/-- No V_SET write lowers a live output. -/
def StepDownSafe [FloatLike F] (s : LiveBuck F) (op : XyOp F) : Prop :=
  ∀ v, op = .setVoltage v → v < s.vSet → s.outputOn = false

/-- The MCU's lives, each a session cut short or run to its end. A reset ends the sequence it
interrupts. -/
inductive Lives [FloatLike F] (profile : Profile F) (buck : BuckSetup F) (packTemp : PackTemp) :
    LiveBuck F → List (LiveBuck F × XyOp F) → LiveBuck F → Prop
  | nil (s : LiveBuck F) : Lives profile buck packTemp s [] s
  | boot {s t u : LiveBuck F} {tr tr' : List (LiveBuck F × XyOp F)}
      {o : Option (Option (Except Panic (ChargeSupervisor F)))} (n : ℕ) :
      liveEnv.Run (session profile buck packTemp n) s tr o t →
      Lives profile buck packTemp { t with held := false } tr' u →
      Lives profile buck packTemp s (tr ++ tr') u

end Device

section Targets

variable {profile : Profile Float32} {buck : BuckSetup Float32}

/-- The register holds one of the two targets. -/
def OnTarget (profile : Profile Float32) (s : LiveBuck Float32) : Prop :=
  s.vSet = profile.floatV ∨ s.vSet = profile.absorbV

theorem onTarget_stable : liveEnv.Stable (OnTarget profile) := by
  rintro s s' ⟨hv, -, -⟩ hs
  unfold OnTarget
  rw [hv]
  exact hs

/-- The output is off, and stays off until the V_SET write of the sequence. -/
def HeldOff (s : LiveBuck Float32) : Prop := s.held = true ∧ s.outputOn = false

theorem heldOff_stable : liveEnv.Stable HeldOff := by
  rintro s s' ⟨-, hheld, hout⟩ ⟨hh, ho⟩
  refine ⟨hheld.trans hh, ?_⟩
  rw [← Bool.not_eq_true]
  intro h
  rw [hout hh h] at ho
  cases ho

theorem heldOff_disable {s s' : LiveBuck Float32}
    (h : liveEnv.answer s (.setOutput false) (.ok ()) s') : HeldOff s' := by
  rw [show s' = { s with outputOn := false, held := true } from h]
  exact ⟨rfl, rfl⟩

/-- Every operation but a V_SET write leaves the register alone. -/
theorem answer_vSet {op : XyOp Float32} (hop : ∀ v, op ≠ .setVoltage v)
    {s s' : LiveBuck Float32} {r : op.Reply} (h : liveEnv.answer s op r s') :
    s'.vSet = s.vSet := by
  unfold liveEnv at h
  simp only [] at h
  split at h
  · exact absurd rfl (hop _)
  · exact absurd rfl (hop _)
  · rw [h]
  · rcases h with rfl | rfl <;> rfl
  all_goals rw [h]

theorem keeps_onTarget {op : XyOp Float32} (hop : ∀ v, op ≠ .setVoltage v) :
    liveEnv.Keeps StepDownSafe (OnTarget profile) op where
  stable := onTarget_stable
  safe := fun _ _ v hv => absurd hv (hop v)
  answer := by
    intro s r s' hs ha
    unfold OnTarget
    rw [answer_vSet hop ha]
    exact hs

/-- A write of a target leaves a target in the register, taken or not. -/
theorem answer_onTarget {v : Float32} (hv : v = profile.floatV ∨ v = profile.absorbV)
    {s s' : LiveBuck Float32} {r : Except BusError Unit} (hs : OnTarget profile s)
    (h : liveEnv.answer s (.setVoltage v) r s') : OnTarget profile s' := by
  rcases r with e | _
  · rcases (show _ ∨ _ from h) with rfl | rfl
    · exact hv
    · exact hs
  · rw [show s' = { s with vSet := v, held := false } from h]
    exact hv

/-- A retarget writes the register live only where no target lies above. -/
theorem liveWrite {ticket : VoltageTicket Float32} (hord : profile.floatV < profile.absorbV)
    (htarget : ticket.targetV = profile.floatV ∨ ticket.targetV = profile.absorbV)
    (hlive : ticket.cycleOutput = false → ticket.targetV = profile.absorbV) :
    WriteRule liveEnv StepDownSafe ticket (OnTarget profile)
      (fun dev => OnTarget profile dev ∧ HeldOff dev) (OnTarget profile) where
  records _ := keeps_onTarget (by simp)
  switches _ := keeps_onTarget (by simp)
  recordsWritten _ := keeps_onTarget (by simp)
  switchesWritten _ := keeps_onTarget (by simp)
  disabled _ _ hs ha := ⟨(keeps_onTarget (by simp)).answer _ _ _ hs ha, heldOff_disable ha⟩
  settles :=
    { stable := fun s s' hself hs =>
        ⟨onTarget_stable s s' hself hs.1, heldOff_stable s s' hself hs.2⟩
      safe := fun _ _ v hv => by cases hv
      answer := by
        rintro s ⟨⟩ s' ⟨hs, hh, ho⟩ ha
        rw [show s' = { s with held := s.held && stepDownSettle = stepDownSettle } from ha]
        exact ⟨hs, by simp [hh], ho⟩ }
  live hc s hs v hv hlt := by
    cases hv
    rw [hlive hc] at hlt
    rcases hs with hs | hs <;> rw [hs] at hlt
    · exact absurd hlt (Float32.lt_asymm hord)
    · exact absurd hlt (Float32.lt_irrefl _)
  cycled _ hs _ _ _ := hs.2.2
  write _ _ hs ha := answer_onTarget htarget (hs.elim id And.left) ha
  failed _ _ _ hs ha := answer_onTarget htarget (hs.elim id And.left) ha

/-- The supervisor's targets in order, and one of them in the register. -/
def LiveInvariant (s : ChargeSupervisor Float32) (dev : LiveBuck Float32) : Prop :=
  s.profile.floatV < s.profile.absorbV ∧ OnTarget s.profile dev

theorem liveInvariant_congr {s s' : ChargeSupervisor Float32} (h : s.SameBoard s')
    {dev : LiveBuck Float32} (hs : LiveInvariant s dev) : LiveInvariant s' dev := by
  unfold LiveInvariant
  rw [h.profile]
  exact hs

/-- Only the retarget a supervisor owes is asked for: up to absorb, or cycled down to float. -/
theorem tick_ticket {s s₁ : ChargeSupervisor Float32} {p : PollResult Float32} {e : Duration}
    {t : VoltageTicket Float32} (hord : s.profile.floatV < s.profile.absorbV)
    (h : s.tick p e = .ok (.updateVoltage t, s₁)) :
    (t.targetV = s.profile.floatV ∨ t.targetV = s.profile.absorbV) ∧
      (t.cycleOutput = false → t.targetV = s.profile.absorbV) := by
  obtain ⟨act, hb, hre⟩ := ChargeSupervisor.tick_beat h
  have hp : s₁.profile = s.profile := (ChargeSupervisor.SameBoard.of_tick h).profile
  cases act with
  | retarget phase =>
    obtain ⟨live, hl, rfl⟩ := hre
    have hr : s₁.state.retargetTo = some phase := hb.retargetTo
    cases phase with
    | float =>
      rw [ChargeState.retargetTo_float hr] at hl
      cases hl
      refine ⟨.inl (by rw [← hp]; rfl), fun hc => ?_⟩
      simp only [ChargeSupervisor.voltageForPhase, hp] at hc
      exact absurd hord (of_decide_eq_false hc)
    | absorb =>
      have habs : s₁.voltageForPhase .absorb = s.profile.absorbV := by rw [← hp]; rfl
      exact ⟨.inr habs, fun _ => habs⟩
  | none | enable | disable => cases hre

theorem liveLoop : LoopInvariant liveEnv StepDownSafe LiveInvariant fun _ _ => True := by
  have keeps : ∀ (s : ChargeSupervisor Float32) (op : XyOp Float32), (∀ v, op ≠ .setVoltage v) →
      liveEnv.Keeps StepDownSafe (LiveInvariant s) op := fun s op hop =>
    ⟨fun d d' hd hs => ⟨hs.1, onTarget_stable d d' hd hs.2⟩,
      fun d hs => (keeps_onTarget hop).safe d hs.2,
      fun d r d' hs ha => ⟨hs.1, (keeps_onTarget hop).answer d r d' hs.2 ha⟩⟩
  refine ⟨?_, fun s => keeps s _ (by simp), fun _ _ _ _ _ _ => trivial, ?_, ?_⟩
  · intro s op hq
    refine keeps s op ?_
    rintro v rfl
    cases hq
  · intro s p e a s₁ _ ht
    refine .assume (c := s.profile.floatV < s.profile.absorbV) (fun _ hI => hI.1) fun hord => ?_
    have hsame := ChargeSupervisor.SameBoard.of_tick ht
    have hcommit : ∀ s₂, s₁.commit a = .ok s₂ → ∀ dev, OnTarget s.profile dev →
        LiveInvariant s₂ dev := fun s₂ hc dev hdev =>
      liveInvariant_congr (hsame.trans (.of_commit hc)) ⟨hord, hdev⟩
    refine .mono (P := OnTarget s.profile) ?_ (fun _ hI => hI.2) fun _ _ hQ => hQ
    refine holds_applyAction (fun _ => keeps_onTarget (by simp)) (fun _ => keeps_onTarget (by simp))
      (fun dev hdev => liveInvariant_congr hsame ⟨hord, hdev⟩) (fun s₂ hc _ => hcommit s₂ hc) ?_
    rintro t rfl
    obtain ⟨htarget, hlive⟩ := tick_ticket hord ht
    exact ⟨_, _, liveWrite hord htarget hlive, hcommit⟩
  · intro s dev hI
    exact hI

theorem atFloat_stable : liveEnv.Stable fun s => s.vSet = profile.floatV :=
  fun _ _ hs hv => hs.1.trans hv

theorem liveBoot : BootInvariant liveEnv StepDownSafe profile buck HeldOff
    (fun s => s.vSet = profile.floatV) fun s => s.vSet = profile.floatV := by
  exact {
    others := fun _ _ hop v hv => absurd hv (hop v)
    off_stable := heldOff_stable
    set_stable := atFloat_stable
    done_stable := atFloat_stable
    disabled := fun _ _ ha => heldOff_disable ha
    cleared := fun s s' hs ha => (show s' = s from ha) ▸ hs
    defaulted := fun s s' hs ha => (show s' = s from ha) ▸ hs
    limited := fun s s' hs ha => (show s' = s from ha) ▸ hs
    writable := fun _ hs _ _ _ => hs.2
    written := fun s s' _ ha => by
      rw [show s' = { s with vSet := profile.floatV, held := false } from ha]
    current := fun _ _ hs ha => (answer_vSet (by simp) ha).trans hs
    status := fun _ _ _ hs ha => (answer_vSet (by simp) ha).trans hs
    limits := fun _ _ _ hs ha => (answer_vSet (by simp) ha).trans hs }

theorem session_safe (packTemp : PackTemp) (n : ℕ) :
    liveEnv.Holds StepDownSafe (fun _ => True) (session profile buck packTemp n)
      fun x dev => ∀ s, x = some (.ok s) → LiveInvariant s dev := by
  refine liveBoot.session liveLoop.rule packTemp (@atFloat_stable profile) (fun code => ?_) ?_ n
  · have hkeeps : liveEnv.Keeps StepDownSafe (fun s => s.vSet = profile.floatV)
        (.publishModel code) :=
      ⟨atFloat_stable, fun _ _ v hv => (by cases hv),
        fun _ _ _ hs ha => (answer_vSet (by simp) ha).trans hs⟩
    exact hkeeps.perform
  · intro s hs dev hdev
    obtain ⟨hord, -, rfl⟩ := ChargeSupervisor.new_eq_ok hs
    exact ⟨hord, .inl hdev⟩

/-- Through any number of lives, V_SET is never lowered while the output is on. -/
theorem reverseCurrent_safe {packTemp : PackTemp} {s u : LiveBuck Float32}
    {tr : List (LiveBuck Float32 × XyOp Float32)} (h : Lives profile buck packTemp s tr u) :
    ∀ dev v, (dev, .setVoltage v) ∈ tr → ¬ (v < dev.vSet ∧ dev.outputOn = true) := by
  rintro dev v hmem ⟨hlt, hon⟩
  induction h with
  | nil => cases hmem
  | boot n hr _ ih =>
    rcases List.mem_append.1 hmem with hmem | hmem
    · have hoff := (session_safe packTemp n _ _ _ _ trivial hr).1 _ hmem v rfl hlt
      rw [hon] at hoff
      cases hoff
    · exact ih hmem

/-- A buck that takes every write, with a half-charged pack behind it. -/
def obedient (s : LiveBuck Float32) : (op : XyOp Float32) → op.Reply × LiveBuck Float32
  | .checkModel => (.ok ⟨25856, true⟩, { s with held := false })
  | .readStatus => (.ok {
      setpoints := { vSet := s.vSet, iSet := 10.0 }
      vOut := s.vSet
      iOut := 0.0
      pOut := 0.0
      protection := .normal
      outputOn := s.outputOn }, { s with held := false })
  | .readSafetyLimits => (.ok Esp32Battery.buck.limits, { s with held := false })
  | .setVoltage v => (.ok (), { s with vSet := v, held := false })
  | .setOutput on => (.ok (), { s with outputOn := on, held := !on })
  | .setCurrentLimit _ => (.ok (), { s with held := false })
  | .clearProtectionStatus | .setPowerOnDefault _ | .setSafetyLimits _ => (.ok (), s)
  | .sleep d => ((), { s with held := s.held && d = stepDownSettle })
  | .lap => (.fromSecs 1, { s with held := false })
  | .batteryReading => (some ⟨13.0, -0.1, 1.3⟩, { s with held := false })
  | .wdtSubscribe | .wdtReset | .record _ | .updatePs _ | .publishModel _ | .publish _ =>
    ((), { s with held := false })

theorem obedient_answers (s : LiveBuck Float32) (op : XyOp Float32) :
    liveEnv.answer s op (obedient s op).1 (obedient s op).2 := by
  cases op <;> rfl

/-- The step-down of a boot after a reset at the absorb target, the output on, and the way back up
to absorb. -/
theorem reverseCurrent_safe_reset : ∃ dev v, (dev, .setVoltage v) ∈
      (Env.exec obedient (session packProfile Esp32Battery.buck .absent 3) ⟨14.4, true, false⟩).1 ∧
    v < dev.vSet ∧ dev.outputOn = false := by
  have hdown : ((Env.exec obedient (session packProfile Esp32Battery.buck .absent 3)
      ⟨14.4, true, false⟩).1.any fun x => match x.2 with
        | .setVoltage v => v < x.1.vSet
        | _ => false) = true := rfl
  obtain ⟨⟨dev, op⟩, hmem, hlt⟩ := List.any_eq_true.1 hdown
  have hrun := Env.exec_run obedient_answers
    (session packProfile Esp32Battery.buck .absent 3) ⟨14.4, true, false⟩
  cases op with
  | setVoltage v =>
    have hv : v < dev.vSet := of_decide_eq_true hlt
    have hsafe := reverseCurrent_safe (.boot 3 hrun (.nil _)) dev v (by simpa using hmem)
    exact ⟨dev, v, hmem, hv, by simpa [hv] using hsafe⟩
  | _ => cases hlt

end Targets

end Esp32Battery
