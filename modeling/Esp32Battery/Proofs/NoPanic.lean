import Esp32Battery.Board
import Esp32Battery.Proofs.FaultFinal

/-!
# The supervisor does not panic

A machine that has not given up holds a target, one that has carries its fault, and a leaky window
that fired was reset by the move it made: between them, every assertion of a tick and of the
commit of its ticket holds. What is left is the assertion of the resting curve, which a pack with
no cells does not get past.
-/

namespace Esp32Battery

open Lib Automaton

namespace Automaton

variable {drift : Phase → Prop} {output : Option BuckOutput} {v w : View} {a : Act}

/-- What the commit of a ticket for `a` asserts. -/
def Committable : Act → View → Prop
  | .none, _ => True
  | .enable, v => v.state.bringingUp = true
  | .retarget phase, v => v.state.retargetTo = some phase
  | .disable r, v => v.state = .tripping ∧ v.fault = some r

theorem Judged.committable (h : Judged drift v w a) : Committable a w := by
  cases h with
  | trip | rise | fall => first | exact ⟨rfl, rfl⟩ | rfl
  | park | inhibit | idle => trivial
  | toPark _ _ _ hr => exact hr
  | enable hb => exact hb
  | retarget hr => exact hr

/-- A beat only asks for what can be committed. -/
theorem Beat.committable (h : Beat drift output v w a) : Committable a w := by
  cases h with
  | tripping r hs hf => exact ⟨hs, hf⟩
  | resurfaced r _ hf => exact ⟨rfl, hf⟩
  | dark => trivial
  | lost | pending => exact ⟨rfl, rfl⟩
  | agree _ hj | hold _ _ _ _ _ hj | resume _ _ _ hj => exact hj.committable

end Automaton

namespace ChargeState

theorem next_enable_isSome {s : ChargeState} (h : s.bringingUp = true) (resume : Bool) :
    (s.next (if resume then .enabledBelowFull else .enabled)).isSome = true := by
  cases s <;> cases h <;> cases resume <;> rfl

theorem next_fault_isSome {s : ChargeState} (h : s.sourcing = true ∨ s.bringingUp = true) :
    (s.next .fault).isSome = true := by
  cases s <;> first | rfl | (rcases h with h | h <;> cases h)

theorem next_park_isSome {s : ChargeState} (hs : s.sourcing = true) (hp : s.isParked = false) :
    (s.next .park).isSome = true := by
  cases s <;> cases hs <;> cases hp <;> rfl

theorem sourcing_of_retargetTo {s : ChargeState} {phase : Phase}
    (h : s.retargetTo = some phase) : s.sourcing = true := by
  cases s <;> cases h <;> rfl

end ChargeState

namespace ChargeSupervisor

section Windows

variable {F : Type} {s s' : ChargeSupervisor F} {d : ChargeState} {a : Action F}

/-- The leaky windows have not fired. -/
structure Unfired (s : ChargeSupervisor F) : Prop where
  exit : s.exit.elapsed < exitDebounce
  absorb : s.absorb.elapsed < maxAbsorb

theorem Unfired.of_reset (he : s.exit = .reset) (ha : s.absorb = .reset) : s.Unfired :=
  ⟨by rw [he]; decide, by rw [ha]; decide⟩

theorem Unfired.of_moved (hs : s.Unfired) (h : s.Moved d s') : s'.Unfired := by
  obtain ⟨tr, rfl⟩ := h
  by_cases hd : d = .tripping ∨ d = .latched
  · exact ⟨by simpa [land, hd] using hs.exit, by simpa [land, hd] using hs.absorb⟩
  · exact .of_reset (by simp [land, hd]) (by simp [land, hd])

variable [FloatLike F] {p : PollResult F} {e : Duration} {b : BatterySample F} {i : Input F}

theorem Unfired.of_onFault {r : FaultReason} (hs : s.Unfired) (h : s.onFault r = .ok (a, s')) :
    s'.Unfired := by
  obtain ⟨d, hm, -⟩ := onFault_eq_ok h
  have hs' : ({ s with fault := some r, inhibit := none } : ChargeSupervisor F).Unfired :=
    ⟨hs.exit, hs.absorb⟩
  exact hs'.of_moved hm

theorem Unfired.of_reconcile {o : Option (Action F)} (hs : s.Unfired)
    (h : s.reconcile p = .ok (o, s')) : s'.Unfired := by
  cases reconcile_cases h with
  | tripping | dark | agree => exact hs
  | resurfaced _ _ _ _ hm => exact hs.of_moved hm
  | lost _ _ _ _ hf => exact hs.of_onFault hf
  | pending _ _ hf => exact hs.of_onFault hf
  | hold _ _ _ _ _ hm => exact hs.of_moved hm
  | resume _ _ _ hm => exact hs.of_moved hm

/-- The machine absorbs, so a cap that fired parks it, which resets the window. -/
theorem onFault_unfired {r : FaultReason} (h : s.onFault r = .ok (a, s'))
    (hs : s.state = .absorb) (hr : r.response = .park) : s'.Unfired := by
  obtain ⟨d, ⟨tr, rfl⟩, ⟨-, -, hn, -⟩ | ⟨hp, -⟩⟩ := onFault_eq_ok h
  · rw [hs] at hn
    cases hn
    exact .of_reset rfl rfl
  · have hp := hp hr
    rw [hs] at hp
    cases hp

theorem Unfired.of_regulate (hs : s.Unfired) (h : s.regulate b e = .ok (a, s')) :
    s'.Unfired := by
  cases regulate_cases h with
  | retarget => exact hs
  | rise _ _ _ hm =>
    obtain ⟨tr, rfl⟩ := hm
    exact .of_reset rfl rfl
  | fall _ _ hm =>
    obtain ⟨tr, rfl⟩ := hm
    exact .of_reset rfl rfl
  | absorbTimeout hst _ _ hf => exact onFault_unfired hf hst rfl
  | chargeTimeout hst _ _ _ hf => exact onFault_unfired hf hst rfl
  | absorbing _ hx hc =>
    exact ⟨Debounce.stepLeaky_unfired hs.exit hx, Debounce.stepLeaky_unfired hs.absorb hc⟩
  | idle _ _ _ hx => exact ⟨Debounce.stepLeaky_false_lt hs.exit hx, hs.absorb⟩

theorem Unfired.of_dispatch {v : Verdict F} (hs : s.Unfired) (h : s.dispatch v e = .ok (a, s')) :
    s'.Unfired := by
  cases dispatch_cases h with
  | latch r hf => exact hs.of_onFault hf
  | inhibit | enable => exact ⟨hs.exit, hs.absorb⟩
  | regulate b _ hreg =>
    exact of_regulate (s := { s with inhibit := none }) ⟨hs.exit, hs.absorb⟩ hreg

theorem Unfired.of_tick (hs : s.Unfired) (h : s.tick p e = .ok (a, s')) : s'.Unfired := by
  rcases tick_eq_ok h with hr | ⟨s₁, v, s₂, hr, hg, hd⟩
  · exact hs.of_reconcile hr
  · have hs₁ := hs.of_reconcile hr
    have hs₂ : s₂.Unfired := by
      obtain ⟨_, _, _, _, _, _, rfl⟩ := gauntlet_clocked hg
      exact ⟨hs₁.exit, hs₁.absorb⟩
    exact hs₂.of_dispatch hd

theorem Unfired.of_turn (hs : s.Unfired) (h : s.turn i = .ok (a, s')) : s'.Unfired := by
  obtain ⟨s₁, s₂, tr, ht, hc, rfl⟩ := turn_eq_ok h
  have hs₁ := hs.of_tick ht
  have hs₂ : s₂.Unfired := by
    rcases hc with ⟨-, hc⟩ | ⟨-, rfl⟩
    · rcases commit_cases hc with ⟨-, rfl⟩ | ⟨_, _, -, -, hm⟩
      · exact hs₁
      · exact hs₁.of_moved hm
    · exact hs₁
  exact ⟨hs₂.exit, hs₂.absorb⟩

theorem Reachable.unfired (h : s.Reachable) : s.Unfired := by
  induction h with
  | new h =>
    obtain ⟨-, -, rfl⟩ := new_eq_ok h
    exact .of_reset rfl rfl
  | turn _ h ih => exact ih.of_turn h

end Windows

section Panics

variable {s s' : ChargeSupervisor Float32} {p : PollResult Float32} {e : Duration}
  {b : BatterySample Float32} {i : Input Float32} {a : Action Float32}
  {E : Panic → Prop}

theorem updateVoltageFor_panics {phase : Phase} (hs : s.state.setpointPhase = some phase)
    (next : Phase) : PanicsOnly E (s.updateVoltageFor next) := by
  simp only [updateVoltageFor, targetVoltage, expectedSetpoints, hs]
  exact .ok _

theorem step_panics {event : ChargeEvent} (h : (s.state.next event).isSome = true) :
    PanicsOnly E (s.step event) := by
  obtain ⟨d, hd⟩ := Option.isSome_iff_exists.1 h
  obtain ⟨s₁, hs₁, -⟩ := step_ok hd
  exact .of_eq_ok hs₁

/-- A fault finds its way out of every machine that has not given up, and a fault that parks is
only raised by one that sources. -/
theorem onFault_panics {r : FaultReason} (hs : s.state.sourcing = true ∨ s.state.bringingUp = true)
    (hr : r.response = .park → s.state.sourcing = true) : PanicsOnly E (s.onFault r) := by
  unfold onFault
  simp only []
  split_ifs with hp
  · have hsrc := hr hp.1
    refine .bind (step_panics (ChargeState.next_park_isSome hsrc (by simpa using hp.2))) ?_
    intro s₁ hs₁
    obtain ⟨d, hn, hm⟩ := step_eq_ok hs₁
    split
    · rename_i next hto
      have hphase : ∃ phase, s₁.state.setpointPhase = some phase :=
        ChargeState.exists_setpointPhase (.inl (ChargeState.sourcing_of_retargetTo hto))
      obtain ⟨phase, hphase⟩ := hphase
      exact .bind (updateVoltageFor_panics hphase next) fun _ _ => .ok _
    · exact .ok _
  · refine .bind (step_panics (ChargeState.next_fault_isSome hs)) ?_
    intro s₁ hs₁
    obtain ⟨d, -, tr, rfl⟩ := step_eq_ok hs₁
    exact .ok _

theorem disable_panics (hf : s.fault.isSome = true) : PanicsOnly E s.disableForLatchedFault :=
  .bind (.expect hf _) fun _ _ => .ok _

theorem reconcile_panics (hs : Consistent s.view) : PanicsOnly E (s.reconcile p) := by
  have hfault : Terminal s.state → s.fault.isSome = true := by
    intro ht
    have hc : s.fault.isSome = s.state.faulted := hs
    rw [hc]
    rcases ht with ht | ht <;> rw [ht] <;> rfl
  unfold reconcile
  split
  · rename_i hst
    exact .bind (disable_panics (hfault (.inl hst))) fun _ _ => .ok _
  · rename_i hst _
    refine .bind (step_panics (by rw [hst]; rfl)) fun s₁ hs₁ => ?_
    obtain ⟨d, -, tr, rfl⟩ := step_eq_ok hs₁
    exact .bind (disable_panics (hfault (.inr hst))) fun _ _ => .ok _
  · exact .ok _
  · rename_i cause _ _ _
    split_ifs with hsrc hclr
    · exact .bind (step_panics hclr.2) fun _ _ => .ok _
    · exact .bind (onFault_panics (.inl hsrc) fun _ => hsrc) fun _ _ => .ok _
    · exact .ok _
  · split_ifs with hb hh
    · refine .bind (step_panics ?_) fun _ _ => .ok _
      revert hh
      cases s.state <;> decide
    · exact .bind (onFault_panics (.inr hb) nofun) fun _ _ => .ok _
    · exact .ok _
  · exact .ok _

theorem faultOrInhibit_panics {r : FaultReason}
    (hr : s.state.sourcing = false → r.inhibited.isSome = true) :
    PanicsOnly E (s.faultOrInhibit r) := by
  unfold faultOrInhibit
  split_ifs with hs
  · exact .ok _
  · exact .bind (.expect (hr (by simpa using hs)) _) fun _ _ => .ok _

theorem gauntletOn_panics : PanicsOnly E (s.gauntletOn p b e) := by
  unfold gauntletOn
  simp only []
  split
  · exact .ok _
  split
  · exact .ok _
  split
  · exact .ok _
  split
  · split
    · exact faultOrInhibit_panics fun _ => rfl
    split
    · split
      · exact faultOrInhibit_panics fun _ => rfl
      split
      · exact faultOrInhibit_panics fun _ => rfl
      · exact .ok _
    · exact .ok _
  · exact .ok _

/-- Every check that may find its fault with the output off has a waiting form for it. -/
theorem gauntlet_panics (hs : s.state.sourcing = true ∨ s.state.bringingUp = true) :
    PanicsOnly E (s.gauntlet p e) := by
  obtain ⟨phase, hp⟩ := ChargeState.exists_setpointPhase hs
  unfold gauntlet
  simp only []
  split
  · exact .ok _
  split
  · rename_i _ hd
    rcases hsp : p.setpoints with _ | sp
    · rw [hsp] at hd
      cases hd
    · have hd' : s.setpointsDrift p.setpoints = .error _ := hd
      rw [setpointsDrift_eq hsp hp] at hd'
      cases hd'
  · exact faultOrInhibit_panics fun _ => rfl
  split
  · exact faultOrInhibit_panics fun _ => rfl
  split
  · exact faultOrInhibit_panics fun _ => rfl
  split
  · exact .ok _
  · exact gauntletOn_panics

/-- The panic of the resting curve on a pack with no cells. -/
def noCells (cells : ℕ) (e : Panic) : Prop := cells = 0 ∧ e = ⟨"assertion failed: cells > 0"⟩

theorem soc_panics {profile : Profile Float32} (hu8 : profile.cells < 256) (v : Float32) :
    PanicsOnly (noCells profile.cells) (profile.soc v) := by
  rcases Nat.eq_zero_or_pos profile.cells with h | h
  · intro err herr
    simp only [Profile.soc, ocvSoc, h, lt_irrefl, decide_false, require_false, error_bind] at herr
    cases herr
    exact ⟨h, rfl⟩
  · obtain ⟨soc, hsoc⟩ := ocvSoc_ok profile.chemistry h hu8 v
    exact .of_eq_ok hsoc

theorem restedFull_panics (hu8 : s.profile.cells < 256) :
    PanicsOnly (noCells s.profile.cells) (s.restedFull b) := by
  unfold restedFull
  split_ifs
  · refine .bind (soc_panics hu8 _) fun _ _ => .bind ?_ fun _ _ => .ok _
    exact .bind (soc_panics hu8 _) fun _ _ => .ok _
  · exact .ok _

theorem absorbCaps_panics (hs : s.state = .absorb) (hw : s.absorb.elapsed < maxAbsorb) :
    PanicsOnly E (s.absorbCaps b e) := by
  obtain ⟨fired, absorb, hx, -⟩ := Debounce.stepLeaky_ok hw (s.atCvPlateau b.voltage) e
  have hsrc : s.state.sourcing = true := by rw [hs]; rfl
  unfold absorbCaps
  simp only [hx, ok_bind]
  split_ifs
  · exact onFault_panics (.inl hsrc) fun _ => hsrc
  · exact onFault_panics (.inl hsrc) fun _ => hsrc
  · exact .ok _

theorem regulate_panics (hs : s.state.sourcing = true) (hw : s.Unfired) :
    PanicsOnly E (s.regulate b e) := by
  obtain ⟨phase, hp⟩ := ChargeState.exists_setpointPhase (.inl hs)
  unfold regulate
  split
  · exact .bind (updateVoltageFor_panics hp _) fun _ _ => .ok _
  obtain ⟨done, exit, hx, -⟩ := Debounce.stepLeaky_ok hw.exit
    (decide (s.state = .absorb ∧ b.chargingA < s.profile.exitAbsorbA)) e
  simp only [hx, ok_bind]
  split_ifs with hrise hfall habs
  · refine .bind (step_panics (by simp only [hrise.1]; rfl)) fun s₁ hs₁ => ?_
    obtain ⟨d, hn, hm⟩ := step_eq_ok hs₁
    simp only [hrise.1] at hn
    cases hn
    exact .bind (updateVoltageFor_panics (by rw [hm.state]; rfl) _) fun _ _ => .ok _
  · refine .bind (step_panics (by simp only [hfall.1]; rfl)) fun s₁ hs₁ => ?_
    obtain ⟨d, hn, hm⟩ := step_eq_ok hs₁
    simp only [hfall.1] at hn
    cases hn
    exact .bind (updateVoltageFor_panics (by rw [hm.state]; rfl) _) fun _ _ => .ok _
  · exact absorbCaps_panics habs hw.absorb
  · exact .ok _

/-- What the gauntlet makes of a machine that agrees with the output can be acted on. -/
theorem dispatch_panics {s₁ : ChargeSupervisor Float32} {v : Verdict Float32}
    (hs : s₁.state.sourcing = true ∨ s₁.state.bringingUp = true) (hw : s₁.Unfired)
    (hu8 : s₁.profile.cells < 256) (hg : s₁.gauntlet p e = .ok (v, s)) :
    PanicsOnly (noCells s₁.profile.cells) (s.dispatch v e) := by
  obtain ⟨_, _, _, _, _, _, rfl⟩ := gauntlet_clocked hg
  cases v with
  | latch r =>
    refine onFault_panics hs fun hr => ?_
    rcases (gauntlet_latch hg).1 with hsrc | rfl
    · exact hsrc
    · cases hr
  | inhibit i => exact .ok _
  | clear b =>
    unfold dispatch
    simp only []
    split_ifs with hb
    · exact .bind (restedFull_panics hu8) fun _ _ => .ok _
    · exact regulate_panics (hs.resolve_right hb) ⟨hw.exit, hw.absorb⟩

theorem tick_panics (hs : Consistent s.view) (hw : s.Unfired) (hu8 : s.profile.cells < 256) :
    PanicsOnly (noCells s.profile.cells) (s.tick p e) := by
  unfold tick
  refine .bind (reconcile_panics hs) ?_
  rintro ⟨a | a, s₁⟩ hr
  · have hready := (reconcile_cases hr).ready
    have hcells : s₁.profile.cells = s.profile.cells := by rw [(SameBoard.of_reconciled hr).profile]
    refine .bind (gauntlet_panics hready) fun ⟨v, s₂⟩ hg => ?_
    rw [← hcells] at hu8 ⊢
    exact dispatch_panics hready (hw.of_reconcile hr) hu8 hg
  · exact .ok _

/-- A ticket is committed to the machine its tick left. -/
theorem commit_panics {act : Act} (ha : s.Realizes a act) (hc : Committable act s.view) :
    PanicsOnly E (s.commit a) := by
  cases a with
  | none => exact .ok _
  | enableOutput t =>
    cases act with
    | enable => exact step_panics (ChargeState.next_enable_isSome hc _)
    | none | retarget | disable => cases ha
  | updateVoltage t =>
    cases act with
    | retarget phase =>
      obtain ⟨live, -, rfl⟩ := ha
      have hto : s.state.retargetTo = some phase := hc
      refine .bind (.require (by simp [hto])) fun _ _ => step_panics ?_
      revert hto
      cases s.state <;> rintro ⟨⟩ <;> rfl
    | none | enable | disable => cases ha
  | disableOutput t =>
    cases act with
    | disable r =>
      obtain ⟨hst, hf⟩ := hc
      have hst : s.state = .tripping := hst
      have hf : s.fault = some r := hf
      cases ha
      exact .bind (.require (by simp [hf])) fun _ _ => step_panics (by rw [hst]; rfl)
    | none | enable | retarget => cases ha

theorem turn_panics (hs : Consistent s.view) (hw : s.Unfired) (hu8 : s.profile.cells < 256) :
    PanicsOnly (noCells s.profile.cells) (s.turn i) := by
  unfold turn
  refine .bind (tick_panics hs hw hu8) fun ⟨a, s₁⟩ ht => ?_
  obtain ⟨act, hb, ha⟩ := tick_beat ht
  simp only []
  split_ifs
  · exact .bind (commit_panics ha hb.committable) fun _ _ => .ok _
  · exact .ok _

theorem run_panics {is : List (Input Float32)} (hs : s.Reachable) (hu8 : s.profile.cells < 256) :
    PanicsOnly (noCells s.profile.cells) (s.run is) := by
  induction is generalizing s with
  | nil => exact .ok _
  | cons i is ih =>
    refine .bind (turn_panics hs.consistent hs.unfired hu8) fun ⟨a, s₁⟩ ht => ?_
    have hcells : s₁.profile.cells = s.profile.cells := by rw [(SameBoard.of_turn ht).profile]
    refine .bind ?_ fun _ _ => .ok _
    rw [← hcells] at hu8 ⊢
    exact ih (hs.turn ht) hu8

theorem new_profile {profile : Profile Float32} {iSetA : Float32} {packTemp : PackTemp}
    (h : new profile iSetA packTemp = .ok s) : s.profile = profile := by
  obtain ⟨-, -, rfl⟩ := new_eq_ok h
  rfl

/-- No run panics, one that finds no cells to read the resting curve with apart. -/
theorem run_never_panics {profile : Profile Float32} {iSetA : Float32} {packTemp : PackTemp}
    (hu8 : profile.cells < 256) (h : new profile iSetA packTemp = .ok s)
    (is : List (Input Float32)) :
    (0 < profile.cells → ∃ as s', s.run is = .ok (as, s')) ∧
    (∀ err, s.run is = .error err →
      profile.cells = 0 ∧ err = ⟨"assertion failed: cells > 0"⟩) ∧
    (∀ as s', s.run is = .ok (as, s') →
      s'.exit.elapsed < exitDebounce ∧ s'.absorb.elapsed < maxAbsorb) := by
  have hprof := new_profile h
  have hs : s.Reachable := .new h
  have hpanics : PanicsOnly (noCells profile.cells) (s.run is) := by
    rw [← hprof] at hu8 ⊢
    exact run_panics hs hu8
  refine ⟨fun hc => ?_, hpanics, fun as s' hr => ?_⟩
  · rcases hr : s.run is with err | ⟨as, s'⟩
    · have := (hpanics err hr).1
      omega
    · exact ⟨as, s', rfl⟩
  · have hw := (hs.of_run hr).unfired
    exact ⟨hw.exit, hw.absorb⟩

theorem run_never_panics_pack : ∃ as s',
    (bootSupervisor .fitted).run (⟨fullPoll (.off .normal) none, .max, false, 0⟩ ::
      seconds 3 (fullPoll (.off .lvp) (some .nan))) = .ok (as, s') ∧
    s'.exit.elapsed < exitDebounce := by
  let is := ⟨fullPoll (.off .normal) none, .max, false, 0⟩ ::
    seconds 3 (fullPoll (.off .lvp) (some .nan))
  obtain ⟨hok, -, hw⟩ := run_never_panics (by decide) (new_bootSupervisor .fitted) is
  obtain ⟨as, s', hr⟩ := hok (by decide)
  exact ⟨as, s', hr, (hw as s' hr).1⟩

/-- A full pack of no cells is let past `new` and stops at its first bring-up. -/
theorem run_panics_without_cells : ∃ s : ChargeSupervisor Float32,
    new { packProfile with cells := 0 } buck.iSetA .absent = .ok s ∧
    s.run (seconds 1 (fullPoll (.off .normal) none))
      = .error ⟨"assertion failed: cells > 0"⟩ :=
  ⟨_, rfl, rfl⟩

end Panics

end ChargeSupervisor

end Esp32Battery
