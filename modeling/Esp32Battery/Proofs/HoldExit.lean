import Esp32Battery.Proofs.ChargeCap
import Esp32Battery.Proofs.EnergiseGate

/-!
# The two ways out of a hold

A hold that was entered at the float target ends with the output back on, either because the
supervisor asked for it or because the buck came back by itself. The ticket carries what the
resting pack said of itself; the table's cell for a buck that came back does not.
-/

namespace Esp32Battery

open Lib Automaton

namespace Automaton

variable {drift : Phase → Prop} {output : Option BuckOutput} {v w : View} {a : Act}

/-- At the float target with no fault: the only hold from here is `HoldFloat`. -/
def AtFloat (s : ChargeState) : Prop := s = .float ∨ s = .toAbsorb ∨ s = .holdFloat

theorem Judged.holdFloat (h : Judged drift v w a) (hv : AtFloat v.state)
    (hw : w.state.holding = true) : w.state = .holdFloat := by
  have hsame : v.state.holding = true → v.state = .holdFloat := by
    intro hh
    rcases hv with hv | hv | hv
    · rw [hv] at hh
      cases hh
    · rw [hv] at hh
      cases hh
    · exact hv
  cases h with
  | trip | rise | fall => cases hw
  | park _ _ hn | toPark _ _ hn =>
    obtain ⟨-, rfl | ⟨rfl, -⟩⟩ := ChargeState.next_park hn <;> cases hw
  | inhibit | enable | retarget | idle => exact hsame hw

theorem next_selfDisabled_atFloat {s d : ChargeState} (hs : AtFloat s)
    (h : s.next .selfDisabled = some d) : d = .holdFloat := by
  rcases hs with rfl | rfl | rfl <;> cases h <;> rfl

theorem next_selfEnabled_atFloat {s d : ChargeState} (hs : AtFloat s)
    (h : s.next .selfEnabled = some d) : d = .float := by
  rcases hs with rfl | rfl | rfl <;> cases h
  rfl

/-- A hold entered there is that one. -/
theorem Beat.holdFloat (h : Beat drift output v w a) (hv : AtFloat v.state)
    (hw : w.state.holding = true) : w.state = .holdFloat := by
  cases h with
  | tripping _ hs | dark hs =>
    rw [hs] at hw
    cases hw
  | resurfaced | lost | pending => cases hw
  | agree _ hj => exact hj.holdFloat hv hw
  | hold _ _ _ _ hn hj =>
    exact hj.holdFloat (.inr (.inr (next_selfDisabled_atFloat hv hn))) hw
  | resume _ _ hn hj => exact hj.holdFloat (.inl (next_selfEnabled_atFloat hv hn)) hw

end Automaton

namespace ChargeSupervisor

variable {F : Type} [FloatLike F]

/-- The samples of these polls that were taken with the output off. -/
def restingSamples (is : List (Input F)) : List (BatterySample F) :=
  is.filterMap fun i => if i.poll.output = some .on then none else i.poll.usableBattery

/-- The hold that the first of the turns took `s` into from the float target, and that the last
has not left. -/
inductive InHold (s : ChargeSupervisor F) : List (Input F) → ChargeSupervisor F → Prop
  | enter {i : Input F} {a : Action F} {t : ChargeSupervisor F} :
      s.state = .float ∨ s.state = .toAbsorb → s.turn i = .ok (a, t) → t.state.holding = true →
      InHold s [i] t
  | wait {i : Input F} {is : List (Input F)} {a : Action F} {t t' : ChargeSupervisor F} :
      InHold s is t → t.turn i = .ok (a, t') → t'.state.holding = true → InHold s (is ++ [i]) t'

/-- The output is back on: the buck's own doing, or a ticket's. -/
inductive Leaves (s : ChargeSupervisor F) (i : Input F) : ChargeSupervisor F → Prop
  | selfEnabled {a : Action F} {s' : ChargeSupervisor F} : i.poll.output = some .on →
      s.tick i.poll i.elapsed = .ok (a, s') → Leaves s i s'
  | enabled {ticket : EnableTicket} {s₁ s' : ChargeSupervisor F} :
      s.tick i.poll i.elapsed = .ok (.enableOutput ticket, s₁) →
      s₁.commitEnable ticket = .ok s' → Leaves s i s'

variable {s s' t t' : ChargeSupervisor F} {i : Input F} {is : List (Input F)} {a : Action F}
  {b : BatterySample F}

/-- A turn that ends in a hold ended its tick there. -/
theorem turn_holdFloat (h : s.turn i = .ok (a, s')) (hs : AtFloat s.state)
    (hs' : s'.state.holding = true) : s'.state = .holdFloat := by
  obtain ⟨s₁, s₂, tr, ht, hc, rfl⟩ := turn_eq_ok h
  obtain ⟨act, hbeat, -⟩ := tick_beat ht
  have hsame : s₂ = s₁ := by
    rcases hc with ⟨-, hc⟩ | ⟨-, rfl⟩
    · rcases commit_cases hc with ⟨-, rfl⟩ | ⟨event, d, hne, hn, hm⟩
      · rfl
      · have hno := ChargeState.next_not_holding hne hn
        rw [← hm.state] at hno
        cases hno.symm.trans hs'
    · rfl
  subst hsame
  exact hbeat.holdFloat hs hs'

theorem InHold.holdFloat (h : s.InHold is t) : t.state = .holdFloat := by
  induction h with
  | enter hs ht hhold =>
    exact turn_holdFloat ht (hs.elim .inl fun h => .inr (.inl h)) hhold
  | wait _ ht hhold ih => exact turn_holdFloat ht (.inr (.inr ih)) hhold

theorem InHold.sameBoard (h : s.InHold is t) : s.SameBoard t := by
  induction h with
  | enter _ ht => exact .of_turn ht
  | wait _ ht _ ih => exact ih.trans (.of_turn ht)

theorem restedFull_of_sameBoard (h : s.SameBoard t) (b : BatterySample F) :
    t.restedFull b = s.restedFull b := by
  unfold restedFull
  rw [h.profile]

/-- A hold that reads its output on goes back to the float target before anything is checked. -/
theorem reconcile_holdFloat {p : PollResult F} {o : Option (Action F)} (hs : t.state = .holdFloat)
    (ho : p.output = some .on) (h : t.reconcile p = .ok (o, t')) :
    o = none ∧ t.Moved .float t' := by
  cases reconcile_cases h with
  | tripping _ hst | dark hst | pending _ hst => cases hs.symm.trans hst
  | resurfaced _ hst => cases hs.symm.trans hst
  | lost _ hout => cases ho.symm.trans hout
  | agree hag =>
    rw [ho, hs] at hag
    cases hag
  | hold _ hout => cases ho.symm.trans hout
  | resume _ _ hn hm =>
    have hd := next_selfEnabled_atFloat (.inr (.inr hs)) hn
    subst hd
    exact ⟨rfl, hm⟩

/-- `Float` is left for absorb on the pack's draw, and for nothing else. -/
theorem regulate_float {e : Duration} (hs : t.state = .float)
    (h : t.regulate b e = .ok (a, t')) :
    (t'.state = .toAbsorb ↔ t.profile.enterAbsorbA < b.chargingA) ∧
      (t'.state = .toAbsorb ∨ t'.state = .float) := by
  cases regulate_cases h with
  | retarget next hn =>
    rw [hs] at hn
    cases hn
  | rise _ hrise _ hm => exact ⟨⟨fun _ => hrise, fun _ => hm.state⟩, .inl hm.state⟩
  | fall habs | absorbTimeout habs | chargeTimeout habs | absorbing habs =>
    cases hs.symm.trans habs
  | idle _ _ hrise =>
    refine ⟨⟨fun h => ?_, fun h => absurd h (hrise hs)⟩, .inr hs⟩
    cases hs.symm.trans h

/-- A buck that came back by itself is regulated to the float target, and steps up on what it
draws alone. -/
theorem selfEnabled_resumes {p : PollResult F} {e : Duration} (hs : t.state = .holdFloat)
    (ho : p.output = some .on) (h : t.tick p e = .ok (a, t')) (hf : t'.fault = none) :
    (t'.state = .toAbsorb ↔
      ∃ b, p.usableBattery = some b ∧ t.profile.enterAbsorbA < b.chargingA) ∧
    (t'.state = .toAbsorb ∨ t'.state = .float) := by
  rcases tick_eq_ok h with hr | ⟨s₁, v, s₂, hr, hg, hd⟩
  · cases (reconcile_holdFloat hs ho hr).1
  obtain ⟨-, hm⟩ := reconcile_holdFloat hs ho hr
  have hsrc : s₁.state.sourcing = true := by
    rw [hm.state]
    rfl
  have hst : s₂.state = .float :=
    (congrArg View.state (gauntlet_clocked hg).view).trans hm.state
  have hprofile : s₂.profile = t.profile :=
    ((SameBoard.of_moved hm).trans (.of_clocked (gauntlet_clocked hg))).profile
  cases dispatch_cases hd with
  | latch r =>
    have hfault := dispatch_fault hd
    rw [hf] at hfault
    cases hfault
  | inhibit r =>
    obtain ⟨-, hno⟩ := (gauntlet_inhibit hg).1 hsrc
    rw [hno]
    simp [hst]
  | enable b full hb =>
    rw [hst] at hb
    cases hb
  | regulate b _ hreg =>
    obtain ⟨hiff, hor⟩ := regulate_float (t := { s₂ with inhibit := none }) hst hreg
    refine ⟨hiff.trans ?_, hor⟩
    rw [gauntlet_clear_sample hsrc hg, ← hprofile]
    simp

/-- A ticket brings a pack that is not full up on its way to absorb. -/
theorem enabled_resumes {ticket : EnableTicket} {p : PollResult F} {e : Duration}
    (hs : t.state = .holdFloat) (h : t.tick p e = .ok (.enableOutput ticket, s'))
    (hc : s'.commitEnable ticket = .ok t') (hb : p.usableBattery = some b)
    (hfull : t.restedFull b = .ok false) : t'.state = .toAbsorb := by
  obtain ⟨b', hgate, rfl⟩ := tick_enable h
  have hsample : b' = b := Option.some.inj (hgate.battery.symm.trans hb)
  subst hsample
  have hresume : ticket.resumeAbsorb = true := by
    have hrested := Except.ok.inj (hgate.rested.symm.trans hfull)
    simpa using hrested
  unfold commitEnable at hc
  rw [hresume] at hc
  obtain ⟨d, hn, hm⟩ := step_eq_ok hc
  rw [show (t.energised p e b').state = .holdFloat from hs] at hn
  cases hn
  exact hm.state

/-- A hold was entered from the float target, and the latest sample of the pack at rest says it is
not full. Unless the tick latches, the way out leads up to absorb exactly when it was a ticket's,
or the poll that found the buck back on has it charging above `enter_absorb_a`; and otherwise to
`Float`. -/
theorem drained_iff (hheld : s.InHold is t) (hleave : t.Leaves i t')
    (hrest : (restingSamples (is ++ [i])).getLast? = some b)
    (hdrained : s.restedFull b = .ok false) (hlatch : t'.fault = none) :
    (t'.state = .toAbsorb ↔ i.poll.output ≠ some .on ∨
      ∃ b', i.poll.usableBattery = some b' ∧ s.profile.enterAbsorbA < b'.chargingA) ∧
    (t'.state = .toAbsorb ∨ t'.state = .float) := by
  have hs := hheld.holdFloat
  have hboard := hheld.sameBoard
  cases hleave with
  | selfEnabled ho ht =>
    obtain ⟨hiff, hstate⟩ := selfEnabled_resumes hs ho ht hlatch
    refine ⟨?_, hstate⟩
    rw [hiff, hboard.profile]
    simp [ho]
  | enabled ht hc =>
    obtain ⟨b', hgate, -⟩ := tick_enable ht
    have ho : i.poll.output ≠ some .on := by
      intro ho
      obtain ⟨cause, hoff, -⟩ := hgate.output _ ho
      cases hoff
    -- the sample the ticket was decided on is the latest at rest
    have hlast : i.poll.usableBattery = some b := by
      simp only [restingSamples, List.filterMap_append, List.filterMap_cons, List.filterMap_nil,
        if_neg ho, hgate.battery] at hrest
      rw [hgate.battery]
      simpa using hrest
    rw [← restedFull_of_sameBoard hboard] at hdrained
    have hup := enabled_resumes hs ht hc hlast hdrained
    exact ⟨⟨fun _ => .inl ho, fun _ => hup⟩, .inl hup⟩

section Drained

/-- A poll a second, the ticket left to `Leaves`. -/
def second (output : BuckOutput) : Input Float32 := ⟨restPoll (some output), .fromSecs 1, true, 1⟩

/-- Sagged out of Float, the pack at forty per cent. -/
def sagged : ChargeSupervisor Float32 := after floatSupervisor [second (.off .lvp)]

theorem sagged_inHold : floatSupervisor.InHold [second (.off .lvp)] sagged :=
  .enter (a := .none) (.inl (by decide +kernel)) (by decide +kernel) (by decide +kernel)

theorem sagged_drained (i : Input Float32) (h : i.poll = restPoll (some .on) ∨
      i.poll = restPoll (some (.off .normal))) :
    (restingSamples ([second (.off .lvp)] ++ [i])).getLast? = some ⟨13.0, -0.1⟩ ∧
      floatSupervisor.restedFull ⟨13.0, -0.1⟩ = .ok false := by
  refine ⟨?_, by decide +kernel⟩
  unfold restingSamples
  simp only [List.filterMap_append, List.filterMap_cons, List.filterMap_nil]
  rcases h with h | h <;> rw [h] <;> decide +kernel

theorem drained_iff_ticket : ∃ t', sagged.Leaves (second (.off .normal)) t' ∧
    t'.state = .toAbsorb := by
  have ht : sagged.tick (restPoll (some (.off .normal))) (.fromSecs 1)
      = .ok (.enableOutput ⟨true⟩,
        after sagged [⟨restPoll (some (.off .normal)), .fromSecs 1, false, 0⟩]) := by
    decide +kernel
  have hc : (after sagged [⟨restPoll (some (.off .normal)), .fromSecs 1, false, 0⟩]).commitEnable
      ⟨true⟩ = .ok (after sagged [⟨restPoll (some (.off .normal)), .fromSecs 1, true, 0⟩]) := by
    decide +kernel
  obtain ⟨hlast, hfull⟩ := sagged_drained (second (.off .normal)) (.inr rfl)
  refine ⟨_, .enabled ht hc, (drained_iff sagged_inHold (.enabled ht hc) hlast hfull ?_).1.2 ?_⟩
  · decide +kernel
  · exact .inl (by simp [second, restPoll])

/-- The same pack, its buck back by itself: nothing is owed, and the machine is in `Float`. -/
theorem drained_stalls : ¬ ∀ (s t t' : ChargeSupervisor Float32) (is : List (Input Float32))
    (i : Input Float32) (b : BatterySample Float32), s.Reachable → s.InHold is t →
      t.Leaves i t' → (restingSamples (is ++ [i])).getLast? = some b →
      s.restedFull b = .ok false → t'.fault = none → t'.state = .toAbsorb := by
  intro h
  have ht : sagged.tick (restPoll (some .on)) (.fromSecs 1)
      = .ok (.none, after sagged [⟨restPoll (some .on), .fromSecs 1, false, 0⟩]) := by
    decide +kernel
  have hreach : floatSupervisor.Reachable := after_reachable (bootSupervisor_reachable .absent) _
  obtain ⟨hlast, hfull⟩ := sagged_drained (second .on) (.inl rfl)
  have hup := h _ _ _ _ (second .on) _ hreach sagged_inHold (.selfEnabled rfl ht) hlast hfull
    (by decide +kernel)
  revert hup
  decide +kernel

end Drained

end ChargeSupervisor

end Esp32Battery
