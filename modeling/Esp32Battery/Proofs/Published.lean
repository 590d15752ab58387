import Esp32Battery.Proofs.Energising
import Esp32Battery.Proofs.Inhibit
import Esp32Battery.Proofs.NoPanic

/-!
# What the loop publishes

The status a turn publishes is read off the supervisor the turn leaves, and off the same poll. Its
fields then agree with each other: a fault shows as parked or dark by its response, a dark buck
shows why, and the supply is not shown lost under a running phase.
-/

namespace Esp32Battery

open Lib Automaton

namespace Automaton

variable {drift : Phase → Prop} {output : Option BuckOutput} {v w : View} {a : Act}

/-- A fault that disables has ended the machine. -/
def DisablesForGood (v : View) : Prop :=
  ∀ r, v.fault = some r → r.response = .disable → Terminal v.state

theorem Judged.disablesForGood (h : Judged drift v w a) (hv : DisablesForGood v)
    (hready : ¬ Terminal v.state) : DisablesForGood w := by
  have same : ∀ {s : ChargeState} {i : Option InhibitReason},
      DisablesForGood ⟨s, v.fault, i⟩ := fun r hr hd => absurd (hv r hr hd) hready
  cases h with
  | trip => exact fun _ _ _ => .inl rfl
  | park r hr | toPark r hr =>
    rintro r' ⟨⟩ hd
    rw [hr] at hd
    cases hd
  | inhibit | enable | retarget | idle | rise | fall => exact same

theorem Beat.disablesForGood (h : Beat drift output v w a) (hv : DisablesForGood v) :
    DisablesForGood w := by
  have moved : ∀ {s : ChargeState}, ¬ Terminal v.state → DisablesForGood ⟨s, v.fault, v.inhibit⟩ :=
    fun hready r hr hd => absurd (hv r hr hd) hready
  cases h with
  | tripping r hs | dark hs => exact hv
  | resurfaced | lost | pending => exact fun _ _ _ => .inl rfl
  | agree hag hj => exact hj.disablesForGood hv (not_terminal hag.ready)
  | hold _ _ _ hs hn hj =>
    refine hj.disablesForGood (moved (not_terminal (.inl hs))) (not_terminal (.inr ?_))
    exact ChargeState.bringingUp_of_holding (ChargeState.next_selfDisabled hn)
  | resume _ hh hn hj =>
    refine hj.disablesForGood (moved (not_terminal (.inr ?_))) (not_terminal (.inl ?_))
    · exact ChargeState.bringingUp_of_holding hh
    · exact ChargeState.next_selfEnabled hh hn

/-- Only a machine that gives up asks for the output to be disabled. -/
theorem Beat.disable_terminal {r : FaultReason} (h : Beat drift output v w (.disable r)) :
    Terminal w.state := by
  cases h with
  | tripping _ hs => exact .inl hs
  | resurfaced | lost | pending => exact .inl rfl
  | agree _ hj | hold _ _ _ _ _ hj | resume _ _ _ hj =>
    cases hj
    exact .inl rfl

/-- A sourcing machine waits for a sample, if for anything. -/
theorem Beat.waits_sample {i : InhibitReason} (h : Beat drift output v w a)
    (hi : w.inhibit = some i) : w.state.sourcing = false ∨ i = .noBatterySample := by
  have judged : ∀ {v : View}, Judged drift v w a →
      w.state.sourcing = false ∨ i = .noBatterySample := by
    intro v hj
    cases hj with
    | inhibit i' _ _ hsrc =>
      cases hi
      by_cases hs : v.state.sourcing = true
      · exact .inr (hsrc hs)
      · exact .inl (by simpa using hs)
    | trip | park | toPark | enable | retarget | rise | fall | idle => cases hi
  cases h with
  | tripping _ hs | dark hs => exact .inl (by rw [hs]; rfl)
  | resurfaced => exact .inl rfl
  | lost | pending => cases hi
  | agree _ hj | hold _ _ _ _ _ hj | resume _ _ _ hj => exact judged hj

/-- No commit begins a bring-up. -/
theorem Committed.bringingUp {s s' : ChargeState} (h : Committed a s s')
    (hb : s'.bringingUp = true) : a = .none := by
  cases h with
  | none => rfl
  | enable resume hn =>
    exfalso
    revert hn
    cases resume <;> cases s <;> rintro ⟨⟩ <;> cases hb
  | retarget _ hn | disable _ hn =>
    exfalso
    revert hn
    cases s <;> rintro ⟨⟩ <;> cases hb

/-- A bring-up that says nothing of why it waits has asked for output-on. -/
theorem Beat.asks (h : Beat drift output v w a) (hv : Terminal v.state → v.inhibit = none)
    (hb : w.state.bringingUp = true) (hi : w.inhibit = none) : a = .enable := by
  have hready : ¬ Terminal w.state := not_terminal (.inr hb)
  have hdark := ChargeState.sourcing_of_bringingUp hb
  cases a with
  | none =>
    rcases h.waits hv with hw | ⟨hs, -⟩
    · have := hw.2 ⟨hb, rfl⟩
      rw [hi] at this
      cases this
    · rw [hdark] at hs
      cases hs
  | enable => rfl
  | retarget phase =>
    rw [ChargeState.sourcing_of_retargetTo h.retargetTo] at hdark
    cases hdark
  | disable r => exact absurd h.disable_terminal hready

end Automaton

/-- The fields of a published status agree with each other. -/
structure ChargeStatus.Coherent (st : ChargeStatus) : Prop where
  parked : st.parked = true ↔ st.phase.isSome = true ∧ st.fault.isSome = true
  parks : st.parked = true → ∀ r, st.fault = some r → r.response = .park
  disables : ∀ r, st.fault = some r → r.response = .disable → st.phase = none ∧ st.inhibit = none
  waits : ∀ i, st.inhibit = some i → st.phase = none ∨ i = .noBatterySample
  offline : st.psOffline = true →
    st.phase = none ∧ (st.fault.isSome = true ∨ st.inhibit.isSome = true)

/-- A dark buck with nothing to show for it. -/
def ChargeStatus.Unexplained (st : ChargeStatus) : Prop :=
  st.phase = none ∧ st.fault = none ∧ st.inhibit = none

namespace ChargeSupervisor

variable {F : Type} [FloatLike F] {s s' s₁ s₂ : ChargeSupervisor F} {p : PollResult F}
  {e : Duration} {a : Action F} {c : Talk F} {log log' : ProtectionLog} {phase : Option Phase}

theorem Reachable.disablesForGood (h : s.Reachable) : DisablesForGood s.view := by
  induction h with
  | new h =>
    obtain ⟨-, -, rfl⟩ := new_eq_ok h
    rintro r ⟨⟩
  | turn _ h ih =>
    obtain ⟨v, act, hb, -, hv | ⟨hc, hf, -⟩⟩ := turn_beat h
    · rw [hv]
      exact hb.disablesForGood ih
    · intro r hr hd
      exact hc.terminal (hb.disablesForGood ih r (hf ▸ hr) hd)

omit [FloatLike F] in
theorem phase_eq_ok (h : s.phase = .ok phase) : phase.isSome = s.state.sourcing := by
  unfold ChargeSupervisor.phase ChargeState.regulatingPhase at h
  split_ifs at h with hs
  · rcases hp : s.state.setpointPhase with _ | ph <;> rw [hp] at h <;> cases h
    exact hs.symm
  · cases h
    simpa using hs

end ChargeSupervisor

section Turn

variable {F : Type} [FloatLike F] {s s' s₁ s₂ : ChargeSupervisor F} {p : PollResult F}
  {e : Duration} {a : Action F} {c : Talk F} {log log' : ProtectionLog} {phase : Option Phase}

/-- An enable whose transfer failed. -/
def Unenabled (x : Answered (XyOp F) XyOp.Reply) : Prop :=
  ∃ e, x = ⟨.setOutput true, .error e⟩

omit [FloatLike F] in
/-- An action is committed, or its ticket dropped; an enable's only when its transfer failed. -/
theorem Applied.outcome (h : Applied s a c (.ok s')) :
    s.commit a = .ok s' ∨ s' = s ∧ ∀ t, a = .enableOutput t → ∃ x ∈ c, Unenabled x := by
  generalize hx : Except.ok s' = x at h
  cases h with
  | none =>
    cases hx
    exact .inl rfl
  | enabled | disabled | retargeted => exact .inl rfl
  | unenabled t e =>
    cases hx
    exact .inr ⟨rfl, fun _ _ => ⟨_, List.mem_cons_self .., e, rfl⟩⟩
  | undisabled | unretargeted =>
    cases hx
    exact .inr ⟨rfl, by simp⟩

theorem Turned.reachable (h : Turned s log c (.ok (s', log'))) (hs : s.Reachable) :
    s'.Reachable := by
  generalize hx : Except.ok (s', log') = x at h
  cases h with
  | unjudged | unapplied | unpublished => cases hx
  | @turn _ _ p _ e a s₁ s₂ _ _ ht ha _ =>
    cases hx
    have hturn : ∃ i, s.turn i = .ok (a, { s₂ with transitions := .new }) := by
      rcases ha.outcome with hc | ⟨rfl, -⟩
      · refine ⟨⟨p, e, true, s₂.transitions.items.length⟩, ?_⟩
        simp only [ChargeSupervisor.turn, ht, ok_bind, if_pos, hc, ChargeSupervisor.popN_length]
        rfl
      · refine ⟨⟨p, e, false, s₂.transitions.items.length⟩, ?_⟩
        simp only [ChargeSupervisor.turn, ht, ok_bind, Bool.false_eq_true, if_false,
          ChargeSupervisor.popN_length]
        rfl
    obtain ⟨i, hi⟩ := hturn
    exact hs.turn hi

omit [FloatLike F] in
theorem inputLost_eq_true (h : p.inputLost = true) :
    ∃ cause, p.output = some (.off cause) ∧ cause.isInputLoss = true := by
  unfold PollResult.inputLost at h
  split at h
  · exact ⟨_, ‹_›, h⟩
  · cases h

/-- A lost supply is waited out, not switched on against. -/
theorem not_enable_of_inputLost (hp : p.inputLost = true) (ht : s.tick p e = .ok (a, s₁)) :
    ∀ t, a ≠ .enableOutput t := by
  rintro t rfl
  obtain ⟨cause, hout, hloss⟩ := inputLost_eq_true hp
  obtain ⟨b, hg, -⟩ := ChargeSupervisor.tick_enable ht
  obtain ⟨cause', hcause, hclear⟩ := hg.output _ hout
  cases hcause
  rw [ProtectionStatus.isSelfClearing_of_isInputLoss hloss] at hclear
  cases hclear

/-- After a turn that read the output off for a lost supply, the machine is not sourcing. -/
theorem dark_of_inputLost (hp : p.inputLost = true) (ht : s.tick p e = .ok (a, s₁))
    (ha : Applied s₁ a c (.ok s₂)) : s₂.state.sourcing = false := by
  obtain ⟨cause, hout, -⟩ := inputLost_eq_true hp
  obtain ⟨act, hb, hre⟩ := ChargeSupervisor.tick_beat ht
  have hdark : s₁.state.sourcing = false := hb.agrees.1 cause hout
  rcases ha.outcome with hc | ⟨rfl, -⟩
  · obtain ⟨hcom, -, -⟩ := ChargeSupervisor.commit_committed hre hc
    generalize s₂.state = d at hcom ⊢
    cases hcom with
    | none => exact hdark
    | enable _ _ =>
      cases a with
      | enableOutput t => exact absurd rfl (not_enable_of_inputLost hp ht t)
      | none | updateVoltage | disableOutput => cases hre
    | retarget hr _ =>
      rw [ChargeState.sourcing_of_retargetTo hr] at hdark
      cases hdark
    | disable r hn =>
      revert hn
      cases s₁.state <;> rintro ⟨⟩
      rfl
  · exact hdark

/-- A dark buck that shows neither a fault nor a reason has just refused an enable. -/
theorem unenabled_of_unexplained (hs : s.Reachable) (ht : s.tick p e = .ok (a, s₁))
    (ha : Applied s₁ a c (.ok s₂)) (hb₂ : s₂.state.bringingUp = true) (hi₂ : s₂.inhibit = none) :
    (∃ t, a = .enableOutput t) ∧ ∃ x ∈ c, Unenabled x := by
  obtain ⟨act, hb, hre⟩ := ChargeSupervisor.tick_beat ht
  rcases ha.outcome with hc | ⟨rfl, hdropped⟩
  · obtain ⟨hcom, -, hi⟩ := ChargeSupervisor.commit_committed hre hc
    exfalso
    rw [hi] at hi₂
    obtain rfl := hcom.bringingUp hb₂
    generalize hd : s₂.state = d at hcom hb₂
    cases hcom
    cases hb.asks hs.inhibit_terminal hb₂ hi₂
  · cases hb.asks hs.inhibit_terminal hb₂ hi₂
    cases a with
    | enableOutput t => exact ⟨⟨t, rfl⟩, hdropped t rfl⟩
    | none | updateVoltage | disableOutput => cases hre

/-- The status of a turn: its fields agree, and a dark buck shows why unless the turn's enable
failed. -/
theorem turn_coherent (hs : s.Reachable) (ht : s.tick p e = .ok (a, s₁))
    (ha : Applied s₁ a c (.ok s₂))
    (hr : ({ s₂ with transitions := .new } : ChargeSupervisor F).Reachable)
    (hph : s₂.phase = .ok phase) : (s₂.status p phase).Coherent ∧
      ((s₂.status p phase).Unexplained → ∃ x ∈ c, Unenabled x) := by
  have hphase := ChargeSupervisor.phase_eq_ok hph
  have hfault : s₂.fault.isSome = s₂.state.faulted := hr.consistent
  have hterm : Terminal s₂.state → s₂.inhibit = none := hr.inhibit_terminal
  have hgood : ∀ r, s₂.fault = some r → r.response = .disable → Terminal s₂.state :=
    hr.disablesForGood
  have hnone : s₂.state.sourcing = false → phase = none := fun h => by
    rw [h] at hphase
    simpa using hphase
  have hbring : s₂.state.sourcing = false → s₂.fault = none → s₂.state.bringingUp = true := by
    intro hdark hf
    rw [hf] at hfault
    revert hdark hfault
    cases s₂.state <;> simp [ChargeState.sourcing, ChargeState.faulted, ChargeState.bringingUp]
  refine ⟨⟨?_, ?_, ?_, ?_, ?_⟩, ?_⟩
  · show s₂.state.isParked = true ↔ phase.isSome = true ∧ s₂.fault.isSome = true
    rw [hphase, hfault]
    cases s₂.state <;> decide
  · intro hpark r hf
    by_contra hne
    have hres : r.response = .disable := by
      revert hne
      cases r.response <;> simp
    have hpark' : s₂.state.isParked = true := hpark
    rcases hgood r hf hres with h | h <;> rw [h] at hpark' <;> cases hpark'
  · intro r hf hres
    have ht' := hgood r hf hres
    refine ⟨hnone ?_, hterm ht'⟩
    rcases ht' with h | h <;> rw [h] <;> rfl
  · intro i hi
    obtain ⟨act, hb, hre⟩ := ChargeSupervisor.tick_beat ht
    have hi₁ : s₁.inhibit = some i ∧ (s₁.state.sourcing = false → s₂.state.sourcing = false) := by
      rcases ha.outcome with hc | ⟨rfl, -⟩
      · obtain ⟨hcom, -, hi'⟩ := ChargeSupervisor.commit_committed hre hc
        have hsome : s₁.inhibit = some i := hi'.symm.trans hi
        refine ⟨hsome, fun hdark => ?_⟩
        have hact : act = .none := by
          by_contra hne
          rw [show s₁.inhibit = none from hb.inhibit_none hs.inhibit_terminal hne] at hsome
          cases hsome
        subst hact
        generalize s₂.state = d at hcom ⊢
        cases hcom
        exact hdark
      · exact ⟨hi, id⟩
    exact (hb.waits_sample hi₁.1).imp (fun hdark => hnone (hi₁.2 hdark)) id
  · intro hlost
    have hdark := dark_of_inputLost hlost ht ha
    refine ⟨hnone hdark, ?_⟩
    by_contra hneither
    obtain ⟨hf, hi⟩ : s₂.fault = none ∧ s₂.inhibit = none := by
      simpa [ChargeSupervisor.status] using hneither
    obtain ⟨⟨t, hask⟩, -⟩ := unenabled_of_unexplained hs ht ha (hbring hdark hf) hi
    exact not_enable_of_inputLost hlost ht t hask
  · rintro ⟨hph', hf, hi⟩
    have hdark : s₂.state.sourcing = false := by
      rw [← hphase, show phase = none from hph']
      rfl
    exact (unenabled_of_unexplained hs ht ha (hbring hdark hf) hi).2

/-- A status shows a coherent picture, and a dark buck unexplained only where an enable has failed
since the last status. -/
def Candid (past : Talk F) (x : Answered (XyOp F) XyOp.Reply) : Prop :=
  ∀ st, x.op = .publish st → st.Coherent ∧ (st.Unexplained →
    Since (fun y => ∀ st', y.op ≠ .publish st') (fun _ y => Unenabled y) past)

def Unpublished (c : Talk F) : Prop := ∀ x ∈ c, ∀ st, x.op ≠ .publish st

section Unpublished

omit [FloatLike F]

theorem Unpublished.append {c' : Talk F} (h : Unpublished c) (h' : Unpublished c') :
    Unpublished (c ++ c') := List.forall_mem_append.2 ⟨h, h'⟩

theorem PolledAs.unpublished (h : PolledAs log c p log') : Unpublished c :=
  h.forall_op (P := fun op => ∀ st, op ≠ .publish st) (by simp) (by simp) (by simp) (by simp)

theorem Applied.unpublished {x : Except Panic (ChargeSupervisor F)} (h : Applied s a c x) :
    Unpublished c := by
  cases h with
  | none | enabled | unenabled | disabled | undisabled => simp [Unpublished, noted]
  | retargeted hw | unretargeted hw => cases hw <;> simp [Unpublished, noted]

theorem drained_unpublished (s : ChargeSupervisor F) : Unpublished s.drained :=
  drained_forall_op (P := fun op => ∀ st, op ≠ .publish st) (by simp) s

/-- What a turn says before it publishes. -/
theorem PolledAs.unpublished_turn {e : Duration} {x : Except Panic (ChargeSupervisor F)}
    (hp : PolledAs log c p log') (ha : Applied s a c' x) (s₂ : ChargeSupervisor F) :
    Unpublished (c ++ [⟨.lap, e⟩] ++ c' ++ s₂.drained) :=
  ((hp.unpublished.append (by simp [Unpublished])).append ha.unpublished).append
    (drained_unpublished s₂)

end Unpublished

/-- A turn that panics publishes nothing. -/
theorem Turned.quiet_of_panic {e : Panic} (h : Turned s log c (.error e)) : Unpublished c := by
  have lap : ∀ {c : Talk F} {e : Duration}, Unpublished c →
      Unpublished ((⟨.lap, e⟩ : Answered (XyOp F) XyOp.Reply) :: c) :=
    fun h => List.forall_mem_cons.2 ⟨by simp, h⟩
  generalize hx : Except.error e = x at h
  cases h with
  | unjudged hp _ => exact hp.unpublished.append (by simp [Unpublished])
  | unapplied hp _ ha => exact hp.unpublished.append (lap ha.unpublished)
  | unpublished hp _ ha _ =>
    exact hp.unpublished.append (lap (ha.unpublished.append (drained_unpublished _)))
  | turn => cases hx

omit [FloatLike F] in
theorem Unpublished.candid {past : Talk F} (h : Unpublished c) : Throughout Candid past c :=
  .of_forall fun x hx _ st hop => absurd hop (h x hx st)

theorem Turned.candid {past : Talk F} {x : Except Panic (ChargeSupervisor F × ProtectionLog)}
    (hs : s.Reachable) (h : Turned s log c x) : Throughout Candid past c := by
  rcases x with e | ⟨s', log'⟩
  · exact h.quiet_of_panic.candid
  have hreach := h.reachable hs
  cases h with
  | @turn c c' p _ elapsed _ _ s₂ phase hp ht ha hph =>
    obtain ⟨hco, hun⟩ := turn_coherent hs ht ha hreach hph
    have hall : c ++ ⟨.lap, elapsed⟩ :: (c' ++ (s₂.drained ++
        [⟨.publish (s₂.status p phase), ()⟩, ⟨.sleep pollInterval, ()⟩])) =
        c ++ [⟨.lap, elapsed⟩] ++ c' ++ s₂.drained ++
          [⟨.publish (s₂.status p phase), ()⟩, ⟨.sleep pollInterval, ()⟩] := by
      simp
    rw [hall]
    refine .append (hp.unpublished_turn ha s₂).candid
      ⟨?_, Unpublished.candid (by simp [Unpublished])⟩
    rintro st ⟨⟩
    refine ⟨hco, fun hdark => ?_⟩
    obtain ⟨x, hx, hfail⟩ := hun hdark
    have hquiet : Unpublished (c' ++ s₂.drained) := ha.unpublished.append (drained_unpublished _)
    rw [List.append_assoc, ← List.append_assoc past]
    exact (Since.of_mem (List.mem_append_left _ hx) (fun _ => hfail) hquiet).of_append
      fun _ _ hy => hy

theorem LoopTurns.candid {past : Talk F} {n : ℕ} {cs : List (Talk F)}
    {x : Except Panic (ChargeSupervisor F)} (hs : s.Reachable) (h : LoopTurns n s log cs x) :
    Throughout Candid past cs.flatten := by
  refine h.throughout (I := fun s _ => s.Reachable) (fun s past hs => ⟨?_, hs⟩) ?_ hs
  · exact fun _ hop => by cases hop
  · rintro s log past c x hs hturn
    refine ⟨hturn.candid hs, ?_⟩
    rintro s' log' rfl
    exact hturn.reachable hs

end Turn

section Session

variable {F : Type} [FloatLike F] {profile : Profile F} {buck : BuckSetup F} {c : Talk F}

/-- Every status of a session is coherent: parked is a fault that parks with the output up, a fault
that disables shows no phase and no reason, a lost supply no phase but a fault or a reason, a reason
beside a phase is a missing sample. And a dark buck without fault or reason has refused an enable
since the status before. -/
theorem published_coherent {packTemp : PackTemp} {n : ℕ}
    {x : Option (Except Panic (ChargeSupervisor F))} {c₁ c₂ : Talk F} {st : ChargeStatus}
    (h : (session profile buck packTemp n).Says c x) (hc : c = c₁ ++ ⟨.publish st, ()⟩ :: c₂) :
    st.Coherent ∧ (st.Unexplained →
      Since (fun y => ∀ st', y.op ≠ .publish st') (fun _ y => Unenabled y) c₁) := by
  obtain ⟨bs, check, st', limits, post, s, x', -, -, rfl, hnew, hloop⟩ := session_loop h rfl hc
  obtain ⟨cs, hcs, hflat⟩ := says_loop hloop
  have hall : Throughout Candid (opening profile buck bs check st' limits) cs.flatten :=
    hcs.candid (.new hnew)
  rw [← hflat] at hall
  exact hall.at_entry st rfl

end Session

/-- The status of a buck that has just refused an enable. -/
theorem published_coherent_tripped : ∃ c₁ st c₂, trippedSession = c₁ ++ ⟨.publish st, ()⟩ :: c₂ ∧
    st.Coherent ∧ st.Unexplained ∧
      Since (fun y => ∀ st', y.op ≠ .publish st') (fun _ y => Unenabled y) c₁ := by
  have hany : (trippedSession.any fun x => match x.op with
      | .publish st => st.phase = none ∧ st.fault = none ∧ st.inhibit = none
      | _ => false) = true := by
    decide +kernel
  obtain ⟨⟨op, r⟩, hmem, hop⟩ := List.any_eq_true.1 hany
  obtain ⟨c₁, c₂, hc⟩ := List.append_of_mem hmem
  cases op with
  | publish st =>
    have hdark : st.Unexplained := by simpa [ChargeStatus.Unexplained] using hop
    obtain ⟨hco, hun⟩ := published_coherent (Prog.says_converse tripped
      (session packProfile buck .absent 2) ()) hc
    exact ⟨c₁, st, c₂, hc, hco, hdark, hun hdark⟩
  | _ => cases hop

end Esp32Battery
