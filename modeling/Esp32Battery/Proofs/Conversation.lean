import Esp32Battery.Lib.Conversation
import Esp32Battery.Proofs.Loop
import Esp32Battery.Proofs.TransitionLog

/-!
# What the loop says

The conversations of a turn of the loop, inverted once: what it polled, what it made of the
action, what it drained and published. A turn that a panic ends stops short of the rest. Every
turn feeds the watchdog before it polls.
-/

namespace Esp32Battery

open Lib

variable {F : Type}

abbrev Talk (F : Type) := List (Answered (XyOp F) XyOp.Reply)

/-- The exchange that records an event. -/
def noted (e : Event) : Answered (XyOp F) XyOp.Reply := ⟨.record e, ()⟩

/-- The exchange that feeds the watchdog. -/
def fed : Answered (XyOp F) XyOp.Reply := ⟨.wdtReset, ()⟩

/-- What a V_SET write says, and how it ends. -/
inductive Written (t : VoltageTicket F) : Talk F → VoltageWriteOutcome → Prop
  | live : t.cycleOutput = false → Written t [⟨.setVoltage t.targetV, .ok ()⟩] .committed
  | unwritten (e : BusError) : t.cycleOutput = false →
      Written t [⟨.setVoltage t.targetV, .error e⟩, noted (.xy .setVoltage)] .retry
  | undisabled (e : BusError) : t.cycleOutput = true →
      Written t [⟨.setOutput false, .error e⟩, noted (.xy .setOutput)] .retry
  | cycled : t.cycleOutput = true →
      Written t [⟨.setOutput false, .ok ()⟩, ⟨.sleep stepDownSettle, ()⟩,
        ⟨.setVoltage t.targetV, .ok ()⟩, ⟨.setOutput true, .ok ()⟩] .committed
  | secondTry (e : BusError) : t.cycleOutput = true →
      Written t [⟨.setOutput false, .ok ()⟩, ⟨.sleep stepDownSettle, ()⟩,
        ⟨.setVoltage t.targetV, .ok ()⟩, ⟨.setOutput true, .error e⟩,
        ⟨.setOutput true, .ok ()⟩] .committed
  | leftOff (e e' : BusError) : t.cycleOutput = true →
      Written t [⟨.setOutput false, .ok ()⟩, ⟨.sleep stepDownSettle, ()⟩,
        ⟨.setVoltage t.targetV, .ok ()⟩, ⟨.setOutput true, .error e⟩,
        ⟨.setOutput true, .error e'⟩, noted (.xy .setOutput)] .committed
  | restored (e : BusError) : t.cycleOutput = true →
      Written t [⟨.setOutput false, .ok ()⟩, ⟨.sleep stepDownSettle, ()⟩,
        ⟨.setVoltage t.targetV, .error e⟩, noted (.xy .setVoltage),
        ⟨.setOutput true, .ok ()⟩] .retry
  | unrestored (e e' : BusError) : t.cycleOutput = true →
      Written t [⟨.setOutput false, .ok ()⟩, ⟨.sleep stepDownSettle, ()⟩,
        ⟨.setVoltage t.targetV, .error e⟩, noted (.xy .setVoltage),
        ⟨.setOutput true, .error e'⟩, noted (.xy .setOutput)] .retry

section Write

variable {t : VoltageTicket F} {c : Talk F} {o : VoltageWriteOutcome}

theorem says_noted_bind {α : Type} {e : Event} {f : Unit → XyProg F α} {a : α} :
    (XyOp.perform (.record e) >>= f).Says c a ↔ ∃ c', c = noted e :: c' ∧ (f ()).Says c' a := by
  rw [Prog.says_perform_bind]
  exact ⟨fun ⟨_, c', h⟩ => ⟨c', h⟩, fun ⟨c', h⟩ => ⟨(), c', h⟩⟩

theorem says_applyUpdateVoltage (h : (applyUpdateVoltage t).Says c o) : Written t c o := by
  unfold applyUpdateVoltage at h
  by_cases hc : (!t.cycleOutput) = true
  · rw [if_pos hc] at h
    have hlive : t.cycleOutput = false := by simpa using hc
    rw [Prog.says_perform_bind] at h
    obtain ⟨e | _, c₁, rfl, h⟩ := h
    · rw [says_noted_bind] at h
      obtain ⟨c₂, rfl, h⟩ := h
      obtain ⟨rfl, rfl⟩ := Prog.says_pure.1 h
      exact .unwritten e hlive
    · obtain ⟨rfl, rfl⟩ := Prog.says_pure.1 h
      exact .live hlive
  rw [if_neg hc] at h
  have hcycle : t.cycleOutput = true := by simpa using hc
  rw [Prog.says_perform_bind] at h
  obtain ⟨e | _, c₁, rfl, h⟩ := h
  · rw [says_noted_bind] at h
    obtain ⟨c₂, rfl, h⟩ := h
    obtain ⟨rfl, rfl⟩ := Prog.says_pure.1 h
    exact .undisabled e hcycle
  rw [Prog.says_perform_bind] at h
  obtain ⟨_, c₂, rfl, h⟩ := h
  rw [Prog.says_perform_bind] at h
  obtain ⟨e | _, c₃, rfl, h⟩ := h
  -- The restore after a write that failed.
  · rw [says_noted_bind] at h
    obtain ⟨c₄, rfl, h⟩ := h
    rw [Prog.says_perform_bind] at h
    obtain ⟨e' | _, c₅, rfl, h⟩ := h
    · rw [says_noted_bind] at h
      obtain ⟨c₆, rfl, h⟩ := h
      obtain ⟨rfl, rfl⟩ := Prog.says_pure.1 h
      exact .unrestored e e' hcycle
    · obtain ⟨rfl, rfl⟩ := Prog.says_pure.1 h
      exact .restored e hcycle
  -- The re-enable after a write that did not.
  · rw [Prog.says_perform_bind] at h
    obtain ⟨e | _, c₄, rfl, h⟩ := h
    · rw [Prog.says_perform_bind] at h
      obtain ⟨e' | _, c₅, rfl, h⟩ := h
      · rw [says_noted_bind] at h
        obtain ⟨c₆, rfl, h⟩ := h
        obtain ⟨rfl, rfl⟩ := Prog.says_pure.1 h
        exact .leftOff e e' hcycle
      · obtain ⟨rfl, rfl⟩ := Prog.says_pure.1 h
        exact .secondTry e hcycle
    · obtain ⟨rfl, rfl⟩ := Prog.says_pure.1 h
      exact .cycled hcycle

end Write

/-- What carrying out an action says, and the supervisor it leaves. -/
inductive Applied (s : ChargeSupervisor F) :
    Action F → Talk F → Except Panic (ChargeSupervisor F) → Prop
  | none : Applied s .none [] (.ok s)
  | enabled (t : EnableTicket) :
      Applied s (.enableOutput t) [⟨.setOutput true, .ok ()⟩] (s.commitEnable t)
  | unenabled (t : EnableTicket) (e : BusError) :
      Applied s (.enableOutput t) [⟨.setOutput true, .error e⟩, noted (.xy .setOutput)] (.ok s)
  | disabled (t : DisableTicket) :
      Applied s (.disableOutput t) [⟨.setOutput false, .ok ()⟩] (s.commitDisable t)
  | undisabled (t : DisableTicket) (e : BusError) :
      Applied s (.disableOutput t) [⟨.setOutput false, .error e⟩, noted (.xy .setOutput)] (.ok s)
  | retargeted {t : VoltageTicket F} {c : Talk F} : Written t c .committed →
      Applied s (.updateVoltage t) c (s.commitVoltage t)
  | unretargeted {t : VoltageTicket F} {c : Talk F} : Written t c .retry →
      Applied s (.updateVoltage t) c (.ok s)

section Act

variable {s : ChargeSupervisor F} {a : Action F} {c : Talk F}
  {x : Except Panic (ChargeSupervisor F)}

theorem says_applyAction (h : (applyAction s a).Says c x) : Applied s a c x := by
  cases a with
  | none =>
    obtain ⟨rfl, rfl⟩ := Prog.says_pure.1 h
    exact .none
  | enableOutput t =>
    unfold applyAction at h
    rw [Prog.says_perform_bind] at h
    obtain ⟨e | _, c₁, rfl, h⟩ := h
    · rw [says_noted_bind] at h
      obtain ⟨c₂, rfl, h⟩ := h
      obtain ⟨rfl, rfl⟩ := Prog.says_pure.1 h
      exact .unenabled t e
    · obtain ⟨rfl, rfl⟩ := Prog.says_pure.1 h
      exact .enabled t
  | disableOutput t =>
    unfold applyAction at h
    rw [Prog.says_perform_bind] at h
    obtain ⟨e | _, c₁, rfl, h⟩ := h
    · rw [says_noted_bind] at h
      obtain ⟨c₂, rfl, h⟩ := h
      obtain ⟨rfl, rfl⟩ := Prog.says_pure.1 h
      exact .undisabled t e
    · obtain ⟨rfl, rfl⟩ := Prog.says_pure.1 h
      exact .disabled t
  | updateVoltage t =>
    unfold applyAction at h
    rw [Prog.says_bind] at h
    obtain ⟨_ | _, c₁, c₂, rfl, hw, h⟩ := h
    all_goals
      obtain ⟨rfl, rfl⟩ := Prog.says_pure.1 h
      rw [List.append_nil]
    · exact .retargeted (says_applyUpdateVoltage hw)
    · exact .unretargeted (says_applyUpdateVoltage hw)

end Act

/-- The causes a poll records. -/
def ProtectionLog.causes (log : ProtectionLog) (st : Status F) : List XyError :=
  if st.outputOn || st.protection.isInputLoss || log.last == st.protection then []
  else (XyError.fromProtection st.protection).toList

/-- The exchanges that record them. -/
def ProtectionLog.notes (log : ProtectionLog) (st : Status F) : Talk F :=
  (log.causes st).map fun k => noted (.xy k)

def ProtectionLog.seen (st : Status F) : ProtectionLog :=
  ⟨if st.outputOn then .normal else st.protection⟩

def Status.output (st : Status F) : BuckOutput :=
  if st.outputOn then .on else .off st.protection

def sampleOf (bat : Option (Ina228Reading F)) : Option (BatterySample F) :=
  bat.map fun b => { voltage := b.voltage, current := b.current }

/-- Whether a poll shows the supply lost. -/
def PollResult.inputLost (p : PollResult F) : Bool :=
  match p.output with
  | some (.off cause) => cause.isInputLoss
  | _ => false

/-- What a poll says, what it polled, and the log it leaves. -/
inductive PolledAs (log : ProtectionLog) : Talk F → PollResult F → ProtectionLog → Prop
  | unread (e : BusError) (bat : Option (Ina228Reading F)) :
      PolledAs log [⟨.readStatus, .error e⟩, noted (.xy .readStatus), ⟨.batteryReading, bat⟩]
        ⟨sampleOf bat, none, none, none⟩ log
  | read (st : Status F) (bat : Option (Ina228Reading F)) :
      PolledAs log (⟨.readStatus, .ok st⟩ :: log.notes st ++
        [⟨.updatePs (psReading st), ()⟩, ⟨.batteryReading, bat⟩])
        ⟨sampleOf bat, some st.setpoints, some st.output, none⟩ (ProtectionLog.seen st)

section Poll

variable {log log' : ProtectionLog} {c : Talk F}

theorem says_classify {st : Status F} {x : BuckOutput × ProtectionLog}
    (h : (log.classify st).Says c x) :
    c = log.notes st ∧ x = (st.output, .seen st) := by
  unfold ProtectionLog.classify at h
  unfold ProtectionLog.notes ProtectionLog.causes Status.output ProtectionLog.seen
  by_cases hon : st.outputOn = true
  · rw [if_pos hon] at h
    obtain ⟨rfl, rfl⟩ := Prog.says_pure.1 h
    simp [hon]
  rw [if_neg hon, Prog.says_bind] at h
  obtain ⟨_, c₁, c₂, rfl, hc, h⟩ := h
  obtain ⟨rfl, rfl⟩ := Prog.says_pure.1 h
  refine ⟨?_, by simp [hon]⟩
  rw [List.append_nil]
  unfold ProtectionLog.recordCause at hc
  rcases hk : XyError.fromProtection st.protection with _ | k <;> simp only [hk] at hc
  · obtain ⟨rfl, -⟩ := Prog.says_pure.1 hc
    simp
  by_cases hnew : (!st.protection.isInputLoss && log.last != st.protection) = true
  · rw [if_pos hnew] at hc
    cases Prog.says_perform.1 hc
    simp only [Bool.and_eq_true, Bool.not_eq_true', bne_iff_ne, ne_eq] at hnew
    simp [hon, hnew, noted]
  · rw [if_neg hnew] at hc
    obtain ⟨rfl, -⟩ := Prog.says_pure.1 hc
    simp only [Bool.and_eq_true, Bool.not_eq_true', bne_iff_ne, ne_eq, not_and, not_not] at hnew
    by_cases hloss : st.protection.isInputLoss = true
    · simp [hloss]
    · simp [hnew (by simpa using hloss)]

theorem says_poll [FloatLike F] {x : PollOutcome F × ProtectionLog}
    (h : (poll log).Says c x) :
    PolledAs log c x.1.poll x.2 ∧ x.1.psOffline = x.1.poll.inputLost := by
  unfold poll at h
  rw [Prog.says_perform_bind] at h
  obtain ⟨e | st, c₁, rfl, h⟩ := h
  · rw [says_noted_bind] at h
    obtain ⟨c₂, rfl, h⟩ := h
    unfold readBattery at h
    rw [bind_assoc, Prog.says_perform_bind] at h
    obtain ⟨bat, c₃, rfl, h⟩ := h
    obtain ⟨rfl, rfl⟩ := Prog.says_pure.1 h
    exact ⟨.unread e bat, rfl⟩
  · rw [Prog.says_bind] at h
    obtain ⟨y, c₁, c₂, rfl, hc, h⟩ := h
    obtain ⟨rfl, rfl⟩ := says_classify hc
    rw [Prog.says_perform_bind] at h
    obtain ⟨_, c₃, rfl, h⟩ := h
    unfold readBattery at h
    rw [bind_assoc, Prog.says_perform_bind] at h
    obtain ⟨bat, c₄, rfl, h⟩ := h
    obtain ⟨rfl, rfl⟩ := Prog.says_pure.1 h
    refine ⟨.read st bat, ?_⟩
    unfold PollResult.inputLost
    cases st.output <;> rfl

/-- What holds of the reads of a poll and of any record holds of all it says. -/
theorem PolledAs.forall_op {p : PollResult F} {P : XyOp F → Prop} (h : PolledAs log c p log')
    (hstatus : P .readStatus) (hrecord : ∀ event, P (.record event))
    (hupdate : ∀ ps, P (.updatePs ps)) (hbattery : P .batteryReading) : ∀ x ∈ c, P x.op := by
  cases h with
  | unread => exact List.forall_mem_cons.2 ⟨hstatus, by simp [noted, hrecord, hbattery]⟩
  | read st bat =>
    refine List.forall_mem_cons.2 ⟨hstatus, List.forall_mem_append.2 ⟨fun x hx => ?_, ?_⟩⟩
    · obtain ⟨k, -, rfl⟩ := List.mem_map.1 hx
      exact hrecord _
    · simp [hupdate, hbattery]

end Poll

/-- The exchanges that record what a supervisor has buffered. -/
def ChargeSupervisor.drained (s : ChargeSupervisor F) : Talk F :=
  s.transitions.items.map fun t => noted (.charge t)

theorem drained_forall_op {P : XyOp F → Prop} (hrecord : ∀ event, P (.record event))
    (s : ChargeSupervisor F) : ∀ x ∈ s.drained, P x.op := by
  intro x hx
  obtain ⟨t, -, rfl⟩ := List.mem_map.1 hx
  exact hrecord _

theorem says_drain {n : ℕ} {s s' : ChargeSupervisor F} {c : Talk F}
    (hn : s.transitions.items.length = n) (h : (drain n s).Says c s') :
    c = s.drained ∧ s' = { s with transitions := .new } := by
  unfold ChargeSupervisor.drained
  induction n generalizing s c with
  | zero =>
    obtain ⟨rfl, rfl⟩ := Prog.says_pure.1 h
    have hitems := List.eq_nil_of_length_eq_zero hn
    rw [hitems, ← Deque.eq_new hitems]
    exact ⟨rfl, rfl⟩
  | succ n ih =>
    unfold drain at h
    rcases hp : s.popTransition with ⟨_ | t, s₁⟩
    · simp only [ChargeSupervisor.popTransition, Deque.popFront, Prod.mk.injEq,
        List.head?_eq_none_iff] at hp
      rw [hp.1] at hn
      cases hn
    · obtain ⟨hitems, hsame⟩ := popTransition_some hp
      rw [hitems, List.length_cons] at hn
      rw [hp] at h
      simp only [] at h
      rw [says_noted_bind] at h
      obtain ⟨c₁, rfl, h⟩ := h
      obtain ⟨rfl, rfl⟩ := ih (by omega) h
      exact ⟨by rw [hitems]; rfl, hsame⟩

section Turn

variable [FloatLike F]

/-- What a turn of the loop publishes. -/
def ChargeSupervisor.status (s : ChargeSupervisor F) (p : PollResult F) (phase : Option Phase) :
    ChargeStatus :=
  ⟨p.inputLost, phase, s.parked, s.fault, s.inhibit⟩

/-- What a turn of the loop says once it has fed the watchdog, and what it ends with. -/
inductive Turned (s : ChargeSupervisor F) (log : ProtectionLog) :
    Talk F → Except Panic (ChargeSupervisor F × ProtectionLog) → Prop
  | unjudged {c : Talk F} {p : PollResult F} {log' : ProtectionLog} {e : Duration} {x : Panic} :
      PolledAs log c p log' → s.tick p e = .error x →
      Turned s log (c ++ [⟨.lap, e⟩]) (.error x)
  | unapplied {c c' : Talk F} {p : PollResult F} {log' : ProtectionLog} {e : Duration}
      {a : Action F} {s₁ : ChargeSupervisor F} {x : Panic} :
      PolledAs log c p log' → s.tick p e = .ok (a, s₁) → Applied s₁ a c' (.error x) →
      Turned s log (c ++ ⟨.lap, e⟩ :: c') (.error x)
  | unpublished {c c' : Talk F} {p : PollResult F} {log' : ProtectionLog} {e : Duration}
      {a : Action F} {s₁ s₂ : ChargeSupervisor F} {x : Panic} :
      PolledAs log c p log' → s.tick p e = .ok (a, s₁) → Applied s₁ a c' (.ok s₂) →
      s₂.phase = .error x → Turned s log (c ++ ⟨.lap, e⟩ :: (c' ++ s₂.drained)) (.error x)
  | turn {c c' : Talk F} {p : PollResult F} {log' : ProtectionLog} {e : Duration}
      {a : Action F} {s₁ s₂ : ChargeSupervisor F} {phase : Option Phase} :
      PolledAs log c p log' → s.tick p e = .ok (a, s₁) → Applied s₁ a c' (.ok s₂) →
      s₂.phase = .ok phase →
      Turned s log (c ++ ⟨.lap, e⟩ :: (c' ++ (s₂.drained ++
        [⟨.publish (s₂.status p phase), ()⟩, ⟨.sleep pollInterval, ()⟩])))
        (.ok ({ s₂ with transitions := .new }, log'))

theorem says_iteration {s : ChargeSupervisor F} {log : ProtectionLog} {c : Talk F}
    {x : Except Panic (ChargeSupervisor F × ProtectionLog)} (h : (iteration s log).Says c x) :
    ∃ c', c = fed :: c' ∧ Turned s log c' x := by
  unfold iteration at h
  rw [Prog.says_perform_bind] at h
  obtain ⟨_, c, rfl, h⟩ := h
  refine ⟨c, rfl, ?_⟩
  rw [Prog.says_bind] at h
  obtain ⟨⟨outcome, log'⟩, c₁, c₂, rfl, hpoll, h⟩ := h
  obtain ⟨hpolled, hoffline⟩ := says_poll hpoll
  rw [Prog.says_perform_bind] at h
  obtain ⟨e, c₃, rfl, h⟩ := h
  rcases ht : s.tick outcome.poll e with x | ⟨a, s₁⟩ <;> simp only [ht] at h
  · obtain ⟨rfl, rfl⟩ := Prog.says_pure.1 h
    exact .unjudged hpolled ht
  rw [Prog.says_bind] at h
  obtain ⟨x | s₂, c₄, c₅, rfl, hact, h⟩ := h
  · obtain ⟨rfl, rfl⟩ := Prog.says_pure.1 h
    rw [List.append_nil]
    exact .unapplied hpolled ht (says_applyAction hact)
  simp only [] at h
  rw [Prog.says_bind] at h
  obtain ⟨s₃, c₆, c₇, rfl, hdrain, h⟩ := h
  obtain ⟨rfl, rfl⟩ := says_drain rfl hdrain
  rcases hph : ({ s₂ with transitions := .new } : ChargeSupervisor F).phase with x | phase <;>
    simp only [hph] at h
  · obtain ⟨rfl, rfl⟩ := Prog.says_pure.1 h
    rw [List.append_nil]
    exact .unpublished hpolled ht (says_applyAction hact) hph
  · rw [Prog.says_perform_bind] at h
    obtain ⟨_, c₈, rfl, h⟩ := h
    rw [Prog.says_perform_bind] at h
    obtain ⟨_, c₉, rfl, h⟩ := h
    obtain ⟨rfl, rfl⟩ := Prog.says_pure.1 h
    rw [hoffline]
    exact .turn hpolled ht (says_applyAction hact) hph

/-- The loop says one turn after another, up to the first that a panic ends. -/
inductive LoopTurns : ℕ → ChargeSupervisor F → ProtectionLog → List (Talk F) →
    Except Panic (ChargeSupervisor F) → Prop
  | done (s : ChargeSupervisor F) (log : ProtectionLog) : LoopTurns 0 s log [] (.ok s)
  | panic {n : ℕ} {s : ChargeSupervisor F} {log : ProtectionLog} {c : Talk F} {x : Panic} :
      Turned s log c (.error x) → LoopTurns (n + 1) s log [fed :: c] (.error x)
  | turn {n : ℕ} {s s' : ChargeSupervisor F} {log log' : ProtectionLog} {c : Talk F}
      {cs : List (Talk F)} {x : Except Panic (ChargeSupervisor F)} :
      Turned s log c (.ok (s', log')) → LoopTurns n s' log' cs x →
      LoopTurns (n + 1) s log ((fed :: c) :: cs) x

/-- What every turn establishes of its own exchanges, from what held before it, holds throughout. -/
theorem LoopTurns.throughout {φ : Talk F → Answered (XyOp F) XyOp.Reply → Prop}
    {I : ChargeSupervisor F → Talk F → Prop} {n : ℕ} {s : ChargeSupervisor F} {log : ProtectionLog}
    {cs : List (Talk F)} {x : Except Panic (ChargeSupervisor F)} {past : Talk F}
    (hfed : ∀ s past, I s past → φ past fed ∧ I s (past ++ [fed]))
    (hturn : ∀ s log past c x, I s past → Turned s log c x →
      Throughout φ past c ∧ ∀ s' log', x = .ok (s', log') → I s' (past ++ c))
    (h : LoopTurns n s log cs x) (hs : I s past) : Throughout φ past cs.flatten := by
  induction h generalizing past with
  | done => trivial
  | panic h =>
    obtain ⟨hφ, hs⟩ := hfed _ _ hs
    rw [List.flatten_singleton]
    exact ⟨hφ, (hturn _ _ _ _ _ hs h).1⟩
  | turn h _ ih =>
    obtain ⟨hφ, hs⟩ := hfed _ _ hs
    obtain ⟨hall, hnext⟩ := hturn _ _ _ _ _ hs h
    rw [List.flatten_cons]
    exact ⟨hφ, hall.append (ih (hnext _ _ rfl))⟩

theorem says_loop {n : ℕ} {s : ChargeSupervisor F} {log : ProtectionLog} {c : Talk F}
    {x : Except Panic (ChargeSupervisor F)} (h : (loop n s log).Says c x) :
    ∃ cs, LoopTurns n s log cs x ∧ c = cs.flatten := by
  induction n generalizing s log c with
  | zero =>
    obtain ⟨rfl, rfl⟩ := Prog.says_pure.1 h
    exact ⟨[], .done s log, rfl⟩
  | succ n ih =>
    unfold loop at h
    rw [Prog.says_bind] at h
    obtain ⟨x | ⟨s', log'⟩, c₁, c₂, rfl, hturn, h⟩ := h
    all_goals obtain ⟨c₁, rfl, hturned⟩ := says_iteration hturn
    · obtain ⟨rfl, rfl⟩ := Prog.says_pure.1 h
      exact ⟨[fed :: c₁], .panic hturned, by simp⟩
    · obtain ⟨cs, hcs, rfl⟩ := ih h
      exact ⟨(fed :: c₁) :: cs, .turn hturned hcs, by simp⟩

end Turn

end Esp32Battery
