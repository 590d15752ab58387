import Esp32Battery.Proofs.Tick
import Esp32Battery.Xy.Run

/-!
# The loop's rule

Whatever ties a supervisor to the buck holds after every turn of the loop, if the operations that
do not reach the buck keep it and carrying out a tick's action re-establishes it.
-/

namespace Esp32Battery

open Lib

variable {F : Type} [FloatLike F]

/-- The operations that do not reach the buck. -/
def XyOp.quiet : XyOp F → Bool
  | .wdtSubscribe | .wdtReset | .sleep _ | .lap | .record _ | .updatePs _ | .batteryReading
  | .publishModel _ | .publish _ => true
  | _ => false

section Loop

variable {S : Type} {E : Env S (XyOp F) XyOp.Reply} {safe : S → XyOp F → Prop}
  {I J : ChargeSupervisor F → S → Prop} {K : ChargeSupervisor F → PollResult F → S → Prop}
  {L : ChargeSupervisor F → PollResult F → Duration → S → Prop}
  {Sees : ChargeSupervisor F → Setpoints F → Prop}

section Classify

variable {P : S → Prop} (hrecord : ∀ ev, E.Keeps safe P (.record ev))

include hrecord

omit [FloatLike F] in
theorem holds_recordCause (log : ProtectionLog) (cause : ProtectionStatus) {α : Type}
    {f : Unit → XyProg F α} {Q : α → S → Prop} (hf : E.Holds safe P (f ()) Q) :
    E.Holds safe P (log.recordCause cause >>= f) Q := by
  unfold ProtectionLog.recordCause
  rcases XyError.fromProtection cause with _ | ev
  · exact hf
  · by_cases hc : (!cause.isInputLoss && log.last != cause) = true
    · simp only [if_pos hc]
      exact (hrecord _).bind fun _ => hf
    · simp only [if_neg hc]
      exact hf

omit [FloatLike F] in
/-- Classifying a status records at most a cause, and answers what the output reads. -/
theorem holds_classify (log : ProtectionLog) (st : Status F) {α : Type}
    {f : BuckOutput × ProtectionLog → XyProg F α} {Q : α → S → Prop}
    (hf : ∀ x, x.1 = (if st.outputOn then .on else .off st.protection) →
      E.Holds safe P (f x) Q) : E.Holds safe P (log.classify st >>= f) Q := by
  unfold ProtectionLog.classify
  by_cases ho : st.outputOn = true
  · rw [if_pos ho]
    exact hf _ (by rw [if_pos ho])
  · rw [if_neg ho, bind_assoc]
    exact holds_recordCause hrecord log st.protection (hf _ (by rw [if_neg ho]))

end Classify

/-- What the loop's rule asks: `I` between turns, `K` once the buck is polled, `L` once the time of
the tick is known, and `J` from the action to the publishing. -/
structure LoopRule (E : Env S (XyOp F) XyOp.Reply) (safe : S → XyOp F → Prop)
    (I : ChargeSupervisor F → S → Prop) (K : ChargeSupervisor F → PollResult F → S → Prop)
    (L : ChargeSupervisor F → PollResult F → Duration → S → Prop)
    (J : ChargeSupervisor F → S → Prop) : Prop where
  feeds : ∀ s, E.Keeps safe (I s) .wdtReset
  polls : ∀ s log, E.Holds safe (I s) (poll log) fun x dev => K s x.1.poll dev
  laps : ∀ s p, E.Holds safe (K s p) (XyOp.perform .lap) fun e dev => L s p e dev
  acts : ∀ s p e a s₁, s.tick p e = .ok (a, s₁) →
    E.Holds safe (L s p e) (applyAction s₁ a) fun x dev => ∀ s₂, x = .ok s₂ → J s₂ dev
  records : ∀ s t, E.Keeps safe (J s) (.record (.charge t))
  pops : ∀ s dev, J s dev → J s.popTransition.2 dev
  publishes : ∀ s st, st.fault = s.fault →
    E.Holds safe (J s) (XyOp.perform (.publish st)) fun _ dev => I s dev
  sleeps : ∀ s, E.Keeps safe (I s) (.sleep pollInterval)

namespace LoopRule

variable (h : LoopRule E safe I K L J)

include h

theorem drain (n : ℕ) (s : ChargeSupervisor F) :
    E.Holds safe (J s) (drain n s) fun s' dev => J s' dev ∧ s'.fault = s.fault := by
  have hstable : ∀ s, E.Stable (J s) := fun s => (h.records s .latched).stable
  induction n generalizing s with
  | zero => exact .pure (hstable s) fun _ hJ => ⟨hJ, rfl⟩
  | succ n ih =>
    have hpop := h.pops s
    have hfault : s.popTransition.2.fault = s.fault := rfl
    unfold Esp32Battery.drain
    rcases hp : s.popTransition with ⟨_ | t, s'⟩ <;> rw [hp] at hpop hfault
    · exact .pure (hstable s) fun dev hJ => ⟨hpop dev hJ, hfault⟩
    · refine ((h.records s' t).bind fun _ => ih s').mono hpop fun _ _ hQ => ⟨hQ.1, ?_⟩
      exact hQ.2.trans hfault

/-- One turn of the loop keeps the invariant. -/
theorem iteration (s : ChargeSupervisor F) (log : ProtectionLog) :
    E.Holds safe (I s) (iteration s log) fun x dev => ∀ s' log', x = .ok (s', log') → I s' dev := by
  have herr : ∀ (e : Panic) (P : S → Prop), E.Stable P →
      E.Holds safe P (.pure (.error e)) fun (x : Except Panic (_ × ProtectionLog)) dev =>
        ∀ s' log', x = .ok (s', log') → I s' dev :=
    fun e P hP => .pure hP fun _ _ _ _ hx => by cases hx
  have hJ : ∀ s, E.Stable (J s) := fun s => (h.records s .latched).stable
  unfold Esp32Battery.iteration
  refine (h.feeds s).bind fun _ => ?_
  refine (h.polls s log).bind fun ⟨outcome, log⟩ => ?_
  refine (h.laps s outcome.poll).bind fun elapsed => ?_
  rcases ht : s.tick outcome.poll elapsed with e | ⟨action, s₁⟩ <;> simp only []
  · exact (herr e (fun _ => True) fun _ _ _ _ => trivial).mono (fun _ _ => trivial)
      fun _ _ hQ => hQ
  refine (h.acts s outcome.poll elapsed action s₁ ht).bind ?_
  rintro (e | s₂) <;> simp only []
  · exact .pure (fun _ _ _ _ s₂ hx => by cases hx) fun _ _ _ _ hx => by cases hx
  refine .mono (P := J s₂) ?_ (fun _ hJ => hJ s₂ rfl) fun _ _ hQ => hQ
  refine (h.drain _ s₂).bind fun s₃ => ?_
  refine .mono (P := J s₃) ?_ (fun _ hJ => hJ.1) fun _ _ hQ => hQ
  rcases hph : s₃.phase with e | phase <;> simp only []
  · exact herr e _ (hJ s₃)
  refine (h.publishes s₃ _ rfl).bind fun _ => ?_
  refine (h.sleeps s₃).bind fun _ => ?_
  refine .pure (h.sleeps s₃).stable fun dev hI s' log' hx => ?_
  cases hx
  exact hI

theorem loop (n : ℕ) (s : ChargeSupervisor F) (log : ProtectionLog) :
    E.Holds safe (I s) (loop n s log) fun x dev => ∀ s', x = .ok s' → I s' dev := by
  have hstable : E.Stable (I s) := (h.sleeps s).stable
  induction n generalizing s log with
  | zero =>
    refine .pure hstable fun dev hI s' hx => ?_
    cases hx
    exact hI
  | succ n ih =>
    unfold Esp32Battery.loop
    refine (h.iteration s log).bind ?_
    rintro (e | ⟨s₁, log⟩) <;> simp only []
    · exact .pure (fun _ _ _ _ s₂ _ hx => by cases hx) fun _ _ _ hx => by cases hx
    · exact (ih s₁ log (h.sleeps s₁).stable).mono (fun _ hI => hI s₁ log rfl) fun _ _ hQ => hQ

end LoopRule

/-- What the loop asks of an invariant `I` that is kept throughout; `Sees` is what a status read
tells. -/
structure LoopInvariant (E : Env S (XyOp F) XyOp.Reply) (safe : S → XyOp F → Prop)
    (I : ChargeSupervisor F → S → Prop) (Sees : ChargeSupervisor F → Setpoints F → Prop) :
    Prop where
  quiet : ∀ s op, op.quiet = true → E.Keeps safe (I s) op
  reads : ∀ s, E.Keeps safe (I s) .readStatus
  sees : ∀ s dev st dev', I s dev → E.answer dev .readStatus (.ok st) dev' → Sees s st.setpoints
  acts : ∀ s p e a s₁, (∀ sp, p.setpoints = some sp → Sees s sp) → s.tick p e = .ok (a, s₁) →
    E.Holds safe (I s) (applyAction s₁ a) fun x dev => ∀ s₂, x = .ok s₂ → I s₂ dev
  pops : ∀ s dev, I s dev → I s.popTransition.2 dev

namespace LoopInvariant

variable (h : LoopInvariant E safe I Sees)

include h

theorem stable (s : ChargeSupervisor F) : E.Stable (I s) := (h.reads s).stable

theorem pure {α : Type} (s : ChargeSupervisor F) (a : α) {Q : α → S → Prop}
    (hQ : ∀ dev, I s dev → Q a dev) : E.Holds safe (I s) (pure a) Q :=
  .pure (h.stable s) hQ

theorem readBattery (s : ChargeSupervisor F) {α : Type}
    {f : Option (BatterySample F) → XyProg F α} {Q : α → S → Prop}
    (hf : ∀ b, E.Holds safe (I s) (f b) Q) : E.Holds safe (I s) (readBattery >>= f) Q :=
  (h.quiet s .batteryReading rfl).bind fun _ => hf _

theorem poll (s : ChargeSupervisor F) (log : ProtectionLog) {α : Type}
    {f : PollOutcome F × ProtectionLog → XyProg F α} {Q : α → S → Prop}
    (hf : ∀ x, (∀ sp, x.1.poll.setpoints = some sp → Sees s sp) → E.Holds safe (I s) (f x) Q) :
    E.Holds safe (I s) (poll log >>= f) Q := by
  unfold Esp32Battery.poll
  rw [bind_assoc]
  refine .perform_bind (fun r dev => I s dev ∧ ∀ st, r = .ok st → Sees s st.setpoints)
    (h.stable s) (h.reads s).safe ?_ ?_
  · intro dev r dev' hI hans
    refine ⟨(h.reads s).answer _ _ _ hI hans, ?_⟩
    rintro st rfl
    exact h.sees s dev st dev' hI hans
  · rintro (e | st)
    · refine .mono (P := I s) ?_ (fun _ hI => hI.1) fun _ _ hQ => hQ
      rw [bind_assoc]
      refine (h.quiet s (.record (.xy .readStatus)) rfl).bind fun _ => ?_
      rw [bind_assoc]
      exact h.readBattery s fun b => hf _ (by simp)
    · refine .assume (c := Sees s st.setpoints) (fun _ hI => hI.2 st rfl) fun hsees => ?_
      refine .mono (P := I s) ?_ (fun _ hI => hI.1) fun _ _ hQ => hQ
      simp only [bind_assoc]
      refine holds_classify (fun ev => h.quiet s (.record ev) rfl) log st fun x _ => ?_
      refine (h.quiet s (.updatePs (psReading st)) rfl).bind fun _ => ?_
      refine h.readBattery s fun b => hf _ ?_
      rintro sp ⟨⟩
      exact hsees

/-- The loop's rule, from an invariant that every operation keeps. -/
theorem rule : LoopRule E safe I
    (fun s p dev => I s dev ∧ ∀ sp, p.setpoints = some sp → Sees s sp)
    (fun s p _ dev => I s dev ∧ ∀ sp, p.setpoints = some sp → Sees s sp) I where
  feeds s := h.quiet s _ rfl
  polls s log := by
    have hpoll := h.poll (f := .pure) (Q := fun x dev => I s dev ∧
      ∀ sp, x.1.poll.setpoints = some sp → Sees s sp) s log
      fun x hsees => .pure (h.stable s) fun _ hI => ⟨hI, hsees⟩
    rwa [show (Esp32Battery.poll log >>= Prog.pure) = Esp32Battery.poll log from
      Prog.bind_pure_id _] at hpoll
  laps s p := by
    have hlap := h.quiet s .lap rfl
    have hkeeps : E.Keeps safe
        (fun dev => I s dev ∧ ∀ sp, p.setpoints = some sp → Sees s sp) .lap :=
      ⟨fun dev dev' hself hI => ⟨hlap.stable dev dev' hself hI.1, hI.2⟩,
        fun dev hI => hlap.safe dev hI.1,
        fun dev r dev' hI ha => ⟨hlap.answer dev r dev' hI.1 ha, hI.2⟩⟩
    exact hkeeps.perform
  acts s p e a s₁ ht := by
    refine .assume (c := ∀ sp, p.setpoints = some sp → Sees s sp) (fun _ hI => hI.2) fun hsees => ?_
    exact (h.acts s p e a s₁ hsees ht).mono (fun _ hI => hI.1) fun _ _ hQ => hQ
  records s t := h.quiet s _ rfl
  pops := h.pops
  publishes s st _ := (h.quiet s (.publish st) rfl).perform
  sleeps s := h.quiet s _ rfl

end LoopInvariant

end Loop

end Esp32Battery
