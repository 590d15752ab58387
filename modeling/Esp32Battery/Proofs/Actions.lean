import Esp32Battery.Proofs.Tick
import Esp32Battery.Xy.Run

/-!
# The rules of what a tick asks for

Carrying out an action is a fixed sequence of transfers, any of which may fail. What it needs of
the buck is named here once: what the transfers keep, and what the V_SET write turns it into.
-/

namespace Esp32Battery

open Lib

variable {F : Type} {S : Type} {E : Env S (XyOp F) XyOp.Reply}
  {safe : S → XyOp F → Prop}

/-- What the V_SET write of a retarget needs: `before` it, `off` once the output is disabled for
it, and `written` after it. -/
structure WriteRule (E : Env S (XyOp F) XyOp.Reply) (safe : S → XyOp F → Prop)
    (ticket : VoltageTicket F) (before off written : S → Prop) : Prop where
  records : ∀ e, E.Keeps safe before (.record e)
  switches : ∀ on, E.Keeps safe before (.setOutput on)
  recordsWritten : ∀ e, E.Keeps safe written (.record e)
  switchesWritten : ∀ on, E.Keeps safe written (.setOutput on)
  disabled : ∀ s s', before s → E.answer s (.setOutput false) (.ok ()) s' → off s'
  settles : E.Keeps safe off (.sleep stepDownSettle)
  live : ticket.cycleOutput = false → ∀ s, before s → safe s (.setVoltage ticket.targetV)
  cycled : ∀ s, off s → safe s (.setVoltage ticket.targetV)
  write : ∀ s s', before s ∨ off s →
    E.answer s (.setVoltage ticket.targetV) (.ok ()) s' → written s'
  failed : ∀ s e s', before s ∨ off s →
    E.answer s (.setVoltage ticket.targetV) (.error e) s' → before s'

/-- A retarget ends `written` or is to be retried from where it began. -/
def VoltageWriteOutcome.leaves (o : VoltageWriteOutcome) (before written : S → Prop) : S → Prop :=
  match o with
  | .committed => written
  | .retry => before

namespace WriteRule

variable {ticket : VoltageTicket F} {before off written : S → Prop}
  (h : WriteRule E safe ticket before off written)

include h

theorem retry (e : XyError) : E.Holds safe before
    (XyOp.perform (.record (.xy e)) >>= fun _ => pure VoltageWriteOutcome.retry)
    fun o dev => o.leaves before written dev :=
  (h.records _).bind fun _ => .pure (h.records (.xy e)).stable fun _ hs => hs

theorem write_bind {P : S → Prop} {f : Except BusError Unit → XyProg F VoltageWriteOutcome}
    (hP : E.Stable P) (hor : ∀ s, P s → before s ∨ off s)
    (hsafe : ∀ s, P s → safe s (.setVoltage ticket.targetV))
    (herr : ∀ e, E.Holds safe before (f (.error e)) fun o dev => o.leaves before written dev)
    (hok : E.Holds safe written (f (.ok ())) fun o dev => o.leaves before written dev) :
    E.Holds safe P (XyOp.perform (.setVoltage ticket.targetV) >>= f)
      fun o dev => o.leaves before written dev := by
  refine .perform_bind (fun r dev => (r = .ok () → written dev) ∧ ∀ e, r = .error e → before dev)
    hP hsafe ?_ ?_
  · intro s r s' hs ha
    refine ⟨?_, ?_⟩
    · rintro rfl
      exact h.write s s' (hor s hs) ha
    · rintro e rfl
      exact h.failed s e s' (hor s hs) ha
  · rintro (e | _)
    · exact (herr e).mono (fun _ hs => hs.2 e rfl) fun _ _ hQ => hQ
    · exact hok.mono (fun _ hs => hs.1 rfl) fun _ _ hQ => hQ

theorem applyUpdateVoltage : E.Holds safe before (applyUpdateVoltage ticket)
    fun o dev => o.leaves before written dev := by
  have hstable := (h.switches false).stable
  have hwritten := (h.switchesWritten false).stable
  have hcommit : E.Holds safe written (pure .committed)
      fun (o : VoltageWriteOutcome) dev => o.leaves before written dev :=
    .pure hwritten fun _ hs => hs
  unfold Esp32Battery.applyUpdateVoltage
  by_cases hc : (!ticket.cycleOutput) = true
  · rw [if_pos hc]
    exact h.write_bind hstable (fun _ => .inl) (h.live (by simpa using hc)) (fun _ => h.retry _)
      hcommit
  rw [if_neg hc]
  refine .perform_bind (fun r dev => before dev ∧ (r = .ok () → off dev)) hstable
    (h.switches false).safe ?_ ?_
  · intro s r s' hs ha
    refine ⟨(h.switches false).answer s r s' hs ha, ?_⟩
    rintro rfl
    exact h.disabled s s' hs ha
  rintro (e | _)
  · exact (h.retry _).mono (fun _ hs => hs.1) fun _ _ hQ => hQ
  refine .mono (P := off) ?_ (fun _ hs => hs.2 rfl) fun _ _ hQ => hQ
  refine h.settles.bind fun _ => ?_
  refine h.write_bind h.settles.stable (fun _ => .inr) h.cycled (fun _ => ?_) ?_
  -- The restore after a write that failed.
  · refine (h.records _).bind fun _ => ?_
    refine (h.switches true).bind ?_
    rintro (e | _)
    · exact h.retry _
    · exact .pure hstable fun _ hs => hs
  -- The re-enable after a write that did not.
  · refine (h.switchesWritten true).bind ?_
    rintro (e | _)
    · refine (h.switchesWritten true).bind ?_
      rintro (e | _)
      · exact (h.recordsWritten _).bind fun _ => hcommit
      · exact hcommit
    · exact hcommit

end WriteRule

theorem WriteRule.of_keeps {ticket : VoltageTicket F} {P : S → Prop}
    (h : ∀ op, E.Keeps safe P op) : WriteRule E safe ticket P P P where
  records _ := h _
  switches _ := h _
  recordsWritten _ := h _
  switchesWritten _ := h _
  disabled s s' hs ha := (h _).answer s _ s' hs ha
  settles := h _
  live _ s hs := (h _).safe s hs
  cycled s hs := (h _).safe s hs
  write s s' hs ha := (h _).answer s _ s' (hs.elim id id) ha
  failed s _ s' hs ha := (h _).answer s _ s' (hs.elim id id) ha

/-- The rule of an action: `before` the transfers, `after` for the supervisor it leaves, whose
ticket is committed or dropped. -/
theorem holds_applyAction [FloatLike F] {s : ChargeSupervisor F} {a : Action F} {before : S → Prop}
    {after : ChargeSupervisor F → S → Prop} (hrecord : ∀ e, E.Keeps safe before (.record e))
    (hswitch : ∀ on, E.Keeps safe before (.setOutput on)) (hdrop : ∀ dev, before dev → after s dev)
    (hcommit : ∀ s', s.commit a = .ok s' → (∀ t, a ≠ .updateVoltage t) →
      ∀ dev, before dev → after s' dev)
    (hwrite : ∀ t, a = .updateVoltage t → ∃ off written, WriteRule E safe t before off written ∧
      ∀ s', s.commit a = .ok s' → ∀ dev, written dev → after s' dev) :
    E.Holds safe before (applyAction s a) fun x dev => ∀ s', x = .ok s' → after s' dev := by
  have hstable := (hswitch false).stable
  have hdropped : ∀ e : XyError, E.Holds safe before
      (XyOp.perform (.record (.xy e)) >>= fun _ => pure (Except.ok s))
      fun (x : Except Panic (ChargeSupervisor F)) dev => ∀ s', x = .ok s' → after s' dev :=
    fun e => (hrecord _).bind fun _ => .pure hstable fun dev hdev s' hx => by
      cases hx
      exact hdrop dev hdev
  have hcommitted : (∀ t, a ≠ .updateVoltage t) → E.Holds safe before (pure (s.commit a))
      fun x dev => ∀ s', x = .ok s' → after s' dev := fun hne =>
    .pure hstable fun dev hdev s' hx => hcommit s' hx hne dev hdev
  cases a with
  | none => exact hcommitted (by simp)
  | enableOutput t =>
    refine (hswitch true).bind ?_
    rintro (e | _)
    · exact hdropped _
    · exact hcommitted (by simp)
  | disableOutput t =>
    refine (hswitch false).bind ?_
    rintro (e | _)
    · exact hdropped _
    · exact hcommitted (by simp)
  | updateVoltage t =>
    obtain ⟨off, written, hw, hafter⟩ := hwrite t rfl
    refine hw.applyUpdateVoltage.bind ?_
    rintro (_ | _)
    · exact .pure (hw.switchesWritten false).stable fun dev hdev s' hx => hafter s' hx dev hdev
    · refine .pure hstable fun dev hdev s' hx => ?_
      cases hx
      exact hdrop dev hdev

/-- Where every operation keeps `P`, so does an action, its ticket committed or dropped. -/
theorem holds_applyAction_keeps [FloatLike F] {P : S → Prop} (h : ∀ op, E.Keeps safe P op)
    (s : ChargeSupervisor F) (a : Action F) :
    E.Holds safe P (applyAction s a)
      fun x dev => ∀ s', x = .ok s' → P dev ∧ (s' = s ∨ s.commit a = .ok s') :=
  holds_applyAction (fun _ => h _) (fun _ => h _) (fun _ hdev => ⟨hdev, .inl rfl⟩)
    (fun _ hc _ _ hdev => ⟨hdev, .inr hc⟩)
    fun _ _ => ⟨P, P, .of_keeps h, fun _ hc _ hdev => ⟨hdev, .inr hc⟩⟩

end Esp32Battery
