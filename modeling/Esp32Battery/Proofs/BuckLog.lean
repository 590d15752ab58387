import Esp32Battery.Board
import Esp32Battery.Proofs.Conversation
import Mathlib.Data.List.Destutter

/-!
# What the event log says of the buck

Whatever the buck answers, a transfer of the loop that fails is recorded by the very next
operation, and an enable that is tried again is recorded once. A `PROTECT` cause is recorded once
for each stretch of statuses that show it: statuses that cannot be read do not end a stretch, an
output that reads on does.
-/

namespace Esp32Battery

open Lib

variable {F : Type}

/-- The transfer that failed, under the name the log has for it. -/
def failure (x : Answered (XyOp F) XyOp.Reply) : Option XyError :=
  match x with
  | ⟨.readStatus, .error _⟩ => some .readStatus
  | ⟨.setVoltage _, .error _⟩ => some .setVoltage
  | ⟨.setOutput _, .error _⟩ => some .setOutput
  | _ => none

/-- The failed transfer that an operation records. -/
def XyOp.report : XyOp F → Option XyError
  | .record (.xy .readStatus) => some .readStatus
  | .record (.xy .setVoltage) => some .setVoltage
  | .record (.xy .setOutput) => some .setOutput
  | _ => none

/-- Every failed transfer is recorded at once, but for an enable that is first tried once more, and
nothing else is recorded as one. -/
inductive FailuresNoted : Talk F → Prop
  | nil : FailuresNoted []
  | other {x : Answered (XyOp F) XyOp.Reply} {c : Talk F} : failure x = none →
      x.op.report = none → FailuresNoted c → FailuresNoted (x :: c)
  | failed {x : Answered (XyOp F) XyOp.Reply} {c : Talk F} (k : XyError) : failure x = some k →
      FailuresNoted c → FailuresNoted (x :: noted (.xy k) :: c)
  | again (e : BusError) {c : Talk F} : FailuresNoted c →
      FailuresNoted (⟨.setOutput true, .error e⟩ :: ⟨.setOutput true, .ok ()⟩ :: c)
  | gaveUp (e e' : BusError) {c : Talk F} : FailuresNoted c →
      FailuresNoted (⟨.setOutput true, .error e⟩ :: ⟨.setOutput true, .error e'⟩ ::
        noted (.xy .setOutput) :: c)

namespace FailuresNoted

variable {c c' : Talk F}

theorem append (h : FailuresNoted c) (h' : FailuresNoted c') :
    FailuresNoted (c ++ c') := by
  induction h with
  | nil => exact h'
  | other hf hr _ ih => exact .other hf hr ih
  | failed k hf _ ih => exact .failed k hf ih
  | again e _ ih => exact .again e ih
  | gaveUp e e' _ ih => exact .gaveUp e e' ih

theorem others (h : ∀ x ∈ c, failure x = none ∧ x.op.report = none) : FailuresNoted c := by
  induction c with
  | nil => exact .nil
  | cons x c ih =>
    obtain ⟨hf, hr⟩ := h x (List.mem_cons_self ..)
    exact .other hf hr (ih fun y hy => h y (List.mem_cons_of_mem _ hy))

theorem flatten {cs : List (Talk F)} (h : ∀ c ∈ cs, FailuresNoted c) :
    FailuresNoted cs.flatten := by
  induction cs with
  | nil => exact .nil
  | cons c cs ih =>
    rw [List.flatten_cons]
    exact (h c (List.mem_cons_self ..)).append (ih fun d hd => h d (List.mem_cons_of_mem _ hd))

end FailuresNoted

theorem report_fromProtection {cause : ProtectionStatus} {k : XyError}
    (h : XyError.fromProtection cause = some k) : (XyOp.record (F := F) (.xy k)).report = none := by
  cases cause <;> cases h <;> rfl

section Loop

variable {log log' : ProtectionLog} {c : Talk F} {p : PollResult F}

theorem mem_causes {st : Status F} {k : XyError} (h : k ∈ log.causes st) :
    XyError.fromProtection st.protection = some k := by
  unfold ProtectionLog.causes at h
  split_ifs at h
  · cases h
  · simpa using h

theorem PolledAs.reported (h : PolledAs log c p log') : FailuresNoted c := by
  cases h with
  | unread e bat => exact .failed .readStatus rfl (.other rfl rfl .nil)
  | read st bat =>
    refine .other rfl rfl (.append (.others fun x hx => ?_) (.other rfl rfl (.other rfl rfl .nil)))
    obtain ⟨k, hk, rfl⟩ := List.mem_map.1 hx
    exact ⟨rfl, report_fromProtection (mem_causes hk)⟩

theorem Written.reported {t : VoltageTicket F} {o : VoltageWriteOutcome} (h : Written t c o) :
    FailuresNoted c := by
  cases h with
  | live => exact .other rfl rfl .nil
  | unwritten | undisabled => exact .failed _ rfl .nil
  | cycled => exact .other rfl rfl (.other rfl rfl (.other rfl rfl (.other rfl rfl .nil)))
  | secondTry => exact .other rfl rfl (.other rfl rfl (.other rfl rfl (.again _ .nil)))
  | leftOff => exact .other rfl rfl (.other rfl rfl (.other rfl rfl (.gaveUp _ _ .nil)))
  | restored => exact .other rfl rfl (.other rfl rfl (.failed _ rfl (.other rfl rfl .nil)))
  | unrestored => exact .other rfl rfl (.other rfl rfl (.failed _ rfl (.failed _ rfl .nil)))

theorem Applied.reported {s : ChargeSupervisor F} {a : Action F}
    {x : Except Panic (ChargeSupervisor F)} (h : Applied s a c x) : FailuresNoted c := by
  cases h with
  | none => exact .nil
  | enabled | disabled => exact .other rfl rfl .nil
  | unenabled | undisabled => exact .failed _ rfl .nil
  | retargeted hw | unretargeted hw => exact hw.reported

theorem drained_reported (s : ChargeSupervisor F) : FailuresNoted s.drained := by
  refine .others fun x hx => ?_
  obtain ⟨t, -, rfl⟩ := List.mem_map.1 hx
  exact ⟨rfl, rfl⟩

variable [FloatLike F] {s : ChargeSupervisor F}

theorem Turned.reported {x : Except Panic (ChargeSupervisor F × ProtectionLog)}
    (h : Turned s log c x) : FailuresNoted c := by
  cases h with
  | unjudged hp _ => exact hp.reported.append (.other rfl rfl .nil)
  | unapplied hp _ ha => exact hp.reported.append (.other rfl rfl ha.reported)
  | unpublished hp _ ha _ =>
    exact hp.reported.append (.other rfl rfl (ha.reported.append (drained_reported _)))
  | turn hp _ ha _ =>
    refine hp.reported.append (.other rfl rfl (ha.reported.append ?_))
    exact (drained_reported _).append (.other rfl rfl (.other rfl rfl .nil))

theorem LoopTurns.reported {n : ℕ} {cs : List (Talk F)} {x : Except Panic (ChargeSupervisor F)}
    (h : LoopTurns n s log cs x) : ∀ c ∈ cs, FailuresNoted c := by
  induction h with
  | done => simp
  | panic h => exact List.forall_mem_singleton.2 (.other rfl rfl h.reported)
  | turn h _ ih => exact List.forall_mem_cons.2 ⟨.other rfl rfl h.reported, ih⟩

/-- Whatever the buck answers, over any number of turns. -/
theorem transfers_logged {n : ℕ} {x : Except Panic (ChargeSupervisor F)}
    (h : (loop n s log).Says c x) : FailuresNoted c := by
  obtain ⟨cs, hcs, rfl⟩ := says_loop h
  exact .flatten hcs.reported

end Loop

/-- A buck that tripped on an overvoltage and takes no enable. -/
def tripped (_ : Unit) (op : XyOp Float32) : op.Reply × Unit :=
  match op with
  | .checkModel => (.ok ⟨25856, true⟩, ())
  | .readStatus => (.ok {
      setpoints := { vSet := 13.5, iSet := 10.0 }
      vOut := 0.0
      iOut := 0.0
      pOut := 0.0
      protection := .ovp
      outputOn := false }, ())
  | .readSafetyLimits => (.ok buck.limits, ())
  | .setOutput on => (if on then .error ⟨⟩ else .ok (), ())
  | .setVoltage _ | .setCurrentLimit _ | .clearProtectionStatus | .setPowerOnDefault _
  | .setSafetyLimits _ => (.ok (), ())
  | .lap => (.fromSecs 1, ())
  | .batteryReading => (some ⟨13.0, -0.1, 1.3⟩, ())
  | .wdtSubscribe | .wdtReset | .sleep _ | .record _ | .updatePs _ | .publishModel _
  | .publish _ => ((), ())

def trippedTalk : Talk Float32 :=
  ((loop 2 (bootSupervisor .absent) .new).converse tripped ()).1

theorem transfers_logged_tripped :
    FailuresNoted trippedTalk ∧ trippedTalk.filterMap failure = [.setOutput, .setOutput] :=
  ⟨transfers_logged (Prog.says_converse tripped _ ()), by decide +kernel⟩

/-- The `PROTECT` cause that an operation records. -/
def XyOp.protectEntry : XyOp F → Option XyError
  | .record (.xy .readStatus) | .record (.xy .setVoltage) | .record (.xy .setOutput)
  | .record (.xy .bootSequence) => none
  | .record (.xy k) => some k
  | _ => none

def protectLog (c : Talk F) : List XyError := c.filterMap fun x => x.op.protectEntry

/-- The cause a status shows, an output that is on showing none. -/
def Status.shown (st : Status F) : ProtectionStatus :=
  if st.outputOn then .normal else st.protection

/-- The causes shown by the statuses that were read. -/
def shownIn (c : Talk F) : List ProtectionStatus :=
  c.filterMap fun x => match x with
    | ⟨.readStatus, .ok st⟩ => some st.shown
    | _ => none

/-- The entry of the log that a cause makes; an input loss makes none. -/
def ProtectionStatus.entry (cause : ProtectionStatus) : Option XyError :=
  if cause.isInputLoss then none else XyError.fromProtection cause

/-- One cause for each stretch of `shown`, but for a stretch that goes on from `last`. -/
def stretches (last : ProtectionStatus) (shown : List ProtectionStatus) : List ProtectionStatus :=
  (shown.destutter' (· ≠ ·) last).tail

section Protections

variable {log log' : ProtectionLog} {c c' : Talk F} {p : PollResult F} {last : ProtectionStatus}
  {shown : List ProtectionStatus}

theorem stretches_cons (cause : ProtectionStatus) : stretches last (cause :: shown) =
    if last ≠ cause then cause :: stretches cause shown else stretches last shown := by
  unfold stretches
  rw [List.destutter'_cons]
  split_ifs
  · rw [List.tail_cons]
    induction shown with
    | nil => rfl
    | cons b l ih =>
      rw [List.destutter'_cons]
      split_ifs
      · rfl
      · exact ih
  · rfl

theorem protectLog_append : protectLog (c ++ c') = protectLog c ++ protectLog c' :=
  List.filterMap_append

theorem shownIn_append : shownIn (c ++ c') = shownIn c ++ shownIn c' := List.filterMap_append

@[simp] theorem protectLog_fed : protectLog (fed :: c) = protectLog c := rfl

@[simp] theorem shownIn_fed : shownIn (fed :: c) = shownIn c := rfl

/-- What neither reads a status nor records a cause. -/
def Silent (c : Talk F) : Prop := protectLog c = [] ∧ shownIn c = []

theorem Silent.append (h : Silent c) (h' : Silent c') : Silent (c ++ c') := by
  refine ⟨?_, ?_⟩
  · rw [protectLog_append, h.1, h'.1, List.append_nil]
  · rw [shownIn_append, h.2, h'.2, List.append_nil]

theorem Applied.silent {s : ChargeSupervisor F} {a : Action F}
    {x : Except Panic (ChargeSupervisor F)} (h : Applied s a c x) : Silent c := by
  cases h with
  | none | enabled | unenabled | disabled | undisabled => exact ⟨rfl, rfl⟩
  | retargeted hw | unretargeted hw => cases hw <;> exact ⟨rfl, rfl⟩

theorem drained_silent (s : ChargeSupervisor F) : Silent s.drained := by
  refine ⟨List.filterMap_eq_nil_iff.2 fun x hx => ?_, List.filterMap_eq_nil_iff.2 fun x hx => ?_⟩
  all_goals
    obtain ⟨t, -, rfl⟩ := List.mem_map.1 hx
    rfl

theorem protectLog_notes {st : Status F} : protectLog (log.notes st) = log.causes st := by
  unfold protectLog ProtectionLog.notes
  rw [List.filterMap_map, List.filterMap_congr (g := some), List.filterMap_some]
  intro k hk
  have hcause := mem_causes hk
  revert hcause
  cases st.protection <;> rintro ⟨⟩ <;> rfl

theorem causes_eq {st : Status F} : log.causes st =
    if log.last ≠ st.shown then st.shown.entry.toList else [] := by
  unfold ProtectionLog.causes Status.shown ProtectionStatus.entry
  by_cases hon : st.outputOn = true
  · simp [hon, ProtectionStatus.isInputLoss, XyError.fromProtection]
  by_cases hloss : st.protection.isInputLoss = true
  · simp [hon, hloss]
  · by_cases hlast : log.last = st.protection <;> simp [hon, hloss, hlast]

/-- A poll records what its status adds to the stretches, and the log goes on from there. -/
theorem PolledAs.stretches (h : PolledAs log c p log') (rest : List ProtectionStatus) :
    (stretches log.last (shownIn c ++ rest)).filterMap ProtectionStatus.entry =
      protectLog c ++ (Esp32Battery.stretches log'.last rest).filterMap ProtectionStatus.entry := by
  cases h with
  | unread e bat => rfl
  | read st bat =>
    have hshown : shownIn (⟨.readStatus, .ok st⟩ :: log.notes st ++
        [⟨.updatePs (psReading st), ()⟩, ⟨.batteryReading, bat⟩]) = [st.shown] := by
      have hquiet : shownIn (log.notes st) = [] := by
        refine List.filterMap_eq_nil_iff.2 fun x hx => ?_
        obtain ⟨k, -, rfl⟩ := List.mem_map.1 hx
        rfl
      rw [List.cons_append, ← List.singleton_append, shownIn_append, shownIn_append, hquiet]
      rfl
    have hlog : protectLog (⟨.readStatus, .ok st⟩ :: log.notes st ++
        [⟨.updatePs (psReading st), ()⟩, ⟨.batteryReading, bat⟩]) = log.causes st := by
      rw [List.cons_append, ← List.singleton_append, protectLog_append, protectLog_append,
        protectLog_notes]
      exact List.append_nil _
    rw [hshown, hlog, causes_eq, List.singleton_append, stretches_cons]
    by_cases hnew : log.last ≠ st.shown
    · rw [if_pos hnew, if_pos hnew, List.filterMap_cons]
      rcases st.shown.entry with _ | k <;> rfl
    · have hlast : log.last = (ProtectionLog.seen st).last := not_not.1 hnew
      rw [if_neg hnew, if_neg hnew, hlast]
      rfl

variable [FloatLike F] {s : ChargeSupervisor F}

/-- Only its poll reads a status or records a cause. -/
theorem Turned.polled {x : Except Panic (ChargeSupervisor F × ProtectionLog)}
    (h : Turned s log c x) : ∃ c₁ c₂ p log', c = c₁ ++ c₂ ∧ PolledAs log c₁ p log' ∧ Silent c₂ ∧
      ∀ y, x = .ok y → y.2 = log' := by
  have lap : ∀ {e : Duration} {c : Talk F}, Silent c → Silent (⟨.lap, e⟩ :: c) := fun h => h
  cases h with
  | unjudged hp _ => exact ⟨_, _, _, _, rfl, hp, ⟨rfl, rfl⟩, by simp⟩
  | unapplied hp _ ha => exact ⟨_, _, _, _, rfl, hp, lap ha.silent, by simp⟩
  | unpublished hp _ ha _ =>
    exact ⟨_, _, _, _, rfl, hp, lap (ha.silent.append (drained_silent _)), by simp⟩
  | turn hp _ ha _ =>
    refine ⟨_, _, _, _, rfl, hp, lap (ha.silent.append ((drained_silent _).append ⟨rfl, rfl⟩)), ?_⟩
    rintro y ⟨⟩
    rfl

/-- The causes recorded are those of the stretches, in order, over any number of turns. -/
theorem protections_logged {n : ℕ} {x : Except Panic (ChargeSupervisor F)}
    (h : (loop n s log).Says c x) :
    protectLog c = (stretches log.last (shownIn c)).filterMap ProtectionStatus.entry := by
  obtain ⟨cs, hcs, rfl⟩ := says_loop h
  clear h
  induction hcs with
  | done => rfl
  | panic h =>
    obtain ⟨c₁, c₂, p, log', rfl, hp, hsilent, -⟩ := h.polled
    rw [List.flatten_singleton, protectLog_fed, shownIn_fed, protectLog_append, shownIn_append,
      hsilent.1, hsilent.2, hp.stretches]
    rfl
  | turn h _ ih =>
    obtain ⟨c₁, c₂, p, log', rfl, hp, hsilent, hlog⟩ := h.polled
    obtain rfl := hlog _ rfl
    rw [List.flatten_cons, List.cons_append, protectLog_fed, shownIn_fed, protectLog_append,
      shownIn_append, protectLog_append, shownIn_append, hsilent.1, hsilent.2, List.append_nil,
      List.append_nil, hp.stretches, ih]

end Protections

theorem protections_logged_tripped :
    protectLog trippedTalk =
      (stretches .normal (shownIn trippedTalk)).filterMap ProtectionStatus.entry ∧
    protectLog trippedTalk = [.protectOvp] :=
  ⟨protections_logged (Prog.says_converse tripped (loop 2 (bootSupervisor .absent) .new) ()),
    by decide +kernel⟩

end Esp32Battery
