import Esp32Battery.Board
import Esp32Battery.Proofs.Actions
import Esp32Battery.Proofs.Stages

/-!
# The transition log over a run

Each function that moves the supervisor logs what the table says of its moves, and finds room for
it. A caller that drains after every turn, as the loop does, gets the whole route.
-/

namespace Esp32Battery

open Lib ChargeTransition

section Supervisor
variable {F : Type}

namespace ChargeSupervisor

/-- `s` comes to `s'` by moves that are logged as `l`, every one of them finding room. -/
inductive Logs : ChargeSupervisor F → List ChargeTransition → ChargeSupervisor F → Prop
  | still {s s' : ChargeSupervisor F} : s'.state = s.state → s'.transitions = s.transitions →
      Logs s [] s'
  | move {s s' : ChargeSupervisor F} {event : ChargeEvent} : s.step event = .ok s' →
      s.transitions.isFull = false → Logs s (s.state.loggedAs s'.state).toList s'
  | trans {s s₁ s' : ChargeSupervisor F} {l l' : List ChargeTransition} : Logs s l s₁ →
      Logs s₁ l' s' → Logs s (l ++ l') s'

variable {s s' : ChargeSupervisor F} {l l' : List ChargeTransition}

theorem step_items {event : ChargeEvent} (h : s.step event = .ok s')
    (hroom : s.transitions.isFull = false) :
    s'.transitions.items = s.transitions.items ++ (s.state.loggedAs s'.state).toList := by
  obtain ⟨d, hd, hm⟩ := step_eq_ok h
  rw [hm.state]
  unfold step at h
  simp only [hd, expect_some, ok_bind] at h
  rcases hl : s.state.loggedAs d with _ | t
  · simp only [hl] at h
    cases h
    simp [land]
  · have hlt : s.transitions.items.length < transitionBuffer := by
      have hle := s.transitions.length_le
      simp only [Deque.isFull, decide_eq_false_iff_not] at hroom
      omega
    have hpush : s.transitions.pushBack t = some _ := dif_pos hlt
    simp only [hl, logTransition, hroom, Bool.false_eq_true, if_false, hpush, expect_some,
      ok_bind] at h
    cases h
    simp [land]

theorem Logs.items (h : s.Logs l s') : s'.transitions.items = s.transitions.items ++ l := by
  induction h with
  | still _ ht => simp [ht]
  | move h hroom => exact step_items h hroom
  | trans _ _ ih₁ ih₂ => rw [ih₂, ih₁, List.append_assoc]

theorem Logs.path (h : s.Logs l s') : Stage.Path s.state.stage l s'.state.stage := by
  induction h with
  | still hs _ =>
    rw [hs]
    exact .nil
  | @move s s' event h _ =>
    obtain ⟨d, hd, hm⟩ := step_eq_ok h
    rw [hm.state]
    exact Stage.Path.nil.move (ChargeState.next_stage hd)
  | trans _ _ ih₁ ih₂ => exact ih₁.trans ih₂

/-- `s` comes to `s'` by moves of which at most `k` are logged, every one finding room. -/
def LogsAtMost (s : ChargeSupervisor F) (k : ℕ) (s' : ChargeSupervisor F) : Prop :=
  ∃ l, s.Logs l s' ∧ l.length ≤ k

namespace LogsAtMost

variable {s₁ : ChargeSupervisor F} {k n : ℕ}

theorem still (hs : s'.state = s.state) (ht : s'.transitions = s.transitions) :
    s.LogsAtMost k s' := ⟨[], .still hs ht, Nat.zero_le _⟩

theorem move {event : ChargeEvent} (h : s.step event = .ok s')
    (hroom : s.transitions.items.length < transitionBuffer) : s.LogsAtMost 1 s' := by
  refine ⟨_, .move h ?_, ?_⟩
  · simp only [Deque.isFull, decide_eq_false_iff_not]
    omega
  · rcases s.state.loggedAs s'.state <;> simp

theorem trans (h : s.LogsAtMost k s₁) (h' : s₁.LogsAtMost n s') : s.LogsAtMost (k + n) s' := by
  obtain ⟨l, hl, hk⟩ := h
  obtain ⟨l', hl', hn⟩ := h'
  refine ⟨l ++ l', hl.trans hl', ?_⟩
  rw [List.length_append]
  omega

theorem of_still (h : s₁.LogsAtMost k s') (hs : s₁.state = s.state)
    (ht : s₁.transitions = s.transitions) : s.LogsAtMost k s' := by
  obtain ⟨l, hl, hk⟩ := h
  exact ⟨l, .trans (.still hs ht) hl, hk⟩

theorem length_le (h : s.LogsAtMost k s') :
    s'.transitions.items.length ≤ s.transitions.items.length + k := by
  obtain ⟨l, hl, hk⟩ := h
  rw [hl.items, List.length_append]
  omega

end LogsAtMost

variable [FloatLike F] {a : Action F} {p : PollResult F} {e : Duration} {b : BatterySample F}

theorem onFault_logs {r : FaultReason} (h : s.onFault r = .ok (a, s'))
    (hroom : s.transitions.items.length < transitionBuffer) : s.LogsAtMost 1 s' := by
  unfold onFault at h
  simp only [] at h
  split_ifs at h
  · simp only [bind_eq_ok] at h
    obtain ⟨s₁, hs, h⟩ := h
    have hmove : s.LogsAtMost 1 s₁ := (LogsAtMost.move hs hroom).of_still rfl rfl
    split at h
    · simp only [bind_eq_ok] at h
      obtain ⟨a', -, h⟩ := h
      cases h
      exact hmove
    · cases h
      exact hmove
  · simp only [bind_eq_ok] at h
    obtain ⟨s₁, hs, a', -, h⟩ := h
    cases h
    exact (LogsAtMost.move hs hroom).of_still rfl rfl

theorem reconcile_logs {o : Option (Action F)} (h : s.reconcile p = .ok (o, s'))
    (hroom : s.transitions.items.length < transitionBuffer) : s.LogsAtMost 1 s' := by
  unfold reconcile at h
  split at h
  · simp only [bind_eq_ok] at h
    obtain ⟨a, -, h⟩ := h
    cases h
    exact .still rfl rfl
  · simp only [bind_eq_ok] at h
    obtain ⟨s₁, hs, a, -, h⟩ := h
    cases h
    exact .move hs hroom
  · cases h
    exact .still rfl rfl
  · split_ifs at h
    · simp only [bind_eq_ok] at h
      obtain ⟨s₁, hs, h⟩ := h
      cases h
      exact .move hs hroom
    · simp only [bind_eq_ok] at h
      obtain ⟨⟨a, s₁⟩, hf, h⟩ := h
      cases h
      exact onFault_logs hf hroom
    · cases h
      exact .still rfl rfl
  · split_ifs at h
    · simp only [bind_eq_ok] at h
      obtain ⟨s₁, hs, h⟩ := h
      cases h
      exact .move hs hroom
    · simp only [bind_eq_ok] at h
      obtain ⟨⟨a, s₁⟩, hf, h⟩ := h
      cases h
      exact onFault_logs hf hroom
    · cases h
      exact .still rfl rfl
  · cases h
    exact .still rfl rfl

theorem regulate_logs (h : s.regulate b e = .ok (a, s'))
    (hroom : s.transitions.items.length < transitionBuffer) : s.LogsAtMost 1 s' := by
  unfold regulate at h
  split at h
  · simp only [bind_eq_ok] at h
    obtain ⟨a', -, h⟩ := h
    cases h
    exact .still rfl rfl
  simp only [bind_eq_ok] at h
  obtain ⟨⟨fired, exit⟩, -, h⟩ := h
  simp only [] at h
  split_ifs at h
  · simp only [bind_eq_ok] at h
    obtain ⟨s₁, hs, a', -, h⟩ := h
    cases h
    exact (LogsAtMost.move hs hroom).of_still rfl rfl
  · simp only [bind_eq_ok] at h
    obtain ⟨s₁, hs, a', -, h⟩ := h
    cases h
    exact (LogsAtMost.move hs hroom).of_still rfl rfl
  · unfold absorbCaps at h
    simp only [bind_eq_ok] at h
    obtain ⟨⟨capped, absorb⟩, -, h⟩ := h
    simp only [] at h
    split_ifs at h
    · exact (onFault_logs h hroom).of_still rfl rfl
    · exact (onFault_logs h hroom).of_still rfl rfl
    · cases h
      exact .still rfl rfl
  · cases h
    exact .still rfl rfl

theorem dispatch_logs {v : Verdict F} (h : s.dispatch v e = .ok (a, s'))
    (hroom : s.transitions.items.length < transitionBuffer) : s.LogsAtMost 1 s' := by
  cases dispatch_cases h with
  | latch r hf => exact onFault_logs hf hroom
  | inhibit | enable => exact .still rfl rfl
  | regulate b _ hreg => exact (regulate_logs hreg hroom).of_still rfl rfl

/-- A tick logs at most two moves: one to agree with the buck, one the verdict asks for. -/
theorem tick_logs (h : s.tick p e = .ok (a, s'))
    (hroom : s.transitions.items.length + 1 < transitionBuffer) : s.LogsAtMost 2 s' := by
  rcases tick_eq_ok h with hr | ⟨s₁, v, s₂, hr, hg, hd⟩
  · have hrec := reconcile_logs hr (by omega)
    exact hrec.trans (n := 1) (.still rfl rfl)
  · have hrec := reconcile_logs hr (by omega)
    have hlen := hrec.length_le
    obtain ⟨_, _, _, _, _, _, rfl⟩ := gauntlet_clocked hg
    have hdispatch := dispatch_logs hd (show s₁.transitions.items.length < _ by omega)
    exact hrec.trans (hdispatch.of_still rfl rfl)

omit [FloatLike F] in
theorem commit_logs (h : s.commit a = .ok s')
    (hroom : s.transitions.items.length < transitionBuffer) : s.LogsAtMost 1 s' := by
  cases a with
  | none =>
    cases h
    exact .still rfl rfl
  | enableOutput t => exact .move (show s.step _ = .ok s' from h) hroom
  | updateVoltage t =>
    simp only [commit, commitVoltage, require_bind_eq_ok] at h
    exact .move h.2 hroom
  | disableOutput t =>
    simp only [commit, commitDisable, require_bind_eq_ok] at h
    exact .move h.2 hroom

/-- A turn after which the caller pops all that is buffered, and what it pops. -/
def drainedTurn (s : ChargeSupervisor F) (i : Input F) :
    Except Panic (List ChargeTransition × ChargeSupervisor F) := do
  let (a, s) ← s.tick i.poll i.elapsed
  let s ← if i.commit then s.commit a else .ok s
  return (s.transitions.items, s.popN s.transitions.items.length)

def drainedRun (s : ChargeSupervisor F) :
    List (Input F) → Except Panic (List ChargeTransition × ChargeSupervisor F)
  | [] => .ok ([], s)
  | i :: is => do
    let (l, s) ← s.drainedTurn i
    let (log, s) ← s.drainedRun is
    return (l ++ log, s)

omit [FloatLike F] in
theorem popN_length (s : ChargeSupervisor F) :
    s.popN s.transitions.items.length = { s with transitions := .new } := by
  generalize hn : s.transitions.items.length = n
  induction n generalizing s with
  | zero =>
    have hnew := Deque.eq_new (List.eq_nil_of_length_eq_zero hn)
    rw [popN, ← hnew]
  | succ n ih =>
    have htail : s.popTransition.2.transitions.items.length = n := by
      simp only [popTransition, Deque.popFront, List.length_tail]
      omega
    rw [popN, ih s.popTransition.2 htail]
    rfl

/-- A turn is a tick, and a commit if the caller makes one. -/
theorem drainedTurn_eq_ok {i : Input F} : s.drainedTurn i = .ok (l, s') ↔
    ∃ a s₁ s₂, s.tick i.poll i.elapsed = .ok (a, s₁) ∧
      (i.commit = true ∧ s₁.commit a = .ok s₂ ∨ i.commit = false ∧ s₂ = s₁) ∧
      l = s₂.transitions.items ∧ s' = { s₂ with transitions := .new } := by
  unfold drainedTurn
  simp only [bind_eq_ok, Prod.exists]
  constructor
  · rintro ⟨a, s₁, ht, h⟩
    by_cases hi : i.commit = true
    · rw [if_pos hi, bind_eq_ok] at h
      obtain ⟨s₂, hc, h⟩ := h
      rw [popN_length] at h
      cases h
      exact ⟨a, s₁, s₂, ht, .inl ⟨hi, hc⟩, rfl, rfl⟩
    · rw [if_neg hi, ok_bind, popN_length] at h
      cases h
      exact ⟨a, s₁, s₁, ht, .inr ⟨by simpa using hi, rfl⟩, rfl, rfl⟩
  · rintro ⟨a, s₁, s₂, ht, hc, rfl, rfl⟩
    refine ⟨a, s₁, ht, ?_⟩
    rcases hc with ⟨hi, hc⟩ | ⟨hi, rfl⟩
    · rw [if_pos hi, hc, ok_bind, popN_length]
      rfl
    · rw [if_neg (by simp [hi]), ok_bind, popN_length]
      rfl

theorem drainedTurn_path {i : Input F} (hnew : s.transitions = .new)
    (h : s.drainedTurn i = .ok (l, s')) :
    Stage.Path s.state.stage l s'.state.stage ∧ s'.transitions = .new := by
  obtain ⟨a, s₁, s₂, ht, hc, rfl, rfl⟩ := drainedTurn_eq_ok.1 h
  have hempty : s.transitions.items.length = 0 := by rw [hnew]; rfl
  have htick := tick_logs ht (by rw [hempty]; decide)
  have hlen := htick.length_le
  have hturn : s.LogsAtMost 3 s₂ := by
    rcases hc with ⟨-, hc⟩ | ⟨-, rfl⟩
    · exact htick.trans (commit_logs hc (show _ < 8 by omega))
    · exact htick.trans (n := 1) (.still rfl rfl)
  obtain ⟨log, hlog, -⟩ := hturn
  have hitems : s₂.transitions.items = log := by
    rw [hlog.items, hnew]
    rfl
  rw [hitems]
  exact ⟨hlog.path, rfl⟩

theorem drainedRun_path {is : List (Input F)} (hnew : s.transitions = .new)
    (h : s.drainedRun is = .ok (l, s')) :
    Stage.Path s.state.stage l s'.state.stage ∧ s'.transitions = .new := by
  induction is generalizing s l with
  | nil =>
    cases h
    exact ⟨.nil, hnew⟩
  | cons i is ih =>
    simp only [drainedRun, bind_eq_ok] at h
    obtain ⟨⟨l₁, s₁⟩, ht, ⟨log, s₂⟩, hr, h⟩ := h
    cases h
    obtain ⟨hp, hnew₁⟩ := drainedTurn_path hnew ht
    obtain ⟨hp', hnew'⟩ := ih hnew₁ hr
    exact ⟨hp.trans hp', hnew'⟩

theorem drainedRun_cons {s₁ : ChargeSupervisor F} {i : Input F} {is : List (Input F)}
    (h : s.drainedTurn i = .ok (l, s₁)) (h' : s₁.drainedRun is = .ok (l', s')) :
    s.drainedRun (i :: is) = .ok (l ++ l', s') := by
  simp only [drainedRun, h, h', ok_bind]
  rfl

end ChargeSupervisor

/-- The entry of the transition log that an operation makes. -/
def XyOp.chargeEntry : XyOp F → Option ChargeTransition
  | .record (.charge t) => some t
  | _ => none

def XyOp.Unlogged (op : XyOp F) : Prop := op.chargeEntry = none

section Loop

variable {S : Type} {E : Env S (XyOp F) XyOp.Reply} {s s' : ChargeSupervisor F}
  {dev dev' : S} {tr : List (S × XyOp F)} {log : ProtectionLog} {n : ℕ}

/-- What a run puts into the transition log. -/
def chargeLog (tr : List (S × XyOp F)) : List ChargeTransition :=
  tr.filterMap fun e => e.2.chargeEntry

theorem chargeLog_eq_nil (h : ∀ e ∈ tr, e.2.Unlogged) : chargeLog tr = [] :=
  List.filterMap_eq_nil_iff.2 h

theorem poll_only (log : ProtectionLog) : (poll log : XyProg F _).Only XyOp.Unlogged := by
  have hbattery : (readBattery : XyProg F _).Only XyOp.Unlogged := ⟨rfl, fun _ => trivial⟩
  have hcause : ∀ cause, (log.recordCause cause : XyProg F _).Only XyOp.Unlogged := by
    intro cause
    unfold ProtectionLog.recordCause
    split
    · split_ifs
      · exact .perform rfl
      · trivial
    · trivial
  refine .bind (.perform rfl) ?_
  rintro (e | st)
  · exact .bind (.perform rfl) fun _ => .bind hbattery fun _ => trivial
  · refine .bind ?_ fun _ => .bind (.perform rfl) fun _ => .bind hbattery fun _ => trivial
    unfold ProtectionLog.classify
    split_ifs
    · trivial
    · exact .bind (hcause _) fun _ => trivial

theorem applyUpdateVoltage_only (ticket : VoltageTicket F) :
    (applyUpdateVoltage ticket).Only XyOp.Unlogged := by
  unfold applyUpdateVoltage
  split_ifs
  · refine .bind (.perform rfl) ?_
    rintro (e | _)
    · exact .bind (.perform rfl) fun _ => trivial
    · trivial
  · refine .bind (.perform rfl) ?_
    rintro (e | _)
    · exact .bind (.perform rfl) fun _ => trivial
    refine .bind (.perform rfl) fun _ => .bind (.perform rfl) ?_
    rintro (e | _)
    · refine .bind (.perform rfl) fun _ => .bind (.perform rfl) ?_
      rintro (e | _)
      · exact .bind (.perform rfl) fun _ => trivial
      · trivial
    · refine .bind (.perform rfl) ?_
      rintro (e | _)
      · refine .bind (.perform rfl) ?_
        rintro (e | _)
        · exact .bind (.perform rfl) fun _ => trivial
        · trivial
      · trivial

theorem applyAction_only (a : Action F) : (applyAction s a).Only XyOp.Unlogged := by
  cases a with
  | none => trivial
  | enableOutput t =>
    refine .bind (.perform rfl) ?_
    rintro (e | _)
    · exact .bind (.perform rfl) fun _ => trivial
    · trivial
  | updateVoltage t =>
    refine .bind (applyUpdateVoltage_only t) ?_
    rintro (_ | _) <;> trivial
  | disableOutput t =>
    refine .bind (.perform rfl) ?_
    rintro (e | _)
    · exact .bind (.perform rfl) fun _ => trivial
    · trivial

theorem chargeLog_append {tr₁ tr₂ : List (S × XyOp F)} :
    chargeLog (tr₁ ++ tr₂) = chargeLog tr₁ ++ chargeLog tr₂ := List.filterMap_append

theorem popTransition_some {t : ChargeTransition} (h : s.popTransition = (some t, s')) :
    s.transitions.items = t :: s'.transitions.items ∧
      ({ s' with transitions := .new } : ChargeSupervisor F) = { s with transitions := .new } := by
  simp only [ChargeSupervisor.popTransition, Deque.popFront, Prod.mk.injEq] at h
  obtain ⟨hhead, rfl⟩ := h
  exact ⟨(List.cons_head?_tail hhead).symm, rfl⟩

/-- Draining records what is buffered, in order, and all of it unless it is cut short. -/
theorem run_drain {o : Option (ChargeSupervisor F)} (hn : s.transitions.items.length = n)
    (h : E.Run (drain n s) dev tr o dev') : chargeLog tr <+: s.transitions.items ∧
      ∀ s', o = some s' → chargeLog tr = s.transitions.items ∧
        s' = { s with transitions := .new } := by
  induction n generalizing s dev tr with
  | zero =>
    have hitems := List.eq_nil_of_length_eq_zero hn
    have hnew := Deque.eq_new hitems
    obtain ⟨rfl, ho⟩ := Env.run_pure h
    refine ⟨List.nil_prefix, fun s' hs' => ⟨hitems.symm, ?_⟩⟩
    rcases ho with rfl | rfl <;> cases hs'
    rw [← hnew]
  | succ n ih =>
    unfold drain at h
    rcases hp : s.popTransition with ⟨_ | t, s₁⟩
    · simp only [ChargeSupervisor.popTransition, Deque.popFront, Prod.mk.injEq,
        List.head?_eq_none_iff] at hp
      rw [hp.1] at hn
      cases hn
    · obtain ⟨hitems, hsame⟩ := popTransition_some hp
      rw [hitems, List.length_cons] at hn
      rw [hp] at h
      rw [hitems]
      rcases Env.run_perform_bind (XyOp.record (.charge t)) h with
        ⟨rfl, rfl⟩ | ⟨dev₁, r, dev₂, tr', rfl, -, h⟩
      · exact ⟨List.nil_prefix, fun s' hs' => by cases hs'⟩
      · obtain ⟨hpre, hall⟩ := ih (by omega) h
        have hcons : chargeLog ((dev₁, XyOp.record (.charge t)) :: tr') = t :: chargeLog tr' := rfl
        rw [hcons]
        refine ⟨List.cons_prefix_cons.2 ⟨rfl, hpre⟩, fun s' hs' => ?_⟩
        obtain ⟨hlogged, rfl⟩ := hall s' hs'
        exact ⟨by rw [hlogged], hsame⟩

variable [FloatLike F]

/-- An action is carried out, its ticket committed or dropped. -/
theorem run_applyAction {a : Action F}
    (h : E.Run (applyAction s a) dev tr (some (.ok s')) dev') :
    s' = s ∨ s.commit a = .ok s' := by
  have hkeeps : ∀ op, E.Keeps (fun _ _ => True) (fun _ => True) op := fun _ =>
    ⟨fun _ _ _ _ => trivial, fun _ _ => trivial, fun _ _ _ _ _ => trivial⟩
  exact ((holds_applyAction_keeps hkeeps s a _ _ _ _ trivial h).2 _ rfl s' rfl).2

/-- An iteration of the loop records nothing, cut short or ended by a panic, or what a turn drains,
or the beginning of that. -/
theorem run_iteration {o : Option (Except Panic (ChargeSupervisor F × ProtectionLog))}
    (h : E.Run (iteration s log) dev tr o dev') :
    (chargeLog tr = [] ∧ ∀ x, o ≠ some (.ok x)) ∨
      ∃ i l s', s.drainedTurn i = .ok (l, s') ∧ chargeLog tr <+: l ∧
        ∀ x, o = some (.ok x) → x.1 = s' ∧ chargeLog tr = l := by
  unfold iteration at h
  rcases Env.run_perform_bind (XyOp.wdtReset) h with ⟨rfl, rfl⟩ | ⟨dev₀, _, _, tr₀, rfl, -, h⟩
  · exact .inl ⟨rfl, by simp⟩
  have hfed : chargeLog ((dev₀, XyOp.wdtReset) :: tr₀) = chargeLog tr₀ := rfl
  rw [hfed]
  rcases Env.run_bind h with ⟨rfl, hcut⟩ | ⟨⟨outcome, log'⟩, tr₁, tr₂, dev₁, rfl, hpoll, h⟩
  · exact .inl ⟨chargeLog_eq_nil (hcut.only (poll_only log)), by simp⟩
  have hpolled := chargeLog_eq_nil (hpoll.only (poll_only log))
  rcases Env.run_perform_bind (XyOp.lap) h with ⟨rfl, rfl⟩ | ⟨dev₂, elapsed, dev₃, tr₃, rfl, -, h⟩
  · rw [List.append_nil]
    exact .inl ⟨hpolled, by simp⟩
  have hlapped : chargeLog (tr₁ ++ (dev₂, XyOp.lap) :: tr₃) = chargeLog tr₃ := by
    rw [chargeLog_append, hpolled]
    rfl
  rw [hlapped]
  rcases ht : s.tick outcome.poll elapsed with e | ⟨action, s₁⟩
  · simp only [ht] at h
    obtain ⟨rfl, ho⟩ := Env.run_pure h
    refine .inl ⟨rfl, ?_⟩
    rcases ho with rfl | rfl <;> simp
  simp only [ht] at h
  rcases Env.run_bind h with ⟨rfl, hcut⟩ | ⟨x, tr₄, tr₅, dev₄, rfl, hact, h⟩
  · exact .inl ⟨chargeLog_eq_nil (hcut.only (applyAction_only action)), by simp⟩
  rw [chargeLog_append, chargeLog_eq_nil (hact.only (applyAction_only action)), List.nil_append]
  rcases x with e | s₂
  · obtain ⟨rfl, ho⟩ := Env.run_pure h
    refine .inl ⟨rfl, ?_⟩
    rcases ho with rfl | rfl <;> simp
  have hcommit := run_applyAction hact
  obtain ⟨i, hpoll', helapsed, hi⟩ : ∃ i : Input F, i.poll = outcome.poll ∧ i.elapsed = elapsed ∧
      (i.commit = true ∧ s₁.commit action = .ok s₂ ∨ i.commit = false ∧ s₂ = s₁) := by
    rcases hcommit with hdrop | hcommit
    · exact ⟨⟨outcome.poll, elapsed, false, 0⟩, rfl, rfl, .inr ⟨rfl, hdrop⟩⟩
    · exact ⟨⟨outcome.poll, elapsed, true, 0⟩, rfl, rfl, .inl ⟨rfl, hcommit⟩⟩
  have hturn : s.drainedTurn i
      = .ok (s₂.transitions.items, { s₂ with transitions := .new }) := by
    refine ChargeSupervisor.drainedTurn_eq_ok.2 ⟨action, s₁, s₂, ?_, hi, rfl, rfl⟩
    rw [hpoll', helapsed]
    exact ht
  refine .inr ⟨i, _, _, hturn, ?_⟩
  simp only [] at h
  rcases Env.run_bind h with ⟨rfl, hcut⟩ | ⟨s₃, tr₆, tr₇, dev₅, rfl, hdrain, h⟩
  · exact ⟨(run_drain rfl hcut).1, by simp⟩
  obtain ⟨hdrained, rfl⟩ := (run_drain rfl hdrain).2 s₃ rfl
  rw [chargeLog_append, hdrained]
  rcases hph : ({ s₂ with transitions := .new } : ChargeSupervisor F).phase with e | phase
  · simp only [hph] at h
    obtain ⟨rfl, ho⟩ := Env.run_pure h
    rw [chargeLog_eq_nil (by simp), List.append_nil]
    refine ⟨List.prefix_refl _, ?_⟩
    rcases ho with rfl | rfl <;> simp
  · simp only [hph] at h
    have hquiet : ∀ e ∈ tr₇, e.2.Unlogged :=
      h.only (.bind (.perform rfl) fun _ => .bind (.perform rfl) fun _ => trivial)
    rw [chargeLog_eq_nil hquiet, List.append_nil]
    refine ⟨List.prefix_refl _, ?_⟩
    rcases Env.run_bind h with ⟨rfl, -⟩ | ⟨_, _, _, _, -, -, h⟩
    · simp
    rcases Env.run_bind h with ⟨rfl, -⟩ | ⟨_, _, _, _, -, -, h⟩
    · simp
    obtain ⟨-, ho⟩ := Env.run_pure h
    rcases ho with rfl | rfl <;> simp

/-- What the loop records is what a run of turns drains, or the beginning of that. -/
theorem run_loop {o : Option (Except Panic (ChargeSupervisor F))}
    (h : E.Run (loop n s log) dev tr o dev') :
    ∃ is l s', s.drainedRun is = .ok (l, s') ∧ chargeLog tr <+: l ∧
      ∀ x, o = some (.ok x) → x = s' ∧ chargeLog tr = l := by
  induction n generalizing s log dev tr with
  | zero =>
    obtain ⟨rfl, ho⟩ := Env.run_pure h
    refine ⟨[], [], s, rfl, List.nil_prefix, fun x hx => ⟨?_, rfl⟩⟩
    rcases ho with rfl | rfl <;> cases hx
    rfl
  | succ n ih =>
    have hone : ∀ {tr : List (S × XyOp F)} {dev dev' : S}
        {o : Option (Except Panic (ChargeSupervisor F × ProtectionLog))},
        E.Run (iteration s log) dev tr o dev' →
        ∃ is l s', s.drainedRun is = .ok (l, s') ∧ chargeLog tr <+: l := by
      intro tr dev dev' o h
      rcases run_iteration h with ⟨hnil, -⟩ | ⟨i, l, s₁, hturn, hpre, -⟩
      · exact ⟨[], [], s, rfl, by rw [hnil]⟩
      · refine ⟨[i], l ++ [], s₁, ChargeSupervisor.drainedRun_cons hturn rfl, ?_⟩
        rw [List.append_nil]
        exact hpre
    unfold loop at h
    rcases Env.run_bind h with ⟨rfl, hcut⟩ | ⟨x, tr₁, tr₂, dev₁, rfl, hiter, h⟩
    · obtain ⟨is, l, s', hrun, hpre⟩ := hone hcut
      exact ⟨is, l, s', hrun, hpre, fun x hx => by cases hx⟩
    rcases x with e | ⟨s₁, log'⟩
    · obtain ⟨rfl, ho⟩ := Env.run_pure h
      rw [List.append_nil]
      obtain ⟨is, l, s', hrun, hpre⟩ := hone hiter
      refine ⟨is, l, s', hrun, hpre, fun x hx => ?_⟩
      rcases ho with rfl | rfl <;> cases hx
    rcases run_iteration hiter with ⟨-, hne⟩ | ⟨i, l, s₂, hturn, -, hdone⟩
    · exact absurd rfl (hne _)
    obtain ⟨rfl, hlogged⟩ := hdone _ rfl
    obtain ⟨is, log₂, s', hrun, hpre, hend⟩ := ih h
    refine ⟨i :: is, l ++ log₂, s', ChargeSupervisor.drainedRun_cons hturn hrun, ?_, fun x hx => ?_⟩
    · rw [chargeLog_append, hlogged]
      exact (List.prefix_append_right_inj l).2 hpre
    · obtain ⟨hsame, hall⟩ := hend x hx
      rw [chargeLog_append, hlogged, hall]
      exact ⟨hsame, rfl⟩

/-- Drained after every turn, the log of a run is a route: `Energised` first and once, holds and
clearances in turn, `Parked` once and outside a hold, and nothing but `Latched` after the first.
Its entries are those of the moves that led to where the machine stands. A tick logs two entries at
most and its commit one, and each finds room. -/
theorem transition_log {profile : Profile F} {iSetA : F} {packTemp : PackTemp}
    (hnew : ChargeSupervisor.new profile iSetA packTemp = .ok s) :
    (∀ is l s', s.drainedRun is = .ok (l, s') → l ∈ routes.matches' ∧
      Stage.Path .dark l s'.state.stage ∧
      ∀ p e a s₁, s'.tick p e = .ok (a, s₁) → s'.LogsAtMost 2 s₁ ∧
        ∀ s₂, s₁.commit a = .ok s₂ → s₁.LogsAtMost 1 s₂) ∧
    ∀ {S : Type} (E : Env S (XyOp F) XyOp.Reply) n log dev tr o dev',
      E.Run (loop n s log) dev tr o dev' → chargeLog tr ∈ routes.matches' ∧
        ∀ s', o = some (.ok s') → Stage.Path .dark (chargeLog tr) s'.state.stage := by
  have hboot : s.state.stage = .dark ∧ s.transitions = .new := by
    obtain ⟨-, -, rfl⟩ := ChargeSupervisor.new_eq_ok hnew
    exact ⟨rfl, rfl⟩
  refine ⟨fun is l s' hrun => ?_, fun E n log dev tr o dev' hrun => ?_⟩
  · obtain ⟨hpath, hempty⟩ := ChargeSupervisor.drainedRun_path hboot.2 hrun
    rw [hboot.1] at hpath
    refine ⟨hpath.routes (List.prefix_refl l), hpath, fun p e a s₁ htick => ?_⟩
    have hzero : s'.transitions.items.length = 0 := by rw [hempty]; rfl
    have hlogs := ChargeSupervisor.tick_logs htick (show _ + 1 < 8 by omega)
    have hlen := hlogs.length_le
    exact ⟨hlogs, fun s₂ hcommit => ChargeSupervisor.commit_logs hcommit (show _ < 8 by omega)⟩
  · obtain ⟨is, l, s', hdrained, hpre, hend⟩ := run_loop hrun
    obtain ⟨hpath, -⟩ := ChargeSupervisor.drainedRun_path hboot.2 hdrained
    rw [hboot.1] at hpath
    refine ⟨hpath.routes hpre, fun x hx => ?_⟩
    obtain ⟨rfl, hall⟩ := hend x hx
    exact hall ▸ hpath

end Loop

/-- Brought up, sagging twice, and then dropping its output for good. -/
def sagTurns : List (Input Float32) :=
  [.off .normal, .off .lvp, .on, .off .lvp, .off .normal, .off .ovp].flatMap
    fun output => seconds 1 (fullPoll output none)

def sagLog : List ChargeTransition :=
  [.energised, .protectHold, .protectCleared, .protectHold, .protectCleared, .latched]

theorem transition_log_sag : sagLog ∈ routes.matches' ∧ Stage.Path .dark sagLog .out := by
  have hrun : (bootSupervisor .absent).drainedRun sagTurns
      = .ok (sagLog, after (bootSupervisor .absent) sagTurns) := by
    decide +kernel
  have hout : (after (bootSupervisor .absent) sagTurns).state.stage = .out := by
    decide +kernel
  obtain ⟨hroute, hpath, -⟩ := (transition_log (new_bootSupervisor .absent)).1 _ _ _ hrun
  exact ⟨hroute, hout ▸ hpath⟩

end Supervisor

end Esp32Battery
