import Esp32Battery.Proofs.Conversation

/-!
# What V_SET was last told

Whatever the buck answers, V_SET was last acknowledged at the target the supervisor holds, unless
it has given up: a write that fails leaves both, and one that is committed moves both.
-/

namespace Esp32Battery

open Lib Automaton

variable {F : Type}

/-- What an exchange makes of the V_SET last acknowledged. -/
def retold (told : Option F) (x : Answered (XyOp F) XyOp.Reply) : Option F :=
  match x with
  | ⟨.setVoltage v, .ok ()⟩ => some v
  | _ => told

/-- The V_SET last acknowledged, if any was. -/
def lastTold (c : Talk F) : Option F := c.foldl retold none

/-- The supervisor holds the target that was told, unless it has given up. -/
def Aimed (s : ChargeSupervisor F) (told : Option F) : Prop :=
  Terminal s.state ∨
    ∃ phase, s.state.setpointPhase = some phase ∧ told = some (s.voltageForPhase phase)

/-- The operations that write V_SET. -/
def XyOp.retargets : XyOp F → Bool
  | .setVoltage _ => true
  | _ => false

section Talk

variable {told : Option F} {past c c' : Talk F}

theorem foldl_retold (h : ∀ x ∈ c, x.op.retargets = false) : c.foldl retold told = told := by
  induction c with
  | nil => rfl
  | cons x c ih =>
    obtain ⟨hx, hc⟩ := List.forall_mem_cons.1 h
    have hsame : retold told x = told := by
      obtain ⟨op, r⟩ := x
      cases op <;> first | rfl | cases hx
    rw [List.foldl_cons, hsame, ih hc]

theorem lastTold_append : lastTold (past ++ c) = c.foldl retold (lastTold past) :=
  List.foldl_append

theorem PolledAs.not_retargets {log log' : ProtectionLog} {p : PollResult F}
    (h : PolledAs log c p log') : ∀ x ∈ c, x.op.retargets = false :=
  h.forall_op (P := fun op => op.retargets = false) rfl (fun _ => rfl) (fun _ => rfl) rfl

theorem drained_not_retargets (s : ChargeSupervisor F) :
    ∀ x ∈ s.drained, x.op.retargets = false :=
  drained_forall_op (P := fun op => op.retargets = false) (fun _ => rfl) s

/-- A write that is committed is one that moved V_SET. -/
theorem Written.retold {t : VoltageTicket F} {o : VoltageWriteOutcome} (h : Written t c o) :
    c.foldl retold told = match o with
      | .committed => some t.targetV
      | .retry => told := by
  cases h <;> rfl

end Talk

section Turn

variable {s s' s₁ s₂ : ChargeSupervisor F} {told : Option F} {past c : Talk F} {p : PollResult F}
  {e : Duration} {a : Action F} {log log' : ProtectionLog}

theorem Aimed.congr (h : Aimed s told) (hb : s.SameBoard s')
    (hp : Terminal s'.state ∨ s'.state.setpointPhase = s.state.setpointPhase)
    (hs : Terminal s.state → Terminal s'.state) : Aimed s' told := by
  rcases h with h | ⟨phase, hphase, htold⟩
  · exact .inl (hs h)
  · refine hp.imp_right fun hp => ⟨phase, hp.trans hphase, htold.trans ?_⟩
    rw [hb.voltageForPhase]

variable [FloatLike F]

theorem Aimed.tick (h : Aimed s told) (ht : s.tick p e = .ok (a, s₁)) : Aimed s₁ told := by
  obtain ⟨act, hb, -⟩ := ChargeSupervisor.tick_beat ht
  exact h.congr (.of_tick ht) hb.setpointPhase fun hs => (hb.terminal hs).1

/-- A commit that writes no V_SET leaves the target. -/
theorem Aimed.commit {act : Act} (h : Aimed s₁ told) (hre : s₁.Realizes a act)
    (hc : s₁.commit a = .ok s₂) (hne : ∀ phase, act ≠ .retarget phase) : Aimed s₂ told := by
  obtain ⟨hcom, -, -⟩ := ChargeSupervisor.commit_committed hre hc
  refine h.congr (.of_commit hc) (hcom.setpointPhase.imp_right fun hp => ?_) hcom.terminal
  rw [hp]
  cases act <;> first | rfl | exact absurd rfl (hne _)

theorem Applied.aimed (ha : Applied s₁ a c (.ok s₂)) (ht : s.tick p e = .ok (a, s₁))
    (h : Aimed s₁ told) : Aimed s₂ (c.foldl retold told) := by
  obtain ⟨act, hb, hre⟩ := ChargeSupervisor.tick_beat ht
  generalize hx : Except.ok s₂ = x at ha
  cases ha with
  | none | unenabled | undisabled =>
    cases hx
    exact h
  | enabled t =>
    exact h.commit hre (show s₁.commit (.enableOutput t) = .ok s₂ from hx.symm) (by
      rintro phase rfl
      obtain ⟨-, -, ⟨⟩⟩ := hre)
  | disabled t =>
    exact h.commit hre (show s₁.commit (.disableOutput t) = .ok s₂ from hx.symm) (by
      rintro phase rfl
      obtain ⟨-, -, ⟨⟩⟩ := hre)
  | @retargeted t _ hw =>
    have hc : s₁.commit (.updateVoltage t) = .ok s₂ := hx.symm
    have hboard := ChargeSupervisor.SameBoard.of_commit hc
    obtain ⟨hcom, -, -⟩ := ChargeSupervisor.commit_committed hre hc
    cases act with
    | retarget phase =>
      have htarget : t.targetV = s₂.voltageForPhase phase := by
        obtain ⟨-, -, rfl⟩ := hre
        exact (hboard.voltageForPhase phase).symm
      rw [hw.retold]
      exact hcom.setpointPhase.imp_right fun hp => ⟨phase, hp, by rw [← htarget]⟩
    | none | enable | disable => cases hre
  | @unretargeted t _ hw =>
    cases hx
    rw [hw.retold]
    exact h

theorem Turned.aimed (h : Turned s log c (.ok (s', log'))) (hs : Aimed s (lastTold past)) :
    Aimed s' (lastTold (past ++ c)) := by
  generalize hx : Except.ok (s', log') = x at h
  cases h with
  | unjudged | unapplied | unpublished => cases hx
  | @turn c c' p _ elapsed a s₁ s₂ phase hp ht ha _ =>
    cases hx
    have htold : lastTold (past ++ (c ++ ⟨.lap, elapsed⟩ :: (c' ++ (s₂.drained ++
        [⟨.publish (s₂.status p phase), ()⟩, ⟨.sleep pollInterval, ()⟩]))))
          = c'.foldl retold (lastTold past) := by
      have hquiet : ∀ x ∈ s₂.drained ++ [⟨.publish (s₂.status p phase), ()⟩,
          ⟨.sleep pollInterval, ()⟩], x.op.retargets = false :=
        List.forall_mem_append.2 ⟨drained_not_retargets s₂, by simp [XyOp.retargets]⟩
      rw [lastTold_append, List.foldl_append, foldl_retold hp.not_retargets, List.foldl_cons,
        List.foldl_append, foldl_retold hquiet]
      rfl
    rw [htold]
    exact ha.aimed ht (hs.tick ht)

end Turn

end Esp32Battery
