import Esp32Battery.Proofs.Conversation
import Esp32Battery.Proofs.Session

/-!
# What a boot says

An attempt issues the operations of the boot sequence in order, up to the first that fails or that
reads back wrong. A session subscribes to the watchdog and makes failed attempts, and then either
one that reads everything back as written, followed by the loop, or the disable that a boot gives up
with.
-/

namespace Esp32Battery

open Lib

variable {F : Type}

section Boot

variable (profile : Profile F) (buck : BuckSetup F)

def bootOps : List (XyOp F) :=
  [.checkModel, .setOutput false, .clearProtectionStatus, .setPowerOnDefault false,
    .setSafetyLimits buck.limits, .setVoltage profile.floatV, .setCurrentLimit buck.iSetA,
    .readStatus, .readSafetyLimits]

/-- An attempt, finished or not. -/
def Attempted (c : Talk F) : Prop := c.map Answered.op <+: bootOps profile buck

/-- The conversation of an attempt all of whose transfers succeed. -/
def bootTalk (check : ModelCheck) (st : Status F) (limits : SafetyLimits F) : Talk F :=
  [⟨.checkModel, .ok check⟩, ⟨.setOutput false, .ok ()⟩, ⟨.clearProtectionStatus, .ok ()⟩,
    ⟨.setPowerOnDefault false, .ok ()⟩, ⟨.setSafetyLimits buck.limits, .ok ()⟩,
    ⟨.setVoltage profile.floatV, .ok ()⟩, ⟨.setCurrentLimit buck.iSetA, .ok ()⟩,
    ⟨.readStatus, .ok st⟩, ⟨.readSafetyLimits, .ok limits⟩]

/-- What is read back is what was written, by the supervisor's own tolerance, and the output reads
off. -/
structure Verified [FloatLike F] (check : ModelCheck) (st : Status F) (limits : SafetyLimits F) :
    Prop where
  scales : check.scalesMatch = true
  vSet : FloatLike.abs (profile.floatV - st.setpoints.vSet) < setpointDriftTol
  iSet : FloatLike.abs (buck.iSetA - st.setpoints.iSet) < setpointDriftTol
  ovp : FloatLike.abs (buck.limits.ovpV - limits.ovpV) < setpointDriftTol
  ocp : FloatLike.abs (buck.limits.ocpA - limits.ocpA) < setpointDriftTol
  lvp : FloatLike.abs (buck.limits.lvpV - limits.lvpV) < setpointDriftTol
  off : st.outputOn = false

end Boot

section Says

variable {profile : Profile F} {buck : BuckSetup F} {c : Talk F}

/-- A transfer of the boot sequence fails and ends it, or the sequence goes on with its reply. -/
theorem says_bus_bind {α β : Type} {p : XyProg F (Except BusError α)}
    {f : α → ExceptT (BootError F) (XyProg F) β} {x : Except (BootError F) β}
    (h : (bus p >>= f).run.Says c x) :
    (∃ e, p.Says c (.error e) ∧ x = .error (.bus e)) ∨
      ∃ a c₁ c₂, c = c₁ ++ c₂ ∧ p.Says c₁ (.ok a) ∧ (f a).run.Says c₂ x := by
  rw [run_bus_bind, Prog.says_bind] at h
  obtain ⟨e | a, c₁, c₂, rfl, hp, h⟩ := h
  · obtain ⟨rfl, rfl⟩ := Prog.says_pure.1 h
    rw [List.append_nil]
    exact .inl ⟨e, hp, rfl⟩
  · exact .inr ⟨a, c₁, c₂, rfl, hp, h⟩

theorem says_verify_bind [FloatLike F] {β : Type} {what : String} {expected actual : F}
    {f : Unit → ExceptT (BootError F) (XyProg F) β} {x : Except (BootError F) β}
    (h : (verify what expected actual >>= f).run.Says c x) :
    (c = [] ∧ x = .error (.verify what expected actual)) ∨
      FloatLike.abs (expected - actual) < setpointDriftTol ∧ (f ()).run.Says c x := by
  rw [run_verify_bind] at h
  split_ifs at h with htol
  · exact .inr ⟨htol, h⟩
  · exact .inl (Prog.says_pure.1 h)

variable [FloatLike F]

theorem says_bootSequence {x : Except (BootError F) ℕ}
    (h : (bootSequence profile buck).run.Says c x) :
    ((∃ e, x = .error e) ∧ Attempted profile buck c) ∨ ∃ check st limits,
      Verified profile buck check st limits ∧ c = bootTalk profile buck check st limits ∧
        x = .ok check.deviceCode := by
  unfold bootSequence at h
  replace h := says_bus_bind h
  obtain ⟨e, hp, rfl⟩ | ⟨check, _, c₁, rfl, hp, h⟩ := h <;>
    cases Prog.says_perform.1 hp
  · exact .inl ⟨⟨_, rfl⟩, _, rfl⟩
  by_cases hscales : (!check.scalesMatch) = true
  · rw [if_pos hscales] at h
    obtain ⟨rfl, rfl⟩ := Prog.says_pure.1 h
    exact .inl ⟨⟨_, rfl⟩, _, rfl⟩
  rw [if_neg hscales] at h
  replace h := says_bus_bind h
  obtain ⟨e, hp, rfl⟩ | ⟨_, _, c₂, rfl, hp, h⟩ := h <;>
    cases Prog.says_perform.1 hp
  · exact .inl ⟨⟨_, rfl⟩, _, rfl⟩
  replace h := says_bus_bind h
  obtain ⟨e, hp, rfl⟩ | ⟨_, _, c₃, rfl, hp, h⟩ := h <;>
    cases Prog.says_perform.1 hp
  · exact .inl ⟨⟨_, rfl⟩, _, rfl⟩
  replace h := says_bus_bind h
  obtain ⟨e, hp, rfl⟩ | ⟨_, _, c₄, rfl, hp, h⟩ := h <;>
    cases Prog.says_perform.1 hp
  · exact .inl ⟨⟨_, rfl⟩, _, rfl⟩
  replace h := says_bus_bind h
  obtain ⟨e, hp, rfl⟩ | ⟨_, _, c₅, rfl, hp, h⟩ := h <;>
    cases Prog.says_perform.1 hp
  · exact .inl ⟨⟨_, rfl⟩, _, rfl⟩
  replace h := says_bus_bind h
  obtain ⟨e, hp, rfl⟩ | ⟨_, _, c₆, rfl, hp, h⟩ := h <;>
    cases Prog.says_perform.1 hp
  · exact .inl ⟨⟨_, rfl⟩, _, rfl⟩
  replace h := says_bus_bind h
  obtain ⟨e, hp, rfl⟩ | ⟨_, _, c₇, rfl, hp, h⟩ := h <;>
    cases Prog.says_perform.1 hp
  · exact .inl ⟨⟨_, rfl⟩, _, rfl⟩
  replace h := says_bus_bind h
  obtain ⟨e, hp, rfl⟩ | ⟨st, _, c₈, rfl, hp, h⟩ := h <;>
    cases Prog.says_perform.1 hp
  · exact .inl ⟨⟨_, rfl⟩, _, rfl⟩
  replace h := says_verify_bind h
  obtain ⟨rfl, rfl⟩ | ⟨hv, h⟩ := h
  · exact .inl ⟨⟨_, rfl⟩, _, rfl⟩
  replace h := says_verify_bind h
  obtain ⟨rfl, rfl⟩ | ⟨hi, h⟩ := h
  · exact .inl ⟨⟨_, rfl⟩, _, rfl⟩
  replace h := says_bus_bind h
  obtain ⟨e, hp, rfl⟩ | ⟨limits, _, c₉, rfl, hp, h⟩ := h <;>
    cases Prog.says_perform.1 hp
  · exact .inl ⟨⟨_, rfl⟩, _, rfl⟩
  replace h := says_verify_bind h
  obtain ⟨rfl, rfl⟩ | ⟨hovp, h⟩ := h
  · exact .inl ⟨⟨_, rfl⟩, _, rfl⟩
  replace h := says_verify_bind h
  obtain ⟨rfl, rfl⟩ | ⟨hocp, h⟩ := h
  · exact .inl ⟨⟨_, rfl⟩, _, rfl⟩
  replace h := says_verify_bind h
  obtain ⟨rfl, rfl⟩ | ⟨hlvp, h⟩ := h
  · exact .inl ⟨⟨_, rfl⟩, _, rfl⟩
  by_cases hon : st.outputOn = true
  · rw [if_pos hon] at h
    obtain ⟨rfl, rfl⟩ := Prog.says_pure.1 h
    exact .inl ⟨⟨_, rfl⟩, _, rfl⟩
  rw [if_neg hon] at h
  obtain ⟨rfl, rfl⟩ := Prog.says_pure.1 h
  exact .inr ⟨check, st, limits,
    ⟨by simpa using hscales, hv, hi, hovp, hocp, hlvp, by simpa using hon⟩, rfl, rfl⟩

end Says

/-- Attempts with the retry's pause before each. -/
def paused (bs : List (Talk F)) : Talk F :=
  bs.flatMap fun b => ⟨.sleep bootRetryDelay, ()⟩ :: b

/-- Attempts with the retry's pause between them. -/
def retried : List (Talk F) → Talk F
  | [] => []
  | b :: bs => b ++ paused bs

theorem retried_concat (bs : List (Talk F)) (b : Talk F) :
    ∃ before, retried (bs ++ [b]) = before ++ b := by
  cases bs with
  | nil => exact ⟨[], by simp [retried, paused]⟩
  | cons b' bs =>
    exact ⟨b' ++ paused bs ++ [⟨.sleep bootRetryDelay, ()⟩], by simp [retried, paused]⟩

/-- The exchange that subscribes to the watchdog. -/
def subscribed : Answered (XyOp F) XyOp.Reply := ⟨.wdtSubscribe, ()⟩

/-- What a session says before its loop, `bs` being the attempts that failed. -/
def opening (profile : Profile F) (buck : BuckSetup F) (bs : List (Talk F)) (check : ModelCheck)
    (st : Status F) (limits : SafetyLimits F) : Talk F :=
  subscribed :: (retried (bs ++ [bootTalk profile buck check st limits]) ++
    [⟨.publishModel check.deviceCode, ()⟩])

section Retries

variable [FloatLike F] {profile : Profile F} {buck : BuckSetup F} {c : Talk F} {left : ℕ}
  {code : Option ℕ}

/-- How a boot that has `left` attempts ends: `bs` failed, and the next one did not or there was
no next. -/
inductive Tried (profile : Profile F) (buck : BuckSetup F) (left : ℕ) :
    List (Talk F) → Option ℕ → Prop
  | failed {bs : List (Talk F)} : bs.length = left → (∀ b ∈ bs, Attempted profile buck b) →
      Tried profile buck left bs none
  | booted {bs : List (Talk F)} {check : ModelCheck} {st : Status F} {limits : SafetyLimits F} :
      bs.length < left → (∀ b ∈ bs, Attempted profile buck b) →
      Verified profile buck check st limits →
      Tried profile buck left (bs ++ [bootTalk profile buck check st limits])
        (some check.deviceCode)

theorem Tried.cons {b : Talk F} {bs : List (Talk F)} (hb : Attempted profile buck b)
    (h : Tried profile buck left bs code) : Tried profile buck (left + 1) (b :: bs) code := by
  have hall : ∀ {bs : List (Talk F)}, (∀ b ∈ bs, Attempted profile buck b) →
      ∀ b' ∈ b :: bs, Attempted profile buck b' := fun h => List.forall_mem_cons.2 ⟨hb, h⟩
  cases h with
  | failed hlen hbs => exact .failed (by rw [List.length_cons, hlen]) (hall hbs)
  | booted hlen hbs hv =>
    rw [← List.cons_append]
    refine .booted ?_ (hall hbs) hv
    rw [List.length_cons]
    omega

/-- One attempt, the rest of the boot after it if it fails. -/
theorem says_attempt (h : ((bootSequence profile buck).run >>= fun r => match r with
      | .ok deviceCode => pure (some deviceCode)
      | .error _ => bootAttempts profile buck left).Says c code) :
    (∃ b c', c = b ++ c' ∧ Attempted profile buck b ∧
        (bootAttempts profile buck left).Says c' code) ∨
      Tried profile buck (left + 1) [c] code := by
  rw [Prog.says_bind] at h
  obtain ⟨r, b, c', rfl, hb, h⟩ := h
  rcases says_bootSequence hb with ⟨⟨e, rfl⟩, hatt⟩ | ⟨check, st, limits, hv, rfl, rfl⟩
  · exact .inl ⟨b, c', rfl, hatt, h⟩
  · obtain ⟨rfl, rfl⟩ := Prog.says_pure.1 h
    rw [List.append_nil]
    refine .inr ?_
    rw [← List.nil_append [_]]
    exact .booted (by simp) (by simp) hv

theorem says_bootAttempts (hleft : left < bootRetryCount)
    (h : (bootAttempts profile buck left).Says c code) :
    ∃ bs, Tried profile buck left bs code ∧ c = paused bs := by
  induction left generalizing c with
  | zero =>
    obtain ⟨rfl, rfl⟩ := Prog.says_pure.1 h
    exact ⟨[], .failed rfl (by simp), rfl⟩
  | succ left ih =>
    unfold bootAttempts bootPause at h
    rw [if_pos hleft, Prog.says_perform_bind] at h
    obtain ⟨_, c₁, rfl, h⟩ := h
    rcases says_attempt h with ⟨b, c₂, rfl, hb, h⟩ | h
    · obtain ⟨bs, hbs, rfl⟩ := ih (by omega) h
      exact ⟨b :: bs, hbs.cons hb, rfl⟩
    · exact ⟨[c₁], h, by simp [paused]⟩

theorem says_bootWithRetries (h : (bootWithRetries profile buck).Says c code) :
    ∃ bs tried, Tried profile buck bootRetryCount bs tried ∧
      ((∃ deviceCode, tried = some deviceCode ∧ code = some deviceCode ∧ c = retried bs) ∨
        tried = none ∧ code = none ∧ ∃ r gaveUp, c = retried bs ++
          noted (.xy .bootSequence) :: ⟨.setOutput false, r⟩ :: gaveUp ∧
          gaveUp = if r = .ok () then [] else [noted (.xy .setOutput)]) := by
  unfold bootWithRetries at h
  rw [Prog.says_bind] at h
  obtain ⟨tried, c₁, c₂, rfl, hc₁, h⟩ := h
  have hfirst : ∃ bs, Tried profile buck bootRetryCount bs tried ∧ c₁ = retried bs := by
    have hc : (bootAttempts profile buck (9 + 1)).Says c₁ tried := hc₁
    unfold bootAttempts bootPause at hc
    rw [if_neg (by decide), pure_bind] at hc
    rcases says_attempt hc with ⟨b, c₂, rfl, hb, hc⟩ | hc
    · obtain ⟨bs, hbs, rfl⟩ := says_bootAttempts (by decide) hc
      exact ⟨b :: bs, hbs.cons hb, rfl⟩
    · exact ⟨[c₁], hc, by simp [retried, paused]⟩
  obtain ⟨bs, hbs, rfl⟩ := hfirst
  refine ⟨bs, tried, hbs, ?_⟩
  rcases tried with _ | deviceCode
  · refine .inr ⟨rfl, ?_⟩
    simp only [] at h
    rw [says_noted_bind] at h
    obtain ⟨c₃, rfl, h⟩ := h
    rw [Prog.says_perform_bind] at h
    obtain ⟨e | _, c₄, rfl, h⟩ := h
    · rw [says_noted_bind] at h
      obtain ⟨c₅, rfl, h⟩ := h
      obtain ⟨rfl, rfl⟩ := Prog.says_pure.1 h
      exact ⟨rfl, .error e, _, rfl, by simp⟩
    · obtain ⟨rfl, rfl⟩ := Prog.says_pure.1 h
      exact ⟨rfl, .ok (), _, rfl, rfl⟩
  · obtain ⟨rfl, rfl⟩ := Prog.says_pure.1 h
    exact .inl ⟨deviceCode, rfl, rfl, List.append_nil _⟩

/-- A session is a boot that gives up, or one that succeeds and its loop. -/
theorem says_session {packTemp : PackTemp} {n : ℕ}
    {x : Option (Except Panic (ChargeSupervisor F))}
    (h : (session profile buck packTemp n).Says c x) :
    (∃ bs, bs.length = bootRetryCount ∧ (∀ b ∈ bs, Attempted profile buck b) ∧ x = none ∧
      ∃ r gaveUp, c = subscribed ::
          (retried bs ++ noted (.xy .bootSequence) :: ⟨.setOutput false, r⟩ :: gaveUp) ∧
        gaveUp = if r = .ok () then [] else [noted (.xy .setOutput)]) ∨
    ∃ bs check st limits rest, bs.length < bootRetryCount ∧
      (∀ b ∈ bs, Attempted profile buck b) ∧ Verified profile buck check st limits ∧
      c = opening profile buck bs check st limits ++ rest ∧
      (rest = [] ∧ (∃ e, x = some (.error e)) ∨
        ∃ s x', ChargeSupervisor.new profile buck.iSetA packTemp = .ok s ∧
          (loop n s .new).Says rest x' ∧ x = some x') := by
  unfold session at h
  rw [Prog.says_perform_bind] at h
  obtain ⟨_, c, rfl, h⟩ := h
  rw [Prog.says_bind] at h
  obtain ⟨code, c₁, c₂, rfl, hboot, h⟩ := h
  obtain ⟨bs, tried, hbs, ⟨deviceCode, rfl, rfl, rfl⟩ | ⟨rfl, rfl, hgave⟩⟩ :=
    says_bootWithRetries hboot
  · simp only [] at h
    rw [Prog.says_perform_bind] at h
    obtain ⟨_, c₃, rfl, h⟩ := h
    cases hbs with
    | booted hlen hall hv =>
      refine .inr ⟨_, _, _, _, c₃, hlen, hall, hv, by simp [opening, subscribed], ?_⟩
      rcases hs : ChargeSupervisor.new profile buck.iSetA packTemp with e | s
      · simp only [hs] at h
        obtain ⟨rfl, rfl⟩ := Prog.says_pure.1 h
        exact .inl ⟨rfl, e, rfl⟩
      · simp only [hs] at h
        rw [Prog.says_bind] at h
        obtain ⟨x', c₄, c₅, rfl, hloop, h⟩ := h
        obtain ⟨rfl, rfl⟩ := Prog.says_pure.1 h
        rw [List.append_nil]
        exact .inr ⟨s, x', rfl, hloop, rfl⟩
  · obtain ⟨rfl, rfl⟩ := Prog.says_pure.1 h
    cases hbs with
    | failed hlen hall =>
      obtain ⟨r, gaveUp, rfl, hgave⟩ := hgave
      rw [List.append_nil]
      exact .inl ⟨bs, hlen, hall, rfl, r, gaveUp, rfl, hgave⟩

end Retries

/-- The operations that no boot issues. -/
def XyOp.loopOnly : XyOp F → Bool
  | .setOutput on => on
  | .wdtReset | .lap | .updatePs _ | .batteryReading | .publish _ => true
  | _ => false

section LoopOnly

variable {profile : Profile F} {buck : BuckSetup F} {c : Talk F} {bs : List (Talk F)}

/-- What no operation of the boot sequence is, and no pause, no attempt's is. -/
theorem retried_forall {f : XyOp F → Bool} (hops : ∀ op ∈ bootOps profile buck, f op = false)
    (hpause : f (.sleep bootRetryDelay) = false) (h : ∀ b ∈ bs, Attempted profile buck b) :
    ∀ x ∈ retried bs, f x.op = false := by
  have hattempt : ∀ b ∈ bs, ∀ x ∈ b, f x.op = false := fun b hb x hx =>
    hops _ ((h b hb).subset (List.mem_map_of_mem hx))
  cases bs with
  | nil => simp [retried]
  | cons b bs =>
    intro x hx
    rcases List.mem_append.1 hx with hx | hx
    · exact hattempt b List.mem_cons_self x hx
    · obtain ⟨b', hb', hx⟩ := List.mem_flatMap.1 hx
      rcases List.mem_cons.1 hx with rfl | hx
      · exact hpause
      · exact hattempt b' (List.mem_cons_of_mem _ hb') x hx

theorem retried_not_loopOnly (h : ∀ b ∈ bs, Attempted profile buck b) :
    ∀ x ∈ retried bs, x.op.loopOnly = false :=
  retried_forall (by simp [bootOps, XyOp.loopOnly]) rfl h

theorem opening_not_loopOnly {check : ModelCheck} {st : Status F} {limits : SafetyLimits F}
    (h : ∀ b ∈ bs, Attempted profile buck b) :
    ∀ x ∈ opening profile buck bs check st limits, x.op.loopOnly = false := by
  intro x hx
  rcases List.mem_cons.1 hx with rfl | hx
  · rfl
  rcases List.mem_append.1 hx with hx | hx
  · refine retried_not_loopOnly (List.forall_mem_append.2 ⟨h, ?_⟩) x hx
    exact List.forall_mem_singleton.2 (List.prefix_refl _)
  · obtain rfl := List.mem_singleton.1 hx
    rfl

/-- Nor does a boot that gives up. -/
theorem gaveUp_not_loopOnly {r : Except BusError Unit} {gaveUp : Talk F}
    (h : ∀ b ∈ bs, Attempted profile buck b)
    (hgave : gaveUp = if r = .ok () then [] else [noted (.xy .setOutput)]) :
    ∀ x ∈ subscribed ::
        (retried bs ++ noted (.xy .bootSequence) :: ⟨.setOutput false, r⟩ :: gaveUp),
      x.op.loopOnly = false := by
  intro x hx
  rcases List.mem_cons.1 hx with rfl | hx
  · rfl
  rcases List.mem_append.1 hx with hx | hx
  · exact retried_not_loopOnly h x hx
  · revert hx
    rw [hgave]
    split_ifs <;> simp only [List.mem_cons, List.not_mem_nil, or_false] <;>
      rintro (rfl | rfl | rfl) <;> rfl

/-- Where nothing of `l` is `y`, what stands before `y` begins with `l`. -/
theorem eq_append_of_not_mem {α : Type} {l l' l₁ l₂ : List α} {y : α} (hy : y ∉ l)
    (h : l ++ l' = l₁ ++ y :: l₂) : ∃ post, l₁ = l ++ post ∧ l' = post ++ y :: l₂ := by
  rcases List.append_eq_append_iff.1 h with ⟨post, h₁, h₂⟩ | ⟨post, h₁, h₂⟩
  · exact ⟨post, h₁, h₂⟩
  · cases post with
    | nil => exact ⟨[], by simpa using h₁.symm, by simpa using h₂.symm⟩
    | cons z post =>
      obtain ⟨rfl, -⟩ := List.cons_eq_cons.1 h₂
      exact absurd (h₁ ▸ List.mem_append_right l₁ (List.mem_cons_self ..)) hy

variable [FloatLike F]

/-- What only the loop issues stands in the loop's part of a session, after a verified boot. -/
theorem session_loop {packTemp : PackTemp} {n : ℕ}
    {x : Option (Except Panic (ChargeSupervisor F))} {c₁ c₂ : Talk F}
    {y : Answered (XyOp F) XyOp.Reply} (h : (session profile buck packTemp n).Says c x)
    (hy : y.op.loopOnly = true) (hc : c = c₁ ++ y :: c₂) :
    ∃ bs check st limits post s x', bs.length < bootRetryCount ∧
      Verified profile buck check st limits ∧
      c₁ = opening profile buck bs check st limits ++ post ∧
      ChargeSupervisor.new profile buck.iSetA packTemp = .ok s ∧
      (loop n s .new).Says (post ++ y :: c₂) x' := by
  have hne : ∀ {l : Talk F}, (∀ z ∈ l, z.op.loopOnly = false) → y ∉ l := fun h hmem => by
    rw [h y hmem] at hy
    cases hy
  rcases says_session h with ⟨bs, -, hbs, -, r, gaveUp, rfl, hgave⟩ |
      ⟨bs, check, st, limits, rest, hlen, hbs, hv, rfl, hrest⟩
  · refine absurd ?_ (hne (gaveUp_not_loopOnly (r := r) hbs hgave))
    rw [hc]
    exact List.mem_append_right c₁ List.mem_cons_self
  · obtain ⟨post, rfl, hpost⟩ := eq_append_of_not_mem (hne (opening_not_loopOnly hbs)) hc
    rcases hrest with ⟨rfl, -⟩ | ⟨s, x', hnew, hloop, -⟩
    · simp at hpost
    · exact ⟨bs, check, st, limits, post, s, x', hlen, hv, rfl, hnew, hpost ▸ hloop⟩

end LoopOnly

end Esp32Battery
