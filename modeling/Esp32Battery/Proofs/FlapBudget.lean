import Esp32Battery.Board
import Esp32Battery.Proofs.FaultFinal
import Esp32Battery.Proofs.Raises

/-!
# The flap budget

A hold is counted on the tick that enters it, and the quiet timer runs on that tick and on every
later one of a machine that has not given up. Where no tick is longer than the window, the count is
that of the chain of entries: it starts over only at an entry that comes after more than the
window.
-/

namespace Esp32Battery

open Lib Automaton

/-- A chain of hold entries, each within the flap window of the one before: how many there are,
and the time since the last, its own tick included. -/
structure Chain where
  count : ℕ
  since : ℕ

namespace Chain

def start : Chain := ⟨0, 0⟩

def tick (c : Chain) (enters : Bool) (elapsed : Duration) : Chain :=
  if enters then ⟨if c.since ≤ flapWindow.nanos then c.count + 1 else 1, elapsed.nanos⟩
  else ⟨c.count, c.since + elapsed.nanos⟩

/-- The budget counts the chain while it may still grow. -/
structure Counts (c : Chain) (h : HoldBudget) : Prop where
  sinceLast : h.sinceLast.nanos = min c.since maxNanos
  holds : h.holds = if c.since ≤ flapWindow.nanos then c.count else 0
  within : c.count ≤ maxHolds

variable {c : Chain} {h : HoldBudget} {e : Duration}

/-- A tick that enters no hold never exceeds the budget. -/
theorem Counts.wait (hc : c.Counts h) :
    (h.step e).1 = false ∧ (c.tick false e).Counts (h.step e).2 := by
  obtain ⟨hs, hh, hw⟩ := hc
  have hmax : flapWindow.nanos < maxNanos := by decide
  have hsince : (h.sinceLast.saturatingAdd e).nanos = min (c.since + e.nanos) maxNanos := by
    rw [Duration.nanos_saturatingAdd, hs]
    omega
  simp only [HoldBudget.step, Chain.tick, Duration.lt_def, Bool.false_eq_true, if_false]
  constructor
  · rw [hh]
    simp only [decide_eq_false_iff_not]
    split_ifs <;> omega
  · refine ⟨hsince, ?_, hw⟩
    simp only [hsince, hh]
    split_ifs <;> omega

/-- A tick that enters a hold exceeds it where the chain has grown past it. -/
theorem Counts.enter (hc : c.Counts h) (he : e ≤ flapWindow) :
    ((h.record.step e).1 = true ↔ maxHolds < (c.tick true e).count) ∧
      ((h.record.step e).1 = false → (c.tick true e).Counts (h.record.step e).2) := by
  obtain ⟨hs, hh, hw⟩ := hc
  have hmax := e.nanos_le
  have hbudget : maxHolds = 4 := rfl
  rw [Duration.le_def] at he
  have hsince : (h.record.sinceLast.saturatingAdd e).nanos = e.nanos := by
    simp only [HoldBudget.record, Duration.nanos_saturatingAdd, Duration.nanos_zero]
    omega
  have hcount : h.record.holds = (c.tick true e).count := by
    simp only [HoldBudget.record, Chain.tick, if_true, hh]
    split_ifs <;> omega
  have hstep : h.record.step e = (decide (maxHolds < (c.tick true e).count),
      ⟨(c.tick true e).count, h.record.sinceLast.saturatingAdd e⟩) := by
    simp only [HoldBudget.step, Duration.lt_def, hsince, hcount]
    rw [if_neg (by omega)]
  rw [hstep]
  simp only [decide_eq_true_eq, decide_eq_false_iff_not, true_and]
  intro hle
  refine ⟨?_, ?_, by omega⟩
  · rw [hsince]
    simp only [Chain.tick, if_true]
    omega
  · rw [if_pos]
    simpa [Chain.tick] using he

end Chain

namespace ChargeSupervisor

variable {F : Type} [FloatLike F] {s s' s₁ : ChargeSupervisor F} {p : PollResult F} {e : Duration}
  {i : Input F} {a : Action F} {v : Verdict F} {is : List (Input F)} {as : List (Action F)}
  {c : Chain}

/-- Whether a sourcing machine that reads `p` enters a hold. -/
def enters (s : ChargeSupervisor F) (p : PollResult F) : Bool :=
  s.state.sourcing && match p.output with
    | some (.off cause) => cause.isSelfClearing && (s.state.next .selfDisabled).isSome
    | _ => false

/-- The chain of hold entries a run leaves, of `c` before it. -/
def chained (c : Chain) (s : ChargeSupervisor F) : List (Input F) → Chain
  | [] => c
  | i :: is =>
    match s.turn i with
    | .ok (_, s') => s'.chained (c.tick (s.enters i.poll) i.elapsed) is
    | .error _ => c

/-- The flap check is the first, and no other touches the budget. -/
theorem gauntlet_flap (h : s.gauntlet p e = .ok (v, s')) :
    s'.holds = (s.holds.step e).2 ∧
      (v = .latch .protectionFlapping ↔ (s.holds.step e).1 = true) := by
  have hno : (s.holds.step e).1 = false → v ≠ .latch .protectionFlapping →
      (v = .latch .protectionFlapping ↔ (s.holds.step e).1 = true) := by
    intro hf hv
    simp [hf, hv]
  rcases gauntlet_cases h with ⟨b, hs, hgon⟩ | ⟨hu, _, _, rfl⟩
  · have hx := gauntletOn_cases hgon
    refine ⟨by cases hx <;> rfl, hno hs.flap ?_⟩
    rintro rfl
    rcases hx.of_latch.2 with ⟨hr, -⟩ | ⟨hr, -⟩ | hr <;> cases hr
  · refine ⟨rfl, ?_⟩
    cases hu with
    | flapping hf => simp [hf]
    | latch r _ hr => cases hr <;> exact hno (by assumption) (by simp)
    | inhibit r i _ hr => cases hr <;> exact hno (by assumption) (by simp)
    | noSample hf => exact hno hf (by simp)

/-- Agreeing with the output counts the hold it enters, if it enters one. -/
theorem reconcile_holds (h : s.reconcile p = .ok (none, s₁)) :
    s₁.holds = if s.enters p then s.holds.record else s.holds := by
  generalize ho : (none : Option (Action F)) = o at h
  cases reconcile_cases h with
  | agree hag =>
    have he : s.enters p = false := by
      unfold enters
      rcases hout : p.output with _ | _ | cause
      · simp
      · simp
      · rw [hout] at hag
        rw [ChargeState.sourcing_of_bringingUp hag, Bool.false_and]
    rw [he]
    rfl
  | hold cause hout hc hs hn hm =>
    have he : s.enters p = true := by simp [enters, hs, hout, hc, hn]
    obtain ⟨tr, rfl⟩ := hm
    simp [land, he, ChargeState.next_selfDisabled hn]
  | resume hout hh hn hm =>
    have he : s.enters p = false := by simp [enters, hout]
    obtain ⟨tr, rfl⟩ := hm
    simp [land, he, ChargeState.next_not_holding (by simp) hn]
  | tripping | resurfaced | dark | lost | pending => cases ho

theorem enters_decided (h : s.reconcile p = .ok (some a, s₁)) : s.enters p = false := by
  generalize ho : some a = o at h
  cases reconcile_cases h with
  | tripping _ hs | resurfaced _ hs | dark hs => simp [enters, hs, ChargeState.sourcing]
  | lost cause hout _ hn =>
    rcases hc : cause.isSelfClearing with _ | _
    · simp [enters, hout, hc]
    · simp [enters, hout, hn hc]
  | pending hout => simp [enters, hout]
  | agree | hold | resume => cases ho

/-- What a turn no longer than the window makes of the chain. -/
theorem turn_chained (h : s.turn i = .ok (a, s')) (he : i.elapsed ≤ flapWindow)
    (hc : Terminal s.state ∨ c.Counts s.holds) :
    (Terminal s'.state ∨ (c.tick (s.enters i.poll) i.elapsed).Counts s'.holds) ∧
    (Raises .protectionFlapping s a s' ↔
      s.enters i.poll = true ∧ maxHolds < (c.tick (s.enters i.poll) i.elapsed).count) ∧
    (Raises .protectionFlapping s a s' → Terminal s'.state) := by
  cases turn_verdict h with
  | decided s₁ hr ht hn =>
    refine ⟨.inl ht, ?_, fun _ => ht⟩
    have := hn .protectionFlapping rfl
    simp [enters_decided hr, this]
  | examined s₁ v s₂ hr hg hsame hraise hlatch =>
    replace hc := hc.resolve_left (reconcile_cases hr).not_terminal
    obtain ⟨hholds, hfired⟩ := gauntlet_flap hg
    have hiff : Raises .protectionFlapping s a s' ↔ (s₁.holds.step i.elapsed).1 = true := by
      rw [← hfired]
      exact ⟨hraise _ rfl, fun hv => (hlatch _ hv rfl).2⟩
    have hterm : Raises .protectionFlapping s a s' → Terminal s'.state :=
      fun hr => (hlatch _ (hraise _ rfl hr) rfl).1
    rw [hsame.holds, hholds, reconcile_holds hr]
    rw [reconcile_holds hr] at hiff
    refine ⟨?_, ?_, hterm⟩
    · by_cases hent : s.enters i.poll = true
      · rw [hent, if_pos rfl] at hiff ⊢
        obtain ⟨-, hcounts⟩ := hc.enter he
        by_cases hf : (s.holds.record.step i.elapsed).1 = true
        · exact .inl (hterm (hiff.2 hf))
        · exact .inr (hcounts (by simpa using hf))
      · rw [Bool.not_eq_true] at hent
        rw [hent]
        exact .inr hc.wait.2
    · rw [hiff]
      by_cases hent : s.enters i.poll = true
      · rw [hent, if_pos rfl, (hc.enter he).1]
        simp
      · rw [Bool.not_eq_true] at hent
        simp [hent, hc.wait (e := i.elapsed)]

theorem run_chained (h : s.run is = .ok (as, s')) (he : ∀ i ∈ is, i.elapsed ≤ flapWindow)
    (hc : Terminal s.state ∨ c.Counts s.holds) :
    Terminal s'.state ∨ (s.chained c is).Counts s'.holds := by
  induction is generalizing s c as with
  | nil =>
    cases h
    exact hc
  | cons i is ih =>
    obtain ⟨a, s₁, as₁, ht, hr, -⟩ := run_cons h
    simp only [chained, ht]
    exact ih hr (fun j hj => he j (by simp [hj])) (turn_chained ht (he i (by simp)) hc).1

/-- Flapping latches on the entries of a chain past the budget, and for good. -/
theorem flap_budget {profile : Profile F} {iSetA : F} {packTemp : PackTemp}
    (h : new profile iSetA packTemp = .ok s) (he : ∀ i ∈ is, i.elapsed ≤ flapWindow)
    (hr : s.run is = .ok (as, s₁)) :
    (¬ Terminal s₁.state → (s.chained .start is).count ≤ maxHolds) ∧
    ∀ j a s', j.elapsed ≤ flapWindow → s₁.turn j = .ok (a, s') →
      (Raises .protectionFlapping s₁ a s' ↔ s₁.enters j.poll = true ∧
        maxHolds < ((s.chained .start is).tick (s₁.enters j.poll) j.elapsed).count) ∧
      (Raises .protectionFlapping s₁ a s' → ∀ is' as' s'', s'.run is' = .ok (as', s'') →
        s''.state = .tripping ∨ s''.state = .latched) := by
  have hstart : Chain.start.Counts s.holds := by
    obtain ⟨-, -, rfl⟩ := new_eq_ok h
    exact ⟨rfl, rfl, Nat.zero_le _⟩
  have hc := run_chained hr he (.inr hstart)
  refine ⟨fun ht => (hc.resolve_left ht).within, fun j a s' hj ht => ?_⟩
  obtain ⟨-, hiff, hterm⟩ := turn_chained ht hj hc
  refine ⟨hiff, fun hraise is' as' s'' hr' => ?_⟩
  exact (run_induction (P := fun s => Terminal s.state) (Q := fun _ => True)
    (fun _ _ _ _ hs h => ⟨(turn_terminal h hs).1, trivial⟩) (hterm hraise) hr').1

/-- A tick that brings the buck up, then a supply that sags each second tick. -/
def flaps (n : ℕ) : List (Input Float32) :=
  seconds 1 (fullPoll (.off .normal) none) ++
    (List.replicate n (seconds 1 (fullPoll (.off .lvp) none) ++
      seconds 1 (fullPoll .on none))).flatten

/-- Four holds are waited out, and the fifth latches. -/
theorem flap_budget_spent : Raises .protectionFlapping (after (bootSupervisor .absent) (flaps 4))
    (.disableOutput ⟨.protectionFlapping⟩)
    (after (bootSupervisor .absent) (flaps 4 ++ seconds 1 (fullPoll (.off .lvp) none))) := by
  have hrun : (bootSupervisor .absent).run (flaps 4)
      = .ok (.enableOutput ⟨false⟩ :: List.replicate 8 .none,
        after (bootSupervisor .absent) (flaps 4)) := by
    decide +kernel
  have hturn : (after (bootSupervisor .absent) (flaps 4)).turn
      ⟨fullPoll (.off .lvp) none, .fromSecs 1, true, 1⟩
      = .ok (.disableOutput ⟨.protectionFlapping⟩, after (bootSupervisor .absent)
        (flaps 4 ++ seconds 1 (fullPoll (.off .lvp) none))) := by
    decide +kernel
  have hshort : ∀ i ∈ flaps 4, i.elapsed ≤ flapWindow := by decide
  refine ((flap_budget (new_bootSupervisor .absent) hshort hrun).2 _ _ _ (by decide) hturn).1.2 ?_
  decide +kernel

end ChargeSupervisor

end Esp32Battery
