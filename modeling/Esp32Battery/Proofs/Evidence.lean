import Esp32Battery.Board
import Esp32Battery.Proofs.FaultFinal
import Esp32Battery.Proofs.Raises

/-!
# The evidence behind a debounced fault

Five checks of the gauntlet wait for their condition to last. Each steps its window on the ticks
that get as far as the check, so a poll that shows the condition gone restarts the window there and
nowhere else. A fault such a check raises has its whole window behind it where the last poll that
showed the condition gone did restart it.
-/

namespace Esp32Battery

open Lib Automaton

/-- The faults that are raised by a check with a window. -/
inductive Watched where
  | batterySensorStale
  | modbusUnhealthy
  | overvoltage
  | chargeOvercurrent
  | packTempStale
deriving DecidableEq

namespace Watched

variable {F : Type}

def reason : Watched → FaultReason
  | batterySensorStale => .batterySensorStale
  | modbusUnhealthy => .modbusUnhealthy
  | overvoltage => .overvoltage
  | chargeOvercurrent => .chargeOvercurrent
  | packTempStale => .packTempStale

def timeout : Watched → Duration
  | batterySensorStale => batteryMissingTimeout
  | modbusUnhealthy => modbusUnhealthyTimeout
  | overvoltage => ovDuration
  | chargeOvercurrent => overcurrentDuration
  | packTempStale => packTempStaleTimeout

def window (s : ChargeSupervisor F) : Watched → Debounce
  | batterySensorStale => s.batteryMissing
  | modbusUnhealthy => s.modbusErr
  | overvoltage => s.ov
  | chargeOvercurrent => s.overcurrent
  | packTempStale => s.packTempMissing

variable [FloatLike F]

/-- Whether a poll shows the condition, if it shows anything of it. -/
def shows (profile : Profile F) (p : PollResult F) : Watched → Option Bool
  | batterySensorStale => some p.usableBattery.isNone
  | modbusUnhealthy => some p.setpoints.isNone
  | overvoltage => p.usableBattery.map fun b => profile.absorbV + ovMarginV < b.voltage
  | chargeOvercurrent => p.usableBattery.map fun b =>
      profile.regulationA * overcurrentTol < b.chargingA
  | packTempStale => some p.packTempC.isNone

/-- Whether the gauntlet gets as far as the check. -/
def Reached (s : ChargeSupervisor F) (p : PollResult F) (e : Duration) : Watched → Prop
  | modbusUnhealthy => (s.holds.step e).1 = false ∧ s.setpointsDrift p.setpoints = .ok false
  | batterySensorStale => (s.holds.step e).1 = false ∧ s.setpointsDrift p.setpoints = .ok false ∧
      (s.modbusErr.step p.setpoints.isNone e modbusUnhealthyTimeout).1 = false
  | overvoltage => ∃ b, s.Sampled p e b
  | chargeOvercurrent => ∃ b, s.Sampled p e b ∧ s.OvPasses b e
  | packTempStale => s.packTemp = .fitted ∧
      ∃ b, s.Sampled p e b ∧ s.OvPasses b e ∧ s.OvercurrentPasses b e

end Watched

namespace ChargeSupervisor

section Gauntlet

variable {F : Type} [FloatLike F] {s s' : ChargeSupervisor F} {p : PollResult F} {e : Duration}
  {b : BatterySample F} {v : Verdict F} {k : Watched}

theorem Unsampled.not_sampled (h : s.Unsampled p e v) : ¬ s.Sampled p e b := by
  rintro ⟨hflap, hdrift, hmodbus, hbat⟩
  have early : ∀ {r : FaultReason}, ¬ s.EarlyFault p e r := by
    intro r hr
    cases hr with
    | drift _ hd => rw [hd] at hdrift; cases hdrift
    | modbus _ _ hm => rw [hm] at hmodbus; cases hmodbus
    | battery _ _ _ hb => rw [hbat] at hb; cases hb
  cases h with
  | flapping hf => rw [hf] at hflap; cases hflap
  | latch r _ hr => exact early hr
  | inhibit r _ _ hr => exact early hr
  | noSample _ _ _ _ hn => rw [hn] at hbat; cases hbat

/-- A check that is reached steps its window on what the poll shows, and raises its fault when
that fills it; a check that is not does neither. -/
structure Watch (k : Watched) (s : ChargeSupervisor F) (p : PollResult F) (e : Duration)
    (v : Verdict F) (s' : ChargeSupervisor F) : Prop where
  reached : k.Reached s p e → ∃ cond, k.shows s.profile p = some cond ∧
    k.window s' = ((k.window s).step cond e k.timeout).2 ∧
    (v = .latch k.reason → ((k.window s).step cond e k.timeout).1 = true)
  skipped : ¬ k.Reached s p e → k.window s' = k.window s ∧ v ≠ .latch k.reason

omit [FloatLike F] in
theorem faultOrInhibit_ne {r : FaultReason} (r' : FaultReason)
    (h : s.faultOrInhibit r = .ok (v, s')) (hne : r ≠ r') : s' = s ∧ v ≠ .latch r' := by
  obtain ⟨rfl, ⟨-, rfl⟩ | ⟨-, i, -, rfl⟩⟩ := faultOrInhibit_eq_ok h
  · exact ⟨rfl, by simpa using hne⟩
  · exact ⟨rfl, by simp⟩

/-- The later checks leave the link and the sensor alone. -/
theorem gauntletOn_early (h : s.gauntletOn p b e = .ok (v, s')) :
    s'.modbusErr = s.modbusErr ∧ s'.batteryMissing = s.batteryMissing ∧
      v ≠ .latch .modbusUnhealthy ∧ v ≠ .latch .batterySensorStale := by
  have hx := gauntletOn_cases h
  refine ⟨?_, ?_, ?_, ?_⟩
  · cases hx <;> rfl
  · cases hx <;> rfl
  all_goals
    rintro rfl
    rcases hx.of_latch.2 with ⟨hr, -⟩ | ⟨hr, -⟩ | hr <;> cases hr

theorem gauntlet_modbus (h : s.gauntlet p e = .ok (v, s')) :
    Watch .modbusUnhealthy s p e v s' := by
  unfold gauntlet at h
  simp only [] at h
  split at h
  · rename_i hf
    cases h
    exact ⟨fun hr => absurd hf (by simp [hr.1]), fun _ => ⟨rfl, by simp [Watched.reason]⟩⟩
  rename_i hf
  split at h
  · cases h
  · rename_i hd
    obtain ⟨rfl, hv⟩ := faultOrInhibit_ne .modbusUnhealthy h (by simp)
    exact ⟨fun hr => absurd (hd.symm.trans hr.2) (by simp), fun _ => ⟨rfl, hv⟩⟩
  rename_i hd
  have hreach : Watched.Reached s p e .modbusUnhealthy := ⟨by simpa using hf, hd⟩
  refine ⟨fun _ => ⟨_, rfl, ?_⟩, fun hr => absurd hreach hr⟩
  split at h
  · rename_i hm
    obtain ⟨rfl, -⟩ := faultOrInhibit_eq_ok h
    exact ⟨rfl, fun _ => hm⟩
  split at h
  · obtain ⟨rfl, hv⟩ := faultOrInhibit_ne .modbusUnhealthy h (by simp)
    exact ⟨rfl, fun hl => absurd hl hv⟩
  split at h
  · cases h
    exact ⟨rfl, fun hl => by cases hl⟩
  · obtain ⟨hw, -, hv, -⟩ := gauntletOn_early h
    exact ⟨hw, fun hl => absurd hl hv⟩

theorem gauntlet_battery (h : s.gauntlet p e = .ok (v, s')) :
    Watch .batterySensorStale s p e v s' := by
  unfold gauntlet at h
  simp only [] at h
  split at h
  · rename_i hf
    cases h
    exact ⟨fun hr => absurd hf (by simp [hr.1]), fun _ => ⟨rfl, by simp [Watched.reason]⟩⟩
  rename_i hf
  split at h
  · cases h
  · rename_i hd
    obtain ⟨rfl, hv⟩ := faultOrInhibit_ne .batterySensorStale h (by simp)
    exact ⟨fun hr => absurd (hd.symm.trans hr.2.1) (by simp), fun _ => ⟨rfl, hv⟩⟩
  rename_i hd
  split at h
  · rename_i hm
    obtain ⟨rfl, hv⟩ := faultOrInhibit_ne .batterySensorStale h (by simp)
    exact ⟨fun hr => absurd hm (by simp [hr.2.2]), fun _ => ⟨rfl, hv⟩⟩
  rename_i hm
  have hreach : Watched.Reached s p e .batterySensorStale :=
    ⟨by simpa using hf, hd, by simpa using hm⟩
  refine ⟨fun _ => ⟨_, rfl, ?_⟩, fun hr => absurd hreach hr⟩
  split at h
  · rename_i hb
    obtain ⟨rfl, -⟩ := faultOrInhibit_eq_ok h
    exact ⟨rfl, fun _ => hb⟩
  split at h
  · cases h
    exact ⟨rfl, fun hl => by cases hl⟩
  · obtain ⟨-, hw, -, hv⟩ := gauntletOn_early h
    exact ⟨hw, fun hl => absurd hl hv⟩

theorem Unsampled.ne_latch {r : FaultReason} (h : s.Unsampled p e v)
    (hr : r = .overvoltage ∨ r = .chargeOvercurrent ∨ r = .packTempStale) : v ≠ .latch r := by
  rintro rfl
  cases h with
  | flapping => simp at hr
  | latch _ _ he => cases he <;> simp at hr

theorem gauntlet_ov (h : s.gauntlet p e = .ok (v, s')) : Watch .overvoltage s p e v s' := by
  rcases gauntlet_cases h with ⟨b, hs, hgon⟩ | ⟨hu, _, _, rfl⟩
  swap
  · exact ⟨fun ⟨b, hb⟩ => absurd hb hu.not_sampled, fun _ => ⟨rfl, hu.ne_latch (.inl rfl)⟩⟩
  have hshows : Watched.shows s.profile p .overvoltage = some (s.overvolts b) := by
    simp only [Watched.shows, hs.battery]
    rfl
  have hx := gauntletOn_cases hgon
  refine ⟨fun _ => ⟨_, hshows, ?_, ?_⟩, fun hr => absurd ⟨b, hs⟩ hr⟩
  · cases hx <;> rfl
  · rintro rfl
    rcases hx.of_latch.2 with ⟨-, hfired⟩ | ⟨hr, -⟩ | hr
    · exact hfired
    · cases hr
    · cases hr

theorem gauntlet_overcurrent (h : s.gauntlet p e = .ok (v, s')) :
    Watch .chargeOvercurrent s p e v s' := by
  rcases gauntlet_cases h with ⟨b, hs, hgon⟩ | ⟨hu, _, _, rfl⟩
  swap
  · exact ⟨fun ⟨b, hb, _⟩ => absurd hb hu.not_sampled,
      fun _ => ⟨rfl, hu.ne_latch (.inr (.inl rfl))⟩⟩
  have hshows : Watched.shows s.profile p .chargeOvercurrent = some (s.overdraws b) := by
    simp only [Watched.shows, hs.battery]
    rfl
  have hx := gauntletOn_cases hgon
  have hlatch : v = .latch .chargeOvercurrent →
      (s.overcurrent.step (s.overdraws b) e overcurrentDuration).1 = true := by
    rintro rfl
    rcases hx.of_latch.2 with ⟨hr, -⟩ | ⟨-, hfired⟩ | hr
    · cases hr
    · exact hfired
    · cases hr
  cases hx with
  | overvoltage v hov hv =>
    refine ⟨fun ⟨b', hs', hov'⟩ => absurd (hs.unique hs' ▸ hov') hov, fun _ => ⟨rfl, ?_⟩⟩
    rcases hv with ⟨-, rfl⟩ | ⟨-, rfl⟩ <;> simp [Watched.reason]
  | overcurrent hov | temp _ _ hov | gate hov =>
    exact ⟨fun _ => ⟨_, hshows, rfl, hlatch⟩, fun hr => absurd ⟨b, hs, hov⟩ hr⟩

theorem gauntlet_packTemp (h : s.gauntlet p e = .ok (v, s')) :
    Watch .packTempStale s p e v s' := by
  rcases gauntlet_cases h with ⟨b, hs, hgon⟩ | ⟨hu, _, _, rfl⟩
  swap
  · exact ⟨fun ⟨_, b, hb, _⟩ => absurd hb hu.not_sampled,
      fun _ => ⟨rfl, hu.ne_latch (.inr (.inr rfl))⟩⟩
  have hx := gauntletOn_cases hgon
  have hlatch : v = .latch .packTempStale →
      (s.packTempMissing.step p.packTempC.isNone e packTempStaleTimeout).1 = true := by
    rintro rfl
    rcases hx.of_latch.2 with ⟨hr, -⟩ | ⟨hr, -⟩ | hr
    · cases hr
    · cases hr
    · cases hr with
      | stale _ hfired => exact hfired
  cases hx with
  | overvoltage v hov hv =>
    refine ⟨fun ⟨_, b', hs', hov', _⟩ => absurd (hs.unique hs' ▸ hov') hov, fun _ => ⟨rfl, ?_⟩⟩
    rcases hv with ⟨-, rfl⟩ | ⟨-, rfl⟩ <;> simp [Watched.reason]
  | overcurrent hov hsrc hfired =>
    refine ⟨fun ⟨_, b', hs', _, hoc⟩ => ?_, fun _ => ⟨rfl, by simp [Watched.reason]⟩⟩
    have hoc := hoc hsrc
    rw [hs.unique hs'] at hoc
    cases hoc.symm.trans hfired
  | temp r v hov hoc hr hv =>
    have hfit : s.packTemp = .fitted := by cases hr <;> assumption
    exact ⟨fun _ => ⟨_, rfl, if_pos hfit, hlatch⟩, fun hnr => absurd ⟨hfit, b, hs, hov, hoc⟩ hnr⟩
  | gate hov hoc =>
    by_cases hfit : s.packTemp = .fitted
    · exact ⟨fun _ => ⟨_, rfl, if_pos hfit, hlatch⟩,
        fun hnr => absurd ⟨hfit, b, hs, hov, hoc⟩ hnr⟩
    · exact ⟨fun hr => absurd hr.1 hfit, fun _ => ⟨if_neg hfit, bringUpGate_ne_latch _⟩⟩

theorem gauntlet_watch (k : Watched) (h : s.gauntlet p e = .ok (v, s')) : Watch k s p e v s' := by
  cases k with
  | batterySensorStale => exact gauntlet_battery h
  | modbusUnhealthy => exact gauntlet_modbus h
  | overvoltage => exact gauntlet_ov h
  | chargeOvercurrent => exact gauntlet_overcurrent h
  | packTempStale => exact gauntlet_packTemp h

end Gauntlet

section Turn

variable {F : Type} [FloatLike F] {s s' : ChargeSupervisor F} {i : Input F} {a : Action F}

/-- What a turn does to a window: nothing that matters if it gives up at once, else what the
gauntlet did. And if it raises the fault of the window, it is the gauntlet that did. -/
theorem turn_watch (k : Watched) (h : s.turn i = .ok (a, s')) :
    ((∃ s₁, s.reconcile i.poll = .ok (some a, s₁)) ∧ Terminal s'.state ∧
      ¬ Raises k.reason s a s') ∨ ∃ s₁ v s₂,
      s.reconcile i.poll = .ok (none, s₁) ∧ Watch k s₁ i.poll i.elapsed v s₂ ∧
      k.window s' = k.window s₂ ∧ (Raises k.reason s a s' → v = .latch k.reason) := by
  have hk : k.reason.checked = true := by cases k <;> rfl
  cases turn_verdict h with
  | decided s₁ hr ht hn => exact .inl ⟨⟨s₁, hr⟩, ht, hn k.reason hk⟩
  | examined s₁ v s₂ hr hg hsame hraise =>
    refine .inr ⟨s₁, v, s₂, hr, gauntlet_watch k hg, ?_, hraise k.reason hk⟩
    cases k with
    | batterySensorStale => exact hsame.batteryMissing
    | modbusUnhealthy => exact hsame.modbusErr
    | overvoltage => exact hsame.ov
    | chargeOvercurrent => exact hsame.overcurrent
    | packTempStale => exact hsame.packTempMissing

end Turn

section Run

variable {F : Type} [FloatLike F] {s s' s₁ : ChargeSupervisor F} {i j : Input F} {a : Action F}
  {is : List (Input F)} {as : List (Action F)} {k : Watched} {acc : ℕ} {c : Prop}

/-- The time the condition has been shown since it was last shown gone, of `acc` before this
turn. -/
def tallied (k : Watched) (profile : Profile F) (acc : ℕ) (i : Input F) : ℕ :=
  match k.shows profile i.poll with
  | some false => 0
  | some true => acc + i.elapsed.nanos
  | none => acc

def evidence (k : Watched) (profile : Profile F) (is : List (Input F)) : ℕ :=
  is.foldl (tallied k profile) 0

/-- The turn gets as far as the check, or finds the window empty. -/
def Restarts (k : Watched) (s : ChargeSupervisor F) (i : Input F) : Prop :=
  ∀ s₁, s.reconcile i.poll = .ok (none, s₁) →
    k.window s₁ = .reset ∨ k.Reached s₁ i.poll i.elapsed

/-- Whether the last turn of the run that shows the condition gone restarts the window; `c` if
there is none. -/
def Restarted (k : Watched) (c : Prop) (s : ChargeSupervisor F) : List (Input F) → Prop
  | [] => c
  | i :: is => ∀ a s', s.turn i = .ok (a, s') →
      Restarted k (if k.shows s.profile i.poll = some false then s.Restarts k i else c) s' is

/-- Turns that do not show the condition gone leave the last one that did. -/
theorem Restarted.of_shown (hc : c) (h : ∀ i ∈ is, k.shows s.profile i.poll ≠ some false) :
    Restarted k c s is := by
  induction is generalizing s c with
  | nil => exact hc
  | cons i is ih =>
    intro a s' ht
    have hprof := (SameBoard.of_turn ht).profile
    refine ih ?_ fun j hj => by rw [hprof]; exact h j (by simp [hj])
    rwa [if_neg (h i (by simp))]

/-- Agreeing with the output empties the overvoltage window of a machine that enters a hold, and
leaves the others. -/
theorem reconcile_window {p : PollResult F} (k : Watched) (h : s.reconcile p = .ok (none, s₁)) :
    (k.window s₁).elapsed.nanos ≤ (k.window s).elapsed.nanos := by
  have hmoved : ∀ {d}, s.Moved d s₁ →
      (k.window s₁).elapsed.nanos ≤ (k.window s).elapsed.nanos := by
    rintro d ⟨tr, rfl⟩
    cases k <;> simp only [Watched.window, land] <;> try exact le_rfl
    split_ifs
    · exact Nat.zero_le _
    · exact le_rfl
  generalize ho : (none : Option (Action F)) = o at h
  cases reconcile_cases h with
  | agree => exact le_rfl
  | hold _ _ _ _ _ hm => exact hmoved hm
  | resume _ _ _ hm => exact hmoved hm
  | tripping | resurfaced | dark | lost | pending => cases ho

/-- The window holds no more than the condition has been shown, and fills from nothing else. -/
theorem turn_tallied (h : s.turn i = .ok (a, s'))
    (hw : c → Terminal s.state ∨ (k.window s).elapsed.nanos ≤ acc)
    (hc : if k.shows s.profile i.poll = some false then s.Restarts k i else c) :
    (Terminal s'.state ∨ (k.window s').elapsed.nanos ≤ tallied k s.profile acc i) ∧
      (Raises k.reason s a s' → k.timeout.nanos ≤ tallied k s.profile acc i) := by
  rcases turn_watch k h with ⟨-, ht, hn⟩ | ⟨s₁, v, s₂, hr, hwatch, hwin, hraise⟩
  · exact ⟨.inl ht, fun hraise => absurd hraise hn⟩
  have hprof : s₁.profile = s.profile := (SameBoard.of_reconciled hr).profile
  have hkept : c → (k.window s₁).elapsed.nanos ≤ acc := fun hc =>
    (reconcile_window k hr).trans ((hw hc).resolve_left (reconcile_cases hr).not_terminal)
  rw [hwin]
  by_cases hreach : k.Reached s₁ i.poll i.elapsed
  · obtain ⟨cond, hshows, hstep, hlatch⟩ := hwatch.reached hreach
    rw [hprof] at hshows
    have hle : ((k.window s₁).step cond i.elapsed k.timeout).2.elapsed.nanos
        ≤ tallied k s.profile acc i := by
      cases cond
      · exact Nat.zero_le _
      · rw [if_neg (by rw [hshows]; simp)] at hc
        have := hkept hc
        simp only [tallied, hshows, Debounce.step_true, Duration.nanos_saturatingAdd]
        omega
    refine ⟨.inr (hstep ▸ hle), fun hr => ?_⟩
    exact (Debounce.le_of_step (hlatch (hraise hr))).trans hle
  · obtain ⟨hsame, hne⟩ := hwatch.skipped hreach
    refine ⟨.inr ?_, fun hr => absurd (hraise hr) hne⟩
    rw [hsame]
    split_ifs at hc with hgone
    · rw [(hc s₁ hr).resolve_right hreach]
      exact Nat.zero_le _
    · have := hkept hc
      unfold tallied
      split <;> first | contradiction | omega

/-- A turn raises the fault on a poll that shows the condition. -/
theorem Raises.shows (hraise : Raises k.reason s a s') (h : s.turn i = .ok (a, s')) :
    k.shows s.profile i.poll = some true := by
  rcases turn_watch k h with ⟨-, -, hn⟩ | ⟨s₁, v, s₂, hr, hwatch, -, hv⟩
  · exact absurd hraise hn
  rw [← (SameBoard.of_reconciled hr).profile]
  by_cases hreach : k.Reached s₁ i.poll i.elapsed
  · obtain ⟨cond, hshows, -, hfired⟩ := hwatch.reached hreach
    rw [hshows, Debounce.cond_of_step (hfired (hv hraise))]
  · exact absurd (hv hraise) (hwatch.skipped hreach).2

theorem run_tallied (h : s.run is = .ok (as, s₁))
    (hw : c → Terminal s.state ∨ (k.window s).elapsed.nanos ≤ acc) (hc : Restarted k c s is)
    (ht : s₁.turn j = .ok (a, s')) (hraise : Raises k.reason s₁ a s') :
    k.timeout.nanos ≤ (is ++ [j]).foldl (tallied k s.profile) acc := by
  induction is generalizing s acc c as with
  | nil =>
    cases h
    refine (turn_tallied ht hw ?_).2 hraise
    rw [if_neg (by rw [hraise.shows ht]; simp)]
    exact hc
  | cons i is ih =>
    obtain ⟨a₁, t, as₁, hi, hr, -⟩ := run_cons h
    have hprof : t.profile = s.profile := (SameBoard.of_turn hi).profile
    have hnext := ih hr (fun hc' => (turn_tallied hi hw hc').1) (hc a₁ t hi)
    rw [hprof] at hnext
    exact hnext

/-- A window is empty after a turn that shows the condition gone just where the turn got as far
as the check, or the window was empty. -/
theorem turn_restarts (h : s.turn i = .ok (a, s')) (hr : s.reconcile i.poll = .ok (none, s₁))
    (hgone : k.shows s.profile i.poll = some false) :
    k.window s' = .reset ↔ k.window s₁ = .reset ∨ k.Reached s₁ i.poll i.elapsed := by
  rcases turn_watch k h with ⟨⟨s₂, hr'⟩, -⟩ | ⟨s₂, v, s₃, hr', hwatch, hwin, -⟩
  · cases hr.symm.trans hr'
  cases hr.symm.trans hr'
  rw [hwin]
  by_cases hreach : k.Reached s₁ i.poll i.elapsed
  · obtain ⟨cond, hshows, hstep, -⟩ := hwatch.reached hreach
    rw [(SameBoard.of_reconciled hr).profile, hgone] at hshows
    cases hshows
    rw [hstep, Debounce.step_false]
    exact ⟨fun _ => .inr hreach, fun _ => rfl⟩
  · rw [(hwatch.skipped hreach).1]
    exact ⟨.inl, fun h => h.resolve_right hreach⟩

/-- A debounced fault has its window behind it where the last poll that showed the condition gone
restarted the window, and just the polls that get as far as the check do. -/
theorem unbroken_evidence {profile : Profile F} {iSetA : F} {packTemp : PackTemp} (k : Watched)
    (h : new profile iSetA packTemp = .ok s) :
    (∀ is as s₁ j a s', s.run is = .ok (as, s₁) → Restarted k True s is →
      s₁.turn j = .ok (a, s') → Raises k.reason s₁ a s' →
      k.timeout.nanos ≤ evidence k profile (is ++ [j])) ∧
    (∀ is as s₁ i a s₂ s', s.run is = .ok (as, s₁) → s₁.turn i = .ok (a, s') →
      s₁.reconcile i.poll = .ok (none, s₂) → k.shows profile i.poll = some false →
      (k.window s' = .reset ↔ k.window s₂ = .reset ∨ k.Reached s₂ i.poll i.elapsed)) := by
  have hprof : s.profile = profile ∧ k.window s = .reset := by
    obtain ⟨-, -, rfl⟩ := new_eq_ok h
    exact ⟨rfl, by cases k <;> rfl⟩
  obtain ⟨rfl, hwin⟩ := hprof
  constructor
  · intro is as s₁ j a s' hr hc ht hraise
    exact run_tallied hr (fun _ => .inr (by rw [hwin]; exact Nat.zero_le _)) hc ht hraise
  · intro is as s₁ i a s₂ s' hr ht hrec hgone
    rw [← (SameBoard.of_run hr).profile] at hgone
    exact turn_restarts ht hrec hgone

end Run

section Carried

def noLink (output : BuckOutput) : PollResult Float32 :=
  { fullPoll output none with setpoints := none }

def noSensor : PollResult Float32 := { fullPoll .on none with battery := none }

/-- Ten seconds with no reading of the sensor, the bring-up before them having had one. -/
theorem unbroken_evidence_sensor : batteryMissingTimeout.nanos ≤
    evidence .batterySensorStale packProfile (seconds 1 (fullPoll (.off .normal) none) ++
      seconds 9 noSensor ++ seconds 1 noSensor) := by
  let is := seconds 1 (fullPoll (.off .normal) none) ++ seconds 9 noSensor
  have hrun : (bootSupervisor .absent).run is = .ok
      (.enableOutput ⟨false⟩ :: List.replicate 9 .none, after (bootSupervisor .absent) is) := by
    decide +kernel
  have hturn : (after (bootSupervisor .absent) is).turn ⟨noSensor, .fromSecs 1, true, 1⟩
      = .ok (.disableOutput ⟨.batterySensorStale⟩,
        after (bootSupervisor .absent) (is ++ seconds 1 noSensor)) := by
    decide +kernel
  have hfloat : (after (bootSupervisor .absent) is).state = .float := by decide +kernel
  refine (unbroken_evidence .batterySensorStale (new_bootSupervisor .absent)).1 is _ _ _ _ _ hrun
    ?_ hturn (.inr ⟨?_, rfl⟩)
  · intro a s' ht
    refine .of_shown ?_ ?_
    · rw [if_pos (by rfl)]
      intro s₁ hr
      have hboot : (bootSupervisor .absent).reconcile (fullPoll (.off .normal) none)
          = .ok (none, bootSupervisor .absent) := rfl
      cases hboot.symm.trans hr
      exact .inl rfl
    · intro i hi
      rw [List.eq_of_mem_replicate hi]
      simp [Watched.shows, noSensor, PollResult.usableBattery]
  · rw [hfloat]
    rintro (h | h) <;> cases h

/-- A hold in which the link is down for four seconds and then reads other setpoints. -/
def carriedTurns : List (Input Float32) :=
  seconds 1 (fullPoll (.off .normal) none) ++ seconds 1 (fullPoll (.off .lvp) none) ++
    seconds 4 (noLink (.off .lvp)) ++ seconds 1
      { fullPoll (.off .lvp) none with setpoints := some { vSet := 12.0, iSet := 10.0 } }

/-- The poll that read the link up again did not restart the window, and one second with the link
down latches. -/
theorem evidence_carried : ∃ as s₁ s',
    (bootSupervisor .absent).run carriedTurns = .ok (as, s₁) ∧
    s₁.turn ⟨noLink .on, .fromSecs 1, true, 1⟩ = .ok (.disableOutput ⟨.modbusUnhealthy⟩, s') ∧
    s₁.fault = none ∧ s'.fault = some .modbusUnhealthy ∧
    evidence .modbusUnhealthy packProfile
      (carriedTurns ++ [⟨noLink .on, .fromSecs 1, true, 1⟩]) = (Duration.fromSecs 1).nanos :=
  ⟨[.enableOutput ⟨false⟩, .none, .none, .none, .none, .none, .none],
    after (bootSupervisor .absent) carriedTurns,
    after (bootSupervisor .absent) (carriedTurns ++ [⟨noLink .on, .fromSecs 1, true, 1⟩]),
    by decide +kernel⟩

end Carried

end ChargeSupervisor

end Esp32Battery
