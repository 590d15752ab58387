import Esp32Battery.Lib.Past
import Esp32Battery.Net.Supervisor

/-!
# The network timers

What a stamp of the phase stands for is a fact about the log of ticks: the submission applied last,
the start of the session, or the first miss after the last association. A deadline is met on the
first tick past it, and none before.
-/

namespace Esp32Battery

open Lib

namespace NetSupervisor

def Applies (e : NetPoll × NetAction) : Prop := ∃ creds, e.2 = .applyCreds creds

def Missed (e : NetPoll × NetAction) : Prop := e.1.associated = false

/-- The tick missed the link, and the one before it had it. -/
def FirstMiss (log : List (NetPoll × NetAction)) (e : NetPoll × NetAction) : Prop :=
  Missed e ∧ ∃ l q, log = l ++ [q] ∧ q.1.associated = true

/-- What the log says of the phase it leaves. -/
def Explains (start : Duration) (log : List (NetPoll × NetAction)) : NetPhase → Prop
  | .captiveTrying _ since =>
    Since (fun e => Missed e ∧ ¬ Applies e) (fun _ e => Applies e ∧ e.1.now = since) log
  | .staConnecting _ sessionStart => sessionStart = start ∧ ∀ e ∈ log, Missed e
  | .staServing _ .up => ∃ l q, log = l ++ [q] ∧ q.1.associated = true
  | .staServing _ (.down since) => Since Missed (fun l e => FirstMiss l e ∧ e.1.now = since) log
  | _ => True

/-- No deadline of the phase has passed. -/
def InTime (now : Duration) : NetPhase → Prop
  | .captiveTrying _ since =>
    since ≤ now ∧ now.nanos < since.nanos + captiveTryingTimeout.nanos
  | .staConnecting _ since | .staServing _ (.down since) =>
    since ≤ now ∧ now.nanos < since.nanos + captiveAfterDisconnect.nanos
  | _ => True

variable {start : Duration} {log : List (NetPoll × NetAction)} {p : NetPoll} {a : NetAction}
  {phase phase' : NetPhase}

theorem Explains.move (h : Explains start log phase) (hm : Move p phase a phase') :
    Explains start (log ++ [(p, a)]) phase' := by
  cases hm with
  | reset | idle | retry | fail | fallBack => trivial
  | submit creds => exact .here ⟨⟨creds, rfl⟩, rfl⟩
  | promote _ _ _ ha | connect _ _ ha | up _ _ ha => exact ⟨log, _, rfl, ha⟩
  | await creds since ha => exact Since.later h ⟨ha, fun ⟨_, hc⟩ => by cases hc⟩
  | connecting creds sessionStart ha =>
    refine ⟨h.1, fun e he => ?_⟩
    rcases List.mem_append.1 he with he | he
    · exact h.2 e he
    · simp only [List.mem_singleton] at he
      rw [he]
      exact ha
  | down creds link since ha hoff =>
    cases link with
    | up =>
      cases hoff
      exact .here ⟨⟨ha, h⟩, rfl⟩
    | down since' =>
      cases hoff
      exact Since.later h ha

theorem run_explains (boot : Option WifiCredentials) (start : Duration) (ps : List NetPoll) :
    Explains start ((new boot start).run ps).1 ((new boot start).run ps).2.phase := by
  induction ps using List.reverseRecOn with
  | nil =>
    cases boot with
    | none => trivial
    | some creds => exact ⟨rfl, by simp [run]⟩
  | append_singleton ps p ih =>
    rw [run_concat]
    exact ih.move (tick_move _ p)

/-- The stamps of the phase lie in the past. -/
theorem Explains.since_le {now : Duration} (h : Explains start log phase) (hstart : start ≤ now)
    (hlog : ∀ e ∈ log, e.1.now ≤ now) :
    (∀ creds since, phase = .captiveTrying creds since → since ≤ now) ∧
      ∀ since, offSince now phase = some since → since ≤ now := by
  refine ⟨?_, fun since hoff => ?_⟩
  · rintro creds since rfl
    obtain ⟨l₁, e, l₂, rfl, ⟨-, rfl⟩, -⟩ := h
    exact hlog e (by simp)
  · rcases phase with _ | _ | _ | ⟨creds, t⟩ | ⟨creds, _ | t⟩ <;> cases hoff
    · rw [h.1]
      exact hstart
    · exact Nat.le_refl _
    · obtain ⟨l₁, e, l₂, rfl, ⟨-, rfl⟩, -⟩ := h
      exact hlog e (by simp)

theorem nanos_add_le {now since timeout : Duration} (h : timeout ≤ now.saturatingSub since)
    (hpos : 0 < timeout.nanos) : since.nanos + timeout.nanos ≤ now.nanos := by
  rw [Duration.le_def, Duration.nanos_saturatingSub] at h
  omega

theorem nanos_lt_add {now since timeout : Duration} (h : now.saturatingSub since < timeout)
    (hle : since ≤ now) : now.nanos < since.nanos + timeout.nanos := by
  rw [Duration.lt_def, Duration.nanos_saturatingSub] at h
  rw [Duration.le_def] at hle
  omega

theorem Explains.inTime (h : Explains start log phase) (hm : Move p phase a phase')
    (hstart : start ≤ p.now) (hlog : ∀ e ∈ log, e.1.now ≤ p.now) : InTime p.now phase' := by
  obtain ⟨htrying, hoff⟩ := h.since_le hstart hlog
  cases hm with
  | reset | idle | retry | fail | fallBack | promote | connect | up => trivial
  | submit creds =>
    refine ⟨Nat.le_refl _, ?_⟩
    have : 0 < captiveTryingTimeout.nanos := by decide
    omega
  | await creds since _ _ ht => exact ⟨htrying _ _ rfl, nanos_lt_add ht (htrying _ _ rfl)⟩
  | connecting creds since _ ht => exact ⟨hoff _ rfl, nanos_lt_add ht (hoff _ rfl)⟩
  | down creds link since _ hs ht => exact ⟨hoff _ hs, nanos_lt_add ht (hoff _ hs)⟩

theorem Explains.failed (h : Explains start log phase)
    (hm : Move p phase .markSubmissionFailed phase') :
    p.associated = false ∧ Since (fun e => Missed e ∧ ¬ Applies e)
      (fun _ e => Applies e ∧ e.1.now.nanos + captiveTryingTimeout.nanos ≤ p.now.nanos) log := by
  cases hm with
  | fail creds since ha _ ht =>
    refine ⟨ha, Since.mono h (fun _ h => h) fun _ e he => ⟨he.1, ?_⟩⟩
    rw [he.2]
    exact nanos_add_le ht (by decide)

theorem Explains.fellBack {creds : WifiCredentials} (h : Explains start log phase)
    (hm : Move p phase (.fallbackToCaptive creds) phase') :
    p.associated = false ∧
      ((∃ c t, phase = .staConnecting c t) ∧ (∀ e ∈ log, Missed e) ∧
          start.nanos + captiveAfterDisconnect.nanos ≤ p.now.nanos ∨
        (∃ c link, phase = .staServing c link) ∧ Since Missed (fun l e => FirstMiss l e ∧
          e.1.now.nanos + captiveAfterDisconnect.nanos ≤ p.now.nanos) log) := by
  cases hm with
  | fallBack _ since ha _ hoff ht =>
    refine ⟨ha, ?_⟩
    have hadd := nanos_add_le ht (by decide)
    rcases phase with _ | _ | _ | ⟨c, t⟩ | ⟨c, _ | t⟩ <;> cases hoff
    · refine .inl ⟨⟨c, _, rfl⟩, h.2, ?_⟩
      rw [← h.1]
      exact hadd
    · have : 0 < captiveAfterDisconnect.nanos := by decide
      omega
    · refine .inr ⟨⟨c, _, rfl⟩, Since.mono h (fun _ h => h) fun _ e he => ⟨he.1, ?_⟩⟩
      rw [he.2]
      exact hadd

/-- On every tick of every run: a submission fails only once its whole budget went by unassociated,
the dashboard comes down only once its whole grace did, and no deadline is overrun. -/
theorem timers_exact {boot : Option WifiCredentials} {start : Duration} {ps : List NetPoll}
    {p : NetPoll} (hmono : (start :: (ps ++ [p]).map NetPoll.now).Pairwise (· ≤ ·)) :
    let r := (new boot start).run ps
    ((r.2.tick p).1 = .markSubmissionFailed →
      p.associated = false ∧ Since (fun e => Missed e ∧ ¬ Applies e)
        (fun _ e => Applies e ∧ e.1.now.nanos + captiveTryingTimeout.nanos ≤ p.now.nanos) r.1) ∧
    (∀ creds, (r.2.tick p).1 = .fallbackToCaptive creds →
      p.associated = false ∧
        ((∃ c t, r.2.phase = .staConnecting c t) ∧ (∀ e ∈ r.1, Missed e) ∧
            start.nanos + captiveAfterDisconnect.nanos ≤ p.now.nanos ∨
          (∃ c link, r.2.phase = .staServing c link) ∧ Since Missed (fun l e => FirstMiss l e ∧
            e.1.now.nanos + captiveAfterDisconnect.nanos ≤ p.now.nanos) r.1)) ∧
    InTime p.now (r.2.tick p).2.phase := by
  intro r
  have hexp := run_explains boot start ps
  have hm := tick_move r.2 p
  rw [List.map_append, List.pairwise_cons] at hmono
  obtain ⟨hstart, hmono⟩ := hmono
  refine ⟨fun h => ?_, fun creds h => ?_, ?_⟩
  · rw [h] at hm
    exact hexp.failed hm
  · rw [h] at hm
    exact hexp.fellBack hm
  · refine hexp.inTime hm (hstart _ (by simp)) fun e he => ?_
    have hmem : e.1 ∈ ps := by
      rw [← map_fst_run (new boot start) ps]
      exact List.mem_map_of_mem he
    exact (List.pairwise_append.1 hmono).2.2 _ (List.mem_map_of_mem hmem) _ (by simp)

def home : WifiCredentials where
  ssid := "home"
  password := "password1"
  ssid_ne := by decide
  ssid_le := by decide
  password_len := by decide

/-- A submission applied at boot, missed for nineteen seconds and then for the twentieth. -/
def budgetSpent : List NetPoll :=
  [⟨.zero, false, some home, false⟩, ⟨.fromSecs 19, false, none, false⟩]

theorem timers_exact_budget :
    (((new none .zero).run budgetSpent).2.tick ⟨.fromSecs 20, false, none, false⟩).1
        = .markSubmissionFailed ∧
      Since (fun e => Missed e ∧ ¬ Applies e) (fun _ e => Applies e ∧
        e.1.now.nanos + captiveTryingTimeout.nanos ≤ (Duration.fromSecs 20).nanos)
        ((new none .zero).run budgetSpent).1 := by
  have hfailed : (((new none .zero).run budgetSpent).2.tick
      ⟨.fromSecs 20, false, none, false⟩).1 = .markSubmissionFailed := by decide
  exact ⟨hfailed, ((timers_exact (by decide)).1 hfailed).2⟩

end NetSupervisor

end Esp32Battery
