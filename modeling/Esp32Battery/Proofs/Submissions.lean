import Esp32Battery.Proofs.NetAgreement

/-!
# What a submission is told

The mailbox and the status are two cells, and the handler writes both while the loop is between
emptying the one and storing to the other.
-/

namespace Esp32Battery

open Lib

namespace NetDevice

/-- Once a submission is answered, `failed` is only ever its own outcome or a later one's. -/
def Reported (d : NetDevice) : Prop :=
  d.status = .failed → ∀ k ∈ d.answered, ∃ j ∈ d.timedOut, k ≤ j

/-- Every submission that stored `pending` was queued before the loop last emptied the mailbox. -/
def Caught (d : NetDevice) : Prop := ∀ k ∈ d.told, k ≤ d.drained

instance (d : NetDevice) : Decidable d.Caught :=
  inferInstanceAs (Decidable (∀ k ∈ d.told, k ≤ d.drained))

/-- A submission is answered after it is told, and the status of one that is told is never stale. -/
structure Told (d : NetDevice) : Prop where
  answered : ∀ k ∈ d.answered, k ∈ d.told
  failed : d.status = .failed → ∀ k ∈ d.told, ∃ j ∈ d.timedOut, k ≤ j

theorem Told.reported {d : NetDevice} (h : d.Told) : d.Reported :=
  fun hs k hk => h.failed hs k (h.answered k hk)

theorem Told.of_eq {d d' : NetDevice} (h : d.Told) (ha : d'.answered = d.answered)
    (ht : d'.told = d.told) (hs : d'.status = .failed → d.status = .failed)
    (hout : d'.timedOut = d.timedOut) : d'.Told := by
  refine ⟨?_, fun hf => ?_⟩
  · rw [ha, ht]
    exact h.answered
  · rw [ht, hout]
    exact h.failed (hs hf)

theorem Handler.told {d d' : NetDevice} (h : Handler d d') (hd : d.Told) : d'.Told := by
  rcases h with ⟨creds, _⟩ | ⟨k, _, _, _, _⟩ | ⟨k, hk⟩ | ⟨key, _⟩ | _
  · exact hd.of_eq rfl rfl id rfl
  · exact ⟨fun j hj => List.mem_cons_of_mem _ (hd.answered j hj), fun hf => by cases hf⟩
  · refine ⟨fun j hj => ?_, hd.failed⟩
    rcases List.mem_cons.1 hj with rfl | hj
    · exact hk
    · exact hd.answered j hj
  · exact hd.of_eq rfl rfl id rfl
  · exact hd.of_eq rfl rfl id rfl

theorem next_told {d : NetDevice} {op : NetOp} (r : op.Reply) (hd : d.Told)
    (hsound : Sound d.toOwned op) (hcaught : op = .setStatus .failed → d.Caught) :
    (d.next op r).Told := by
  cases op with
  | setStatus status =>
    rcases status
    case failed =>
      exact ⟨hd.answered, fun _ k hk => ⟨d.drained, hsound, hcaught rfl k hk⟩⟩
    all_goals exact ⟨hd.answered, fun hf => by cases hf⟩
  | startCaptive => exact ⟨hd.answered, fun hf => by cases hf⟩
  | apply action =>
    rcases action
    case markSubmissionFailed =>
      refine ⟨hd.answered, fun hf k hk => ?_⟩
      obtain ⟨j, hj, hle⟩ := hd.failed hf k hk
      exact ⟨j, List.mem_append_right _ hj, hle⟩
    all_goals exact hd.of_eq rfl rfl id rfl
  | _ => exact hd.of_eq rfl rfl id rfl

/-- What is on the radio, or was, had come out of the mailbox. -/
structure Behind (d : NetDevice) : Prop where
  taken : ∀ j ∈ d.taken, j ≤ d.drained
  applied : ∀ j ∈ d.applied, j ≤ d.drained
  timedOut : ∀ j ∈ d.timedOut, j ≤ d.drained

theorem Behind.mono {d d' : NetDevice} (h : d.Behind) (ht : d'.taken = d.taken)
    (ha : d'.applied = d.applied ∨ d'.applied = d.taken ∨ d'.applied = none)
    (hout : d'.timedOut = d.timedOut) (hle : d.drained ≤ d'.drained) : d'.Behind := by
  refine ⟨fun j hj => (h.taken j (ht ▸ hj)).trans hle, fun j hj => ?_,
    fun j hj => (h.timedOut j (hout ▸ hj)).trans hle⟩
  rcases ha with ha | ha | ha
  · exact (h.applied j (ha ▸ hj)).trans hle
  · exact (h.taken j (ha ▸ hj)).trans hle
  · rw [ha] at hj
    cases hj

theorem next_behind {d : NetDevice} {op : NetOp} (r : op.Reply) (hd : d.Behind) :
    (d.next op r).Behind := by
  have hle : d.drained ≤ d.submitted := Nat.le_add_right _ _
  cases op with
  | takeCreds =>
    refine ⟨fun j hj => ?_, fun j hj => (hd.applied j hj).trans hle,
      fun j hj => (hd.timedOut j hj).trans hle⟩
    change j ∈ (if r.isSome then some d.submitted else none) at hj
    split_ifs at hj
    · cases hj
      exact le_rfl
    · cases hj
  | setStaCreds creds => exact hd.mono rfl (.inr (.inl rfl)) rfl le_rfl
  | clearStaCreds | intoSta creds | intoMixed creds =>
    exact hd.mono rfl (.inr (.inr rfl)) rfl le_rfl
  | startCaptive => exact hd.mono rfl (.inl rfl) rfl hle
  | apply action =>
    rcases action
    case markSubmissionFailed =>
      refine ⟨hd.taken, hd.applied, fun j hj => ?_⟩
      rcases List.mem_append.1 hj with hj | hj
      · exact hd.applied j (Option.mem_toList.1 hj)
      · exact hd.timedOut j hj
    all_goals exact hd.mono rfl (.inl rfl) rfl le_rfl
  | _ => exact hd.mono rfl (.inl rfl) rfl le_rfl

theorem Handler.behind {d d' : NetDevice} (h : Handler d d') (hd : d.Behind) : d'.Behind := by
  rcases h
  all_goals exact hd.mono rfl (.inl rfl) rfl le_rfl

end NetDevice

open NetDevice

section Run

variable {n : ℕ} {nvs : Nvs} {known : List WifiCredentials} {tr : List (NetDevice × NetOp)}
  {o : Option NetMain} {t : NetDevice}

theorem NetMain.run_behind (h : netEnv.Run (NetMain.run n) (.boot nvs known) tr o t) :
    t.Behind := by
  have hboot : (NetDevice.boot nvs known).Behind := by
    constructor <;> intro j hj <;> cases hj
  have hans : ∀ (d : NetDevice) (op : NetOp) (r : op.Reply) (d' : NetDevice), d.Behind → True →
      netEnv.answer d op r d' → d'.Behind := by
    intro d op r d' hd _ ha
    rw [ha.2]
    exact next_behind r hd
  exact h.keeps (I := Behind) (fun _ _ hs => Handler.behind hs) hans (by simp) hboot

theorem NetMain.run_told (h : netEnv.Run (NetMain.run n) (.boot nvs known) tr o t)
    (hcaught : ∀ e ∈ tr, e.2 = .setStatus .failed → e.1.Caught) : t.Told := by
  have hboot : (NetDevice.boot nvs known).Told := by
    refine ⟨fun k hk => ?_, fun hf => ?_⟩
    · cases hk
    · cases hf
  have hans : ∀ (d : NetDevice) (op : NetOp) (r : op.Reply) (d' : NetDevice), d.Told →
      (Sound d.toOwned op ∧ (op = .setStatus .failed → d.Caught)) → netEnv.answer d op r d' →
      d'.Told := by
    intro d op r d' hd hop ha
    rw [ha.2]
    exact next_told r hd hop.1 hop.2
  exact h.keeps (I := Told) (fun _ _ hs => Handler.told hs) hans
    (fun e he => ⟨run_sound h e he, hcaught e he⟩) hboot

/-- On the way of a run, whatever the handlers do next, `failed` is never stale if and only if,
whenever `failed` is stored, no submission was queued and told since the mailbox was last
emptied. -/
theorem NetMain.failed_reported (h : netEnv.Run (NetMain.run n) (.boot nvs known) tr o t) :
    (∀ tr₁ u, tr₁ <+: tr → netEnv.Run (NetMain.run n) (.boot nvs known) tr₁ none u →
      u.Reported) ↔ ∀ e ∈ tr, e.2 = .setStatus .failed → e.1.Caught := by
  constructor
  · intro hreported e he hop k hk
    obtain ⟨d, op⟩ := e
    obtain rfl : op = _ := hop
    obtain ⟨tr₁, r, u, hpre, hrun, ⟨-, hu⟩, hafter⟩ := h.upto he
    by_contra hlt
    -- the handler's reply is all that is left to do
    have hreply : Handler u { u with answered := k :: u.answered } := by
      refine .reply k ?_
      rw [hu]
      exact hk
    have hbad := hreported _ _ hpre (hafter _ (.single hreply))
    obtain ⟨j, hj, hle⟩ := hbad (by rw [hu]; rfl) k (List.mem_cons_self ..)
    rw [hu] at hj
    exact hlt (hle.trans ((run_behind hrun).timedOut j hj))
  · intro hcaught tr₁ u hpre hrun
    exact (run_told hrun fun e he => hcaught e (hpre.subset he)).reported

end Run

/-- One submission that never associates, and twenty seconds between the turns. -/
def Script.unheard : Script where
  associates _ := false
  clock d := if d.applied.isSome then captiveTryingTimeout else .zero
  submits _ op := if op = .startCaptive then some stored else none
  stops _ := false

theorem NetMain.failed_reported_unheard :
    let r := Env.play Script.unheard.handle (run 2) (.boot ⟨none, none⟩ [])
    r.2.2.status = .failed ∧ r.2.2.answered = [1] ∧ ∀ tr₁ u, tr₁ <+: r.1 →
      netEnv.Run (run 2) (.boot ⟨none, none⟩ []) tr₁ none u → u.Reported := by
  intro r
  have hcaught : ∀ e ∈ r.1, e.2 = .setStatus .failed → e.1.Caught := by decide +kernel
  exact ⟨by decide +kernel, by decide +kernel,
    (failed_reported (Script.unheard.play_run _ _)).2 hcaught⟩

/-- As the first submission runs out of time, a second one comes in. -/
def Script.overtaken : Script :=
  { Script.unheard with
    submits := fun _ op => if op = .startCaptive then some stored
      else if op = .apply .markSubmissionFailed then some guest else none }

theorem NetMain.failed_overtaken :
    ¬ ∀ (n : ℕ) (nvs : Nvs) (known : List WifiCredentials) (tr : List (NetDevice × NetOp))
      (o : Option NetMain) (t : NetDevice),
      netEnv.Run (run n) (.boot nvs known) tr o t → t.Reported := by
  intro h
  have hreported := h _ _ _ _ _ _ (Script.overtaken.play_run (run 2) (.boot ⟨none, none⟩ []))
  have hfinal : ∃ k ∈ (Env.play Script.overtaken.handle (run 2)
      (.boot ⟨none, none⟩ [])).2.2.answered, ∀ j ∈ (Env.play Script.overtaken.handle (run 2)
      (.boot ⟨none, none⟩ [])).2.2.timedOut, j < k := by decide +kernel
  obtain ⟨k, hk, hlt⟩ := hfinal
  obtain ⟨j, hj, hle⟩ := hreported (by decide +kernel) k hk
  exact absurd hle (Nat.not_le.2 (hlt j hj))

end Esp32Battery
