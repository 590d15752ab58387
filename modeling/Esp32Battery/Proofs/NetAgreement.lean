import Esp32Battery.Net.Device

/-!
# The resources follow the phase

The supervisor moves alone, and the loop then brings the radio and the servers to where it went.
Only the loop changes what it owns, so what a turn does to it does not depend on the handlers.
-/

namespace Esp32Battery

open Lib

namespace NetPhase

/-- The shape of resources a phase is served with. -/
def resources : NetPhase → NetResources
  | captiveIdle | captiveTrying _ _ | captiveFallbackRetrying _ => .mixed
  | staConnecting _ _ => .sta false
  | staServing _ _ => .sta true

def radio : NetPhase → Radio
  | captiveIdle => .mixed none
  | captiveTrying creds _ | captiveFallbackRetrying creds => .mixed (some creds)
  | staConnecting creds _ | staServing creds _ => .sta creds

def server (phase : NetPhase) : Served := if phase.sta then .dashboard else .captive

def serving : NetPhase → Bool
  | staServing _ _ => true
  | _ => false

def trying : NetPhase → Bool
  | captiveTrying _ _ => true
  | _ => false

theorem radio_creds (phase : NetPhase) : phase.radio.creds = phase.creds := by
  rcases phase <;> rfl

theorem resources_mixed {phase : NetPhase} (h : phase.sta = false) : phase.resources = .mixed := by
  rcases phase with _ | _ | _ | _ | _
  all_goals first | rfl | simp [sta] at h

theorem resources_sta {phase : NetPhase} (h : phase.sta = true) :
    phase.resources = .sta phase.serving := by
  rcases phase with _ | _ | _ | _ | _
  all_goals first | rfl | simp [sta] at h

theorem serving_of_captive {phase : NetPhase} (h : phase.sta = false) : phase.serving = false := by
  rcases phase with _ | _ | _ | _ | _
  all_goals first | rfl | simp [sta] at h

theorem server_of_captive {phase : NetPhase} (h : phase.sta = false) :
    phase.server = .captive := by
  unfold server
  rw [h]
  rfl

theorem sta_of_offSince {phase : NetPhase} {now since : Duration}
    (h : NetSupervisor.offSince now phase = some since) : phase.sta = true := by
  rcases phase with _ | _ | _ | _ | _
  all_goals first | rfl | simp [NetSupervisor.offSince] at h

end NetPhase

/-- What the loop relies on where it issues an operation. -/
def Sound (v : Owned) : NetOp → Prop
  | .warnOutOfStep _ => False
  | .setupMdns => v.mdns = false
  | .apply (.promoteToSta creds) => v.associated = some creds
  | .setStr .ssid value => v.served = some .captive ∧ ∃ creds ∈ v.known,
      v.associated = some creds ∧ value = creds.ssid
  | .setStr .pass value => ∃ creds ∈ v.known, v.associated = some creds ∧ value = creds.password ∧
      v.unpaired = some creds.ssid
  | .startDashboard => v.unpaired = none
  | .setStatus .failed => v.drained ∈ v.timedOut
  | _ => True

abbrev Keeps {α : Type} (p : NetProg α) (v : Owned) (Q : α → Owned → Prop) : Prop :=
  Prog.wp Owned.after Sound Q p v

/-- Phase and resources agree, whatever the last poll was. -/
structure NetPhase.Held (phase : NetPhase) (resources : NetResources) (v : Owned) : Prop where
  resources : resources = phase.resources
  radio : v.radio = phase.radio
  mdns : v.mdns = phase.serving
  served : v.served = some phase.server
  paired : v.unpaired = none

theorem NetPhase.Held.of_eq {phase : NetPhase} {resources : NetResources} {v v' : Owned}
    (h : phase.Held resources v) (hr : v'.radio = v.radio) (hm : v'.mdns = v.mdns)
    (hs : v'.served = v.served) (hu : v'.unpaired = v.unpaired) : phase.Held resources v' :=
  ⟨h.resources, hr.trans h.radio, hm.trans h.mdns, hs.trans h.served, hu.trans h.paired⟩

theorem NetPhase.Held.relink {creds : WifiCredentials} {link : LinkState}
    {resources : NetResources} {v : Owned} (h : NetPhase.Held (.staServing creds link) resources v)
    (link' : LinkState) : NetPhase.Held (.staServing creds link') resources v :=
  ⟨h.resources, h.radio, h.mdns, h.served, h.paired⟩

/-- Between two turns, the submission in flight is also the last one that was made out. -/
structure NetMain.Settled (m : NetMain) (v : Owned) : Prop where
  held : m.supervisor.phase.Held m.resources v
  applied : m.supervisor.phase.trying = true → v.applied = some v.drained

/-- After a poll. -/
structure NetMain.Polled (m : NetMain) (p : NetPoll) (v : Owned) : Prop where
  held : m.supervisor.phase.Held m.resources v
  associated : p.associated = true → v.associated = m.supervisor.phase.creds
  taken : p.submitted ≠ none → v.taken = some v.drained
  applied : p.submitted = none → m.supervisor.phase.trying = true → v.applied = some v.drained

theorem poll_keeps {m : NetMain} {v : Owned} (now : Duration) (h : m.Settled v) :
    Keeps (m.poll now) v m.Polled := by
  unfold Keeps NetMain.poll NetResources.tryConnect
  rw [Prog.wp_bind]
  have key : ∀ (ok : Bool) (v' : Owned), m.Settled v' →
      (ok = true → v'.associated = m.supervisor.phase.creds) →
      Keeps (do
        let submitted ← m.resources.takeCreds
        let resetRequested ← NetOp.perform .takeReset
        return (⟨now, ok, submitted, resetRequested⟩ : NetPoll)) v' m.Polled := by
    intro ok v' hv' hok
    rcases hres : m.resources with _ | mdns
    · refine ⟨trivial, fun r v₁ hv₁ => ⟨trivial, fun reset v₂ hv₂ => ?_⟩⟩
      obtain rfl : v₂ = v₁ := hv₂
      rcases r with _ | creds
      · obtain rfl : v₂ = _ := hv₁
        exact ⟨hv'.held.of_eq rfl rfl rfl rfl, hok, by simp, fun _ => hv'.applied⟩
      · obtain ⟨k, rfl⟩ := hv₁
        exact ⟨hv'.held.of_eq rfl rfl rfl rfl, hok, fun _ => rfl, by simp⟩
    · refine ⟨trivial, fun reset v₂ hv₂ => ?_⟩
      obtain rfl : v₂ = v' := hv₂
      exact ⟨hv'.held, hok, fun h => (h rfl).elim, fun _ => hv'.applied⟩
  split_ifs with hpolls
  · refine ⟨trivial, fun ok v' hv' => ?_⟩
    obtain rfl : v' = _ := hv'
    refine key ok _ ⟨h.held.of_eq rfl rfl rfl rfl, h.applied⟩ fun hok => ?_
    simp only [hok, if_true, h.held.radio, NetPhase.radio_creds]
  · exact key false v h (by simp)

theorem promoteToSta_keeps {v : Owned} {creds : WifiCredentials} (hmdns : v.mdns = false)
    (hserved : v.served = some .captive) (hassoc : v.associated = some creds)
    (hknown : creds ∈ v.known) :
    Keeps (promoteToSta .mixed creds) v fun resources v' => ∀ link,
      NetPhase.Held (.staServing creds link) resources v' := by
  refine ⟨⟨hserved, creds, hknown, hassoc, rfl⟩, fun _ v₁ hv₁ => ?_⟩
  obtain rfl : v₁ = _ := hv₁
  refine ⟨⟨creds, hknown, hassoc, rfl, rfl⟩, fun _ v₂ hv₂ => ⟨trivial, fun _ v₃ hv₃ =>
    ⟨trivial, fun _ v₄ hv₄ => ⟨trivial, fun _ v₅ hv₅ => ⟨trivial, fun _ v₆ hv₆ => ?_⟩⟩⟩⟩⟩
  obtain rfl : v₂ = _ := hv₂
  obtain rfl : v₃ = _ := hv₃
  obtain rfl : v₄ = _ := hv₄
  obtain rfl : v₅ = _ := hv₅
  obtain rfl : v₆ = _ := hv₆
  refine ⟨rfl, fun _ v₇ hv₇ => ⟨?_, fun _ v₈ hv₈ link => ?_⟩⟩
  all_goals obtain rfl : v₇ = _ := hv₇
  · exact hmdns
  · obtain rfl : v₈ = _ := hv₈
    exact ⟨rfl, rfl, rfl, rfl, rfl⟩

theorem staToCaptive_keeps {v : Owned} {mdns : Bool} (creds : Option WifiCredentials)
    (hmdns : v.mdns = mdns) (hpaired : v.unpaired = none) :
    Keeps (staToCaptive (.sta mdns) creds) v fun resources v' => resources = .mixed ∧
      v'.radio = .mixed creds ∧ v'.mdns = false ∧ v'.served = some .captive ∧
      v'.unpaired = none := by
  have key : ∀ v' : Owned, v'.mdns = false → v'.unpaired = none →
      Keeps (do
        NetOp.perform (.intoMixed creds)
        NetOp.perform .startCaptive
        return NetResources.mixed) v' fun resources v' => resources = .mixed ∧
          v'.radio = .mixed creds ∧ v'.mdns = false ∧ v'.served = some .captive ∧
          v'.unpaired = none := by
    intro v' hm hp
    refine ⟨trivial, fun _ v₁ hv₁ => ⟨trivial, fun _ v₂ hv₂ => ?_⟩⟩
    obtain rfl : v₁ = _ := hv₁
    obtain ⟨k, rfl⟩ := hv₂
    exact ⟨rfl, rfl, hm, rfl, hp⟩
  refine ⟨trivial, fun _ v₁ hv₁ => ?_⟩
  obtain rfl : v₁ = _ := hv₁
  rcases mdns with _ | _
  · exact key _ hmdns hpaired
  · refine ⟨trivial, fun _ v₂ hv₂ => ?_⟩
    obtain rfl : v₂ = _ := hv₂
    exact key _ rfl hpaired

/-- An action that asks for nothing, or for a scan, leaves everything as it is. -/
theorem stay_keeps {phase : NetPhase} {resources : NetResources} {v : Owned} {action : NetAction}
    (timer : LoopTimer) (haction : action = .nothing ∨ action = .refreshScan)
    (hheld : phase.Held resources v) (happlied : phase.trying = true → v.applied = some v.drained) :
    Keeps (do
      NetOp.perform (.apply action)
      applyNetAction action resources timer.now) v fun resources v' =>
        NetMain.Settled ⟨⟨phase⟩, resources, timer⟩ v' := by
  rcases haction with rfl | rfl
  · refine ⟨trivial, fun _ v₁ hv₁ => ?_⟩
    obtain rfl : v₁ = _ := hv₁
    exact ⟨hheld, happlied⟩
  · refine ⟨trivial, fun _ v₁ hv₁ => ?_⟩
    obtain rfl : v₁ = _ := hv₁
    rcases resources with _ | mdns
    · refine ⟨trivial, fun _ v₂ hv₂ => ?_⟩
      obtain rfl : v₂ = _ := hv₂
      exact ⟨hheld, happlied⟩
    · exact ⟨hheld, happlied⟩

/-- One turn's action, from the phase that was polled to the phase it leaves. -/
theorem applyNetAction_keeps {m : NetMain} {p : NetPoll} {v : Owned} {action : NetAction}
    {phase' : NetPhase} (timer : LoopTimer) (h : m.Polled p v)
    (hmove : NetSupervisor.Move p m.supervisor.phase action phase') :
    Keeps (do
      NetOp.perform (.apply action)
      applyNetAction action m.resources timer.now) v fun resources v' =>
        NetMain.Settled ⟨⟨phase'⟩, resources, timer⟩ v' := by
  obtain ⟨hheld, hassoc, htaken, happlied⟩ := h
  rcases m with ⟨⟨phase⟩, resources, last⟩
  have hres := hheld.resources
  simp only at hheld hassoc happlied hmove hres ⊢
  subst hres
  rcases hmove with ⟨_, hsta⟩ | ⟨creds, hsta, hsub, _⟩ | hsub | ⟨creds, _, hsub⟩ |
    ⟨creds, hsta, hcreds, ha⟩ | ⟨creds, since, ha, hsub, hlt⟩ | ⟨creds, since, ha, hsub, hle⟩ |
    ⟨creds, start, ha⟩ | ⟨creds, start, ha, hlt⟩ | ⟨creds, link, ha⟩ |
    ⟨creds, link, since, ha, hoff, hlt⟩ | ⟨creds, since, ha, hcreds, hoff, hle⟩
  case reset =>
    refine ⟨trivial, fun _ v₁ hv₁ => ?_⟩
    obtain rfl : v₁ = _ := hv₁
    rw [NetPhase.resources_sta hsta]
    refine (staToCaptive_keeps none hheld.mdns hheld.paired).mono fun res v' hv' => ?_
    obtain ⟨rfl, hr, hm, hs, hp⟩ := hv'
    exact ⟨⟨rfl, hr, hm, hs, hp⟩, by simp [NetPhase.trying]⟩
  case submit =>
    rw [NetPhase.resources_mixed hsta]
    refine ⟨trivial, fun _ v₁ hv₁ => ⟨trivial, fun _ v₂ hv₂ => ⟨trivial, fun _ v₃ hv₃ => ?_⟩⟩⟩
    obtain rfl : v₁ = _ := hv₁
    obtain rfl : v₂ = _ := hv₂
    obtain rfl : v₃ = _ := hv₃
    refine ⟨⟨rfl, rfl, ?_, ?_, hheld.paired⟩, fun _ => htaken (by simp [hsub])⟩
    · exact hheld.mdns.trans (NetPhase.serving_of_captive hsta)
    · exact hheld.served.trans (congrArg some (NetPhase.server_of_captive hsta))
  case idle => exact stay_keeps timer (.inr rfl) hheld (happlied hsub)
  case retry => exact stay_keeps timer (.inr rfl) hheld (happlied hsub)
  case promote =>
    have hcreds' : v.associated = some creds := (hassoc ha).trans hcreds
    refine ⟨hcreds', fun _ v₁ hv₁ => ?_⟩
    obtain rfl : v₁ = _ := hv₁
    rw [NetPhase.resources_mixed hsta]
    refine (promoteToSta_keeps (v := { v with known := creds :: v.known }) ?_ ?_ hcreds'
      (List.mem_cons_self ..)).mono fun res v' hv' => ⟨hv' .up, by simp [NetPhase.trying]⟩
    · exact hheld.mdns.trans (NetPhase.serving_of_captive hsta)
    · exact hheld.served.trans (congrArg some (NetPhase.server_of_captive hsta))
  case await => exact stay_keeps timer (.inl rfl) hheld (happlied hsub)
  case fail =>
    have hdrained := happlied hsub rfl
    refine ⟨trivial, fun _ v₁ hv₁ => ⟨trivial, fun _ v₂ hv₂ => ?_⟩⟩
    obtain rfl : v₁ = _ := hv₁
    obtain rfl : v₂ = _ := hv₂
    refine ⟨?_, fun _ v₃ hv₃ => ?_⟩
    · exact List.mem_append_left _ (by simp [hdrained])
    · obtain rfl : v₃ = _ := hv₃
      exact ⟨⟨rfl, rfl, hheld.mdns, hheld.served, hheld.paired⟩, by simp [NetPhase.trying]⟩
  case connect =>
    refine ⟨trivial, fun _ v₁ hv₁ => ?_⟩
    obtain rfl : v₁ = _ := hv₁
    refine ⟨hheld.mdns, fun _ v₂ hv₂ => ?_⟩
    obtain rfl : v₂ = _ := hv₂
    exact ⟨⟨rfl, hheld.radio, rfl, hheld.served, hheld.paired⟩, by simp [NetPhase.trying]⟩
  case connecting =>
    exact stay_keeps timer (.inl rfl) hheld (by simp [NetPhase.trying])
  case up =>
    exact stay_keeps timer (.inl rfl) (hheld.relink .up) (by simp [NetPhase.trying])
  case down =>
    exact stay_keeps timer (.inl rfl) (hheld.relink (.down since)) (by simp [NetPhase.trying])
  case fallBack =>
    refine ⟨trivial, fun _ v₁ hv₁ => ?_⟩
    obtain rfl : v₁ = _ := hv₁
    rw [NetPhase.resources_sta (NetPhase.sta_of_offSince hoff)]
    refine (staToCaptive_keeps (some creds) hheld.mdns hheld.paired).mono fun res v' hv' => ?_
    obtain ⟨rfl, hr, hm, hs, hp⟩ := hv'
    exact ⟨⟨rfl, hr, hm, hs, hp⟩, by simp [NetPhase.trying]⟩

theorem turn_keeps {m : NetMain} {v : Owned} (h : m.Settled v) :
    Keeps m.turn v NetMain.Settled := by
  have hs : m.Settled { v with associated := none } :=
    ⟨h.held.of_eq rfl rfl rfl rfl, h.applied⟩
  refine .step trivial fun _ v₁ hv₁ => .step trivial fun uptime v₂ hv₂ =>
    .step trivial fun _ v₃ hv₃ => ?_
  obtain rfl : v₁ = _ := hv₁
  obtain rfl : v₂ = _ := hv₂
  obtain rfl : v₃ = _ := hv₃
  refine Prog.wp_bind.2 ((poll_keeps uptime hs).mono fun p v' hp => ?_)
  obtain ⟨hsound, happly⟩ := applyNetAction_keeps ⟨uptime⟩ hp (m.supervisor.tick_move p)
  refine .step hsound fun _ v₄ hv₄ => Prog.wp_bind.2 ((happly _ v₄ hv₄).mono fun resources v₅ hs =>
    .step trivial fun _ v₆ hv₆ => ?_)
  obtain rfl : v₆ = _ := hv₆
  exact hs

theorem loop_keeps (n : ℕ) {m : NetMain} {v : Owned} (h : m.Settled v) :
    Keeps (m.loop n) v NetMain.Settled := by
  induction n generalizing m v with
  | zero => exact h
  | succ n ih => exact Prog.wp_bind.2 ((turn_keeps h).mono fun _ _ => ih)

theorem bootstrap_keeps (bootCreds : Option WifiCredentials) {v : Owned} (hmdns : v.mdns = false)
    (hpaired : v.unpaired = none) : Keeps (NetMain.bootstrap bootCreds) v NetMain.Settled := by
  refine ⟨trivial, fun now v₁ hv₁ => ?_⟩
  obtain rfl : v₁ = _ := hv₁
  rcases bootCreds with _ | creds
  · refine ⟨trivial, fun _ v₂ hv₂ => ⟨trivial, fun _ v₃ hv₃ => ⟨trivial, fun _ v₄ hv₄ =>
      ⟨trivial, fun _ v₅ hv₅ => ?_⟩⟩⟩⟩
    obtain rfl : v₂ = _ := hv₂
    obtain ⟨k, rfl⟩ := hv₃
    obtain rfl : v₄ = _ := hv₄
    obtain rfl : v₅ = _ := hv₅
    exact ⟨⟨rfl, rfl, hmdns, rfl, hpaired⟩, by simp [NetSupervisor.new, NetPhase.trying]⟩
  · refine ⟨trivial, fun _ v₂ hv₂ => ?_⟩
    obtain rfl : v₂ = _ := hv₂
    refine ⟨hpaired, fun _ v₃ hv₃ => ⟨trivial, fun _ v₄ hv₄ => ⟨trivial, fun _ v₅ hv₅ => ?_⟩⟩⟩
    obtain rfl : v₃ = _ := hv₃
    obtain rfl : v₄ = _ := hv₄
    obtain rfl : v₅ = _ := hv₅
    exact ⟨⟨rfl, rfl, hmdns, rfl, hpaired⟩, by simp [NetSupervisor.new, NetPhase.trying]⟩

theorem readStr_keeps (key : NvsKey) (size : ℕ) {v : Owned} :
    Keeps (NvsCreds.readStr key size) v fun _ v' => v' = v := by
  refine ⟨trivial, fun r v' hv' => ?_⟩
  rcases r with e | value
  · exact hv'
  · exact hv'

theorem load_keeps {v : Owned} : Keeps NvsCreds.load v fun _ v' => v' = v := by
  refine Prog.wp_bind.2 ((readStr_keeps .ssid _).mono fun r v₁ hv₁ => ?_)
  subst hv₁
  rcases r with _ | ssid
  · exact rfl
  refine Prog.wp_bind.2 ((readStr_keeps .pass _).mono fun r v₂ hv₂ => ?_)
  subst hv₂
  rcases r with _ | password
  · exact rfl
  simp only []
  rcases WifiCredentials.new ssid password with e | creds
  · exact rfl
  · exact rfl

theorem run_keeps (n : ℕ) {v : Owned} (hmdns : v.mdns = false) (hpaired : v.unpaired = none) :
    Keeps (NetMain.run n) v NetMain.Settled := by
  refine Prog.wp_bind.2 (load_keeps.mono fun bootCreds v' hv' => ?_)
  obtain rfl : v' = _ := hv'
  exact Prog.wp_bind.2 ((bootstrap_keeps bootCreds hmdns hpaired).mono fun _ _ => loop_keeps n)

theorem netEnv_holds {P : NetDevice → Prop} {p : NetProg NetMain}
    (h : ∀ d, P d → Keeps p d.toOwned NetMain.Settled) :
    netEnv.Holds (fun d => Sound d.toOwned) P p fun m d => m.Settled d.toOwned :=
  .of_wp (fun _ _ => NetDevice.Handler.owned) (fun _ _ _ _ => NetDevice.answer_owned) h

theorem NetMain.run_sound {n : ℕ} {nvs : Nvs} {known : List WifiCredentials}
    {tr : List (NetDevice × NetOp)} {o : Option NetMain} {t : NetDevice}
    (h : netEnv.Run (NetMain.run n) (.boot nvs known) tr o t) :
    ∀ e ∈ tr, Sound e.1.toOwned e.2 := by
  have hkeeps : ∀ d, d = NetDevice.boot nvs known →
      Keeps (NetMain.run n) d.toOwned NetMain.Settled := by
    intro d hd
    subst hd
    exact run_keeps n rfl rfl
  exact (netEnv_holds hkeeps _ _ _ _ rfl h).1

/-- What is asked of the operations of a run. -/
def InStep (d : NetDevice) : NetOp → Prop
  | .warnOutOfStep _ => False
  | .setupMdns => d.mdns = false
  | .apply (.promoteToSta creds) => d.associated = some creds
  | .setStr key value => ∃ creds, d.associated = some creds ∧ value = match key with
      | .ssid => creds.ssid
      | .pass => creds.password
  | _ => True

theorem Sound.inStep {d : NetDevice} {op : NetOp} (h : Sound d.toOwned op) : InStep d op := by
  cases op with
  | setStr key value =>
    rcases key with _ | _
    · obtain ⟨-, creds, -, hassoc, hvalue⟩ := h
      exact ⟨creds, hassoc, hvalue⟩
    · obtain ⟨creds, -, hassoc, hvalue, -⟩ := h
      exact ⟨creds, hassoc, hvalue⟩
  | apply action => rcases action <;> exact h
  | warnOutOfStep _ | setupMdns => exact h
  | _ => exact trivial

/-- The resources have the shape of the phase, and the radio and mDNS are in it. -/
structure Agree (m : NetMain) (d : NetDevice) : Prop where
  resources : m.resources = m.supervisor.phase.resources
  radio : d.radio = m.supervisor.phase.radio
  creds : d.radio.creds = m.supervisor.phase.creds
  mdns : d.mdns = m.supervisor.phase.serving

theorem NetMain.Settled.agree {m : NetMain} {d : NetDevice} (h : m.Settled d.toOwned) :
    Agree m d where
  resources := h.held.resources
  radio := h.held.radio
  creds := (congrArg Radio.creds h.held.radio).trans (NetPhase.radio_creds _)
  mdns := h.held.mdns

/-- Phase and resources never drift apart: they agree after every turn, mDNS is never taken twice,
no action is out of step, and what is promoted and stored is what the radio associated with. -/
theorem NetMain.in_step (bootCreds : Option WifiCredentials) (n : ℕ) (nvs : Nvs)
    (known : List WifiCredentials) {tr : List (NetDevice × NetOp)} {o : Option NetMain}
    {t : NetDevice}
    (h : netEnv.Run (bootstrap bootCreds >>= fun m => m.loop n) (.boot nvs known) tr o t) :
    (∀ e ∈ tr, InStep e.1 e.2) ∧ ∀ m, o = some m → Agree m t := by
  have hkeeps : ∀ d, d = NetDevice.boot nvs known →
      Keeps (bootstrap bootCreds >>= fun m => m.loop n) d.toOwned NetMain.Settled := by
    rintro d rfl
    exact Prog.wp_bind.2 ((bootstrap_keeps bootCreds rfl rfl).mono fun _ _ => loop_keeps n)
  obtain ⟨hsound, hend⟩ := netEnv_holds hkeeps _ _ _ _ rfl h
  exact ⟨fun e he => (hsound e he).inStep, fun m hm => (hend m hm).agree⟩

/-- A submission as soon as the portal is up, and a radio that associates with whatever it has. -/
def Script.welcomed : Script where
  associates d := d.radio.creds.isSome
  clock _ := .zero
  submits _ op := if op = .startCaptive then some guest else none
  stops _ := false

theorem NetMain.in_step_welcomed :
    let r := Env.play Script.welcomed.handle (bootstrap none >>= fun m => m.loop 2)
      (.boot ⟨none, none⟩ [])
    ∃ m, r.2.1 = some m ∧ m.resources = .sta true ∧ Agree m r.2.2 := by
  intro r
  have hres : r.2.1.map (·.resources) = some (.sta true) := by decide +kernel
  obtain ⟨m, hm, hsta⟩ := Option.map_eq_some_iff.1 hres
  exact ⟨m, hm, hsta, (in_step none 2 _ _ (Script.welcomed.play_run _ _)).2 m hm⟩

end Esp32Battery
