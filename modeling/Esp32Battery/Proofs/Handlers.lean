import Esp32Battery.Http.Save
import Esp32Battery.Http.WifiReset
import Esp32Battery.Net.Device

/-!
# The handlers' programs take the handlers' steps

Whatever else happens to the device while a request is served, each operation of its handler is one
of the steps that the loop has to reckon with, or none.
-/

namespace Esp32Battery

open Lib

/-- How far a request to `/save` has got; from the mailbox on it has a number. -/
inductive Request where
  | reading
  | queued (k : ℕ)
  | told (k : ℕ)
  | answered

namespace Request

/-- The order of a request's operations: a 200 comes last, after `pending` and the mailbox. -/
def Issues : Request → SaveOp → Prop
  | reading, .read _ | reading, .setMailbox _ => True
  | reading, .reply response => response.status ≠ 200
  | queued _, .setStatus status => status = .pending
  | told _, .reply response => response.status = 200
  | _, _ => False

def after : Request → (op : SaveOp) → op.Reply → Request → Prop
  | q, .read _, _, q' => q' = q
  | _, .setMailbox _, _, q' => ∃ k, q' = queued k
  | queued k, .setStatus _, _, q' => q' = told k
  | q, .setStatus _, _, q' => q' = q
  | _, .reply _, _, q' => q' = answered

/-- Every operation of `p` comes in its turn. -/
abbrev Orderly {α : Type} (p : SaveProg α) (q : Request) (Q : α → Request → Prop) : Prop :=
  Prog.wp after Issues Q p q

theorem readToBuf_orderly (cap : ℕ) (filled : List UInt8) :
    Orderly (readToBuf cap filled) reading fun _ q => q = reading := by
  unfold readToBuf
  split_ifs with hlt
  · refine ⟨trivial, fun r q hq => ?_⟩
    obtain rfl : q = reading := hq
    rcases r with e | bytes
    · exact rfl
    · by_cases hempty : bytes = []
      · subst hempty
        exact rfl
      · have := List.length_pos_of_ne_nil hempty
        have ih := readToBuf_orderly cap (filled ++ bytes)
        change Prog.wp _ _ _ (if _ : bytes = [] then return .ok (some filled)
          else readToBuf cap (filled ++ bytes)) _
        rw [dif_neg hempty]
        exact ih
  · refine ⟨trivial, fun r q hq => ?_⟩
    obtain rfl : q = reading := hq
    rcases r with e | _ | ⟨b, bytes⟩
    · exact rfl
    · exact rfl
    · exact rfl
termination_by cap - filled.length
decreasing_by
  rw [List.length_append]
  omega

theorem jsonErr_orderly {status : ℕ} (h : status ≠ 200) (msg : String) :
    Orderly (jsonErr status msg) reading fun _ q => q = answered :=
  ⟨h, fun _ _ hq => hq⟩

theorem save_orderly : Orderly save reading fun _ q => q = answered ∨ q = reading := by
  have herr : ∀ (status : ℕ) (msg : String), status ≠ 200 →
      Orderly (jsonErr status msg) reading fun _ q => q = answered ∨ q = reading :=
    fun status msg h => (jsonErr_orderly h msg).mono fun _ _ => .inl
  refine Prog.wp_bind.2 ((readToBuf_orderly 384 []).mono fun r q hq => ?_)
  subst hq
  rcases r with e | _ | body
  · exact .inr rfl
  · exact herr 413 _ (by decide)
  simp only []
  split_ifs
  · exact herr 400 _ (by decide)
  rcases parseForm body with _ | ⟨ssidRaw, passRaw⟩
  · exact herr 400 _ (by decide)
  simp only []
  rcases decodeValue ssidRaw (ssidMax + 1) with _ | ssid
  · exact herr 400 _ (by decide)
  simp only []
  rcases decodeValue passRaw (passwordMax + 1) with _ | password
  · exact herr 400 _ (by decide)
  simp only []
  rcases WifiCredentials.new ssid password with e | creds
  · exact herr 400 _ (by decide)
  · refine ⟨trivial, fun _ q hq => ?_⟩
    obtain ⟨k, rfl⟩ := hq
    refine ⟨rfl, fun _ q hq => ?_⟩
    obtain rfl : q = told k := hq
    exact ⟨rfl, fun _ q hq => .inl hq⟩

/-- What a request finds on the device. -/
def Stands (d : NetDevice) : Request → Prop
  | queued k => k ≠ 0 ∧ k ≤ d.submitted ∧ k ∉ d.told
  | told k => k ∈ d.told
  | _ => True

end Request

/-- The device, and one of the requests it serves. -/
structure Serving where
  device : NetDevice
  request : Request

namespace Serving

/-- The bundle stays up while it serves a request, and every number told was given. -/
structure Sound (s : Serving) : Prop where
  served : s.device.served = some .captive
  given : ∀ k ∈ s.device.told, k ≤ s.device.submitted
  stands : s.request.Stands s.device

/-- What the loop and the other requests may do meanwhile. -/
structure Others (s s' : Serving) : Prop where
  request : s'.request = s.request
  served : s'.device.served = s.device.served
  submitted : s.device.submitted ≤ s'.device.submitted
  told : s.device.told ⊆ s'.device.told
  own : ∀ k, s.request = .queued k → k ∈ s'.device.told → k ∈ s.device.told
  given : ∀ k ∈ s'.device.told, k ≤ s'.device.submitted

theorem Others.sound {s s' : Serving} (h : Others s s') (hs : s.Sound) : s'.Sound := by
  refine ⟨h.served.trans hs.served, h.given, ?_⟩
  have hstands := hs.stands
  rw [h.request]
  rcases hreq : s.request with _ | k | k | _
  · exact trivial
  · rw [hreq] at hstands
    obtain ⟨hne, hle, hnot⟩ := hstands
    exact ⟨hne, hle.trans h.submitted, fun hk => hnot (h.own k hreq hk)⟩
  · rw [hreq] at hstands
    exact h.told hstands
  · exact trivial

def next (s : Serving) : (op : SaveOp) → op.Reply → Serving
  | .read _, _ => s
  | .setMailbox creds, _ =>
    ⟨{ s.device with waiting := creds :: s.device.waiting }, .queued (s.device.submitted + 1)⟩
  | .setStatus status, _ =>
    match s.request with
    | .queued k => ⟨{ s.device with status := status, told := k :: s.device.told }, .told k⟩
    | q => ⟨{ s.device with status := status }, q⟩
  | .reply _, .error _ => ⟨s.device, .answered⟩
  | .reply _, .ok () =>
    match s.request with
    | .told k => ⟨{ s.device with answered := k :: s.device.answered }, .answered⟩
    | _ => ⟨s.device, .answered⟩

/-- The shared cells, as the handler's operations find and leave them. -/
def env : Env Serving SaveOp SaveOp.Reply where
  self := Others
  answer s op r s' := s' = s.next op r

/-- An operation changes the device as a handler's step does, or not at all. -/
def Steps (s : Serving) (op : SaveOp) : Prop :=
  ∀ r, (s.next op r).device = s.device ∨ s.device.Handler (s.next op r).device

theorem next_after (s : Serving) (op : SaveOp) (r : op.Reply) :
    s.request.after op r (s.next op r).request := by
  rcases s with ⟨d, q⟩
  rcases op with n | creds | status | response
  · exact rfl
  · exact ⟨_, rfl⟩
  · rcases q <;> exact rfl
  · rcases r with e | _
    · exact rfl
    · rcases q <;> exact rfl

theorem Sound.steps {s : Serving} {op : SaveOp} (hs : s.Sound) (hop : s.request.Issues op) :
    s.Steps op := by
  obtain ⟨hserved, hgiven, hstands⟩ := hs
  rcases s with ⟨d, q⟩
  intro r
  rcases op with n | creds | status | response
  · exact .inl rfl
  · exact .inr (.queue creds hserved)
  · rcases q with _ | k | k | _
    case queued =>
      obtain rfl : status = .pending := hop
      exact .inr (.tell k hserved hstands.1 hstands.2.1 hstands.2.2)
    all_goals exact hop.elim
  · rcases r with e | _
    · exact .inl rfl
    · rcases q with _ | k | k | _
      case told => exact .inr (.reply k hstands)
      all_goals exact .inl rfl

theorem Sound.next {s : Serving} {op : SaveOp} (hs : s.Sound) (hop : s.request.Issues op)
    (r : op.Reply) : (s.next op r).Sound := by
  obtain ⟨hserved, hgiven, hstands⟩ := hs
  rcases s with ⟨d, q⟩
  rcases op with n | creds | status | response
  · exact ⟨hserved, hgiven, hstands⟩
  · have hmore : d.submitted + 1 = NetDevice.submitted { d with waiting := creds :: d.waiting } :=
      rfl
    refine ⟨hserved, fun k hk => (hgiven k hk).trans ?_, Nat.succ_ne_zero _, hmore.le, fun hk => ?_⟩
    · exact (Nat.le_succ _).trans hmore.le
    · exact absurd (hgiven _ hk) (Nat.not_succ_le_self _)
  · rcases q with _ | k | k | _
    case queued =>
      refine ⟨hserved, fun j hj => ?_, List.mem_cons_self ..⟩
      rcases List.mem_cons.1 hj with rfl | hj
      · exact hstands.2.1
      · exact hgiven j hj
    all_goals exact hop.elim
  · rcases r with e | _
    · exact ⟨hserved, hgiven, trivial⟩
    · rcases q with _ | k | k | _
      all_goals exact ⟨hserved, hgiven, trivial⟩

/-- Each operation of a request to `/save` is a step of the handler that the loop's runs allow. -/
theorem save_steps {s t : Serving} {tr : List (Serving × SaveOp)}
    {o : Option (Except EspError Unit)} (hs : s.Sound) (hreading : s.request = .reading)
    (h : env.Run save s tr o t) : ∀ e ∈ tr, e.1.Steps e.2 := by
  have hwp : ∀ s' : Serving, s' = s →
      Request.Orderly save s'.request fun _ q => q = .answered ∨ q = .reading := by
    intro s' hs'
    rw [hs', hreading]
    exact Request.save_orderly
  have hself : ∀ s s' : Serving, env.self s s' → s'.request = s.request := fun _ _ h => h.request
  have hafter : ∀ (s : Serving) (op : SaveOp) (r : op.Reply) (s' : Serving),
      env.answer s op r s' → s.request.after op r s'.request := by
    intro s op r s' ha
    rw [ha]
    exact next_after s op r
  have hissues := (Env.Holds.of_wp hself hafter hwp _ _ _ _ rfl h).1
  intro e he
  obtain ⟨tr₁, _, _, hpre, hrun, -, -⟩ := h.upto he
  have hans : ∀ (s : Serving) (op : SaveOp) (r : op.Reply) (s' : Serving), s.Sound →
      s.request.Issues op → env.answer s op r s' → s'.Sound := by
    intro s op r s' hs hop ha
    rw [ha]
    exact hs.next hop r
  have hsound : e.1.Sound := hrun.keeps (I := Sound) (fun _ _ h hs => Others.sound h hs) hans
    (fun e' he' => hissues e' (hpre.subset (List.mem_append_left _ he'))) hs
  exact hsound.steps (hissues e he)

end Serving

/-- NVS and the reset flag, as the `/wifi-reset` handler finds and leaves them. -/
def resetNext (d : NetDevice) : (op : ResetOp) → op.Reply → NetDevice
  | .remove key, .ok () => { d with nvs := d.nvs.set key none }
  | .remove _, .error _ => d
  | .raise, _ => { d with reset := true }
  | .replyOk, _ => d

/-- The dashboard stays up while it serves a request. -/
def resetEnv : Env NetDevice ResetOp ResetOp.Reply where
  self d d' := d'.served = d.served
  answer d op r d' := d' = resetNext d op r

/-- Each operation of a request to `/wifi-reset` is a step of the handler, or none. -/
theorem wifiReset_steps {d t : NetDevice} {tr : List (NetDevice × ResetOp)}
    {o : Option (Except EspError Unit)} (hserved : d.served = some .dashboard)
    (h : resetEnv.Run wifiReset d tr o t) :
    ∀ e ∈ tr, ∀ r, resetNext e.1 e.2 r = e.1 ∨ e.1.Handler (resetNext e.1 e.2 r) := by
  intro e he
  obtain ⟨tr₁, _, _, -, hrun, -, -⟩ := h.upto he
  have hans : ∀ (d : NetDevice) (op : ResetOp) (r : op.Reply) (d' : NetDevice),
      d.served = some .dashboard → True → resetEnv.answer d op r d' →
      d'.served = some .dashboard := by
    intro d op r d' hd _ ha
    rw [ha]
    rcases op with key | _ | _
    · rcases r with e | _ <;> exact hd
    · exact hd
    · exact hd
  have hstable : resetEnv.Stable fun d => d.served = some .dashboard :=
    fun _ _ hself hd => Eq.trans hself hd
  have hup := hrun.keeps hstable hans (by simp) hserved
  obtain ⟨d, op⟩ := e
  intro r
  rcases op with key | _ | _
  · rcases r with e | _
    · exact .inl rfl
    · exact .inr (.remove key hup)
  · exact .inr (.raise hup)
  · exact .inl rfl

end Esp32Battery
