import Esp32Battery.Net.Main

/-!
# The device under the network loop

The radio, the servers and their handlers, and NVS, its keys written one at a time. A handler acts
between any two steps of the loop, and any number of its requests may be in flight.
-/

namespace Esp32Battery

open Lib

inductive Radio where
  | off
  | sta (creds : WifiCredentials)
  | mixed (creds : Option WifiCredentials)
deriving DecidableEq

def Radio.creds : Radio → Option WifiCredentials
  | off => none
  | sta creds => some creds
  | mixed creds => creds

inductive Served where
  | captive
  | dashboard
deriving DecidableEq

/-- What the loop alone changes. The submissions are numbered in the order in which they reach the
mailbox, from one. -/
structure Owned where
  radio : Radio
  mdns : Bool
  served : Option Served
  /-- What an association succeeded with, since the clock was last read. -/
  associated : Option WifiCredentials
  /-- The pairs that were once promoted, or were known to work before. -/
  known : List WifiCredentials
  /-- The SSID of a save whose password is not written yet. -/
  unpaired : Option String
  /-- The newest submission that the mailbox was emptied of. -/
  drained : ℕ
  taken : Option ℕ
  /-- The submission on the radio. -/
  applied : Option ℕ
  timedOut : List ℕ

structure Nvs where
  ssid : Option String
  pass : Option String
deriving DecidableEq

namespace Nvs

def get (n : Nvs) : NvsKey → Option String
  | .ssid => n.ssid
  | .pass => n.pass

def set (n : Nvs) (key : NvsKey) (value : Option String) : Nvs :=
  match key with
  | .ssid => { n with ssid := value }
  | .pass => { n with pass := value }

end Nvs

structure NetDevice extends Owned where
  nvs : Nvs
  /-- What was submitted since the mailbox was last emptied, newest first; the mailbox holds the
  newest. -/
  waiting : List WifiCredentials
  status : SubmissionStatus
  reset : Bool
  /-- The submissions whose handler has stored `pending`. -/
  told : List ℕ
  /-- The submissions that were answered 200. -/
  answered : List ℕ

namespace NetDevice

def boot (nvs : Nvs) (known : List WifiCredentials) : NetDevice where
  radio := .off
  mdns := false
  served := none
  associated := none
  known := known
  unpaired := none
  drained := 0
  taken := none
  applied := none
  timedOut := []
  nvs := nvs
  waiting := []
  status := .idle
  reset := false
  told := []
  answered := []

def mailbox (d : NetDevice) : Option WifiCredentials := d.waiting.head?

def submitted (d : NetDevice) : ℕ := d.drained + d.waiting.length

/-- The steps of the `/save` handler, while the captive server is up, and of the `/wifi-reset`
handler, while the dashboard is. A removal that fails is no step. -/
inductive Handler (d : NetDevice) : NetDevice → Prop
  | queue (creds : WifiCredentials) : d.served = some .captive →
      Handler d { d with waiting := creds :: d.waiting }
  | tell (k : ℕ) : d.served = some .captive → k ≠ 0 → k ≤ d.submitted → k ∉ d.told →
      Handler d { d with status := .pending, told := k :: d.told }
  | reply (k : ℕ) : k ∈ d.told → Handler d { d with answered := k :: d.answered }
  | remove (key : NvsKey) : d.served = some .dashboard →
      Handler d { d with nvs := d.nvs.set key none }
  | raise : d.served = some .dashboard → Handler d { d with reset := true }

/-- The replies a device in state `d` may give. A server is dropped once its handlers are through:
every submission is told. -/
def Allows (d : NetDevice) : (op : NetOp) → op.Reply → Prop
  | .getStr key size, r => ∀ value, r = .ok value →
      value = d.nvs.get key ∧ ∀ s ∈ value, s.utf8ByteSize < size
  | .takeCreds, r => r = d.mailbox
  | .takeReset, r => r = d.reset
  | .dropBundle, _ => ∀ k ≤ d.submitted, k ≠ 0 → k ∈ d.told
  | _, _ => True

def next (d : NetDevice) : (op : NetOp) → op.Reply → NetDevice
  | .setStr key value, _ => { d with
      nvs := d.nvs.set key value
      unpaired := match key with | .ssid => some value | .pass => none }
  | .uptime, _ => { d with associated := none }
  | .tryConnect, ok => { d with associated := if ok then d.radio.creds else none }
  | .takeCreds, r => { d with
      waiting := []
      drained := d.submitted
      taken := if r.isSome then some d.submitted else none }
  | .takeReset, _ => { d with reset := false }
  | .apply (.promoteToSta creds), _ => { d with known := creds :: d.known }
  | .apply .markSubmissionFailed, _ => { d with timedOut := d.applied.toList ++ d.timedOut }
  | .setStaCreds creds, _ => { d with radio := .mixed (some creds), applied := d.taken }
  | .clearStaCreds, _ => { d with radio := .mixed none, applied := none }
  | .setStatus status, _ => { d with status := status }
  | .intoSta creds, _ => { d with radio := .sta creds, applied := none }
  | .intoMixed creds, _ => { d with radio := .mixed creds, applied := none }
  | .startCaptive, _ => { d with
      served := some .captive, waiting := [], drained := d.submitted, status := .idle }
  | .dropBundle, _ | .dropServer, _ => { d with served := none }
  | .startDashboard, _ => { d with served := some .dashboard }
  | .setupMdns, _ => { d with mdns := true }
  | .dropMdns, _ => { d with mdns := false }
  | .getStr _ _, _ | .sleep _, _ | .tickSensors _, _ | .apply _, _ | .refreshScan _, _
  | .storeNetStatus _, _ | .warnOutOfStep _, _ => d

end NetDevice

def netEnv : Env NetDevice NetOp NetOp.Reply where
  self := NetDevice.Handler
  answer d op r d' := d.Allows op r ∧ d' = d.next op r

namespace Owned

/-- What an answer does to the loop's own part. An empty mailbox was emptied of the newest
submission. -/
def after (v : Owned) : (op : NetOp) → op.Reply → Owned → Prop
  | .setStr key value, _, v' =>
      v' = { v with unpaired := match key with | .ssid => some value | .pass => none }
  | .uptime, _, v' => v' = { v with associated := none }
  | .tryConnect, ok, v' => v' = { v with associated := if ok then v.radio.creds else none }
  | .takeCreds, r, v' => match r with
      | none => v' = { v with taken := none }
      | some _ => ∃ k, v' = { v with drained := k, taken := some k }
  | .apply (.promoteToSta creds), _, v' => v' = { v with known := creds :: v.known }
  | .apply .markSubmissionFailed, _, v' =>
      v' = { v with timedOut := v.applied.toList ++ v.timedOut }
  | .setStaCreds creds, _, v' => v' = { v with radio := .mixed (some creds), applied := v.taken }
  | .clearStaCreds, _, v' => v' = { v with radio := .mixed none, applied := none }
  | .intoSta creds, _, v' => v' = { v with radio := .sta creds, applied := none }
  | .intoMixed creds, _, v' => v' = { v with radio := .mixed creds, applied := none }
  | .startCaptive, _, v' => ∃ k, v' = { v with served := some .captive, drained := k }
  | .dropBundle, _, v' | .dropServer, _, v' => v' = { v with served := none }
  | .startDashboard, _, v' => v' = { v with served := some .dashboard }
  | .setupMdns, _, v' => v' = { v with mdns := true }
  | .dropMdns, _, v' => v' = { v with mdns := false }
  | _, _, v' => v' = v

end Owned

namespace NetDevice

theorem Handler.owned {d d' : NetDevice} (h : Handler d d') : d'.toOwned = d.toOwned := by
  rcases h <;> rfl

theorem next_owned {d : NetDevice} {op : NetOp} {r : op.Reply} (h : d.Allows op r) :
    d.toOwned.after op r (d.next op r).toOwned := by
  cases op with
  | takeCreds =>
    rcases r with _ | creds
    · have hw : d.waiting = [] := List.head?_eq_none_iff.1 (Eq.symm h)
      unfold Owned.after next submitted
      simp only [hw]
      rfl
    · exact ⟨d.submitted, rfl⟩
  | startCaptive => exact ⟨d.submitted, rfl⟩
  | apply action => rcases action <;> rfl
  | _ => rfl

theorem answer_owned {d d' : NetDevice} {op : NetOp} {r : op.Reply} (h : netEnv.answer d op r d') :
    d.toOwned.after op r d'.toOwned := by
  obtain ⟨hallows, rfl⟩ := h
  exact next_owned hallows

end NetDevice

/-- What a device does where it may choose: when it associates, what the clock says, which
submissions come in right after an operation, and where the power goes. -/
structure Script where
  associates : NetDevice → Bool
  clock : NetDevice → Duration
  submits : NetDevice → NetOp → Option WifiCredentials
  stops : NetOp → Bool

namespace Script

variable (script : Script)

def reply (d : NetDevice) : (op : NetOp) → Option op.Reply
  | .getStr key size =>
    if ∀ s ∈ d.nvs.get key, s.utf8ByteSize < size then some (.ok (d.nvs.get key))
    else some (.error ⟨⟩)
  | .uptime => some (script.clock d)
  | .tryConnect => some (script.associates d)
  | .takeCreds => some d.mailbox
  | .takeReset => some d.reset
  | .dropBundle => if ∀ k ≤ d.submitted, k ≠ 0 → k ∈ d.told then some () else none
  | .setStr _ _ | .sleep _ | .tickSensors _ | .apply _ | .refreshScan _ | .setStaCreds _
  | .clearStaCreds | .setStatus _ | .intoSta _ | .intoMixed _ | .startCaptive
  | .startDashboard | .dropServer | .setupMdns | .dropMdns | .storeNetStatus _
  | .warnOutOfStep _ => some ()

/-- The `/save` handler from end to end. -/
def submit (d : NetDevice) (creds : WifiCredentials) : NetDevice := { d with
  waiting := creds :: d.waiting
  status := .pending
  told := (d.submitted + 1) :: d.told
  answered := (d.submitted + 1) :: d.answered }

def handle (d : NetDevice) (op : NetOp) : Option (op.Reply × NetDevice) :=
  if script.stops op then none
  else (script.reply d op).map fun r =>
    let d' := d.next op r
    match script.submits d op with
    | some creds => (r, if d'.served = some .captive ∧ d'.submitted + 1 ∉ d'.told
        then submit d' creds else d')
    | none => (r, d')

theorem reply_allows {d : NetDevice} {op : NetOp} {r : op.Reply}
    (h : script.reply d op = some r) : d.Allows op r := by
  cases op with
  | getStr key size =>
    replace h := Option.some.inj ((apply_ite some _ _ _).trans h)
    intro value hvalue
    rw [← h] at hvalue
    by_cases hfits : ∀ s ∈ d.nvs.get key, s.utf8ByteSize < size
    · rw [if_pos hfits] at hvalue
      cases hvalue
      exact ⟨rfl, hfits⟩
    · rw [if_neg hfits] at hvalue
      cases hvalue
  | takeCreds | takeReset => exact (Option.some.inj h).symm
  | dropBundle =>
    unfold reply at h
    split_ifs at h with htold
    exact htold
  | _ => exact trivial

theorem submit_handler {d : NetDevice} (creds : WifiCredentials)
    (hserved : d.served = some .captive) (hnew : d.submitted + 1 ∉ d.told) :
    Relation.ReflTransGen NetDevice.Handler d (submit d creds) := by
  have h₁ := NetDevice.Handler.queue creds hserved
  have h₂ := NetDevice.Handler.tell (d := { d with waiting := creds :: d.waiting })
    (d.submitted + 1) hserved (Nat.succ_ne_zero _) le_rfl hnew
  have h₃ := NetDevice.Handler.reply (d := { d with
    waiting := creds :: d.waiting, status := .pending, told := (d.submitted + 1) :: d.told })
    (d.submitted + 1) (List.mem_cons_self ..)
  exact .tail (.tail (.single h₁) h₂) h₃

theorem handle_answer (d : NetDevice) (op : NetOp) (r : op.Reply × NetDevice)
    (h : script.handle d op = some r) :
    ∃ u, netEnv.answer d op r.1 u ∧ Relation.ReflTransGen netEnv.self u r.2 := by
  unfold handle at h
  split_ifs at h
  obtain ⟨reply, hreply, rfl⟩ := Option.map_eq_some_iff.1 h
  refine ⟨d.next op reply, ?_⟩
  have hallows := script.reply_allows hreply
  rcases hsub : script.submits d op with _ | creds
  · exact ⟨⟨hallows, rfl⟩, .refl⟩
  · simp only []
    split_ifs with hup
    · exact ⟨⟨hallows, rfl⟩, submit_handler creds hup.1 hup.2⟩
    · exact ⟨⟨hallows, rfl⟩, .refl⟩

theorem play_run {α : Type} (p : NetProg α) (d : NetDevice) :
    netEnv.Run p d (Env.play script.handle p d).1 (Env.play script.handle p d).2.1
      (Env.play script.handle p d).2.2 :=
  Env.play_run script.handle_answer p d

def stored : WifiCredentials where
  ssid := "attic"
  password := "correct horse"
  ssid_ne := by decide
  ssid_le := by decide
  password_len := by decide

def guest : WifiCredentials where
  ssid := "guest"
  password := "battery staple"
  ssid_ne := by decide
  ssid_le := by decide
  password_len := by decide

end Script

end Esp32Battery
