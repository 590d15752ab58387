import Esp32Battery.Clock
import Esp32Battery.Net.Resources

/-!
# The network loop

Each turn polls the radio and the cells that the handlers poke, lets the supervisor move, and
makes the radio and the servers match where it went.
-/

namespace Esp32Battery

open Lib

def tickPeriod : Duration := .fromSecs 1

/-- How long `connected` stays up before the access point goes away with the bundle. -/
def connectedLinger : Duration := ⟨1500 * 1000000, by unfold maxNanos; omega⟩

/-- Captive → STA. -/
def promoteToSta (resources : NetResources) (creds : WifiCredentials) : NetProg NetResources :=
  match resources with
  | .sta _ => do
    NetOp.perform (.warnOutOfStep "PromoteToSta")
    return resources
  | .mixed => do
    NvsCreds.save creds
    NetOp.perform (.setStatus .connected)
    NetOp.perform (.sleep connectedLinger)
    NetOp.perform .dropBundle
    NetOp.perform (.intoSta creds)
    NetOp.perform .startDashboard
    NetOp.perform .setupMdns
    return .sta true

/-- STA → captive, `creds` being what the radio goes on retrying. -/
def staToCaptive (resources : NetResources) (creds : Option WifiCredentials) :
    NetProg NetResources :=
  match resources with
  | .mixed => do
    NetOp.perform (.warnOutOfStep "captive fallback")
    return resources
  | .sta mdns => do
    NetOp.perform .dropServer
    if mdns then NetOp.perform .dropMdns
    NetOp.perform (.intoMixed creds)
    NetOp.perform .startCaptive
    return .mixed

def applyNetAction (action : NetAction) (resources : NetResources) (now : Duration) :
    NetProg NetResources :=
  match action with
  | .nothing => return resources
  | .refreshScan => do
    resources.refreshScanIfStale now
    return resources
  | .applyCreds creds => do
    match resources with
    | .mixed =>
      NetOp.perform (.setStaCreds creds)
      NetOp.perform (.setStatus .trying)
    | .sta _ => NetOp.perform (.warnOutOfStep "ApplyCreds")
    return resources
  | .markSubmissionFailed => do
    match resources with
    | .mixed =>
      NetOp.perform .clearStaCreds
      NetOp.perform (.setStatus .failed)
    | .sta _ => NetOp.perform (.warnOutOfStep "MarkSubmissionFailed")
    return resources
  | .startMdns =>
    match resources with
    | .sta _ => do
      NetOp.perform .setupMdns
      return .sta true
    | .mixed => do
      NetOp.perform (.warnOutOfStep "StartMdns")
      return resources
  | .promoteToSta creds => promoteToSta resources creds
  | .fallbackToCaptive creds => staToCaptive resources (some creds)
  | .forceCaptive => staToCaptive resources none

/-- What the loop carries from turn to turn. -/
structure NetMain where
  supervisor : NetSupervisor
  resources : NetResources
  timer : LoopTimer

namespace NetMain

/-- STA with stored credentials, captive otherwise. -/
def bootResources : NetPhase → NetProg NetResources
  | .staConnecting creds _ => do
    NetOp.perform (.intoSta creds)
    NetOp.perform .startDashboard
    return .sta false
  | _ => do
    NetOp.perform (.intoMixed none)
    NetOp.perform .startCaptive
    return .mixed

def bootstrap (bootCreds : Option WifiCredentials) : NetProg NetMain := do
  let supervisor := NetSupervisor.new bootCreds (← NetOp.perform .uptime)
  let resources ← bootResources supervisor.phase
  NetOp.perform (.storeNetStatus supervisor.phase.lcdStatus)
  return ⟨supervisor, resources, ⟨← NetOp.perform .uptime⟩⟩

def poll (m : NetMain) (now : Duration) : NetProg NetPoll := do
  let associated ← NetResources.tryConnect m.supervisor.phase
  let submitted ← m.resources.takeCreds
  let resetRequested ← NetOp.perform .takeReset
  return { now, associated, submitted, resetRequested }

def turn (m : NetMain) : NetProg NetMain := do
  NetOp.perform (.sleep tickPeriod)
  let (elapsed, timer) := m.timer.lap (← NetOp.perform .uptime)
  NetOp.perform (.tickSensors elapsed)
  let p ← m.poll timer.now
  let (action, supervisor) := m.supervisor.tick p
  NetOp.perform (.apply action)
  let resources ← applyNetAction action m.resources timer.now
  NetOp.perform (.storeNetStatus supervisor.phase.lcdStatus)
  return ⟨supervisor, resources, timer⟩

/-- The loop never ends: what `n` turns of it do. -/
def loop (m : NetMain) : ℕ → NetProg NetMain
  | 0 => return m
  | n + 1 => do (← m.turn).loop n

/-- The network side of `main`, from the reset to its `n`-th turn. -/
def run (n : ℕ) : NetProg NetMain := do
  let m ← bootstrap (← NvsCreds.load)
  m.loop n

end NetMain

end Esp32Battery
