import Esp32Battery.Http.Body
import Esp32Battery.Lib.Prog
import Esp32Battery.Net.Supervisor

/-!
# Network resources

The radio, the servers and the cells that the request handlers poke are behind operations; the
program holds which shape of them is live. An `unwrap` that panics reboots the device: the run is
cut at its operation.
-/

namespace Esp32Battery

open Lib

/-- The lifecycle of a submission, as the captive page polls it. -/
inductive SubmissionStatus where
  | idle
  | pending
  | trying
  | failed
  | connected
deriving DecidableEq

inductive NvsKey where
  | ssid
  | pass
deriving DecidableEq

inductive NetOp where
  | getStr (key : NvsKey) (size : ℕ)
  | setStr (key : NvsKey) (value : String)
  | uptime
  | sleep (d : Duration)
  | tickSensors (elapsed : Duration)
  | tryConnect
  | takeCreds
  | takeReset
  /-- The call of `applyNetAction`, which the device takes no part in. -/
  | apply (action : NetAction)
  | refreshScan (now : Duration)
  | setStaCreds (creds : WifiCredentials)
  | clearStaCreds
  | setStatus (status : SubmissionStatus)
  | intoSta (creds : WifiCredentials)
  | intoMixed (creds : Option WifiCredentials)
  | startCaptive
  | dropBundle
  | startDashboard
  | dropServer
  | setupMdns
  | dropMdns
  | storeNetStatus (status : NetStatus)
  | warnOutOfStep (action : String)
deriving DecidableEq

@[reducible]
def NetOp.Reply : NetOp → Type
  | .getStr _ _ => Except EspError (Option String)
  | .uptime => Duration
  | .tryConnect | .takeReset => Bool
  | .takeCreds => Option WifiCredentials
  | .setStr _ _ | .sleep _ | .tickSensors _ | .apply _ | .refreshScan _ | .setStaCreds _
  | .clearStaCreds | .setStatus _ | .intoSta _ | .intoMixed _ | .startCaptive | .dropBundle
  | .startDashboard | .dropServer | .setupMdns | .dropMdns | .storeNetStatus _
  | .warnOutOfStep _ => Unit

abbrev NetProg := Prog NetOp NetOp.Reply

abbrev NetOp.perform (op : NetOp) : NetProg op.Reply := Prog.perform op

/-- The resources a phase owns; `mdns` is whether the handle is held. -/
inductive NetResources where
  | mixed
  | sta (mdns : Bool)
deriving DecidableEq

namespace NetResources

def tryConnect (phase : NetPhase) : NetProg Bool :=
  if phase.pollsAssociation then NetOp.perform .tryConnect else return false

def takeCreds : NetResources → NetProg (Option WifiCredentials)
  | mixed => NetOp.perform .takeCreds
  | sta _ => return none

def refreshScanIfStale (now : Duration) : NetResources → NetProg Unit
  | mixed => NetOp.perform (.refreshScan now)
  | sta _ => return ()

end NetResources

namespace NvsCreds

/-- `none` where the key is unset or its value does not fit `size` bytes. -/
def readStr (key : NvsKey) (size : ℕ) : NetProg (Option String) := do
  match ← NetOp.perform (.getStr key size) with
  | .ok value => return value
  | .error _ => return none

def load : NetProg (Option WifiCredentials) := do
  match ← readStr .ssid (ssidMax + 1) with
  | none => return none
  | some ssid =>
    match ← readStr .pass (passwordMax + 1) with
    | none => return none
    | some password =>
      match WifiCredentials.new ssid password with
      | .ok creds => return some creds
      | .error _ => return none

def save (creds : WifiCredentials) : NetProg Unit := do
  NetOp.perform (.setStr .ssid creds.ssid)
  NetOp.perform (.setStr .pass creds.password)

end NvsCreds

end Esp32Battery
