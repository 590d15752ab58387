import Esp32Battery.Lib.Conversation
import Esp32Battery.Lib.Locks
import Esp32Battery.Net.Main
import Esp32Battery.Xy.Run

/-!
# What each task locks

The tasks share their state behind mutexes, and the main task waits for those whose servers it
drops. Of the supervisor's thread and of the main loop it is read off what they say; of the others
it is written down.
-/

namespace Esp32Battery

open Lib Locks

inductive Mutex where
  | sensorData
  | chargeStatus
  | eventLog
  | scanCache
  | mailbox
  | jsonBuf
  | ring
  | apPass
deriving DecidableEq

inductive Task where
  | main
  | xy
  | ina
  | lcd
  | dashboard
  | captive
  | dns
  | sntp
  | reboot
deriving DecidableEq

instance : Fintype Task where
  elems := {.main, .xy, .ina, .lcd, .dashboard, .captive, .dns, .sntp, .reboot}
  complete t := by cases t <;> decide

abbrev Locking := Code Mutex Task

variable {F : Type}

/-- The store is taken once for the reading that is published and the sample that is read. -/
def XyOp.locking : XyOp F → Locking → Locking
  | .record _, k => .lock .eventLog .done k
  | .batteryReading, k => .lock .sensorData .done k
  | .publishModel _, k | .publish _, k => .lock .chargeStatus .done k
  | _, k => k

/-- The cache is taken to see whether it is stale, and again for what a new scan found. -/
def NetOp.locking (stale : Duration → Bool) : NetOp → Locking → Locking
  | .tickSensors _, k => .lock .sensorData .done k
  | .takeCreds, k => .lock .mailbox .done k
  | .refreshScan now, k =>
    .lock .scanCache .done (if stale now then .lock .scanCache .done k else k)
  | .setStaCreds _, k | .clearStaCreds, k | .intoMixed _, k => .lock .apPass .done k
  | .dropBundle, k => .await .captive (.await .dns k)
  | .dropServer, k => .await .dashboard k
  | _, k => k

def lockingOf {Op : Type} {Reply : Op → Type} (locking : Op → Locking → Locking)
    (c : List (Answered Op Reply)) : Locking :=
  c.foldr (fun x => locking x.op) .done

namespace Locking

/-- `mount_json_get`: the buffer is held until the reply is written. -/
def jsonGet (build : Locking → Locking) : Locking := .lock .jsonBuf (build .done) .done

def api : Locking := jsonGet fun k => .lock .chargeStatus .done (.lock .sensorData .done k)

def errors : Locking := jsonGet (.lock .eventLog .done)

def scan : Locking := jsonGet (.lock .scanCache .done)

def status : Locking := jsonGet id

/-- The ring is held until it is written to the response. -/
def log : Locking := .lock .ring .done .done

def save : Locking := .lock .mailbox .done .done

/-- The passphrase is shown with the portal. -/
def refresh (portal : Bool) : Locking :=
  .lock .eventLog .done (.lock .sensorData .done (.lock .chargeStatus .done
    (if portal then .lock .apPass .done .done else .done)))

/-- `c'` is `c` with lines logged anywhere, each of which tries the ring and is dropped from it
where that is taken. -/
inductive Logged : Locking → Locking → Prop
  | done : Logged .done .done
  | lock {l : Mutex} {b b' k k' : Locking} : Logged b b' → Logged k k' →
      Logged (.lock l b k) (.lock l b' k')
  | await {t : Task} {k k' : Locking} : Logged k k' → Logged (.await t k) (.await t k')
  | line {c c' : Locking} : Logged c c' → Logged c (.tryLock .ring .done c')

/-- What each task runs, but for its log lines; `quiet` is whatever takes no lock. -/
inductive Runs : Task → Locking → Prop
  | main {n : ℕ} {stale : Duration → Bool} {c : List (Answered NetOp NetOp.Reply)} {m : NetMain} :
      (NetMain.run n).Says c m → Runs .main (lockingOf (NetOp.locking stale) c)
  | xy {profile : Profile Float32} {buck : BuckSetup Float32} {packTemp : PackTemp} {n : ℕ}
      {c : List (Answered (XyOp Float32) XyOp.Reply)}
      {x : Option (Except Panic (ChargeSupervisor Float32))} :
      (session profile buck packTemp n).Says c x → Runs .xy (lockingOf XyOp.locking c)
  | readFailed : Runs .ina (.lock .eventLog .done .done)
  | update : Runs .ina (.lock .sensorData .done .done)
  | refresh (portal : Bool) : Runs .lcd (refresh portal)
  | api : Runs .dashboard api
  | errors : Runs .dashboard errors
  | log : Runs .dashboard log
  | scan : Runs .captive scan
  | status : Runs .captive status
  | save : Runs .captive save
  | quiet (t : Task) : Runs t .done

/-- What the tasks of the firmware run. -/
def Firmware (t : Task) (c : Locking) : Prop := ∃ c', Runs t c' ∧ Logged c' c

end Locking

end Esp32Battery
