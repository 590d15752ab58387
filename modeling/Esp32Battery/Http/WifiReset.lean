import Esp32Battery.Http.Body
import Esp32Battery.Lib.Prog
import Esp32Battery.Net.Resources

/-!
# The `/wifi-reset` handler
-/

namespace Esp32Battery

open Lib

inductive ResetOp where
  | remove (key : NvsKey)
  | raise
  | replyOk
deriving DecidableEq

@[reducible]
def ResetOp.Reply : ResetOp → Type
  | .remove _ | .replyOk => Except EspError Unit
  | .raise => Unit

abbrev ResetProg := Prog ResetOp ResetOp.Reply

abbrev ResetOp.perform (op : ResetOp) : ResetProg op.Reply := Prog.perform op

/-- What the removals report is dropped. -/
def NvsCreds.clear : ResetProg Unit := do
  let _ ← ResetOp.perform (.remove .ssid)
  let _ ← ResetOp.perform (.remove .pass)

def wifiReset : ResetProg (Except EspError Unit) := do
  NvsCreds.clear
  ResetOp.perform .raise
  ResetOp.perform .replyOk

end Esp32Battery
