import Esp32Battery.Http.Body
import Esp32Battery.Lib.Duration
import Esp32Battery.Lib.Prog

/-!
# The firmware upload

The body is a 32-byte tag and the image. The image goes to flash as it arrives; the update is
completed once the tag is checked, and aborted otherwise.
-/

namespace Esp32Battery

open Lib

def uploadTimeout : Duration := .fromSecs 60

/-- `HmacSha256`, a key and the message so far. -/
structure Mac where
  key : List UInt8
  message : List UInt8

namespace Mac

def update (m : Mac) (bytes : List UInt8) : Mac := { m with message := m.message ++ bytes }

/-- Whether `tag` is what the message authenticates to under `hmac`. -/
def verifySlice (hmac : List UInt8 → List UInt8 → List UInt8) (m : Mac) (tag : List UInt8) : Bool :=
  hmac m.key m.message = tag

end Mac

inductive OtaOp where
  | read (n : ℕ)
  | new
  | initiateUpdate
  | uptime
  | write (bytes : List UInt8)
  | abort
  | complete

@[reducible]
def OtaOp.Reply : OtaOp → Type
  | .read _ => Except EspError (List UInt8)
  | .uptime => Duration
  | _ => Except EspError Unit

abbrev OtaProg := Prog OtaOp OtaOp.Reply

def OtaOp.perform (op : OtaOp) : OtaProg op.Reply := Prog.perform op

/-- The tag read so far is `filled`. -/
def readHmacTag (filled : List UInt8) : OtaProg (Except String (List UInt8)) :=
  if _h : filled.length < 32 then
    OtaOp.perform (.read (32 - filled.length)) >>= fun
      | .error _ => return .error "failed to read HMAC"
      | .ok bytes =>
        if _h' : bytes = [] then return .error "missing HMAC signature"
        else readHmacTag (filled ++ bytes)
  else return .ok filled
termination_by 32 - filled.length
decreasing_by
  have := List.length_pos_of_ne_nil _h'
  rw [List.length_append]
  omega

/-- At most `fuel` turns of the upload loop: the MAC and the count it leaves and its outcome, or
`none` where it is still going. -/
def uploadLoop (deadline : ℕ) :
    (fuel : ℕ) → Mac → ℕ → OtaProg (Option (Mac × ℕ × Except String Unit))
  | 0, _, _ => return none
  | fuel + 1, mac, total => do
    if deadline ≤ (← OtaOp.perform .uptime).nanos then
      return some (mac, total, .error "upload timed out")
    else
      match ← OtaOp.perform (.read 4096) with
      | .error _ => return some (mac, total, .error "failed to read firmware data")
      | .ok [] => return some (mac, total, .ok ())
      | .ok bytes =>
        let mac := mac.update bytes
        match ← OtaOp.perform (.write bytes) with
        | .error _ => return some (mac, total, .error "invalid firmware image")
        | .ok () => uploadLoop deadline fuel mac (total + bytes.length)

/-- The upload, its loop cut off after `fuel` turns. -/
def handleUpload (hmac : List UInt8 → List UInt8 → List UInt8) (otaKey : List UInt8) (fuel : ℕ) :
    OtaProg (Option (Except String ℕ)) := do
  match ← readHmacTag [] with
  | .error msg => return some (.error msg)
  | .ok expectedHmac =>
    match ← OtaOp.perform .new with
    | .error _ => return some (.error "OTA init failed")
    | .ok () =>
      match ← OtaOp.perform .initiateUpdate with
      | .error _ => return some (.error "OTA initiate_update failed")
      | .ok () =>
        let deadline := (← OtaOp.perform .uptime).nanos + uploadTimeout.nanos
        match ← uploadLoop deadline fuel ⟨otaKey, []⟩ 0 with
        | none => return none
        | some (mac, total, outcome) =>
          match outcome with
          | .error msg =>
            let _ ← OtaOp.perform .abort
            return some (.error msg)
          | .ok () =>
            if !mac.verifySlice hmac expectedHmac then
              let _ ← OtaOp.perform .abort
              return some (.error "HMAC verification failed")
            else
              match ← OtaOp.perform .complete with
              | .error _ => return some (.error "firmware validation failed")
              | .ok () => return some (.ok total)

end Esp32Battery
