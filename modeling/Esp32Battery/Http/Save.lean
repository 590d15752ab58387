import Esp32Battery.Http.Body
import Esp32Battery.Http.Form
import Esp32Battery.Lib.Prog
import Esp32Battery.Net.Resources

/-!
# The `/save` handler

A body is read in pieces of whatever size the connection delivers, checked, decoded, and queued.
-/

namespace Esp32Battery

open Lib

/-- A response: its status, and the message where it is an error. -/
structure Response where
  status : ℕ
  error : Option String
deriving DecidableEq

inductive SaveOp where
  | read (n : ℕ)
  | setMailbox (creds : WifiCredentials)
  | setStatus (status : SubmissionStatus)
  | reply (response : Response)

@[reducible]
def SaveOp.Reply : SaveOp → Type
  | .read _ => Except EspError (List UInt8)
  | .setMailbox _ | .setStatus _ => Unit
  | .reply _ => Except EspError Unit

abbrev SaveProg := Prog SaveOp SaveOp.Reply

def SaveOp.perform (op : SaveOp) : SaveProg op.Reply := Prog.perform op

def jsonOk : SaveProg (Except EspError Unit) := SaveOp.perform (.reply ⟨200, none⟩)

def jsonErr (status : ℕ) (msg : String) : SaveProg (Except EspError Unit) :=
  SaveOp.perform (.reply ⟨status, some msg⟩)

/-- The body read so far is `filled`; `none` where it does not fit `cap` bytes. -/
def readToBuf (cap : ℕ) (filled : List UInt8) :
    SaveProg (Except EspError (Option (List UInt8))) :=
  if _h : filled.length < cap then
    SaveOp.perform (.read (cap - filled.length)) >>= fun
      | .error e => return .error e
      | .ok bytes =>
        if _h' : bytes = [] then return .ok (some filled)
        else readToBuf cap (filled ++ bytes)
  else do
    match ← SaveOp.perform (.read 1) with
    | .error e => return .error e
    | .ok [] => return .ok (some filled)
    | .ok _ => return .ok none
termination_by cap - filled.length
decreasing_by
  have := List.length_pos_of_ne_nil _h'
  rw [List.length_append]
  omega

/-- The text a form value decodes to, in a buffer of `size` bytes. -/
def decodeValue (raw : List UInt8) (size : ℕ) : Option String :=
  let (buf, len) := urlDecode raw (List.replicate size 0)
  fromUtf8 (buf.take len)

def save : SaveProg (Except EspError Unit) := do
  match ← readToBuf 384 [] with
  | .error e => return .error e
  | .ok none => jsonErr 413 "Request body too large"
  | .ok (some body) =>
    if (fromUtf8 body).isNone then jsonErr 400 "Body is not valid UTF-8"
    else match parseForm body with
      | none => jsonErr 400 "Missing SSID"
      | some (ssidRaw, passRaw) =>
        match decodeValue ssidRaw (ssidMax + 1) with
        | none => jsonErr 400 "SSID is not valid UTF-8"
        | some ssid =>
          match decodeValue passRaw (passwordMax + 1) with
          | none => jsonErr 400 "Password is not valid UTF-8"
          | some password =>
            match WifiCredentials.new ssid password with
            | .error e => jsonErr 400 e.message
            | .ok creds => do
              SaveOp.perform (.setMailbox creds)
              SaveOp.perform (.setStatus .pending)
              jsonOk

end Esp32Battery
