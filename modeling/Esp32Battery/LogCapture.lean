import Esp32Battery.LogRing

/-!
# Log capture

Every log line is printed and appended to a ring that `/api/log` serves. A line whose task finds the
ring held is not appended; the handler holds the ring until its response is written.
-/

namespace Esp32Battery

open Lib

def lineBufSize : ℕ := 512

/-- What `vprintf_hook` makes of the line `vsnprintf` formats, `none` where that fails: its bytes up
to the terminator in the line buffer. -/
def formatted : Option (List UInt8) → Option (List UInt8)
  | none => none
  | some line =>
    if line.length = 0 then none else some (line.take (min line.length (lineBufSize - 1)))

/-- `printf` with `%.*s` stops at a zero byte. -/
def echoed (slice : List UInt8) : List UInt8 := slice.takeWhile (· ≠ 0)

/-- Who holds the ring: the hook with the line it appends, or the handler with what it has yet to
write. -/
inductive RingGuard where
  | hook (line : List UInt8)
  | handler (chunks : List (List UInt8))
deriving DecidableEq

/-- `response` is what the last request for the log has been sent. -/
structure LogCapture where
  ring : Ring
  guard : Option RingGuard
  uart : List UInt8
  response : List UInt8
deriving DecidableEq

/-- A task logs; the hook that holds the ring appends; a request comes in; the handler writes its
next chunk, or some bytes of it until the connection fails. -/
inductive LogEvent where
  | log (line : Option (List UInt8))
  | append
  | request
  | writeAll (failed : Option ℕ)
deriving DecidableEq

namespace LogCapture

/-- `buf` is the 16 KiB of `RING_BUF`. -/
def init (buf : List UInt8) : Except Panic LogCapture := do
  let ring ← Ring.fromBuf buf
  return { ring, guard := none, uart := [], response := [] }

/-- An event of a task that has to wait, or has nothing to do, changes nothing. -/
def step (s : LogCapture) : LogEvent → Except Panic LogCapture
  | .log line =>
    match formatted line with
    | none => .ok s
    | some slice =>
      let s := { s with uart := s.uart ++ echoed slice }
      match s.guard with
      | none => .ok { s with guard := some (.hook slice) }
      | some _ => .ok s
  | .append =>
    match s.guard with
    | some (.hook line) => do
      let ring ← s.ring.write line
      return { s with ring, guard := none }
    | _ => .ok s
  | .request =>
    match s.guard with
    | none => do
      let (older, newer) ← s.ring.slices
      return { s with guard := some (.handler [older, newer]), response := [] }
    | some _ => .ok s
  | .writeAll failed =>
    match s.guard, failed with
    | some (.handler (chunk :: chunks)), none =>
      .ok { s with
        guard := if chunks.isEmpty then none else some (.handler chunks)
        response := s.response ++ chunk }
    | some (.handler (chunk :: _)), some n =>
      .ok { s with guard := none, response := s.response ++ chunk.take n }
    | _, _ => .ok s

def run (s : LogCapture) : List LogEvent → Except Panic LogCapture
  | [] => .ok s
  | e :: es => do
    let s ← s.step e
    s.run es

end LogCapture

end Esp32Battery
