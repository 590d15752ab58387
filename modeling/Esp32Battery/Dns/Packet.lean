import Esp32Battery.Lib.Slice

/-!
# The captive portal's DNS responder

Pure byte framing: an A query is answered with one address, any other with no answer at all.
-/

namespace Esp32Battery

open Lib

namespace DnsPacket

/-- `u16::from_be_bytes`. -/
def fromBeBytes (hi lo : UInt8) : ℕ := hi.toNat * 256 + lo.toNat

/-- The `while` loop over the labels, from `qEnd` on. -/
def walkLabels (req : List UInt8) (qEnd : ℕ) : Except Panic (Option ℕ) :=
  if _h : qEnd < req.length then do
    let len ← index req qEnd
    if len ≠ 0 then
      let labelLen := len.toNat + 1
      if req.length ≤ qEnd + labelLen then return none
      else walkLabels req (qEnd + labelLen)
    else return some qEnd
  else return some qEnd
termination_by req.length - qEnd

/-- The offset just past the question that starts at offset 12. -/
def parseQuestionEnd (req : List UInt8) : Except Panic (Option ℕ) := do
  if req.length < 12 then return none
  let some qEnd ← walkLabels req 12 | return none
  if req.length ≤ qEnd then return none
  if (← index req qEnd) ≠ 0 then return none
  let qEnd := qEnd + 1
  if req.length < qEnd + 4 then return none
  return some (qEnd + 4)

/-- What is returned, and what is left in `out`. -/
def buildResponse (req : List UInt8) (answerIp : Vector UInt8 4) (out : List UInt8) :
    Except Panic (Option ℕ × List UInt8) := do
  let some qEnd ← parseQuestionEnd req | return (none, out)
  let qtype := fromBeBytes (← index req (qEnd - 4)) (← index req (qEnd - 3))
  let isA := qtype = 1
  let answerLen := if isA then 16 else 0
  let total := 12 + (qEnd - 12) + answerLen
  if out.length < total then return (none, out)
  let out ← store out 0 (← index req 0)
  let out ← store out 1 (← index req 1)
  let out ← store out 2 (0x84 ||| ((← index req 2) &&& 0x01))
  let out ← store out 3 0x00
  let out ← copyInto out 4 12 (if isA then [0, 1, 0, 1, 0, 0, 0, 0] else [0, 1, 0, 0, 0, 0, 0, 0])
  let out ← copyInto out 12 qEnd (← slice req 12 qEnd)
  let out ←
    if isA then do
      let pos := qEnd
      let out ← copyInto out pos (pos + 12) [0xC0, 0x0C, 0, 1, 0, 1, 0, 0, 0, 0, 0, 4]
      copyInto out (pos + 12) (pos + 16) answerIp.toList
    else pure out
  return (some total, out)

end DnsPacket

end Esp32Battery
