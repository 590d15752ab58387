import Esp32Battery.Lib.Decode

/-!
# DNS messages

A reference decoder of the message format: a header, its four counts, and the sections. A
question's name is read plainly, label by label; a record's may also point back into the message.
-/

namespace Esp32Battery

open Lib Decoder

namespace Dns

/-- Labels, each a non-zero length byte and that many bytes, and the zero that ends them. -/
inductive IsName : List UInt8 → Prop
  | root : IsName [0]
  | label (len : UInt8) (label rest : List UInt8) : len ≠ 0 → label.length = len.toNat →
      IsName rest → IsName (len :: (label ++ rest))

/-- A name read plainly, as the bytes it is written in; `fuel` bounds its labels. -/
def name : ℕ → Decoder (List UInt8)
  | 0 => failure
  | fuel + 1 => do
    let len ← byte
    if len = 0 then return [0]
    let label ← bytes len.toNat
    let rest ← name fuel
    return len :: (label ++ rest)

inductive RecordName where
  | pointer (offset : ℕ)
  | plain (bytes : List UInt8)
deriving DecidableEq

structure Record where
  name : RecordName
  type : ℕ
  cls : ℕ
  ttl : ℕ
  data : List UInt8
deriving DecidableEq

/-- The header's second half-word. -/
structure Flags where
  qr : Bool
  opcode : ℕ
  aa : Bool
  tc : Bool
  rd : Bool
  ra : Bool
  z : ℕ
  rcode : ℕ
deriving DecidableEq

structure Message where
  id : List UInt8
  flags : Flags
  questions : List (List UInt8)
  answers : List Record
  authorities : List Record
  additionals : List Record
deriving DecidableEq

def flags : Decoder Flags := do
  let hi ← byte
  let lo ← byte
  return {
    qr := hi.toNat.testBit 7
    opcode := hi.toNat / 8 % 16
    aa := hi.toNat.testBit 2
    tc := hi.toNat.testBit 1
    rd := hi.toNat.testBit 0
    ra := lo.toNat.testBit 7
    z := lo.toNat / 16 % 8
    rcode := lo.toNat % 16 }

/-- A question: its name, type and class, as the bytes they are written in. -/
def question (fuel : ℕ) : Decoder (List UInt8) := do
  let name ← name fuel
  let typeClass ← bytes 4
  return name ++ typeClass

/-- The two top bits of a length byte mark a pointer, its offset in the other fourteen. -/
def recordName (fuel : ℕ) : Decoder RecordName := fun input =>
  match input with
  | hi :: lo :: rest =>
    if 192 ≤ hi.toNat then some (.pointer (hi.toNat % 64 * 256 + lo.toNat), rest)
    else (RecordName.plain <$> name fuel) input
  | _ => (RecordName.plain <$> name fuel) input

def record (fuel : ℕ) : Decoder Record := do
  let name ← recordName fuel
  let type ← u16
  let cls ← u16
  let ttl ← u32
  let len ← u16
  let data ← bytes len
  return { name, type, cls, ttl, data }

def message (fuel : ℕ) : Decoder Message := do
  let id ← bytes 2
  let flags ← flags
  let qdcount ← u16
  let ancount ← u16
  let nscount ← u16
  let arcount ← u16
  let questions ← (question fuel).many qdcount
  let answers ← (record fuel).many ancount
  let authorities ← (record fuel).many nscount
  let additionals ← (record fuel).many arcount
  return { id, flags, questions, answers, authorities, additionals }

/-- A message with nothing left over. -/
def decode (input : List UInt8) : Option Message :=
  match message input.length input with
  | some (m, []) => some m
  | _ => none

/-- A name has no more labels than bytes. -/
theorem reads_name {l : List UInt8} (h : IsName l) {fuel : ℕ} (hf : l.length ≤ fuel) :
    Reads (name fuel) l l := by
  induction h generalizing fuel with
  | root =>
    obtain ⟨fuel, rfl⟩ := Nat.exists_eq_succ_of_ne_zero (show fuel ≠ 0 by
      rw [List.length_singleton] at hf
      omega)
    exact (reads_byte 0).bind (.pure _)
  | label len label rest hlen hlabel _ ih =>
    rw [List.length_cons, List.length_append] at hf
    obtain ⟨fuel, rfl⟩ := Nat.exists_eq_succ_of_ne_zero (show fuel ≠ 0 by omega)
    rw [← List.singleton_append]
    refine (reads_byte len).bind ?_
    rw [if_neg hlen, ← hlabel, ← List.append_nil rest]
    refine (reads_bytes label).bind ((ih (by omega)).bind ?_)
    rw [List.append_nil]
    exact .pure _

theorem reads_question {name typeClass : List UInt8} (h : IsName name)
    (ht : typeClass.length = 4) {fuel : ℕ} (hf : name.length ≤ fuel) :
    Reads (question fuel) (name ++ typeClass) (name ++ typeClass) := by
  have htype := reads_bytes typeClass
  rw [ht] at htype
  exact (reads_name h hf).bind (htype.ret _)

theorem reads_flags (hi lo : UInt8) : Reads flags [hi, lo] {
    qr := hi.toNat.testBit 7
    opcode := hi.toNat / 8 % 16
    aa := hi.toNat.testBit 2
    tc := hi.toNat.testBit 1
    rd := hi.toNat.testBit 0
    ra := lo.toNat.testBit 7
    z := lo.toNat / 16 % 8
    rcode := lo.toNat % 16 } := fun _ => rfl

end Dns

end Esp32Battery
