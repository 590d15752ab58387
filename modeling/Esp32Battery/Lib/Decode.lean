import Mathlib

/-!
# Decoders of byte strings

A `Decoder` reads a value off the front of a byte string, or fails. `Reads d input a` says that `d`
reads `a` from `input` whatever follows it.
-/

namespace Lib

abbrev Decoder := StateT (List UInt8) Option

namespace Decoder

variable {α β : Type}

def byte : Decoder UInt8
  | [] => none
  | b :: rest => some (b, rest)

def bytes (n : ℕ) : Decoder (List UInt8) := fun input =>
  if n ≤ input.length then some (input.take n, input.drop n) else none

/-- Two bytes, the most significant first. -/
def u16 : Decoder ℕ := do
  let hi ← byte
  let lo ← byte
  return hi.toNat * 256 + lo.toNat

def u32 : Decoder ℕ := do
  let hi ← u16
  let lo ← u16
  return hi * 65536 + lo

def many (d : Decoder α) : ℕ → Decoder (List α)
  | 0 => pure []
  | n + 1 => do
    let a ← d
    let as ← many d n
    return a :: as

def Reads (d : Decoder α) (input : List UInt8) (a : α) : Prop :=
  ∀ rest, d (input ++ rest) = some (a, rest)

theorem Reads.pure (a : α) : Reads (pure a) [] a := fun _ => rfl

theorem Reads.bind {d : Decoder α} {f : α → Decoder β} {input input' : List UInt8} {a : α} {b : β}
    (hd : Reads d input a) (hf : Reads (f a) input' b) : Reads (d >>= f) (input ++ input') b := by
  intro rest
  rw [List.append_assoc]
  show (d (input ++ (input' ++ rest))).bind (fun x => f x.1 x.2) = _
  rw [hd, Option.bind_some, hf]

theorem Reads.ret {d : Decoder α} {input : List UInt8} {a : α} (h : Reads d input a) (g : α → β) :
    Reads (d >>= fun x => Pure.pure (g x)) input (g a) := by
  have hret := h.bind (f := fun x => Pure.pure (g x)) (.pure (g a))
  rwa [List.append_nil] at hret

/-- Nothing is left over of what is read alone. -/
theorem Reads.eq {d : Decoder α} {input : List UInt8} {a : α} (h : Reads d input a) :
    d input = some (a, []) := by
  have := h []
  rwa [List.append_nil] at this

theorem reads_byte (b : UInt8) : Reads byte [b] b := fun _ => rfl

theorem reads_bytes (l : List UInt8) : Reads (bytes l.length) l l := by
  intro rest
  unfold bytes
  rw [if_pos (by simp), List.take_left, List.drop_left]

theorem reads_u16 (hi lo : UInt8) : Reads u16 [hi, lo] (hi.toNat * 256 + lo.toNat) := fun _ => rfl

theorem reads_many_zero (d : Decoder α) : Reads (d.many 0) [] [] := .pure []

theorem reads_many_one {d : Decoder α} {input : List UInt8} {a : α} (h : Reads d input a) :
    Reads (d.many 1) input [a] := by
  have hrest : Reads (d.many 0 >>= fun as => Pure.pure (a :: as)) [] [a] :=
    (reads_many_zero d).ret _
  have hmany := h.bind (f := fun x => d.many 0 >>= fun xs => Pure.pure (x :: xs)) hrest
  rwa [List.append_nil] at hmany

end Decoder

end Lib
