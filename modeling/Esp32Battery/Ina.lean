import Esp32Battery.Data.SensorData
import Esp32Battery.ErrorLog
import Esp32Battery.Lib.Prog

/-!
# The battery sensor's thread

A sample is three registers read one after another, the first that fails costing it. Ten samples
are summed up in a wider float and their average is published.
-/

namespace Esp32Battery

open Lib

def samplesPerUpdate : ℕ := 10

def sampleInterval : Duration := ⟨100000000, by unfold maxNanos; omega⟩

/-- `W` is the wider float that samples of `F` are summed up in. -/
class Widening (F W : Type) where
  widen : F → W
  narrow : W → F

instance : FloatLike Float where
  natCast := Float.ofNat
  abs := Float.abs
  isFinite := Float.isFinite

/-- What the machine computes with. -/
instance : Widening Float32 Float := ⟨Float32.toFloat, Float.toFloat32⟩

instance : Widening ℚ ℚ := ⟨id, id⟩

variable {F W : Type} [FloatLike W] [Widening F W]

open Widening

structure ReadingAccum (W : Type) where
  voltage : W
  current : W
  power : W
deriving DecidableEq

namespace ReadingAccum

def zero : ReadingAccum W := ⟨0.0, 0.0, 0.0⟩

def add (a : ReadingAccum W) (r : Ina228Reading F) : ReadingAccum W where
  voltage := a.voltage + widen r.voltage
  current := a.current + widen r.current
  power := a.power + widen r.power

def average (a : ReadingAccum W) (n : ℕ) : Ina228Reading F where
  voltage := narrow (a.voltage / (n : W))
  current := narrow (a.current / (n : W))
  power := narrow (a.power / (n : W))

end ReadingAccum

inductive InaOp (F : Type) where
  | sleep (d : Duration)
  | busVoltage
  | current
  | power
  | record (event : Event)
  | updateBattery (bat : Ina228Reading F)

@[reducible]
def InaOp.Reply : InaOp F → Type
  | .busVoltage | .current | .power => Option F
  | .sleep _ | .record _ | .updateBattery _ => Unit

abbrev InaProg (F : Type) := Prog (InaOp F) InaOp.Reply

namespace Ina

abbrev perform (op : InaOp F) : InaProg F op.Reply := Prog.perform op

/-- A register that cannot be read answers `none`. -/
def read : InaProg F (Except InaError (Ina228Reading F)) := do
  match ← perform .busVoltage with
  | none => return .error .busVoltageRead
  | some voltage =>
    match ← perform .current with
    | none => return .error .currentRead
    | some current =>
      match ← perform .power with
      | none => return .error .powerRead
      | some power => return .ok { voltage, current, power }

/-- The thread's two loops, for `n` turns of either: while samples are missing one is read, and once
none is the average is published and they are counted afresh. -/
def run : ℕ → ReadingAccum W → ℕ → InaProg F (ReadingAccum W × ℕ)
  | 0, batAcc, count => return (batAcc, count)
  | n + 1, batAcc, count =>
    if count < samplesPerUpdate then do
      perform (.sleep sampleInterval)
      match ← read with
      | .ok r => run n (batAcc.add r) (count + 1)
      | .error kind =>
        perform (.record (.ina kind))
        run n batAcc count
    else do
      perform (.updateBattery (batAcc.average samplesPerUpdate))
      run n .zero 0

end Ina

end Esp32Battery
