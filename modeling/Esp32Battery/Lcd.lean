import Esp32Battery.Board
import Esp32Battery.Data.SensorData
import Esp32Battery.Net.Supervisor

/-!
# The panel

Values in the upper half, the state of the network below. A row is composed in a scratch buffer and
pushed as one band; what would show the same again is not pushed. How text is drawn and a float
written out is up to a `Painter`.
-/

namespace Esp32Battery

open Lib

structure Rgb565 where
  r : Fin 32
  g : Fin 64
  b : Fin 32
deriving DecidableEq

namespace Rgb565

def black : Rgb565 := ⟨0, 0, 0⟩
def white : Rgb565 := ⟨31, 63, 31⟩
def red : Rgb565 := ⟨31, 0, 0⟩

end Rgb565

structure Point where
  x : ℤ
  y : ℤ
deriving DecidableEq

structure Rectangle where
  topLeft : Point
  width : ℕ
  height : ℕ

namespace Rectangle

def Contains (r : Rectangle) (p : Point) : Prop :=
  r.topLeft.x ≤ p.x ∧ p.x < r.topLeft.x + r.width ∧
    r.topLeft.y ≤ p.y ∧ p.y < r.topLeft.y + r.height

instance (r : Rectangle) (p : Point) : Decidable (r.Contains p) := by
  unfold Contains
  infer_instance

/-- Where `p` stands among the points of `r`, row by row. -/
def index (r : Rectangle) (p : Point) : ℕ :=
  (p.y - r.topLeft.y).toNat * r.width + (p.x - r.topLeft.x).toNat

def intersection (r s : Rectangle) : Rectangle :=
  let x := max r.topLeft.x s.topLeft.x
  let y := max r.topLeft.y s.topLeft.y
  { topLeft := ⟨x, y⟩
    width := (min (r.topLeft.x + r.width) (s.topLeft.x + s.width) - x).toNat
    height := (min (r.topLeft.y + r.height) (s.topLeft.y + s.height) - y).toNat }

end Rectangle

def displayW : ℕ := 320
def displayH : ℕ := 172
def lowerY : ℕ := 68

def colLeft : ℕ := 5
def colRight : ℕ := 165
def row1Top : ℕ := 14
def row2Top : ℕ := 46
def row1LabelY : ℕ := 10
def row2LabelY : ℕ := 44
def labelOffsetX : ℕ := 8
def valueW : ℕ := 150
def valueH : ℕ := 22

def uptimeX : ℕ := 240
def uptimeW : ℕ := 80
def uptimeH : ℕ := 12
def uptimeBaseline : ℕ := 8

def scratchW : ℕ := displayW
def scratchH : ℕ := 22
def bandBaseline : ℕ := 16
def font10x20Advance : ℕ := 10

def lowerLeftX : ℕ := 20
def lowerTitleTop : ℕ := 70
def lowerRowPitch : ℕ := scratchH + 2
def lowerRow1Top : ℕ := lowerTitleTop + lowerRowPitch + 2
def lowerRow2Top : ℕ := lowerRow1Top + lowerRowPitch
def lowerRow3Top : ℕ := lowerRow2Top + lowerRowPitch
def lowerValueX : ℕ := lowerLeftX + 5 * font10x20Advance
def badgeRightMargin : ℕ := 14

def colorBg : Rgb565 := .black
def colorLabel : Rgb565 := ⟨18, 36, 18⟩
def colorVoltage : Rgb565 := ⟨0, 63, 0⟩
def colorPsuCurrent : Rgb565 := ⟨31, 38, 0⟩
def colorPower : Rgb565 := ⟨31, 20, 0⟩
def colorCharging : Rgb565 := ⟨6, 55, 10⟩
def colorDischarging : Rgb565 := ⟨31, 28, 0⟩
def colorIdle : Rgb565 := ⟨18, 36, 18⟩
def colorIp : Rgb565 := ⟨0, 57, 31⟩
def colorWarning : Rgb565 := .red

def batteryIdleThresholdA : Float32 := 0.05

/-- Negative current charges. -/
def batteryCurrentColor (current : Float32) : Rgb565 :=
  if current.abs < batteryIdleThresholdA then colorIdle
  else if current < 0.0 then colorCharging
  else colorDischarging

def hostname : String := "battery"
def apSsid : String := "Battery-Setup"
def apGateway : Vector UInt8 4 := #v[192, 168, 71, 1]

inductive Font where
  | font5x8
  | font6x10
  | font10x20

/-- What drawing asks of a target. -/
inductive Draw where
  | iter (pixels : List (Point × Rgb565))
  | fillSolid (area : Rectangle) (color : Rgb565)

/-- What the source leaves to its libraries and to the unit: how a text is drawn from a point, the
pieces in which a float is written out to so many places, and the setup passphrase. -/
structure Painter where
  text : Font → String → Point → Rgb565 → List Draw
  fixed : ℕ → Float32 → List String
  apPass : String

/-- The pixels of the display; nothing is drawn off it. -/
abbrev Panel := Point → Rgb565

def screen : Rectangle := ⟨⟨0, 0⟩, displayW, displayH⟩

namespace Panel

def drawIter (d : Panel) (pixels : List (Point × Rgb565)) : Panel :=
  pixels.foldl (fun d c p => if p = c.1 ∧ screen.Contains p then c.2 else d p) d

/-- One colour for each point of the area, as far as the colours go. -/
def fillContiguous (d : Panel) (area : Rectangle) (colors : List Rgb565) : Panel := fun p =>
  if area.Contains p ∧ screen.Contains p then colors[area.index p]?.getD (d p) else d p

def fillSolid (d : Panel) (area : Rectangle) (color : Rgb565) : Panel := fun p =>
  if area.Contains p ∧ screen.Contains p then color else d p

def draw (d : Panel) : Draw → Panel
  | .iter pixels => d.drawIter pixels
  | .fillSolid area color => d.fillSolid area color

end Panel

def scratchPx : ℕ := scratchW * scratchH

structure Scratch where
  pixels : Vector Rgb565 scratchPx

namespace Scratch

def clear : Scratch := ⟨.replicate scratchPx colorBg⟩

def bounds : Rectangle := ⟨⟨0, 0⟩, scratchW, scratchH⟩

def drawIter (s : Scratch) (pixels : List (Point × Rgb565)) : Scratch :=
  pixels.foldl (fun s c =>
    if bounds.Contains c.1 then
      ⟨s.pixels.setIfInBounds (c.1.y.toNat * scratchW + c.1.x.toNat) c.2⟩
    else s) s

/-- The slice from `start` on, of `w` pixels. -/
def fillSlice (s : Scratch) (start w : ℕ) (color : Rgb565) : Scratch :=
  (List.range w).foldl (fun s k => ⟨s.pixels.setIfInBounds (start + k) color⟩) s

def fillSolid (s : Scratch) (area : Rectangle) (color : Rgb565) : Scratch :=
  let area := area.intersection bounds
  (List.range area.height).foldl (fun s dy =>
    s.fillSlice ((area.topLeft.y.toNat + dy) * scratchW + area.topLeft.x.toNat) area.width color) s

def draw (s : Scratch) : Draw → Scratch
  | .iter pixels => s.drawIter pixels
  | .fillSolid area color => s.fillSolid area color

/-- The first `w` pixels of each of the first `h` rows, to the display. -/
def blit (s : Scratch) (d : Panel) (at_ : Point) (w h : ℕ) : Panel :=
  d.fillContiguous ⟨at_, w, h⟩
    ((((List.replicate scratchH scratchW).splitLengths s.pixels.toList).take h).flatMap (·.take w))

end Scratch

/-- `write!` to a string of at most `cap` bytes, up to the first piece that does not fit. -/
def writeFmt (cap : ℕ) (s : String) : List String → String
  | [] => s
  | piece :: pieces =>
    if (s ++ piece).utf8ByteSize ≤ cap then writeFmt cap (s ++ piece) pieces else s

def Ipv4.pieces (ip : Vector UInt8 4) : List String :=
  [toString ip[0], ".", toString ip[1], ".", toString ip[2], ".", toString ip[3]]

def twoDigits (n : ℕ) : String := if n < 10 then "0" ++ toString n else toString n

def Chemistry.display : Chemistry → String
  | .liFePo4 => "LFP"
  | .liFePo4TopBalance => "LFP-TB"
  | .liIon => "Li-ion"

def Profile.pieces (P : Painter) (profile : Profile Float32) : List String :=
  [profile.chemistry.display, " ", toString profile.cells, "S "] ++ P.fixed 0 profile.capacityAh ++
    ["Ah"]

/-- One value per visually distinct layout of the lower region. -/
inductive LowerKey where
  | captive (trying : Bool)
  | connecting
  | host (ip : Option (Vector UInt8 4)) (hasErrors psOffline : Bool)
deriving DecidableEq

def LowerKey.fromInputs (net : NetStatus) (ip : Option (Vector UInt8 4))
    (hasErrors psOffline : Bool) : LowerKey :=
  match net with
  | .captive => .captive false
  | .captiveTrying => .captive true
  | .connecting => .connecting
  | .host => .host ip hasErrors psOffline

def cellTextCap : ℕ := 32

inductive UpperCell where
  | voltage
  | power
  | batteryCurrent
  | psCurrent
  | uptime
deriving DecidableEq

/-- What an upper cell shows. -/
structure PaintedCell where
  text : String
  color : Rgb565
deriving DecidableEq

structure Ui where
  display : Panel
  scratch : Scratch
  lastLower : Option LowerKey
  painted : UpperCell → Option PaintedCell

namespace Ui

variable (P : Painter)

def new (display : Panel) (scratch : Scratch) : Ui where
  display
  scratch
  lastLower := none
  painted _ := none

/-- Compose into the scratch buffer, then push a full-width band at `top`. -/
def renderBand (ui : Ui) (top : ℕ) (f : Scratch → Scratch) : Ui :=
  let scratch := f .clear
  { ui with scratch, display := scratch.blit ui.display ⟨0, top⟩ scratchW scratchH }

def drawStaticLabels (ui : Ui) : Ui :=
  [("VOLTAGE", colLeft + labelOffsetX, row1LabelY), ("BATTERY", colLeft + labelOffsetX, row2LabelY),
    ("POWER", colRight + labelOffsetX, row1LabelY),
    ("PSU", colRight + labelOffsetX, row2LabelY)].foldl
    (fun ui (text, x, y) => { ui with
      display := (P.text .font5x8 text ⟨x, y⟩ colorLabel).foldl .draw ui.display }) ui

/-- Whether `next` differs from what `slot` shows, which it then shows. -/
def cellChanged (ui : Ui) (slot : UpperCell) (next : PaintedCell) : Bool × Ui :=
  if ui.painted slot = some next then (false, ui)
  else (true, { ui with painted := Function.update ui.painted slot (some next) })

def cell (ui : Ui) (slot : UpperCell) (x y : ℕ) (color : Rgb565) (pieces : List String) : Ui :=
  let next : PaintedCell := ⟨writeFmt cellTextCap "" pieces, color⟩
  let (changed, ui) := ui.cellChanged slot next
  if !changed then ui
  else
    let scratch := (P.text .font10x20 next.text ⟨0, bandBaseline⟩ color).foldl .draw .clear
    { ui with scratch, display := scratch.blit ui.display ⟨x, y⟩ valueW valueH }

def titleRow (ui : Ui) (top : ℕ) (title : String) (color : Rgb565)
    (badge : Option (String × Rgb565)) : Ui :=
  ui.renderBand top fun s =>
    let s := (P.text .font10x20 title ⟨lowerLeftX, bandBaseline⟩ color).foldl .draw s
    match badge with
    | some (b, c) =>
      let w := b.utf8ByteSize * font10x20Advance
      (P.text .font10x20 b ⟨(scratchW : ℤ) - w - badgeRightMargin, bandBaseline⟩ c).foldl .draw s
    | none => s

def kvRow (ui : Ui) (top : ℕ) (label value : String) (valueColor : Rgb565) : Ui :=
  ui.renderBand top fun s =>
    let s := (P.text .font10x20 label ⟨lowerLeftX, bandBaseline⟩ colorLabel).foldl .draw s
    (P.text .font10x20 value ⟨lowerValueX, bandBaseline⟩ valueColor).foldl .draw s

def lowerArea : Rectangle := ⟨⟨0, lowerY⟩, displayW, displayH - lowerY⟩

def clearLower (ui : Ui) : Ui :=
  { ui with display := ui.display.fillSolid lowerArea colorBg }

def uptimePieces (uptime : Duration) : List String :=
  let secs := uptime.nanos / 1000000000
  [toString (secs / 3600), "h ", twoDigits (secs % 3600 / 60), "m ", twoDigits (secs % 60), "s"]

/-- Its own draw rather than `cell`'s: a smaller font in a narrower band. -/
def uptimeCell (ui : Ui) (uptime : Duration) : Ui :=
  let next : PaintedCell := ⟨writeFmt cellTextCap "" (uptimePieces uptime), colorLabel⟩
  let (changed, ui) := ui.cellChanged .uptime next
  if !changed then ui
  else
    let scratch := (P.text .font6x10 next.text ⟨0, uptimeBaseline⟩ colorLabel).foldl .draw .clear
    { ui with scratch, display := scratch.blit ui.display ⟨uptimeX, 0⟩ uptimeW uptimeH }

def drawUpper (ui : Ui) (bat : Ina228Reading Float32) (ps : PsReading Float32)
    (uptime : Duration) : Ui :=
  let ui := ui.cell P .voltage colLeft row1Top colorVoltage (P.fixed 2 bat.voltage ++ [" V"])
  let ui := ui.cell P .power colRight row1Top colorPower (P.fixed 2 bat.power ++ [" W"])
  let ui := ui.cell P .batteryCurrent colLeft row2Top (batteryCurrentColor bat.current)
    (P.fixed 3 bat.current.abs ++ [" A"])
  let ui := ui.cell P .psCurrent colRight row2Top colorPsuCurrent (P.fixed 3 ps.current ++ [" A"])
  ui.uptimeCell P uptime

def drawCaptive (ui : Ui) (trying : Bool) : Ui :=
  let badge := if trying then some ("Connecting...", colorDischarging) else none
  let ui := ui.titleRow P lowerTitleTop "WiFi Setup" .white badge
  let ui := ui.kvRow P lowerRow1Top "SSID" apSsid colorVoltage
  let ui := ui.kvRow P lowerRow2Top "PASS" P.apPass colorVoltage
  let url := writeFmt 32 "" (["http://"] ++ Ipv4.pieces apGateway ++ ["/"])
  ui.kvRow P lowerRow3Top "URL" url colorVoltage

def drawConnecting (ui : Ui) : Ui := ui.titleRow P lowerRow2Top "Connecting..." .white none

/-- A lost supply and errors are independent, and both are shown. -/
def drawHost (ui : Ui) (ip : Option (Vector UInt8 4)) (hasErrors psOffline : Bool) : Ui :=
  let badge := match psOffline, hasErrors with
    | true, true => some ("PS OFF ERR!", colorWarning)
    | true, false => some ("PS OFFLINE", colorDischarging)
    | false, true => some ("ERR!", colorWarning)
    | false, false => none
  let ui := ui.titleRow P lowerTitleTop "Connected" .white badge
  let addr := match ip with
    | some addr => writeFmt 32 "" (Ipv4.pieces addr)
    | none => writeFmt 32 "" ["--"]
  let ui := ui.kvRow P lowerRow1Top "IP" addr colorIp
  let ui := ui.kvRow P lowerRow2Top "URL" (writeFmt 32 "" ["https://", hostname, ".local"]) colorIp
  ui.kvRow P lowerRow3Top "PACK" (writeFmt 32 "" (packProfile.pieces P)) colorVoltage

def drawLayout (ui : Ui) : LowerKey → Ui
  | .captive trying => ui.drawCaptive P trying
  | .connecting => ui.drawConnecting P
  | .host ip hasErrors psOffline => ui.drawHost P ip hasErrors psOffline

/-- Repainted only when the visible state changes. -/
def drawLower (ui : Ui) (key : LowerKey) : Ui :=
  if ui.lastLower = some key then ui
  else { ui.clearLower.drawLayout P key with lastLower := some key }

/-- What one refresh reads. -/
structure Frame where
  netStatus : NetStatus
  staIp : Option (Vector UInt8 4)
  hasErrors : Bool
  battery : Option (Ina228Reading Float32)
  ps : Option (PsReading Float32)
  psOffline : Bool
  uptime : Duration

def refresh (ui : Ui) (f : Frame) : Ui :=
  let ip := if f.netStatus = .host then f.staIp else none
  let bat := f.battery.getD ⟨0.0, 0.0, 0.0⟩
  let ps := f.ps.getD ⟨0.0, 0.0, 0.0, 0.0, 0.0⟩
  (ui.drawUpper P bat ps f.uptime).drawLower P
    (.fromInputs f.netStatus ip f.hasErrors f.psOffline)

/-- The panel cleared, its labels drawn. -/
def start : Ui := (Ui.new (fun _ => colorBg) .clear).drawStaticLabels P

end Ui

end Esp32Battery
