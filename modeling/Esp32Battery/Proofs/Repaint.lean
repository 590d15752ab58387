import Esp32Battery.Lcd
import Esp32Battery.Lib.Layers

/-!
# The panel shows what was read last

Each value and the lower region are layers of the panel: a draw that is not skipped fills its whole
region with what its key looks like, and nothing else. So a skipped one leaves there what it would
have drawn.
-/

namespace Esp32Battery

open Lib

section Blit

variable {s : Scratch} {d d' : Panel} {w h : ℕ} {p q : Point}

theorem Rectangle.index_lt {r : Rectangle} (hp : r.Contains p) :
    r.index p < r.height * r.width := by
  obtain ⟨hx, hx', hy, hy'⟩ := hp
  have hrow : (p.y - r.topLeft.y).toNat + 1 ≤ r.height := by omega
  have hcol : (p.x - r.topLeft.x).toNat < r.width := by omega
  calc r.index p < (p.y - r.topLeft.y).toNat * r.width + r.width := Nat.add_lt_add_left hcol _
    _ = ((p.y - r.topLeft.y).toNat + 1) * r.width := (Nat.succ_mul _ _).symm
    _ ≤ r.height * r.width := Nat.mul_le_mul_right _ hrow

/-- There is a pixel for each point of the area. -/
theorem Scratch.length_rows (hw : w ≤ scratchW) (hh : h ≤ scratchH) :
    ((((List.replicate scratchH scratchW).splitLengths s.pixels.toList).take h).flatMap
      (·.take w)).length = h * w := by
  have hsum : (List.replicate h scratchW).sum ≤ s.pixels.toList.length := by
    rw [List.sum_replicate, smul_eq_mul, Vector.length_toList, scratchPx, Nat.mul_comm scratchW]
    exact Nat.mul_le_mul_right _ hh
  have hlen : ∀ row ∈ (List.replicate h scratchW).splitLengths s.pixels.toList,
      (row.take w).length = w := by
    intro row hrow
    have hmem := List.mem_map_of_mem (f := List.length) hrow
    rw [List.map_splitLengths_length _ _ hsum] at hmem
    rw [List.length_take, (List.mem_replicate.1 hmem).2, Nat.min_eq_left hw]
  rw [List.take_splitLength, List.take_replicate, Nat.min_eq_left hh, List.length_flatMap,
    List.map_congr_left hlen, List.map_const', List.sum_replicate, smul_eq_mul,
    List.length_splitLengths, List.length_replicate]

theorem Scratch.blit_of_mem (hw : w ≤ scratchW) (hh : h ≤ scratchH)
    (hp : (Rectangle.mk q w h).Contains p) (hscreen : screen.Contains p) :
    s.blit d q w h p = s.blit d' q w h p := by
  unfold blit Panel.fillContiguous
  have hlt := Rectangle.index_lt hp
  rw [if_pos ⟨hp, hscreen⟩, if_pos ⟨hp, hscreen⟩,
    List.getElem?_eq_getElem (by rw [length_rows hw hh]; exact hlt)]
  rfl

theorem Scratch.blit_of_not_mem (hp : ¬ (Rectangle.mk q w h).Contains p) :
    s.blit d q w h p = d p := if_neg fun hp' => hp hp'.1

end Blit

namespace Ui

variable {P : Painter} {ui ui' : Ui}

/-- Draws the same of the lower region whatever is there, and nothing elsewhere. -/
structure PaintsLower (f : Ui → Ui) : Prop where
  painted : ∀ ui, (f ui).painted = ui.painted
  inside : ∀ ui ui' p, lowerArea.Contains p → ui.display p = ui'.display p →
    (f ui).display p = (f ui').display p
  outside : ∀ ui p, ¬ lowerArea.Contains p → (f ui).display p = ui.display p

theorem PaintsLower.comp {f g : Ui → Ui} (hg : PaintsLower g) (hf : PaintsLower f) :
    PaintsLower fun ui => g (f ui) where
  painted ui := (hg.painted _).trans (hf.painted ui)
  inside ui ui' p hp h := hg.inside _ _ p hp (hf.inside ui ui' p hp h)
  outside ui p hp := (hg.outside _ p hp).trans (hf.outside ui p hp)

theorem lowerArea_screen {p : Point} (h : lowerArea.Contains p) : screen.Contains p := by
  simp only [lowerArea, screen, Rectangle.Contains, lowerY, displayW, displayH] at h ⊢
  omega

theorem paintsLower_renderBand {top : ℕ} (f : Scratch → Scratch) (htop : lowerY ≤ top)
    (hbot : top + scratchH ≤ displayH) : PaintsLower (·.renderBand top f) := by
  have hband : ∀ {p : Point}, (Rectangle.mk ⟨0, top⟩ scratchW scratchH).Contains p →
      lowerArea.Contains p := by
    intro p hp
    simp only [lowerArea, Rectangle.Contains, lowerY, displayW, displayH, scratchW, scratchH]
      at hp htop hbot ⊢
    omega
  refine ⟨fun _ => rfl, fun ui ui' p hp h => ?_, fun ui p hp => ?_⟩
  · by_cases hin : (Rectangle.mk ⟨0, top⟩ scratchW scratchH).Contains p
    · exact Scratch.blit_of_mem le_rfl le_rfl hin (lowerArea_screen hp)
    · exact (Scratch.blit_of_not_mem hin).trans (h.trans (Scratch.blit_of_not_mem hin).symm)
  · exact Scratch.blit_of_not_mem fun hin => hp (hband hin)

theorem paintsLower_titleRow {top : ℕ} {title : String} {color : Rgb565}
    {badge : Option (String × Rgb565)} (htop : lowerY ≤ top) (hbot : top + scratchH ≤ displayH) :
    PaintsLower (·.titleRow P top title color badge) :=
  paintsLower_renderBand _ htop hbot

theorem paintsLower_kvRow {top : ℕ} {label value : String} {color : Rgb565}
    (htop : lowerY ≤ top) (hbot : top + scratchH ≤ displayH) :
    PaintsLower (·.kvRow P top label value color) :=
  paintsLower_renderBand _ htop hbot

theorem paintsLower_drawLayout (key : LowerKey) : PaintsLower (·.drawLayout P key) := by
  have title : ∀ {title color badge}, PaintsLower (·.titleRow P lowerTitleTop title color badge) :=
    paintsLower_titleRow (by decide) (by decide)
  have row1 : ∀ {label value color}, PaintsLower (·.kvRow P lowerRow1Top label value color) :=
    paintsLower_kvRow (by decide) (by decide)
  have row2 : ∀ {label value color}, PaintsLower (·.kvRow P lowerRow2Top label value color) :=
    paintsLower_kvRow (by decide) (by decide)
  have row3 : ∀ {label value color}, PaintsLower (·.kvRow P lowerRow3Top label value color) :=
    paintsLower_kvRow (by decide) (by decide)
  cases key with
  | captive trying => exact row3.comp (row2.comp (row1.comp title))
  | connecting =>
    have heading : PaintsLower (·.titleRow P lowerRow2Top "Connecting..." .white none) :=
      paintsLower_titleRow (by decide) (by decide)
    exact heading
  | host ip hasErrors psOffline => exact row3.comp (row2.comp (row1.comp title))

end Ui

def UpperCell.area : UpperCell → Rectangle
  | .voltage => ⟨⟨colLeft, row1Top⟩, valueW, valueH⟩
  | .power => ⟨⟨colRight, row1Top⟩, valueW, valueH⟩
  | .batteryCurrent => ⟨⟨colLeft, row2Top⟩, valueW, valueH⟩
  | .psCurrent => ⟨⟨colRight, row2Top⟩, valueW, valueH⟩
  | .uptime => ⟨⟨uptimeX, 0⟩, uptimeW, uptimeH⟩

theorem UpperCell.area_le (slot : UpperCell) :
    slot.area.width ≤ scratchW ∧ slot.area.height ≤ scratchH := by
  cases slot <;> decide

inductive PanelLayer where
  | upper (slot : UpperCell)
  | lower
deriving DecidableEq

namespace PanelLayer

/-- What a layer is repainted by. -/
@[reducible]
def Key : PanelLayer → Type
  | upper _ => PaintedCell
  | lower => LowerKey

def area : PanelLayer → Rectangle
  | upper slot => slot.area
  | lower => Ui.lowerArea

theorem area_screen {i : PanelLayer} {p : Point} (h : i.area.Contains p) : screen.Contains p := by
  rcases i with (_ | _ | _ | _ | _) | _ <;>
    simp only [area, UpperCell.area, Ui.lowerArea, screen, Rectangle.Contains, lowerY, displayW,
      displayH, colLeft, colRight, row1Top, row2Top, valueW, valueH, uptimeX, uptimeW, uptimeH]
      at h ⊢ <;>
    omega

theorem area_disjoint {i j : PanelLayer} {p : Point} (hi : i.area.Contains p)
    (hj : j.area.Contains p) : i = j := by
  rcases i with (_ | _ | _ | _ | _) | _ <;> rcases j with (_ | _ | _ | _ | _) | _ <;>
    first
    | rfl
    | simp only [area, UpperCell.area, Ui.lowerArea, Rectangle.Contains, lowerY, displayW,
        displayH, colLeft, colRight, row1Top, row2Top, valueW, valueH, uptimeX, uptimeW, uptimeH]
        at hi hj
      omega

end PanelLayer

def blank : Panel := fun _ => colorBg

/-- The text of an upper cell, composed. -/
def UpperCell.scratch (P : Painter) (slot : UpperCell) (c : PaintedCell) : Scratch :=
  match slot with
  | .uptime => (P.text .font6x10 c.text ⟨0, uptimeBaseline⟩ c.color).foldl .draw .clear
  | _ => (P.text .font10x20 c.text ⟨0, bandBaseline⟩ c.color).foldl .draw .clear

/-- The layers of the panel, and what they look like. -/
def panelLayers (P : Painter) : Layers PanelLayer Point Rgb565 PanelLayer.Key where
  region i p := i.area.Contains p
  image
    | .upper slot, c =>
      (slot.scratch P c).blit blank slot.area.topLeft slot.area.width slot.area.height
    | .lower, key => ((Ui.new blank .clear).clearLower.drawLayout P key).display
  disjoint := PanelLayer.area_disjoint

namespace Ui

variable {P : Painter} {ui : Ui}

def layers (ui : Ui) : Layers.State PanelLayer Point Rgb565 PanelLayer.Key where
  screen := ui.display
  shown
    | .upper slot => ui.painted slot
    | .lower => ui.lastLower

/-- What every draw of an upper cell does. -/
def paintUpper (P : Painter) (ui : Ui) (slot : UpperCell) (c : PaintedCell) : Ui :=
  if ui.painted slot = some c then ui
  else { ui with
    painted := Function.update ui.painted slot (some c)
    scratch := slot.scratch P c
    display := (slot.scratch P c).blit ui.display slot.area.topLeft slot.area.width
      slot.area.height }

theorem cell_eq {slot : UpperCell} {x y : ℕ} {color : Rgb565} {pieces : List String}
    (hslot : slot ≠ .uptime) (harea : slot.area = ⟨⟨x, y⟩, valueW, valueH⟩) :
    ui.cell P slot x y color pieces
      = ui.paintUpper P slot ⟨writeFmt cellTextCap "" pieces, color⟩ := by
  have hscratch : ∀ c, slot.scratch P c
      = (P.text .font10x20 c.text ⟨0, bandBaseline⟩ c.color).foldl .draw .clear := by
    intro c
    cases slot <;> first | rfl | exact absurd rfl hslot
  by_cases h : ui.painted slot = some ⟨writeFmt cellTextCap "" pieces, color⟩
  · simp [cell, cellChanged, paintUpper, h]
  · simp [cell, cellChanged, paintUpper, h, hscratch, harea]

theorem uptimeCell_eq {uptime : Duration} : ui.uptimeCell P uptime
    = ui.paintUpper P .uptime ⟨writeFmt cellTextCap "" (uptimePieces uptime), colorLabel⟩ := by
  by_cases h : ui.painted .uptime = some ⟨writeFmt cellTextCap "" (uptimePieces uptime), colorLabel⟩
  · simp [uptimeCell, cellChanged, paintUpper, h]
  · simp [uptimeCell, cellChanged, paintUpper, h, UpperCell.scratch, UpperCell.area]

theorem layers_paintUpper (slot : UpperCell) (c : PaintedCell) : (ui.paintUpper P slot c).layers
    = (panelLayers P).refresh (.upper slot) c ui.layers := by
  unfold paintUpper
  by_cases h : ui.painted slot = some c
  · rw [if_pos h]
    exact (Layers.refresh_of_shown h).symm
  rw [if_neg h]
  refine Layers.eq_refresh h (funext fun p => ?_) (Function.update_self ..) fun i hi => ?_
  · unfold Layers.overlay
    split_ifs with hp
    · exact Scratch.blit_of_mem slot.area_le.1 slot.area_le.2 hp
        (PanelLayer.area_screen (i := .upper slot) hp)
    · exact Scratch.blit_of_not_mem hp
  · rcases i with slot' | _
    · exact Function.update_of_ne (fun hslot => hi (congrArg _ hslot)) ..
    · rfl

theorem layers_drawLower (key : LowerKey) : (ui.drawLower P key).layers
    = (panelLayers P).refresh .lower key ui.layers := by
  have hpaints := paintsLower_drawLayout (P := P) key
  unfold drawLower
  by_cases h : ui.lastLower = some key
  · rw [if_pos h]
    exact (Layers.refresh_of_shown h).symm
  rw [if_neg h]
  refine Layers.eq_refresh h (funext fun p => ?_) rfl fun i hi => ?_
  · unfold Layers.overlay
    split_ifs with hp
    · have hclear : ∀ {u : Ui}, u.clearLower.display p = colorBg :=
        if_pos ⟨hp, lowerArea_screen hp⟩
      exact hpaints.inside _ _ p hp (hclear.trans hclear.symm)
    · have hclear : ui.clearLower.display p = ui.display p := if_neg fun h => hp h.1
      exact (hpaints.outside _ p hp).trans hclear
  · rcases i with slot | _
    · exact congrFun (hpaints.painted _) slot
    · exact absurd rfl hi

/-- What a frame brings each layer to. -/
def Frame.key (P : Painter) (f : Frame) : (i : PanelLayer) → i.Key
  | .upper slot =>
    let bat := f.battery.getD ⟨0.0, 0.0, 0.0⟩
    let ps := f.ps.getD ⟨0.0, 0.0, 0.0, 0.0, 0.0⟩
    match slot with
    | .voltage => ⟨writeFmt cellTextCap "" (P.fixed 2 bat.voltage ++ [" V"]), colorVoltage⟩
    | .power => ⟨writeFmt cellTextCap "" (P.fixed 2 bat.power ++ [" W"]), colorPower⟩
    | .batteryCurrent =>
      ⟨writeFmt cellTextCap "" (P.fixed 3 bat.current.abs ++ [" A"]),
        batteryCurrentColor bat.current⟩
    | .psCurrent => ⟨writeFmt cellTextCap "" (P.fixed 3 ps.current ++ [" A"]), colorPsuCurrent⟩
    | .uptime => ⟨writeFmt cellTextCap "" (uptimePieces f.uptime), colorLabel⟩
  | .lower => .fromInputs f.netStatus (if f.netStatus = .host then f.staIp else none) f.hasErrors
      f.psOffline

/-- The layers in the order they are drawn. -/
def drawn : List PanelLayer :=
  [.upper .voltage, .upper .power, .upper .batteryCurrent, .upper .psCurrent, .upper .uptime,
    .lower]

theorem mem_drawn (i : PanelLayer) : i ∈ drawn := by
  rcases i with (_ | _ | _ | _ | _) | _ <;> simp [drawn]

/-- A refresh brings each layer to what the frame has for it. -/
theorem layers_refresh (f : Frame) :
    (ui.refresh P f).layers = (panelLayers P).refreshAll (f.key P) drawn ui.layers := by
  unfold refresh drawUpper
  simp only []
  rw [layers_drawLower, uptimeCell_eq, layers_paintUpper, cell_eq (by simp) rfl, layers_paintUpper,
    cell_eq (by simp) rfl, layers_paintUpper, cell_eq (by simp) rfl, layers_paintUpper,
    cell_eq (by simp) rfl, layers_paintUpper]
  rfl

theorem shown_refresh (f : Frame) (i : PanelLayer) :
    (ui.refresh P f).layers.shown i = some (f.key P i) := by
  rw [layers_refresh]
  exact Layers.shown_refreshAll (mem_drawn i)

theorem shows_start : (panelLayers P).Shows (start P).display (start P).layers where
  layer i _ _ := by cases i <;> rfl
  rest _ _ := rfl

/-- Over the labels the panel started with, every run of refreshes shows what it says. -/
theorem shows_foldl_refresh (fs : List Frame) :
    (panelLayers P).Shows (start P).display (fs.foldl (refresh P) (start P)).layers := by
  induction fs using List.reverseRecOn with
  | nil => exact shows_start
  | append_singleton fs f ih =>
    rw [List.foldl_append, List.foldl_cons, List.foldl_nil, layers_refresh]
    exact ih.refreshAll

/-- However long the panel has run and whatever was not repainted, it shows of the last frame what
a panel just started would. -/
theorem display_refresh_last (P : Painter) (fs : List Frame) (f : Frame) :
    ((fs ++ [f]).foldl (refresh P) (start P)).display = ((start P).refresh P f).display := by
  have hlast : (fs ++ [f]).foldl (refresh P) (start P)
      = (fs.foldl (refresh P) (start P)).refresh P f := by
    rw [List.foldl_append]
    rfl
  have hrun := shows_foldl_refresh (P := P) (fs ++ [f])
  have hfresh : (panelLayers P).Shows (start P).display ((start P).refresh P f).layers :=
    shows_foldl_refresh [f]
  rw [hlast] at hrun ⊢
  exact hrun.screen_eq hfresh (funext fun i => (shown_refresh f i).trans (shown_refresh f i).symm)

end Ui

end Esp32Battery
