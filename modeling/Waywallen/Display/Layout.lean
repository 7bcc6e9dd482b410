import Mathlib.Data.Rat.Floor

/-!
# Display layout

How a renderer's texture is placed on a display. Coordinates are `f32` in the program; here they
are exact rationals.
-/

namespace Waywallen

inductive FillMode
  | stretched
  | preserveAspectFit
  | preserveAspectCrop
  | centered
deriving DecidableEq

/-- Clockwise turn of the displayed image. -/
inductive Rotation
  | normal
  | cw90
  | cw180
  | cw270
deriving DecidableEq

inductive Align
  | topLeft
  | top
  | topRight
  | left
  | center
  | right
  | bottomLeft
  | bottom
  | bottomRight
deriving DecidableEq

instance : Inhabited FillMode := ⟨.preserveAspectCrop⟩
instance : Inhabited Rotation := ⟨.normal⟩
instance : Inhabited Align := ⟨.center⟩

/-- `wl_output.transform` value matching a rotation. -/
def Rotation.toWlTransform : Rotation → UInt32
  | .normal => 0
  | .cw90 => 1
  | .cw180 => 2
  | .cw270 => 3

namespace Align

def hFactor : Align → ℚ
  | .topLeft | .left | .bottomLeft => 0
  | .top | .center | .bottom => 1 / 2
  | .topRight | .right | .bottomRight => 1

def vFactor : Align → ℚ
  | .topLeft | .top | .topRight => 0
  | .left | .center | .right => 1 / 2
  | .bottomLeft | .bottom | .bottomRight => 1

end Align

/-- A position in percent of the free space on each axis. -/
structure Location where
  x : ℕ
  y : ℕ
deriving DecidableEq

namespace Location

instance : Inhabited Location := ⟨⟨50, 50⟩⟩

def new (x y : ℕ) : Location := ⟨min x 100, min y 100⟩

def fromAlign (a : Align) : Location :=
  new (a.hFactor * 100 + 1 / 2).floor.toNat (a.vFactor * 100 + 1 / 2).floor.toNat

def hFactor (l : Location) : ℚ := (min l.x 100 : ℕ) / 100

def vFactor (l : Location) : ℚ := (min l.y 100 : ℕ) / 100

end Location

/-- RGBA, each in `0..=1`. -/
structure Rgba where
  r : ℚ
  g : ℚ
  b : ℚ
  a : ℚ
deriving DecidableEq

/-- Opaque black, the clear color until a renderer reports another. -/
def Rgba.black : Rgba := ⟨0, 0, 0, 1⟩

structure LayoutInput where
  texW : ℚ
  texH : ℚ
  dispW : ℚ
  dispH : ℚ
  fillmode : FillMode
  location : Location
  clearRgba : Rgba

/-- A rectangle `(x, y, w, h)`. -/
structure Rect where
  x : ℚ
  y : ℚ
  w : ℚ
  h : ℚ
deriving DecidableEq

structure LayoutOutput where
  source : Rect
  dest : Rect
  clearRgba : Rgba
deriving DecidableEq

/-- One axis of `centered`: source offset and length, destination offset and length. -/
def axisCentered (tex disp factor : ℚ) : ℚ × ℚ × ℚ × ℚ :=
  if tex ≤ disp then (0, tex, (disp - tex) * factor, tex)
  else ((tex - disp) * factor, disp, 0, disp)

/-- Resolve one layout; degenerate inputs collapse to clamped full rectangles. -/
def LayoutInput.compute (i : LayoutInput) : LayoutOutput :=
  let full : Rect := ⟨0, 0, i.texW, i.texH⟩
  let whole : Rect := ⟨0, 0, i.dispW, i.dispH⟩
  if i.texW ≤ 0 ∨ i.texH ≤ 0 ∨ i.dispW ≤ 0 ∨ i.dispH ≤ 0 then
    ⟨⟨0, 0, max i.texW 0, max i.texH 0⟩, ⟨0, 0, max i.dispW 0, max i.dispH 0⟩, i.clearRgba⟩
  else
    match i.fillmode with
    | .stretched => ⟨full, whole, i.clearRgba⟩
    | .preserveAspectFit =>
        let scale := min (i.dispW / i.texW) (i.dispH / i.texH)
        let dw := i.texW * scale
        let dh := i.texH * scale
        let dx := (i.dispW - dw) * i.location.hFactor
        let dy := (i.dispH - dh) * i.location.vFactor
        ⟨full, ⟨dx, dy, dw, dh⟩, i.clearRgba⟩
    | .preserveAspectCrop =>
        let scale := max (i.dispW / i.texW) (i.dispH / i.texH)
        let sw := i.dispW / scale
        let sh := i.dispH / scale
        let sx := (i.texW - sw) * i.location.hFactor
        let sy := (i.texH - sh) * i.location.vFactor
        ⟨⟨sx, sy, sw, sh⟩, whole, i.clearRgba⟩
    | .centered =>
        let h := axisCentered i.texW i.dispW i.location.hFactor
        let v := axisCentered i.texH i.dispH i.location.vFactor
        ⟨⟨h.1, v.1, h.2.1, v.2.1⟩, ⟨h.2.2.1, v.2.2.1, h.2.2.2, v.2.2.2⟩, i.clearRgba⟩

/-- What a `set_config` event carries. -/
structure ProjectedConfig where
  configGeneration : ℕ
  source : Rect
  dest : Rect
  transform : UInt32
  clearRgba : Rgba
deriving DecidableEq

/-- Layout values resolved against per-display override, global and built-in defaults. -/
structure ResolvedLayout where
  fillmode : FillMode
  location : Location
  rotation : Rotation
deriving DecidableEq

instance : Inhabited ResolvedLayout := ⟨⟨default, default, default⟩⟩

/-- The layout a wallpaper asks for, field by field. -/
structure WallpaperLayoutOverride where
  fillmode : Option FillMode
  location : Option Location
  rotation : Option Rotation
deriving DecidableEq

namespace WallpaperLayoutOverride

instance : Inhabited WallpaperLayoutOverride := ⟨⟨none, none, none⟩⟩

def applyTo (o : WallpaperLayoutOverride) (base : ResolvedLayout) : ResolvedLayout where
  fillmode := o.fillmode.getD base.fillmode
  location := o.location.getD base.location
  rotation := o.rotation.getD base.rotation

def isEmpty (o : WallpaperLayoutOverride) : Bool :=
  o.fillmode.isNone && o.location.isNone && o.rotation.isNone

end WallpaperLayoutOverride

end Waywallen
