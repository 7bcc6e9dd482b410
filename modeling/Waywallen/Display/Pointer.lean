import Waywallen.Routing.Router
import Mathlib.Tactic.FieldSimp
import Mathlib.Tactic.Linarith
import Mathlib.Tactic.Ring

/-!
# Pointer coordinates

A display reports pointer positions in its own pixels; the renderer is told the texture point. What
a consumer shows at a pixel follows from the configuration: it draws into a canvas of the extent
before the rotation and turns that canvas onto the display.
-/

namespace Waywallen

/-- Inverse of `wl_output.transform` on the unit square. -/
def unitTransform (transform : UInt32) (u v : ℚ) : ℚ × ℚ :=
  match transform with
  | 0 => (u, v)
  | 1 => (1 - v, u)
  | 2 => (1 - u, 1 - v)
  | 3 => (v, 1 - u)
  | 4 => (1 - u, v)
  | 5 => (v, u)
  | 6 => (u, 1 - v)
  | 7 => (1 - v, 1 - u)
  | _ => (u, v)

/-- Map a display-local point to renderer-texture-local pixel coordinates, using the projected
source and destination rectangles. -/
def displayPointToTexture (dispX dispY : ℚ) (cfg : ProjectedConfig) : Option (ℚ × ℚ) :=
  if cfg.dest.w ≤ 0 ∨ cfg.dest.h ≤ 0 then
    none
  else
    let u := (dispX - cfg.dest.x) / cfg.dest.w
    let v := (dispY - cfg.dest.y) / cfg.dest.h
    if ¬(0 ≤ u ∧ u ≤ 1) ∨ ¬(0 ≤ v ∧ v ≤ 1) then
      none
    else
      let (uu, vv) := unitTransform cfg.transform u v
      some (cfg.source.x + uu * cfg.source.w, cfg.source.y + vv * cfg.source.h)

/-! ## What is shown at a pixel -/

def Rect.Contains (r : Rect) (p : ℚ × ℚ) : Prop :=
  r.x ≤ p.1 ∧ p.1 ≤ r.x + r.w ∧ r.y ≤ p.2 ∧ p.2 ≤ r.y + r.h

/-- A canvas of `w × h` and a point on it. -/
@[ext]
structure CanvasPoint where
  w : ℚ
  h : ℚ
  x : ℚ
  y : ℚ

/-- A quarter turn counter-clockwise: the right edge becomes the top one. -/
def CanvasPoint.quarterTurn (c : CanvasPoint) : CanvasPoint := ⟨c.h, c.w, c.y, c.w - c.x⟩

/-- The texture point that the rectangles bring to a point of the canvas. -/
def ProjectedConfig.drawnAt (cfg : ProjectedConfig) (c : CanvasPoint) : ℚ × ℚ :=
  (cfg.source.x + (c.x - cfg.dest.x) / cfg.dest.w * cfg.source.w,
    cfg.source.y + (c.y - cfg.dest.y) / cfg.dest.h * cfg.source.h)

/-- A consumer that draws the configuration and turns the canvas as the transform says, a quarter
for each step of it, shows the texture point at the point of the display. -/
def ProjectedConfig.Shows (cfg : ProjectedConfig) (display : CanvasPoint) (t : ℚ × ℚ) : Prop :=
  ∃ c : CanvasPoint, CanvasPoint.quarterTurn^[cfg.transform.toNat] c = display ∧
    cfg.dest.Contains (c.x, c.y) ∧ cfg.drawnAt c = t

namespace CanvasPoint

variable {c d : CanvasPoint}

theorem quarterTurn_eq_iff : c.quarterTurn = d ↔ c = ⟨d.h, d.w, d.h - d.y, d.x⟩ := by
  constructor
  · rintro rfl
    simp [quarterTurn]
  · rintro rfl
    simp [quarterTurn]

/-- The point of the canvas that a rotation brings to a point of the display. -/
def unturned (rotation : Rotation) (d : CanvasPoint) : CanvasPoint :=
  match rotation with
  | .normal => d
  | .cw90 => ⟨d.h, d.w, d.h - d.y, d.x⟩
  | .cw180 => ⟨d.w, d.h, d.w - d.x, d.h - d.y⟩
  | .cw270 => ⟨d.h, d.w, d.y, d.w - d.x⟩

theorem turned_eq_iff (rotation : Rotation) :
    quarterTurn^[rotation.toWlTransform.toNat] c = d ↔ c = d.unturned rotation := by
  cases rotation with
  | normal => exact .rfl
  | cw90 => exact quarterTurn_eq_iff
  | cw180 =>
    change c.quarterTurn.quarterTurn = d ↔ _
    rw [quarterTurn_eq_iff, quarterTurn_eq_iff]
    exact .rfl
  | cw270 =>
    change c.quarterTurn.quarterTurn.quarterTurn = d ↔ _
    rw [quarterTurn_eq_iff, quarterTurn_eq_iff, quarterTurn_eq_iff]
    simp [unturned]

end CanvasPoint

/-! ## Layouts that cover the display -/

/-- The destination is the whole display. -/
def FillMode.Covers : FillMode → Prop
  | .stretched | .preserveAspectCrop => True
  | .preserveAspectFit | .centered => False

theorem LayoutInput.dest_compute {i : LayoutInput} (hfill : i.fillmode.Covers) :
    i.compute.dest = ⟨0, 0, max i.dispW 0, max i.dispH 0⟩ := by
  unfold LayoutInput.compute
  split
  · rfl
  · rename_i hpos
    simp only [not_or, not_le] at hpos
    obtain ⟨-, -, hw, hh⟩ := hpos
    have hwhole : (⟨0, 0, i.dispW, i.dispH⟩ : Rect) = ⟨0, 0, max i.dispW 0, max i.dispH 0⟩ := by
      rw [max_eq_left hw.le, max_eq_left hh.le]
    split
    · exact hwhole
    · rename_i hmode
      rw [hmode] at hfill
      exact hfill.elim
    · exact hwhole
    · rename_i hmode
      rw [hmode] at hfill
      exact hfill.elim

/-- The source is empty only where the texture is. -/
theorem LayoutInput.source_compute {i : LayoutInput} (hfill : i.fillmode.Covers)
    (hw : 0 ≤ i.texW) (hh : 0 ≤ i.texH) :
    (0 ≤ i.compute.source.w ∧ (i.compute.source.w = 0 ↔ i.texW = 0)) ∧
      0 ≤ i.compute.source.h ∧ (i.compute.source.h = 0 ↔ i.texH = 0) := by
  unfold LayoutInput.compute
  split
  · simp only [max_eq_left hw, max_eq_left hh, and_true]
    exact ⟨hw, hh⟩
  · rename_i hpos
    simp only [not_or, not_le] at hpos
    obtain ⟨htw, hth, hdw, hdh⟩ := hpos
    split
    · exact ⟨⟨hw, .rfl⟩, hh, .rfl⟩
    · rename_i hmode
      rw [hmode] at hfill
      exact hfill.elim
    · have hscale : 0 < max (i.dispW / i.texW) (i.dispH / i.texH) :=
        lt_max_of_lt_left (div_pos hdw htw)
      have hsw := div_pos hdw hscale
      have hsh := div_pos hdh hscale
      exact ⟨⟨hsw.le, iff_of_false hsw.ne' htw.ne'⟩, hsh.le, iff_of_false hsh.ne' hth.ne'⟩
    · rename_i hmode
      rw [hmode] at hfill
      exact hfill.elim

/-! ## When the pointer is mapped to what is shown -/

/-- The position between the two ends of an axis. -/
def InUnit (u : ℚ) : Prop := 0 ≤ u ∧ u ≤ 1

theorem inUnit_div_iff {x w : ℚ} (hw : 0 < w) : InUnit (x / w) ↔ 0 ≤ x ∧ x ≤ w := by
  rw [InUnit, div_le_one₀ hw, le_div_iff₀ hw, zero_mul]

theorem InUnit.one_sub {u : ℚ} (h : InUnit u) : InUnit (1 - u) :=
  ⟨sub_nonneg.2 h.2, sub_le_self 1 h.1⟩

theorem InUnit.scaled {u s w : ℚ} (h : InUnit u) (hw : 0 ≤ w) : s ≤ s + u * w ∧ s + u * w ≤ s + w :=
  ⟨le_add_of_nonneg_right (mul_nonneg h.1 hw),
    add_le_add_right (mul_le_of_le_one_left hw h.2) s⟩

theorem div_eq_div_iff_extent {a w h : ℚ} (hw : 0 < w) (hh : 0 < h) :
    a / w = a / h ↔ w = h ∨ a = 0 := by
  rw [div_eq_div_iff hw.ne' hh.ne', mul_eq_mul_left_iff, eq_comm (a := h)]

theorem unitTransform_inUnit (transform : UInt32) {u v : ℚ} (hu : InUnit u) (hv : InUnit v) :
    InUnit (unitTransform transform u v).1 ∧ InUnit (unitTransform transform u v).2 := by
  unfold unitTransform
  split
  · exact ⟨hu, hv⟩
  · exact ⟨hv.one_sub, hu⟩
  · exact ⟨hu.one_sub, hv.one_sub⟩
  · exact ⟨hv, hu.one_sub⟩
  · exact ⟨hu.one_sub, hv⟩
  · exact ⟨hv, hu⟩
  · exact ⟨hu, hv.one_sub⟩
  · exact ⟨hv.one_sub, hu.one_sub⟩
  · exact ⟨hu, hv⟩

theorem displayPointToTexture_eq_some_iff {cfg : ProjectedConfig} {x y : ℚ} {t : ℚ × ℚ} :
    displayPointToTexture x y cfg = some t ↔ (0 < cfg.dest.w ∧ 0 < cfg.dest.h) ∧
      InUnit ((x - cfg.dest.x) / cfg.dest.w) ∧ InUnit ((y - cfg.dest.y) / cfg.dest.h) ∧
      (cfg.source.x + (unitTransform cfg.transform ((x - cfg.dest.x) / cfg.dest.w)
          ((y - cfg.dest.y) / cfg.dest.h)).1 * cfg.source.w,
        cfg.source.y + (unitTransform cfg.transform ((x - cfg.dest.x) / cfg.dest.w)
          ((y - cfg.dest.y) / cfg.dest.h)).2 * cfg.source.h) = t := by
  unfold displayPointToTexture
  by_cases hdest : cfg.dest.w ≤ 0 ∨ cfg.dest.h ≤ 0
  · rw [if_pos hdest]
    refine iff_of_false (by rintro ⟨⟩) ?_
    rintro ⟨⟨hw, hh⟩, -⟩
    exact hdest.elim hw.not_ge hh.not_ge
  · rw [if_neg hdest]
    simp only [not_or, not_le] at hdest
    simp only [hdest, true_and, and_true, ← not_and_or, ite_not, Option.ite_none_right_eq_some,
      Option.some_inj]
    exact and_assoc

/-- The pointer is mapped into the source, to the texture point that is shown at its pixel. -/
def ProjectedConfig.MapsShown (cfg : ProjectedConfig) (display : CanvasPoint) : Prop :=
  ∃ t, displayPointToTexture display.x display.y cfg = some t ∧ cfg.source.Contains t ∧
    cfg.Shows display t

theorem add_mul_eq_iff {s a b w : ℚ} : s + b * w = s + a * w ↔ a = b ∨ w = 0 := by
  rw [add_right_inj, mul_eq_mul_right_iff, eq_comm]

section Maps

variable {cfg : ProjectedConfig} {display : CanvasPoint} {rotation : Rotation}

theorem ProjectedConfig.shows_iff (ht : cfg.transform = rotation.toWlTransform) {t : ℚ × ℚ} :
    cfg.Shows display t ↔
      cfg.dest.Contains ((display.unturned rotation).x, (display.unturned rotation).y) ∧
        cfg.drawnAt (display.unturned rotation) = t := by
  unfold ProjectedConfig.Shows
  rw [ht]
  simp only [CanvasPoint.turned_eq_iff]
  exact exists_eq_left

/-- The two agree where the transform and the rotation bring the pixel to the same share of the
destination, on each axis on which the source has an extent. -/
theorem ProjectedConfig.mapsShown_iff_unit (ht : cfg.transform = rotation.toWlTransform)
    (hsw : 0 ≤ cfg.source.w) (hsh : 0 ≤ cfg.source.h) :
    cfg.MapsShown display ↔ (0 < cfg.dest.w ∧ 0 < cfg.dest.h) ∧
      InUnit ((display.x - cfg.dest.x) / cfg.dest.w) ∧
      InUnit ((display.y - cfg.dest.y) / cfg.dest.h) ∧
      cfg.dest.Contains ((display.unturned rotation).x, (display.unturned rotation).y) ∧
      ((unitTransform cfg.transform ((display.x - cfg.dest.x) / cfg.dest.w)
          ((display.y - cfg.dest.y) / cfg.dest.h)).1 =
        ((display.unturned rotation).x - cfg.dest.x) / cfg.dest.w ∨ cfg.source.w = 0) ∧
      ((unitTransform cfg.transform ((display.x - cfg.dest.x) / cfg.dest.w)
          ((display.y - cfg.dest.y) / cfg.dest.h)).2 =
        ((display.unturned rotation).y - cfg.dest.y) / cfg.dest.h ∨ cfg.source.h = 0) := by
  unfold ProjectedConfig.MapsShown
  simp only [displayPointToTexture_eq_some_iff, ProjectedConfig.shows_iff ht]
  constructor
  · rintro ⟨t, ⟨hdest, hu, hv, rfl⟩, -, hcontains, hdrawn⟩
    have hcoords := Prod.mk.inj hdrawn
    exact ⟨hdest, hu, hv, hcontains, add_mul_eq_iff.1 hcoords.1, add_mul_eq_iff.1 hcoords.2⟩
  · rintro ⟨hdest, hu, hv, hcontains, hx, hy⟩
    obtain ⟨huu, hvv⟩ := unitTransform_inUnit cfg.transform hu hv
    refine ⟨_, ⟨hdest, hu, hv, rfl⟩, ?_, hcontains,
      Prod.ext (add_mul_eq_iff.2 hx) (add_mul_eq_iff.2 hy)⟩
    exact ⟨(huu.scaled hsw).1, (huu.scaled hsw).2, (hvv.scaled hsh).1, (hvv.scaled hsh).2⟩

end Maps

/-- The condition under which the pointer is mapped to what is shown: the display has an extent,
and a quarter turn exchanges nothing, or the pointer is where the exchange does not show. -/
def Projection.PointerExact (p : Projection) (x y : ℚ) : Prop :=
  (0 < p.info.width ∧ 0 < p.info.height) ∧
    (p.layout.rotation = .cw90 ∨ p.layout.rotation = .cw270 → p.info.width = p.info.height ∨
      (x ≤ p.info.height ∧ y ≤ p.info.width) ∧
        (p.texture.1 = 0 ∨ y = 0) ∧ (p.texture.2 = 0 ∨ x = 0))

section Projected

variable {p : Projection}

theorem Projection.project_eq (hsrc : p.link.srcRect = .full) (hdst : p.link.dstRect = .full)
    (hfill : p.layout.fillmode.Covers) :
    p.project.dest = (if p.layout.rotation = .cw90 ∨ p.layout.rotation = .cw270 then
        ⟨0, 0, p.info.height, p.info.width⟩ else ⟨0, 0, p.info.width, p.info.height⟩) ∧
      (0 ≤ p.project.source.w ∧ (p.project.source.w = 0 ↔ p.texture.1 = 0)) ∧
      (0 ≤ p.project.source.h ∧ (p.project.source.h = 0 ↔ p.texture.2 = 0)) ∧
      p.project.transform = p.layout.rotation.toWlTransform := by
  unfold Projection.project
  rw [if_pos ⟨hsrc, hdst⟩]
  dsimp only
  refine ⟨?_, ?_, ?_, rfl⟩
  · rw [LayoutInput.dest_compute hfill]
    split <;> simp
  · refine ⟨(LayoutInput.source_compute hfill ?_ ?_).1.1,
      (LayoutInput.source_compute hfill ?_ ?_).1.2.trans Nat.cast_eq_zero⟩ <;>
      exact Nat.cast_nonneg _
  · refine ⟨(LayoutInput.source_compute hfill ?_ ?_).2.1,
      (LayoutInput.source_compute hfill ?_ ?_).2.2.trans Nat.cast_eq_zero⟩ <;>
      exact Nat.cast_nonneg _

/-- The shares of a point on the axes of a display that a quarter turn exchanges. -/
theorem quarter_iff {w h x y : ℚ} {a b : Prop} (hw : 0 < w) (hh : 0 < h) (hx : 0 ≤ x ∧ x ≤ w)
    (hy : 0 ≤ y ∧ y ≤ h) :
    (InUnit (x / h) ∧ InUnit (y / w) ∧ (y / w = y / h ∨ a) ∧ (x / h = x / w ∨ b)) ↔
      w = h ∨ (x ≤ h ∧ y ≤ w) ∧ (a ∨ y = 0) ∧ (b ∨ x = 0) := by
  rw [inUnit_div_iff hh, inUnit_div_iff hw, div_eq_div_iff_extent hw hh,
    div_eq_div_iff_extent hh hw]
  constructor
  · rintro ⟨hxh, hyw, ha, hb⟩
    by_cases heq : w = h
    · exact .inl heq
    · refine .inr ⟨⟨hxh.2, hyw.2⟩, ?_, ?_⟩
      · exact ha.elim (fun h => .inr (h.resolve_left heq)) .inl
      · exact hb.elim (fun h => .inr (h.resolve_left (Ne.symm heq))) .inl
  · rintro (rfl | ⟨⟨hxh, hyw⟩, ha, hb⟩)
    · exact ⟨hx, hy, .inl (.inl rfl), .inl (.inl rfl)⟩
    · exact ⟨⟨hx.1, hxh⟩, ⟨hy.1, hyw⟩, ha.symm.imp_left .inr, hb.symm.imp_left .inr⟩

/-- Without a quarter turn the rectangles are those of the display. -/
theorem straight_iff {rotation : Rotation} {w h x y : ℚ} {a b : Prop} (hw : 0 < w) (hh : 0 < h)
    (hx : 0 ≤ x ∧ x ≤ w) (hy : 0 ≤ y ∧ y ≤ h) (hrot : rotation = .normal ∨ rotation = .cw180) :
    InUnit ((x - 0) / w) ∧ InUnit ((y - 0) / h) ∧
      (⟨0, 0, w, h⟩ : Rect).Contains ((CanvasPoint.unturned rotation ⟨w, h, x, y⟩).x,
        (CanvasPoint.unturned rotation ⟨w, h, x, y⟩).y) ∧
      ((unitTransform rotation.toWlTransform ((x - 0) / w) ((y - 0) / h)).1 =
        ((CanvasPoint.unturned rotation ⟨w, h, x, y⟩).x - 0) / w ∨ a) ∧
      ((unitTransform rotation.toWlTransform ((x - 0) / w) ((y - 0) / h)).2 =
        ((CanvasPoint.unturned rotation ⟨w, h, x, y⟩).y - 0) / h ∨ b) := by
  simp only [sub_zero]
  refine ⟨(inUnit_div_iff hw).2 hx, (inUnit_div_iff hh).2 hy, ?_⟩
  rcases hrot with rfl | rfl
  · refine ⟨⟨hx.1, ?_, hy.1, ?_⟩, .inl rfl, .inl rfl⟩
    · simpa [CanvasPoint.unturned] using hx.2
    · simpa [CanvasPoint.unturned] using hy.2
  · refine ⟨⟨sub_nonneg.2 hx.2, ?_, sub_nonneg.2 hy.2, ?_⟩, .inl ?_, .inl ?_⟩
    · simpa [CanvasPoint.unturned] using hx.1
    · simpa [CanvasPoint.unturned] using hy.1
    · exact (one_sub_div hw.ne')
    · exact (one_sub_div hh.ne')

/-- With one, each axis is measured against the extent of the other. -/
theorem turned_iff {rotation : Rotation} {w h x y : ℚ} {a b : Prop} (hw : 0 < w) (hh : 0 < h)
    (hx : 0 ≤ x ∧ x ≤ w) (hy : 0 ≤ y ∧ y ≤ h) (hrot : rotation = .cw90 ∨ rotation = .cw270) :
    (InUnit ((x - 0) / h) ∧ InUnit ((y - 0) / w) ∧
      (⟨0, 0, h, w⟩ : Rect).Contains ((CanvasPoint.unturned rotation ⟨w, h, x, y⟩).x,
        (CanvasPoint.unturned rotation ⟨w, h, x, y⟩).y) ∧
      ((unitTransform rotation.toWlTransform ((x - 0) / h) ((y - 0) / w)).1 =
        ((CanvasPoint.unturned rotation ⟨w, h, x, y⟩).x - 0) / h ∨ a) ∧
      ((unitTransform rotation.toWlTransform ((x - 0) / h) ((y - 0) / w)).2 =
        ((CanvasPoint.unturned rotation ⟨w, h, x, y⟩).y - 0) / w ∨ b)) ↔
      w = h ∨ (x ≤ h ∧ y ≤ w) ∧ (a ∨ y = 0) ∧ (b ∨ x = 0) := by
  rw [← quarter_iff hw hh hx hy]
  simp only [sub_zero]
  refine and_congr_right fun _ => and_congr_right fun _ => ?_
  rcases hrot with rfl | rfl
  · have hcontains : (⟨0, 0, h, w⟩ : Rect).Contains (h - y, x) :=
      ⟨sub_nonneg.2 hy.2, by simpa using hy.1, hx.1, by simpa using hx.2⟩
    have hshare : 1 - y / w = (h - y) / h ↔ y / w = y / h := by
      rw [← one_sub_div hh.ne', sub_right_inj]
    exact (and_iff_right hcontains).trans (and_congr (or_congr hshare .rfl) .rfl)
  · have hcontains : (⟨0, 0, h, w⟩ : Rect).Contains (y, w - x) :=
      ⟨hy.1, by simpa using hy.2, sub_nonneg.2 hx.2, by simpa using hx.1⟩
    have hshare : 1 - x / h = (w - x) / w ↔ x / h = x / w := by
      rw [← one_sub_div hw.ne', sub_right_inj]
    exact (and_iff_right hcontains).trans (and_congr .rfl (or_congr hshare .rfl))

/-- The pointer is mapped to what is shown exactly at the points where it does not matter that the
rectangles are those of the display before the rotation. -/
theorem Projection.mapsShown_iff (hsrc : p.link.srcRect = .full) (hdst : p.link.dstRect = .full)
    (hfill : p.layout.fillmode.Covers) {x y : ℚ} (hx : 0 ≤ x ∧ x ≤ p.info.width)
    (hy : 0 ≤ y ∧ y ≤ p.info.height) :
    p.project.MapsShown ⟨p.info.width, p.info.height, x, y⟩ ↔ p.PointerExact x y := by
  obtain ⟨hdest, ⟨hsw, hsw0⟩, ⟨hsh, hsh0⟩, ht⟩ := Projection.project_eq hsrc hdst hfill
  rw [ProjectedConfig.mapsShown_iff_unit ht hsw hsh, hsw0, hsh0, ht]
  unfold Projection.PointerExact
  by_cases hturned : p.layout.rotation = .cw90 ∨ p.layout.rotation = .cw270
  · rw [if_pos hturned] at hdest
    rw [hdest, Nat.cast_pos, Nat.cast_pos, and_comm (a := 0 < p.info.height)]
    refine and_congr_right fun hpos => ?_
    refine (turned_iff (Nat.cast_pos.2 hpos.1) (Nat.cast_pos.2 hpos.2) hx hy hturned).trans ?_
    rw [Nat.cast_inj, imp_iff_right hturned]
  · have hstraight : p.layout.rotation = .normal ∨ p.layout.rotation = .cw180 := by
      revert hturned
      cases p.layout.rotation <;> decide
    rw [if_neg hturned] at hdest
    rw [hdest, Nat.cast_pos, Nat.cast_pos]
    refine and_congr_right fun hpos => ?_
    refine iff_of_true ?_ fun h => absurd h hturned
    exact straight_iff (Nat.cast_pos.2 hpos.1) (Nat.cast_pos.2 hpos.2) hx hy hstraight

end Projected

/-- A full-HD display that is given a full-HD texture to cover it. -/
def coveredProjection (rotation : Rotation) : Projection where
  link := ⟨1, 1, 1, true, .full, .full, 0, .black, 0⟩
  texture := (1920, 1080)
  info := ⟨1, "DP-1", none, 1920, 1080, 60000⟩
  configGeneration := 1
  layout := ⟨.preserveAspectCrop, default, rotation⟩

theorem mapsShown_upsideDown :
    (coveredProjection .cw180).project.MapsShown ⟨(1920 : ℕ), (1080 : ℕ), 1500, 500⟩ :=
  (Projection.mapsShown_iff (p := coveredProjection .cw180) rfl rfl trivial
    ⟨by norm_num, by norm_num [coveredProjection]⟩
    ⟨by norm_num, by norm_num [coveredProjection]⟩).2 (by
      refine ⟨by decide, fun h => absurd h (by decide)⟩)

/-- After a quarter turn the right part of the display is beyond the destination, which is as wide
as the display is high. -/
theorem not_mapsShown : ¬∀ (p : Projection) (x y : ℚ), p.link.srcRect = .full →
    p.link.dstRect = .full → p.layout.fillmode.Covers → 0 ≤ x ∧ x ≤ p.info.width →
    0 ≤ y ∧ y ≤ p.info.height →
    p.project.MapsShown ⟨p.info.width, p.info.height, x, y⟩ := by
  intro h
  obtain ⟨t, ht, -⟩ := h (coveredProjection .cw90) 1500 500 rfl rfl trivial
    ⟨by norm_num, by norm_num [coveredProjection]⟩ ⟨by norm_num, by norm_num [coveredProjection]⟩
  have hnone : displayPointToTexture 1500 500 (coveredProjection .cw90).project = none := by
    decide +kernel
  cases hnone.symm.trans ht

end Waywallen
