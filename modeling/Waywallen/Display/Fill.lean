import Waywallen.Display.Layout
import Mathlib.Tactic.FieldSimp
import Mathlib.Tactic.Linarith

/-!
# Fill modes

Where the fill modes place a texture: the destination stays on the display and the source on the
texture, and each mode scales and aligns as its name says. A rectangle is placed axis by axis, at
the part of the free length that the location gives.
-/

namespace Waywallen

/-! ## Placing -/

namespace Rect

/-- The rectangle lies in the one from the origin to `(w, h)`. -/
structure Within (r : Rect) (w h : ℚ) : Prop where
  left : 0 ≤ r.x
  top : 0 ≤ r.y
  wide : 0 ≤ r.w
  high : 0 ≤ r.h
  right : r.x + r.w ≤ w
  bottom : r.y + r.h ≤ h

/-- The rectangle touches the left and the right edge, or the top and the bottom one. -/
def Spans (r : Rect) (w h : ℚ) : Prop :=
  (r.x = 0 ∧ r.w = w) ∨ (r.y = 0 ∧ r.h = h)

/-- The rectangle is brought onto the other one with the scale `s` on both axes. -/
def ScaledTo (source dest : Rect) (s : ℚ) : Prop :=
  dest.w = source.w * s ∧ dest.h = source.h * s

end Rect

/-- What the fill mode of the input promises of its layout. -/
structure LayoutInput.Placed (i : LayoutInput) : Prop where
  dest : i.compute.dest.Within i.dispW i.dispH
  source : i.compute.source.Within i.texW i.texH
  fit : i.fillmode = .preserveAspectFit →
    i.compute.source = ⟨0, 0, i.texW, i.texH⟩ ∧ i.compute.dest.Spans i.dispW i.dispH ∧
      ∃ s, 0 < s ∧ i.compute.source.ScaledTo i.compute.dest s
  crop : i.fillmode = .preserveAspectCrop →
    i.compute.dest = ⟨0, 0, i.dispW, i.dispH⟩ ∧ i.compute.source.Spans i.texW i.texH ∧
      ∃ s, 0 < s ∧ i.compute.source.ScaledTo i.compute.dest s
  centered : i.fillmode = .centered → i.compute.source.ScaledTo i.compute.dest 1
  /-- With equal aspect ratios the modes that scale coincide. -/
  aspect : i.texW / i.texH = i.dispW / i.dispH → i.fillmode ≠ .centered →
    i.compute = ⟨⟨0, 0, i.texW, i.texH⟩, ⟨0, 0, i.dispW, i.dispH⟩, i.clearRgba⟩

/-! ## One axis -/

theorem factor_mem {n : ℕ} : 0 ≤ ((min n 100 : ℕ) : ℚ) / 100 ∧ ((min n 100 : ℕ) : ℚ) / 100 ≤ 1 := by
  have h : ((min n 100 : ℕ) : ℚ) ≤ 100 := by exact_mod_cast min_le_right n 100
  constructor
  · positivity
  · rw [div_le_one (by norm_num)]
    exact h

theorem Location.hFactor_mem (l : Location) : 0 ≤ l.hFactor ∧ l.hFactor ≤ 1 := factor_mem

theorem Location.vFactor_mem (l : Location) : 0 ≤ l.vFactor ∧ l.vFactor ≤ 1 := factor_mem

section Axis

variable {tex disp part whole factor : ℚ}

/-- A part of a length stays on it at every position of its free length. -/
theorem free_mul_factor (hpart : part ≤ whole) (hfactor : 0 ≤ factor ∧ factor ≤ 1) :
    0 ≤ (whole - part) * factor ∧ (whole - part) * factor + part ≤ whole := by
  have hfree : 0 ≤ whole - part := sub_nonneg.2 hpart
  have hle : (whole - part) * factor ≤ whole - part := mul_le_of_le_one_right hfree hfactor.2
  exact ⟨mul_nonneg hfree hfactor.1, by linarith⟩

theorem axisCentered_cases (tex disp factor : ℚ) :
    (tex ≤ disp ∧ axisCentered tex disp factor = (0, tex, (disp - tex) * factor, tex)) ∨
      disp < tex ∧ axisCentered tex disp factor = ((tex - disp) * factor, disp, 0, disp) := by
  by_cases h : tex ≤ disp
  · exact .inl ⟨h, by simp [axisCentered, h]⟩
  · exact .inr ⟨not_le.1 h, by simp [axisCentered, h]⟩

/-- The length that is drawn is the same on both sides and stays on both. -/
theorem axisCentered_spec (htex : 0 < tex) (hdisp : 0 < disp)
    (hfactor : 0 ≤ factor ∧ factor ≤ 1) {a : ℚ × ℚ × ℚ × ℚ} (ha : axisCentered tex disp factor = a) :
    (0 ≤ a.1 ∧ 0 ≤ a.2.1 ∧ a.1 + a.2.1 ≤ tex) ∧
      (0 ≤ a.2.2.1 ∧ a.2.2.1 + a.2.2.2 ≤ disp) ∧ a.2.2.2 = a.2.1 := by
  subst ha
  rcases axisCentered_cases tex disp factor with ⟨h, heq⟩ | ⟨h, heq⟩ <;> rw [heq]
  · exact ⟨⟨le_rfl, htex.le, by simp⟩, free_mul_factor h hfactor, rfl⟩
  · obtain ⟨hpos, hle⟩ := free_mul_factor h.le hfactor
    exact ⟨⟨hpos, hdisp.le, hle⟩, ⟨le_rfl, by simp⟩, rfl⟩

end Axis

/-! ## The modes -/

namespace LayoutInput

variable {i : LayoutInput}

/-- The texture and the display have an area. -/
structure Proper (i : LayoutInput) : Prop where
  texW : 0 < i.texW
  texH : 0 < i.texH
  dispW : 0 < i.dispW
  dispH : 0 < i.dispH

/-- The scale that brings the texture to the width of the display. -/
def widthScale (i : LayoutInput) : ℚ := i.dispW / i.texW

def heightScale (i : LayoutInput) : ℚ := i.dispH / i.texH

namespace Proper

theorem compute_eq (h : i.Proper) : i.compute =
    match i.fillmode with
    | .stretched => ⟨⟨0, 0, i.texW, i.texH⟩, ⟨0, 0, i.dispW, i.dispH⟩, i.clearRgba⟩
    | .preserveAspectFit =>
        let s := min i.widthScale i.heightScale
        ⟨⟨0, 0, i.texW, i.texH⟩,
          ⟨(i.dispW - i.texW * s) * i.location.hFactor, (i.dispH - i.texH * s) * i.location.vFactor,
            i.texW * s, i.texH * s⟩, i.clearRgba⟩
    | .preserveAspectCrop =>
        let s := max i.widthScale i.heightScale
        ⟨⟨(i.texW - i.dispW / s) * i.location.hFactor, (i.texH - i.dispH / s) * i.location.vFactor,
            i.dispW / s, i.dispH / s⟩, ⟨0, 0, i.dispW, i.dispH⟩, i.clearRgba⟩
    | .centered =>
        let h := axisCentered i.texW i.dispW i.location.hFactor
        let v := axisCentered i.texH i.dispH i.location.vFactor
        ⟨⟨h.1, v.1, h.2.1, v.2.1⟩, ⟨h.2.2.1, v.2.2.1, h.2.2.2, v.2.2.2⟩, i.clearRgba⟩ := by
  have hpos : ¬(i.texW ≤ 0 ∨ i.texH ≤ 0 ∨ i.dispW ≤ 0 ∨ i.dispH ≤ 0) := by
    simp only [not_or, not_le]
    exact ⟨h.texW, h.texH, h.dispW, h.dispH⟩
  rw [compute, if_neg hpos]
  cases i.fillmode <;> rfl

theorem widthScale_pos (h : i.Proper) : 0 < i.widthScale := div_pos h.dispW h.texW

theorem heightScale_pos (h : i.Proper) : 0 < i.heightScale := div_pos h.dispH h.texH

theorem mul_widthScale (h : i.Proper) : i.texW * i.widthScale = i.dispW :=
  mul_div_cancel₀ _ h.texW.ne'

theorem mul_heightScale (h : i.Proper) : i.texH * i.heightScale = i.dispH :=
  mul_div_cancel₀ _ h.texH.ne'

/-- With equal aspect ratios both axes are scaled alike. -/
theorem widthScale_eq (h : i.Proper) (haspect : i.texW / i.texH = i.dispW / i.dispH) :
    i.widthScale = i.heightScale := by
  have htexW := h.texW.ne'
  have htexH := h.texH.ne'
  have hdispH := h.dispH.ne'
  rw [div_eq_div_iff htexH hdispH] at haspect
  rw [widthScale, heightScale, div_eq_div_iff htexW htexH]
  linarith

section Fit

variable {s : ℚ}

/-- The smaller scale keeps the texture on the display and fills it on one axis. -/
theorem fit_scale (h : i.Proper) (hs : min i.widthScale i.heightScale = s) :
    0 < s ∧ i.texW * s ≤ i.dispW ∧ i.texH * s ≤ i.dispH ∧
      (i.texW * s = i.dispW ∨ i.texH * s = i.dispH) := by
  subst hs
  refine ⟨lt_min h.widthScale_pos h.heightScale_pos, ?_, ?_, ?_⟩
  · calc i.texW * min i.widthScale i.heightScale
        ≤ i.texW * i.widthScale := mul_le_mul_of_nonneg_left (min_le_left _ _) h.texW.le
      _ = i.dispW := h.mul_widthScale
  · calc i.texH * min i.widthScale i.heightScale
        ≤ i.texH * i.heightScale := mul_le_mul_of_nonneg_left (min_le_right _ _) h.texH.le
      _ = i.dispH := h.mul_heightScale
  · rcases min_choice i.widthScale i.heightScale with hmin | hmin <;> rw [hmin]
    · exact .inl h.mul_widthScale
    · exact .inr h.mul_heightScale

/-- The larger scale needs no more than the texture and all of it on one axis. -/
theorem crop_scale (h : i.Proper) (hs : max i.widthScale i.heightScale = s) :
    0 < s ∧ i.dispW / s ≤ i.texW ∧ i.dispH / s ≤ i.texH ∧
      (i.dispW / s = i.texW ∨ i.dispH / s = i.texH) := by
  subst hs
  have hpos : 0 < max i.widthScale i.heightScale := lt_max_of_lt_left h.widthScale_pos
  refine ⟨hpos, ?_, ?_, ?_⟩
  · rw [div_le_iff₀ hpos, ← h.mul_widthScale]
    exact mul_le_mul_of_nonneg_left (le_max_left _ _) h.texW.le
  · rw [div_le_iff₀ hpos, ← h.mul_heightScale]
    exact mul_le_mul_of_nonneg_left (le_max_right _ _) h.texH.le
  · rcases max_choice i.widthScale i.heightScale with hmax | hmax <;> rw [hmax]
    · exact .inl ((div_eq_iff h.widthScale_pos.ne').2 h.mul_widthScale.symm)
    · exact .inr ((div_eq_iff h.heightScale_pos.ne').2 h.mul_heightScale.symm)

end Fit

theorem whole_within {w h : ℚ} (hw : 0 < w) (hh : 0 < h) : (⟨0, 0, w, h⟩ : Rect).Within w h :=
  ⟨le_rfl, le_rfl, hw.le, hh.le, (zero_add w).le, (zero_add h).le⟩

theorem placed_stretched (h : i.Proper) (hmode : i.fillmode = .stretched) : i.Placed := by
  have heq : i.compute = ⟨⟨0, 0, i.texW, i.texH⟩, ⟨0, 0, i.dispW, i.dispH⟩, i.clearRgba⟩ := by
    rw [h.compute_eq, hmode]
  constructor
  · rw [heq]
    exact whole_within h.dispW h.dispH
  · rw [heq]
    exact whole_within h.texW h.texH
  · simp [hmode]
  · simp [hmode]
  · simp [hmode]
  · exact fun _ _ => heq

theorem placed_fit (h : i.Proper) (hmode : i.fillmode = .preserveAspectFit) : i.Placed := by
  obtain ⟨s, hs⟩ : ∃ s, min i.widthScale i.heightScale = s := ⟨_, rfl⟩
  have heq : i.compute = ⟨⟨0, 0, i.texW, i.texH⟩,
      ⟨(i.dispW - i.texW * s) * i.location.hFactor, (i.dispH - i.texH * s) * i.location.vFactor,
        i.texW * s, i.texH * s⟩, i.clearRgba⟩ := by
    rw [h.compute_eq, hmode, hs]
  obtain ⟨hpos, hwide, hhigh, hfull⟩ := h.fit_scale hs
  obtain ⟨hx, hright⟩ := free_mul_factor hwide i.location.hFactor_mem
  obtain ⟨hy, hbottom⟩ := free_mul_factor hhigh i.location.vFactor_mem
  constructor
  · rw [heq]
    exact ⟨hx, hy, (mul_pos h.texW hpos).le, (mul_pos h.texH hpos).le, hright, hbottom⟩
  · rw [heq]
    exact whole_within h.texW h.texH
  · intro _
    rw [heq]
    refine ⟨rfl, hfull.imp (fun hw => ?_) (fun hh => ?_), s, hpos, rfl, rfl⟩
    · simp [hw]
    · simp [hh]
  · simp [hmode]
  · simp [hmode]
  · intro haspect _
    have hscale := h.widthScale_eq haspect
    have hw : i.texW * s = i.dispW := by rw [← hs, ← hscale, min_self, h.mul_widthScale]
    have hh : i.texH * s = i.dispH := by rw [← hs, hscale, min_self, h.mul_heightScale]
    simp [heq, hw, hh]

theorem placed_crop (h : i.Proper) (hmode : i.fillmode = .preserveAspectCrop) : i.Placed := by
  obtain ⟨s, hs⟩ : ∃ s, max i.widthScale i.heightScale = s := ⟨_, rfl⟩
  have heq : i.compute =
      ⟨⟨(i.texW - i.dispW / s) * i.location.hFactor, (i.texH - i.dispH / s) * i.location.vFactor,
        i.dispW / s, i.dispH / s⟩, ⟨0, 0, i.dispW, i.dispH⟩, i.clearRgba⟩ := by
    rw [h.compute_eq, hmode, hs]
  obtain ⟨hpos, hwide, hhigh, hfull⟩ := h.crop_scale hs
  obtain ⟨hx, hright⟩ := free_mul_factor hwide i.location.hFactor_mem
  obtain ⟨hy, hbottom⟩ := free_mul_factor hhigh i.location.vFactor_mem
  constructor
  · rw [heq]
    exact whole_within h.dispW h.dispH
  · rw [heq]
    exact ⟨hx, hy, (div_pos h.dispW hpos).le, (div_pos h.dispH hpos).le, hright, hbottom⟩
  · simp [hmode]
  · intro _
    rw [heq]
    refine ⟨rfl, hfull.imp (fun hw => ?_) (fun hh => ?_), s, hpos, ?_, ?_⟩
    · simp [hw]
    · simp [hh]
    · exact (div_mul_cancel₀ _ hpos.ne').symm
    · exact (div_mul_cancel₀ _ hpos.ne').symm
  · simp [hmode]
  · intro haspect _
    have hscale := h.widthScale_eq haspect
    have hw : i.dispW / s = i.texW := by
      rw [← hs, ← hscale, max_self, div_eq_iff h.widthScale_pos.ne', h.mul_widthScale]
    have hh : i.dispH / s = i.texH := by
      rw [← hs, hscale, max_self, div_eq_iff h.heightScale_pos.ne', h.mul_heightScale]
    simp [heq, hw, hh]

theorem placed_centered (h : i.Proper) (hmode : i.fillmode = .centered) : i.Placed := by
  obtain ⟨a, ha⟩ : ∃ a, axisCentered i.texW i.dispW i.location.hFactor = a := ⟨_, rfl⟩
  obtain ⟨b, hb⟩ : ∃ b, axisCentered i.texH i.dispH i.location.vFactor = b := ⟨_, rfl⟩
  have heq : i.compute = ⟨⟨a.1, b.1, a.2.1, b.2.1⟩, ⟨a.2.2.1, b.2.2.1, a.2.2.2, b.2.2.2⟩,
      i.clearRgba⟩ := by
    rw [h.compute_eq, hmode, ha, hb]
  obtain ⟨⟨hsx, hsw, hsr⟩, ⟨hdx, hdr⟩, hw⟩ :=
    axisCentered_spec h.texW h.dispW i.location.hFactor_mem ha
  obtain ⟨⟨hsy, hsh, hsb⟩, ⟨hdy, hdb⟩, hh⟩ :=
    axisCentered_spec h.texH h.dispH i.location.vFactor_mem hb
  constructor
  · rw [heq]
    exact ⟨hdx, hdy, hw ▸ hsw, hh ▸ hsh, hdr, hdb⟩
  · rw [heq]
    exact ⟨hsx, hsy, hsw, hsh, hsr, hsb⟩
  · simp [hmode]
  · simp [hmode]
  · intro _
    rw [heq]
    exact ⟨hw.trans (mul_one _).symm, hh.trans (mul_one _).symm⟩
  · exact fun _ hne => absurd hmode hne

/-- Every fill mode keeps what it promises, wherever the location is. -/
theorem compute_placed (h : i.Proper) : i.Placed := by
  cases hmode : i.fillmode with
  | stretched => exact h.placed_stretched hmode
  | preserveAspectFit => exact h.placed_fit hmode
  | preserveAspectCrop => exact h.placed_crop hmode
  | centered => exact h.placed_centered hmode

end Proper

/-- A wide texture on a narrower display, with a quarter of the free width on its left. -/
theorem compute_placed_wideOnNarrow :
    (⟨1920, 1080, 800, 600, .preserveAspectCrop, ⟨25, 50⟩, .black⟩ : LayoutInput).Placed :=
  Proper.compute_placed ⟨by norm_num, by norm_num, by norm_num, by norm_num⟩

end LayoutInput

end Waywallen
