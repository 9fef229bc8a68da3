import Hima.Camera.CoordinateMapper
import Hima.Lib.Rounding
import Mathlib.Tactic.LinearCombination
import Mathlib.Tactic.Positivity

/-!
# RotateAndCropMapper

What an application says of a rotated and cropped view is mapped to the active array, and what the device
reports is mapped back. Floats are exact rationals.
-/
namespace Hima.CoordinateMapper

open Rounding

def ANDROID_SCALER_ROTATE_AND_CROP_NONE : Nat := 0

def ANDROID_SCALER_ROTATE_AND_CROP_90 : Nat := 1

def ANDROID_SCALER_ROTATE_AND_CROP_180 : Nat := 2

def ANDROID_SCALER_ROTATE_AND_CROP_270 : Nat := 3

inductive RotateMode where
  | rotate90
  | rotate180
  | rotate270
  deriving DecidableEq

/-- The switch over the modes; all others are unexpected. -/
def RotateMode.ofU8 (mode : Nat) : Option RotateMode :=
  if mode = ANDROID_SCALER_ROTATE_AND_CROP_180 then some .rotate180
  else if mode = ANDROID_SCALER_ROTATE_AND_CROP_90 then some .rotate90
  else if mode = ANDROID_SCALER_ROTATE_AND_CROP_270 then some .rotate270
  else none

/-- The crop region. -/
structure Crop where
  cx : Int
  cy : Int
  cw : Int
  ch : Int

/-- `transformMat`, the shifts and the origin. -/
structure Transform where
  mat0 : ℚ := 0
  mat1 : ℚ := 0
  mat2 : ℚ := 0
  mat3 : ℚ := 0
  xShift : ℚ
  yShift : ℚ
  ox : ℚ
  oy : ℚ

/-- The point before it is rounded. -/
def Transform.apply (t : Transform) (p : ℚ × ℚ) : ℚ × ℚ :=
  let x0 := p.1 - t.ox
  let y0 := p.2 - t.oy
  (t.mat0 * x0 + t.mat1 * y0 + t.xShift + t.ox, t.mat2 * x0 + t.mat3 * y0 + t.yShift + t.oy)

structure RotateAndCropMapper where
  mArrayWidth : Int
  mArrayHeight : Int

/-- Two corners, with the lesser coordinates first. -/
def swapRectToMinFirst : List Int → List Int
  | x0 :: y0 :: x1 :: y1 :: rest =>
    (if x0 > x1 then x1 else x0) :: (if y0 > y1 then y1 else y0) ::
      (if x0 > x1 then x0 else x1) :: (if y0 > y1 then y0 else y1) :: rest
  | pts => pts

/-- The loop over regions of four coordinates and a weight; a region without weight stays as it is. -/
def mapRegions (f : List Int → List Int) : List Int → List Int
  | x0 :: y0 :: x1 :: y1 :: weight :: rest =>
    (if weight = 0 then [x0, y0, x1, y1] else f [x0, y0, x1, y1]) ++ weight :: mapRegions f rest
  | rest => rest

/-- The loop over rectangles of four coordinates. -/
def mapRects (f : List Int → List Int) : List Int → List Int
  | x0 :: y0 :: x1 :: y1 :: rest => f [x0, y0, x1, y1] ++ mapRects f rest
  | rest => rest

namespace RotateAndCropMapper

variable (m : RotateAndCropMapper)

def mArrayAspect : ℚ := m.mArrayWidth / m.mArrayHeight

def mRotateAspect : ℚ := 1 / m.mArrayAspect

def transformPoints (t : Transform) : List Int → List Int
  | x :: y :: pts =>
    let n := t.apply (x, y)
    place m.mArrayWidth n.1 :: place m.mArrayHeight n.2 :: transformPoints t pts
  | pts => pts

/-- The crop region of a request or a result, the whole array where there is none. -/
def cropRegion (metadata : CameraMetadata ℚ) : Crop :=
  match metadata.i32 .scalerCropRegion with
  | [cx, cy, cw, ch] => ⟨cx, cy, cw, ch⟩
  | _ => ⟨0, 0, m.mArrayWidth, m.mArrayHeight⟩

variable (crop : Crop)

def cropAspect (crop : Crop) : ℚ := crop.cw / crop.ch

/-- The width of the rotated region: pillarbox, or full width. -/
def rw : ℚ := if cropAspect crop > m.mRotateAspect then crop.ch * m.mRotateAspect else crop.cw

/-- The height of the rotated region: full height, or letterbox. -/
def rh : ℚ := if cropAspect crop ≥ m.mRotateAspect then crop.ch else crop.cw / m.mRotateAspect

/-- What updateCaptureRequest makes of the mode. -/
def requestTransform : RotateMode → Transform
  | .rotate180 =>
    { mat0 := -1, mat3 := -1, xShift := crop.cw, yShift := crop.ch, ox := crop.cx, oy := crop.cy }
  | .rotate90 =>
    { mat1 := -m.rw crop / crop.ch, mat2 := m.rh crop / crop.cw
      xShift := (crop.cw + m.rw crop) / 2, yShift := (crop.ch - m.rh crop) / 2
      ox := crop.cx, oy := crop.cy }
  | .rotate270 =>
    { mat1 := m.rw crop / crop.ch, mat2 := -m.rh crop / crop.cw
      xShift := (crop.cw - m.rw crop) / 2, yShift := (crop.ch + m.rh crop) / 2
      ox := crop.cx, oy := crop.cy }

/-- The top left corner of the rotated region. -/
def rx : ℚ := crop.cx + (crop.cw - m.rw crop) / 2

def ry : ℚ := crop.cy + (crop.ch - m.rh crop) / 2

/-- What updateCaptureResult makes of the mode. -/
def resultTransform : RotateMode → Transform
  | .rotate180 =>
    { mat0 := -1, mat3 := -1, xShift := crop.cw, yShift := crop.ch, ox := crop.cx, oy := crop.cy }
  | .rotate90 =>
    { mat1 := crop.ch / m.rw crop, mat2 := -crop.cw / m.rh crop
      xShift := -(crop.cw - m.rw crop) / 2, yShift := m.ry crop - crop.cy + crop.ch
      ox := m.rx crop, oy := m.ry crop }
  | .rotate270 =>
    { mat1 := -crop.ch / m.rw crop, mat2 := crop.cw / m.rh crop
      xShift := (crop.cw + m.rw crop) / 2, yShift := (crop.ch - m.rh crop) / 2
      ox := m.rx crop, oy := m.ry crop }

/-- The metering regions go through the map. -/
def correctRegions (t : Transform) (metadata : CameraMetadata ℚ) : CameraMetadata ℚ :=
  kMeteringRegionsToCorrect.foldl (fun metadata tag =>
    metadata.setI32 tag
      (mapRegions (fun pts => swapRectToMinFirst (m.transformPoints t pts)) (metadata.i32 tag))) metadata

/-- The points of the statistics go through the map, and the face rectangles are put in order. -/
def correctPoints (t : Transform) (metadata : CameraMetadata ℚ) : CameraMetadata ℚ :=
  kResultPointsToCorrectNoClamp.foldl (fun metadata tag =>
    let pts := m.transformPoints t (metadata.i32 tag)
    metadata.setI32 tag
      (if tag = .statisticsFaceRectangles then mapRects swapRectToMinFirst pts else pts)) metadata

def updateCaptureRequest (request : CameraMetadata ℚ) : StatusT × CameraMetadata ℚ :=
  match request.u8 .scalerRotateAndCrop with
  | [] => (.ok, request)
  | rotateMode :: _ =>
    if rotateMode = ANDROID_SCALER_ROTATE_AND_CROP_NONE then (.ok, request)
    else
      match RotateMode.ofU8 rotateMode with
      | none => (.badValue, request)
      | some mode =>
        (.ok, m.correctRegions (m.requestTransform (m.cropRegion request) mode) request)

def updateCaptureResult (result : CameraMetadata ℚ) : StatusT × CameraMetadata ℚ :=
  match result.u8 .scalerRotateAndCrop with
  | [] => (.ok, result)
  | rotateMode :: _ =>
    if rotateMode = ANDROID_SCALER_ROTATE_AND_CROP_NONE then (.ok, result)
    else
      match RotateMode.ofU8 rotateMode with
      | none => (.badValue, result)
      | some mode =>
        let t := m.resultTransform (m.cropRegion result) mode
        (.ok, m.correctPoints t (m.correctRegions t result))

end RotateAndCropMapper

/-!
## Rotated points and back

The map of a result takes back the one of a request for half turns. For quarter turns it does so just where
the crop region has the aspect ratio of an array that is not higher than wide.
-/
/-! ### Maps of points -/

namespace Transform

/-- How much a map stretches each of the two coordinates. -/
def xGain (t : Transform) : ℚ := |t.mat0| + |t.mat1|

def yGain (t : Transform) : ℚ := |t.mat2| + |t.mat3|

theorem apply_sub_fst (t : Transform) (p q : ℚ × ℚ) :
    (t.apply p).1 - (t.apply q).1 = t.mat0 * (p.1 - q.1) + t.mat1 * (p.2 - q.2) := by
  simp only [apply]
  ring

theorem apply_sub_snd (t : Transform) (p q : ℚ × ℚ) :
    (t.apply p).2 - (t.apply q).2 = t.mat2 * (p.1 - q.1) + t.mat3 * (p.2 - q.2) := by
  simp only [apply]
  ring

/-- Two entries of the matrix, each with a coordinate that was rounded. -/
theorem abs_gain_le {a b x y : ℚ} (xNear : |x| ≤ 1 / 2) (yNear : |y| ≤ 1 / 2) :
    |a * x + b * y| ≤ (|a| + |b|) / 2 := by
  calc |a * x + b * y| ≤ |a| * |x| + |b| * |y| := by
        rw [← abs_mul, ← abs_mul]
        exact abs_add_le _ _
    _ ≤ |a| * (1 / 2) + |b| * (1 / 2) := by gcongr
    _ = (|a| + |b|) / 2 := by ring

end Transform

/-! ### Crop regions -/

/-- The crop region has a size and lies in the array. -/
structure Crop.Inside (crop : Crop) (m : RotateAndCropMapper) : Prop where
  left : 0 ≤ crop.cx
  top : 0 ≤ crop.cy
  width : 0 < crop.cw
  height : 0 < crop.ch
  right : crop.cx + crop.cw ≤ m.mArrayWidth
  bottom : crop.cy + crop.ch ≤ m.mArrayHeight
  int32 : m.mArrayWidth < 2 ^ 31 ∧ m.mArrayHeight < 2 ^ 31

/-- The point is in the crop region or on its border. -/
def Crop.Contains (crop : Crop) (p : ℚ × ℚ) : Prop :=
  ((crop.cx : ℚ) ≤ p.1 ∧ p.1 ≤ crop.cx + crop.cw) ∧ (crop.cy : ℚ) ≤ p.2 ∧ p.2 ≤ crop.cy + crop.ch

namespace RotateAndCropMapper

variable {m : RotateAndCropMapper} {crop : Crop}

/-- Every point of the crop region comes back to where it was. -/
def Inverse (m : RotateAndCropMapper) (crop : Crop) (mode : RotateMode) : Prop :=
  ∀ p, crop.Contains p →
    (m.resultTransform crop mode).apply ((m.requestTransform crop mode).apply p) = p

/-- The map of a result takes back the one of a request, and a point that is rounded after each of them is
moved by the rounding, scaled by the map, and by the rounding itself. -/
structure RoundTrips (m : RotateAndCropMapper) (crop : Crop) (mode : RotateMode) : Prop where
  inverse : m.Inverse crop mode
  near : ∀ x y : Int, crop.Contains (x, y) → ∃ x' y' : Int,
    m.transformPoints (m.resultTransform crop mode)
      (m.transformPoints (m.requestTransform crop mode) [x, y]) = [x', y'] ∧
    |(x' : ℚ) - x| ≤ (m.resultTransform crop mode).xGain / 2 + 1 / 2 ∧
    |(y' : ℚ) - y| ≤ (m.resultTransform crop mode).yGain / 2 + 1 / 2

/-- The crop region has the aspect ratio of the array, which is not higher than wide. -/
def SameAspect (m : RotateAndCropMapper) (crop : Crop) : Prop :=
  crop.cw * m.mArrayHeight = crop.ch * m.mArrayWidth ∧ m.mArrayHeight ≤ m.mArrayWidth

/-! ### The rotated region -/

theorem mRotateAspect_eq (m : RotateAndCropMapper) : m.mRotateAspect = m.mArrayHeight / m.mArrayWidth := by
  rw [mRotateAspect, mArrayAspect, one_div_div]

/-- The sides of the rotated region and of the crop region as positive numbers. -/
structure Sides (m : RotateAndCropMapper) (crop : Crop) : Prop where
  cw : (0 : ℚ) < crop.cw
  ch : (0 : ℚ) < crop.ch
  array : (0 : ℚ) < m.mArrayWidth ∧ (0 : ℚ) < m.mArrayHeight
  rw : 0 < m.rw crop ∧ m.rw crop ≤ crop.cw
  rh : 0 < m.rh crop ∧ m.rh crop ≤ crop.ch

theorem sides (inside : crop.Inside m) : Sides m crop := by
  have cw : (0 : ℚ) < crop.cw := by exact_mod_cast inside.width
  have ch : (0 : ℚ) < crop.ch := by exact_mod_cast inside.height
  have width : (0 : ℚ) < m.mArrayWidth := by
    have := inside.right
    have := inside.left
    have := inside.width
    exact_mod_cast (by omega : 0 < m.mArrayWidth)
  have height : (0 : ℚ) < m.mArrayHeight := by
    have := inside.bottom
    have := inside.top
    have := inside.height
    exact_mod_cast (by omega : 0 < m.mArrayHeight)
  have aspect : 0 < m.mRotateAspect := by
    rw [mRotateAspect_eq]
    positivity
  refine ⟨cw, ch, ⟨width, height⟩, ?_, ?_⟩
  · rw [RotateAndCropMapper.rw]
    split
    next pillarbox =>
      have narrow := (lt_div_iff₀ ch).mp pillarbox
      exact ⟨by positivity, by linarith⟩
    next => exact ⟨cw, le_refl _⟩
  · rw [RotateAndCropMapper.rh]
    split
    next => exact ⟨ch, le_refl _⟩
    next letterbox =>
      have flat := (div_lt_iff₀ ch).mp (not_le.mp letterbox)
      exact ⟨by positivity, (div_le_iff₀ aspect).mpr (by linarith)⟩

/-- The rotated region has the height of the crop region, and turning it keeps the area of that region, just
where the aspect ratios agree. -/
theorem sameAspect_iff (inside : crop.Inside m) :
    crop.ch * m.rh crop = m.rw crop * crop.cw ∧ m.rh crop = crop.ch ↔ m.SameAspect crop := by
  obtain ⟨cw, ch, ⟨width, height⟩, -, -⟩ := sides inside
  have aspect : 0 < m.mRotateAspect := by
    rw [mRotateAspect_eq]
    positivity
  have same : m.SameAspect crop ↔
      (crop.cw * m.mArrayHeight : ℚ) = crop.ch * m.mArrayWidth ∧ (m.mArrayHeight : ℚ) ≤ m.mArrayWidth := by
    rw [SameAspect]
    norm_cast
  have compare : m.mRotateAspect < cropAspect crop ↔
      (m.mArrayHeight * crop.ch : ℚ) < crop.cw * m.mArrayWidth := by
    rw [mRotateAspect_eq, cropAspect, div_lt_div_iff₀ width ch]
  have equal : m.mRotateAspect = cropAspect crop ↔
      (m.mArrayHeight * crop.ch : ℚ) = crop.cw * m.mArrayWidth := by
    rw [mRotateAspect_eq, cropAspect, div_eq_div_iff width.ne' ch.ne']
  rw [same, RotateAndCropMapper.rw, RotateAndCropMapper.rh]
  rcases lt_trichotomy m.mRotateAspect (cropAspect crop) with pillarbox | square | letterbox
  · -- the region keeps its height, and the array is wide because the region is
    have wide := compare.mp pillarbox
    rw [if_pos pillarbox, if_pos pillarbox.le, mRotateAspect_eq]
    have areas : (crop.ch * crop.ch : ℚ) = crop.ch * (m.mArrayHeight / m.mArrayWidth) * crop.cw ↔
        (crop.cw * m.mArrayHeight : ℚ) = crop.ch * m.mArrayWidth := by
      field_simp
      constructor <;> intro equation <;> linarith
    rw [areas, and_iff_left rfl, iff_self_and]
    intro ratio
    by_contra high
    nlinarith
  · -- the region keeps both sides, which agree only where the array is a square
    have ratio' := equal.mp square
    rw [if_neg square.not_lt, if_pos square.le, and_iff_left rfl]
    constructor
    · intro squares
      have side : (crop.ch : ℚ) = crop.cw := by nlinarith
      rw [side] at ratio' ⊢
      have arrays : (m.mArrayHeight : ℚ) = m.mArrayWidth := by
        apply mul_right_cancel₀ cw.ne'
        linarith
      rw [arrays]
      exact ⟨rfl, le_refl _⟩
    · rintro ⟨ratio, -⟩
      have products : (crop.ch * crop.ch - crop.cw * crop.cw) * (m.mArrayWidth * m.mArrayHeight : ℚ) = 0 := by
        linear_combination crop.ch * m.mArrayWidth * ratio' - crop.cw * m.mArrayWidth * ratio
      have areas := (mul_eq_zero.mp products).resolve_right (by positivity)
      linarith
  · -- the region loses height
    have flat : (crop.cw * m.mArrayWidth : ℚ) < m.mArrayHeight * crop.ch :=
      lt_of_le_of_ne (not_lt.mp ((not_congr compare).mp letterbox.not_gt))
        (Ne.symm ((not_congr equal).mp letterbox.ne'))
    rw [if_neg letterbox.not_gt, if_neg letterbox.not_ge]
    refine iff_of_false ?_ ?_
    · rintro ⟨-, full⟩
      rw [mRotateAspect_eq, div_eq_iff (by positivity)] at full
      field_simp at full
      linarith
    · rintro ⟨ratio, wide⟩
      have upper : (crop.cw * m.mArrayHeight : ℚ) ≤ crop.cw * m.mArrayWidth := by gcongr
      have lower : (crop.ch * m.mArrayHeight : ℚ) ≤ crop.ch * m.mArrayWidth := by gcongr
      linarith

/-! ### The composition -/

theorem share_bounds {side share : ℚ} (nonneg : 0 ≤ side) (unit : 0 ≤ share ∧ share ≤ 1) :
    0 ≤ side * share ∧ side * share ≤ side :=
  ⟨mul_nonneg nonneg unit.1, mul_le_of_le_one_right nonneg unit.2⟩

/-- A point of the crop region stays in it: it goes to the rotated region. -/
theorem contains_request (inside : crop.Inside m) (mode : RotateMode) {p : ℚ × ℚ} (contains : crop.Contains p) :
    crop.Contains ((m.requestTransform crop mode).apply p) := by
  obtain ⟨cw, ch, -, ⟨rw, rw_le⟩, ⟨rh, rh_le⟩⟩ := sides inside
  obtain ⟨⟨left, right⟩, top, bottom⟩ := contains
  have x0 : 0 ≤ (p.1 - crop.cx) / crop.cw ∧ (p.1 - crop.cx) / crop.cw ≤ 1 :=
    ⟨div_nonneg (by linarith) cw.le, (div_le_one cw).mpr (by linarith)⟩
  have y0 : 0 ≤ (p.2 - crop.cy) / crop.ch ∧ (p.2 - crop.cy) / crop.ch ≤ 1 :=
    ⟨div_nonneg (by linarith) ch.le, (div_le_one ch).mpr (by linarith)⟩
  -- a quarter turn takes each share of one side to the same share of the other
  obtain ⟨x_low, x_high⟩ := share_bounds rw.le y0
  obtain ⟨y_low, y_high⟩ := share_bounds rh.le x0
  cases mode with
  | rotate180 =>
    simp only [Crop.Contains, requestTransform, Transform.apply]
    refine ⟨⟨?_, ?_⟩, ?_, ?_⟩ <;> linarith
  | rotate90 =>
    have x : ((m.requestTransform crop .rotate90).apply p).1 =
        crop.cx + (crop.cw + m.rw crop) / 2 - m.rw crop * ((p.2 - crop.cy) / crop.ch) := by
      simp only [requestTransform, Transform.apply]
      ring
    have y : ((m.requestTransform crop .rotate90).apply p).2 =
        crop.cy + (crop.ch - m.rh crop) / 2 + m.rh crop * ((p.1 - crop.cx) / crop.cw) := by
      simp only [requestTransform, Transform.apply]
      ring
    rw [Crop.Contains, x, y]
    refine ⟨⟨?_, ?_⟩, ?_, ?_⟩ <;> linarith
  | rotate270 =>
    have x : ((m.requestTransform crop .rotate270).apply p).1 =
        crop.cx + (crop.cw - m.rw crop) / 2 + m.rw crop * ((p.2 - crop.cy) / crop.ch) := by
      simp only [requestTransform, Transform.apply]
      ring
    have y : ((m.requestTransform crop .rotate270).apply p).2 =
        crop.cy + (crop.ch + m.rh crop) / 2 - m.rh crop * ((p.1 - crop.cx) / crop.cw) := by
      simp only [requestTransform, Transform.apply]
      ring
    rw [Crop.Contains, x, y]
    refine ⟨⟨?_, ?_⟩, ?_, ?_⟩ <;> linarith

/-- A quarter turn and back, in the coordinates of the crop region. -/
theorem turn90 (inside : crop.Inside m) (u v : ℚ) :
    (m.resultTransform crop .rotate90).apply
        ((m.requestTransform crop .rotate90).apply (crop.cx + u, crop.cy + v)) =
      (crop.cx + crop.ch * m.rh crop / (m.rw crop * crop.cw) * u,
        crop.cy + (crop.ch - m.rh crop) + (crop.ch - m.rw crop * crop.cw / m.rh crop) +
          m.rw crop * crop.cw / (crop.ch * m.rh crop) * v) := by
  obtain ⟨cw, ch, -, ⟨rw, -⟩, ⟨rh, -⟩⟩ := sides inside
  simp only [requestTransform, resultTransform, Transform.apply, rx, ry, Prod.mk.injEq]
  constructor
  · field_simp
    ring
  · field_simp
    ring

theorem turn270 (inside : crop.Inside m) (u v : ℚ) :
    (m.resultTransform crop .rotate270).apply
        ((m.requestTransform crop .rotate270).apply (crop.cx + u, crop.cy + v)) =
      (crop.cx + (crop.cw - crop.ch * m.rh crop / m.rw crop) + crop.ch * m.rh crop / (m.rw crop * crop.cw) * u,
        crop.cy + (crop.ch - m.rh crop) + m.rw crop * crop.cw / (crop.ch * m.rh crop) * v) := by
  obtain ⟨cw, ch, -, ⟨rw, -⟩, ⟨rh, -⟩⟩ := sides inside
  simp only [requestTransform, resultTransform, Transform.apply, rx, ry, Prod.mk.injEq]
  constructor
  · field_simp
    ring
  · field_simp
    ring

theorem inverse180 : m.Inverse crop .rotate180 := by
  intro p _
  simp only [requestTransform, resultTransform, Transform.apply]
  ext <;> ring

/-- Turning keeps the area and the height where the aspect ratios agree. -/
theorem SameAspect.inverse (same : m.SameAspect crop) (inside : crop.Inside m) (mode : RotateMode) :
    m.Inverse crop mode := by
  obtain ⟨-, ch, -, ⟨rw, -⟩, -⟩ := sides inside
  obtain ⟨area, full⟩ := (sameAspect_iff inside).mpr same
  intro p _
  have coordinates : p = (crop.cx + (p.1 - crop.cx), crop.cy + (p.2 - crop.cy)) := by simp
  have area' : m.rw crop * crop.cw = crop.ch * crop.ch := by rw [← area, full]
  cases mode with
  | rotate180 => exact inverse180 p ‹_›
  | rotate90 =>
    rw [coordinates, turn90 inside, area', full]
    ext
    · field_simp
    · field_simp
      ring
  | rotate270 =>
    have cw : crop.ch * crop.ch / m.rw crop = crop.cw := by
      rw [← area']
      field_simp
    rw [coordinates, turn270 inside, area', full, cw]
    ext <;> field_simp <;> ring

/-- The corners of the crop region show whether the area and the height are kept. -/
theorem Inverse.sameAspect {mode : RotateMode} (inverse : m.Inverse crop mode) (inside : crop.Inside m)
    (quarter : mode ≠ .rotate180) : m.SameAspect crop := by
  obtain ⟨cw, ch, -, ⟨rw, -⟩, ⟨rh, -⟩⟩ := sides inside
  have topLeft : crop.Contains (crop.cx + 0, crop.cy + 0) := by
    refine ⟨⟨?_, ?_⟩, ?_, ?_⟩ <;> linarith
  have topRight : crop.Contains (crop.cx + crop.cw, crop.cy + 0) := by
    refine ⟨⟨?_, ?_⟩, ?_, ?_⟩ <;> linarith
  rw [← sameAspect_iff inside]
  cases mode with
  | rotate180 => exact absurd rfl quarter
  | rotate90 =>
    have corner := inverse _ topRight
    rw [turn90 inside, Prod.mk.injEq] at corner
    obtain ⟨x, y⟩ := corner
    have area : crop.ch * m.rh crop = m.rw crop * crop.cw := by
      field_simp at x
      linarith
    rw [← area, mul_div_cancel_right₀ _ rh.ne'] at y
    exact ⟨area, by linarith⟩
  | rotate270 =>
    have corner := inverse _ topLeft
    rw [turn270 inside, Prod.mk.injEq] at corner
    obtain ⟨x, y⟩ := corner
    have area : crop.ch * m.rh crop = crop.cw * m.rw crop := (div_eq_iff rw.ne').mp (by linarith)
    exact ⟨area.trans (mul_comm _ _), by linarith⟩

/-! ### Rounded points -/

theorem Inverse.roundTrips {mode : RotateMode} (inverse : m.Inverse crop mode) (inside : crop.Inside m) :
    m.RoundTrips crop mode := by
  refine ⟨inverse, fun x y contains => ?_⟩
  have array : ∀ {p : ℚ × ℚ}, crop.Contains p →
      ((0 : ℚ) ≤ p.1 ∧ p.1 ≤ m.mArrayWidth) ∧ (0 : ℚ) ≤ p.2 ∧ p.2 ≤ m.mArrayHeight := by
    rintro p ⟨⟨left, right⟩, top, bottom⟩
    have cx : (0 : ℚ) ≤ crop.cx := by exact_mod_cast inside.left
    have cy : (0 : ℚ) ≤ crop.cy := by exact_mod_cast inside.top
    have width : (crop.cx + crop.cw : ℚ) ≤ m.mArrayWidth := by exact_mod_cast inside.right
    have height : (crop.cy + crop.ch : ℚ) ≤ m.mArrayHeight := by exact_mod_cast inside.bottom
    exact ⟨⟨by linarith, by linarith⟩, by linarith, by linarith⟩
  obtain ⟨smallWidth, smallHeight⟩ := inside.int32
  -- the point in the array, first as it is and then rounded
  set n := (m.requestTransform crop mode).apply (x, y) with hn
  set n' : ℚ × ℚ := (place m.mArrayWidth n.1, place m.mArrayHeight n.2) with hn'
  obtain ⟨⟨nLeft, nRight⟩, nTop, nBottom⟩ := array (contains_request inside mode contains)
  have nearX : |n'.1 - n.1| ≤ 1 / 2 := by
    have near := abs_place_sub_le smallWidth nLeft nRight n.1
    rwa [sub_self, abs_zero, zero_add] at near
  have nearY : |n'.2 - n.2| ≤ 1 / 2 := by
    have near := abs_place_sub_le smallHeight nTop nBottom n.2
    rwa [sub_self, abs_zero, zero_add] at near
  set t := m.resultTransform crop mode with ht
  have back : t.apply n = ((x : ℚ), (y : ℚ)) := inverse _ contains
  have movedX : |(t.apply n').1 - x| ≤ t.xGain / 2 := by
    have moved := t.apply_sub_fst n' n
    rw [back] at moved
    rw [moved]
    exact Transform.abs_gain_le nearX nearY
  have movedY : |(t.apply n').2 - y| ≤ t.yGain / 2 := by
    have moved := t.apply_sub_snd n' n
    rw [back] at moved
    rw [moved]
    exact Transform.abs_gain_le nearX nearY
  obtain ⟨⟨left, right⟩, top, bottom⟩ := array contains
  refine ⟨place m.mArrayWidth (t.apply n').1, place m.mArrayHeight (t.apply n').2, rfl, ?_, ?_⟩
  · exact (abs_place_sub_le smallWidth left right _).trans (by linarith)
  · exact (abs_place_sub_le smallHeight top bottom _).trans (by linarith)

/-- Points come back from half turns always, and from quarter turns just where the aspect ratios agree. -/
theorem roundTrips_iff (m : RotateAndCropMapper) (crop : Crop) (mode : RotateMode) (inside : crop.Inside m) :
    m.RoundTrips crop mode ↔ mode = .rotate180 ∨ m.SameAspect crop := by
  constructor
  · rintro ⟨inverse, -⟩
    by_cases half : mode = .rotate180
    · exact .inl half
    · exact .inr (Inverse.sameAspect inverse inside half)
  · intro condition
    have inverse : m.Inverse crop mode := by
      rcases condition with rfl | same
      · exact inverse180
      · exact same.inverse inside mode
    exact inverse.roundTrips inside

/-- A crop region of 2000 x 1500 pixels in an array of 4000 x 3000 pixels. -/
theorem roundTrips_sample : RoundTrips ⟨4000, 3000⟩ ⟨1000, 500, 2000, 1500⟩ .rotate90 :=
  (roundTrips_iff _ _ _ (by constructor <;> decide)).mpr (.inr ⟨by decide, by decide⟩)

/-- With a crop region that is a square the corner in the top right does not come back. -/
theorem square_crop_lost :
    ¬ ∀ (m : RotateAndCropMapper) (crop : Crop) (mode : RotateMode), crop.Inside m → m.RoundTrips crop mode := by
  intro all
  have trips := all ⟨4000, 3000⟩ ⟨1000, 500, 2000, 2000⟩ .rotate90 (by constructor <;> decide)
  have back := trips.inverse (3000, 500) (by norm_num [Crop.Contains])
  norm_num [Transform.apply, requestTransform, resultTransform, RotateAndCropMapper.rw,
    RotateAndCropMapper.rh, rx, ry, cropAspect, mRotateAspect, mArrayAspect] at back

end RotateAndCropMapper

end Hima.CoordinateMapper
