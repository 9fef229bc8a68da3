import Mathlib.Tactic.Positivity
import Hima.Lib.Rounding

/-!
# ZoomRatioMapper

Coordinates and rectangles that are scaled about the centre of the array. Floats are exact rationals.
-/
namespace Hima.ZoomRatioMapper

open Rounding

/-- The first coordinate of the middle, divided as integers are. -/
def centre (size : Int) : Int := (size - 2).tdiv 2

/-- One coordinate in the loop of scaleCoordinates. -/
def scaleCoordinate (scaleRatio : ℚ) (clamp : Bool) (size x : Int) : Int :=
  let centered : ℚ := x - centre size
  let scaled := centered * scaleRatio + centre size
  let n := toInt32 (halfAway scaled)
  if clamp then min (size - 1) (max 0 n) else n

def scaleCoordinates (scaleRatio : ℚ) (clamp : Bool) (arrayWidth arrayHeight : Int) : List Int → List Int
  | x :: y :: coordPairs =>
    scaleCoordinate scaleRatio clamp arrayWidth x :: scaleCoordinate scaleRatio clamp arrayHeight y ::
      scaleCoordinates scaleRatio clamp arrayWidth arrayHeight coordPairs
  | coordPairs => coordPairs

/-- From a corner and a size to two corners in the rectangle, and back after these were scaled. -/
def scaleRects (scaleRatio : ℚ) (arrayWidth arrayHeight : Int) : List Int → List Int
  | x :: y :: width :: height :: rects =>
    let left := scaleCoordinate scaleRatio true arrayWidth x
    let top := scaleCoordinate scaleRatio true arrayHeight y
    let right := scaleCoordinate scaleRatio true arrayWidth (x + width - 1)
    let bottom := scaleCoordinate scaleRatio true arrayHeight (y + height - 1)
    left :: top :: (right - left + 1) :: (bottom - top + 1) :: scaleRects scaleRatio arrayWidth arrayHeight rects
  | rects => rects

structure Point where
  x : Int
  y : Int

def Point.data (p : Point) : List Int := [p.x, p.y]

structure Rect where
  left : Int
  top : Int
  width : Int
  height : Int

def Rect.data (r : Rect) : List Int := [r.left, r.top, r.width, r.height]

/-- The rectangle has a size and lies in the array. -/
structure Rect.Inside (r : Rect) (arrayWidth arrayHeight : Int) : Prop where
  left : 0 ≤ r.left
  top : 0 ≤ r.top
  width : 0 < r.width
  height : 0 < r.height
  right : r.left + r.width ≤ arrayWidth
  bottom : r.top + r.height ≤ arrayHeight

/-- Every edge is within `e` of the one of the other rectangle. -/
structure Rect.Near (e : ℚ) (r r' : Rect) : Prop where
  left : |(r'.left : ℚ) - r.left| ≤ e
  top : |(r'.top : ℚ) - r.top| ≤ e
  right : |((r'.left + r'.width : Int) : ℚ) - (r.left + r.width : Int)| ≤ e
  bottom : |((r'.top + r'.height : Int) : ℚ) - (r.top + r.height : Int)| ≤ e

variable {z : ℚ} {size x : Int} {arrayWidth arrayHeight : Int}

/-! ### One coordinate -/

theorem scaleCoordinate_eq (scaleRatio : ℚ) (size x : Int) :
    scaleCoordinate scaleRatio true size x =
      place (size - 1) ((x - centre size) * scaleRatio + centre size) := by
  rw [scaleCoordinate, if_pos rfl, place, clamp]

theorem centre_bounds (two_le : 2 ≤ size) : 0 ≤ centre size ∧ centre size ≤ size - 1 := by
  rw [centre, Int.tdiv_eq_ediv_of_nonneg (by omega)]
  omega

/-- Scaling with a positive ratio keeps the order. -/
theorem scaleCoordinate_mono (positive : 0 < z) (size : Int) : Monotone (scaleCoordinate z true size) := by
  intro x y le
  apply place_mono
  have le' : (x : ℚ) ≤ y := by exact_mod_cast le
  gcongr

theorem scaleCoordinate_mem (two_le : 2 ≤ size) (z : ℚ) (x : Int) :
    0 ≤ scaleCoordinate z true size x ∧ scaleCoordinate z true size x ≤ size - 1 :=
  place_mem (by omega) _

/-- What is drawn to the centre stays in the array. -/
theorem shrunk_mem (two_le : 2 ≤ size) (one_le : 1 ≤ z) (low : 0 ≤ x) (high : x ≤ size - 1) :
    (0 : ℚ) ≤ (x - centre size) * (1 / z) + centre size ∧
      (x - centre size) * (1 / z) + centre size ≤ ((size - 1 : Int) : ℚ) := by
  obtain ⟨left, right⟩ := centre_bounds two_le
  have left' : (0 : ℚ) ≤ centre size := by exact_mod_cast left
  have right' : (centre size : ℚ) ≤ ((size - 1 : Int) : ℚ) := by exact_mod_cast right
  have low' : (0 : ℚ) ≤ x := by exact_mod_cast low
  have high' : (x : ℚ) ≤ ((size - 1 : Int) : ℚ) := by exact_mod_cast high
  have positive : 0 < 1 / z := by positivity
  have small : 1 / z ≤ 1 := (div_le_one (by linarith)).mpr one_le
  constructor <;> nlinarith

/-- The first rounding is scaled by the ratio, the second one is added. -/
theorem scaleCoordinate_round_trip (two_le : 2 ≤ size) (int32 : size < 2 ^ 31) (one_le : 1 ≤ z) (low : 0 ≤ x)
    (high : x ≤ size - 1) :
    |(scaleCoordinate z true size (scaleCoordinate (1 / z) true size x) : ℚ) - x| ≤ (z + 1) / 2 := by
  obtain ⟨inLeft, inRight⟩ := shrunk_mem two_le one_le low high
  have first := abs_place_sub_le (by omega : size - 1 < 2 ^ 31) inLeft inRight
    ((x - centre size) * (1 / z) + centre size)
  rw [sub_self, abs_zero, zero_add, ← scaleCoordinate_eq] at first
  set y := scaleCoordinate (1 / z) true size x
  have low' : (0 : ℚ) ≤ x := by exact_mod_cast low
  have high' : (x : ℚ) ≤ ((size - 1 : Int) : ℚ) := by exact_mod_cast high
  have second := abs_place_sub_le (by omega : size - 1 < 2 ^ 31) low' high'
    ((y - centre size) * z + centre size)
  -- without the first rounding the ratios cancel
  have scaled : (y - centre size) * z + centre size - x =
      (y - ((x - centre size) * (1 / z) + centre size)) * z := by
    field_simp
    ring
  calc |(scaleCoordinate z true size y : ℚ) - x| ≤ |(y - centre size) * z + centre size - x| + 1 / 2 := second
    _ = |y - ((x - centre size) * (1 / z) + centre size)| * z + 1 / 2 := by
        rw [scaled, abs_mul, abs_of_nonneg (by linarith : 0 ≤ z)]
    _ ≤ 1 / 2 * z + 1 / 2 := by gcongr
    _ = (z + 1) / 2 := by ring

/-! ### Rectangles -/

/-- scaleRects on one rectangle. -/
def Rect.scale (z : ℚ) (arrayWidth arrayHeight : Int) (r : Rect) : Rect :=
  let left := scaleCoordinate z true arrayWidth r.left
  let top := scaleCoordinate z true arrayHeight r.top
  { left := left
    top := top
    width := scaleCoordinate z true arrayWidth (r.left + r.width - 1) - left + 1
    height := scaleCoordinate z true arrayHeight (r.top + r.height - 1) - top + 1 }

theorem scaleRects_flatMap (z : ℚ) (arrayWidth arrayHeight : Int) (rects : List Rect) :
    scaleRects z arrayWidth arrayHeight (rects.flatMap Rect.data) =
      (rects.map (Rect.scale z arrayWidth arrayHeight)).flatMap Rect.data := by
  induction rects with
  | nil => rfl
  | cons r rects ih =>
    rw [List.flatMap_cons, List.map_cons, List.flatMap_cons, ← ih]
    rfl

theorem scaleCoordinates_flatMap (z : ℚ) (arrayWidth arrayHeight : Int) (points : List Point) :
    scaleCoordinates z true arrayWidth arrayHeight (points.flatMap Point.data) =
      (points.map fun p => Point.mk (scaleCoordinate z true arrayWidth p.x)
        (scaleCoordinate z true arrayHeight p.y)).flatMap Point.data := by
  induction points with
  | nil => rfl
  | cons p points ih =>
    rw [List.flatMap_cons, List.map_cons, List.flatMap_cons, ← ih]
    rfl

/-- The order of the corners is kept, so a size is left. -/
theorem Rect.Inside.scale {r : Rect} (inside : r.Inside arrayWidth arrayHeight) (positive : 0 < z)
    (width : 2 ≤ arrayWidth) (height : 2 ≤ arrayHeight) :
    (r.scale z arrayWidth arrayHeight).Inside arrayWidth arrayHeight := by
  have horizontal := scaleCoordinate_mono positive arrayWidth
    (by have := inside.width; omega : r.left ≤ r.left + r.width - 1)
  have vertical := scaleCoordinate_mono positive arrayHeight
    (by have := inside.height; omega : r.top ≤ r.top + r.height - 1)
  have left := scaleCoordinate_mem width z r.left
  have top := scaleCoordinate_mem height z r.top
  have right := scaleCoordinate_mem width z (r.left + r.width - 1)
  have bottom := scaleCoordinate_mem height z (r.top + r.height - 1)
  constructor <;> dsimp only [Rect.scale] <;> omega

theorem Rect.Inside.near {r : Rect} (inside : r.Inside arrayWidth arrayHeight)
    (one_le : 1 ≤ z) (width : 2 ≤ arrayWidth ∧ arrayWidth < 2 ^ 31) (height : 2 ≤ arrayHeight ∧ arrayHeight < 2 ^ 31) :
    Rect.Near ((z + 1) / 2) r ((r.scale (1 / z) arrayWidth arrayHeight).scale z arrayWidth arrayHeight) := by
  obtain ⟨left, top, some_width, some_height, right, bottom⟩ := inside
  -- the last coordinate inside is what is scaled, and the edge is one more before and after
  have inclusive : ∀ a b : Int, a + (b - a + 1) - 1 = b := by omega
  have edge : ∀ {e : ℚ} {a b c : Int}, |(b : ℚ) - (c - 1 : Int)| ≤ e → |((a + (b - a + 1) : Int) : ℚ) - (c : Int)| ≤ e := by
    intro e a b c near
    push_cast at near ⊢
    rwa [show (a + (b - a + 1) - c : ℚ) = b - (c - 1) by ring]
  constructor
  · exact scaleCoordinate_round_trip width.1 width.2 one_le left (by omega)
  · exact scaleCoordinate_round_trip height.1 height.2 one_le top (by omega)
  · refine edge ?_
    dsimp only [Rect.scale]
    rw [inclusive]
    exact scaleCoordinate_round_trip width.1 width.2 one_le (by omega) (by omega)
  · refine edge ?_
    dsimp only [Rect.scale]
    rw [inclusive]
    exact scaleCoordinate_round_trip height.1 height.2 one_le (by omega) (by omega)

/-- Rectangles that are scaled down and up again are rectangles of the array again, with every edge not far
from where it was; and clamped scaling keeps the order of the coordinates and ends in the array. -/
theorem scaleRects_round_trip (arrayWidth arrayHeight : Int) (width : 2 ≤ arrayWidth ∧ arrayWidth < 2 ^ 31)
    (height : 2 ≤ arrayHeight ∧ arrayHeight < 2 ^ 31) :
    (∀ z : ℚ, 1 ≤ z → ∀ rects : List Rect, (∀ r ∈ rects, r.Inside arrayWidth arrayHeight) →
      ∃ rects' : List Rect,
        scaleRects z arrayWidth arrayHeight (scaleRects (1 / z) arrayWidth arrayHeight (rects.flatMap Rect.data)) =
          rects'.flatMap Rect.data ∧
        List.Forall₂ (fun r r' => r'.Inside arrayWidth arrayHeight ∧ r.Near ((z + 1) / 2) r') rects rects') ∧
    ∀ z : ℚ, 0 < z → ∃ scaleX scaleY : Int → Int, Monotone scaleX ∧ Monotone scaleY ∧
      (∀ x, 0 ≤ scaleX x ∧ scaleX x ≤ arrayWidth - 1) ∧ (∀ y, 0 ≤ scaleY y ∧ scaleY y ≤ arrayHeight - 1) ∧
      ∀ points : List Point, scaleCoordinates z true arrayWidth arrayHeight (points.flatMap Point.data) =
          (points.map fun p => Point.mk (scaleX p.x) (scaleY p.y)).flatMap Point.data := by
  constructor
  · intro z one_le rects inside
    refine ⟨_, by rw [scaleRects_flatMap, scaleRects_flatMap, List.map_map], ?_⟩
    rw [List.forall₂_map_right_iff, List.forall₂_same]
    intro r member
    have shrunk := (inside r member).scale (by positivity : 0 < 1 / z) width.1 height.1
    exact ⟨shrunk.scale (by linarith) width.1 height.1, (inside r member).near one_le width height⟩
  · intro z positive
    exact ⟨_, _, scaleCoordinate_mono positive arrayWidth, scaleCoordinate_mono positive arrayHeight,
      scaleCoordinate_mem width.1 z, scaleCoordinate_mem height.1 z, scaleCoordinates_flatMap z _ _⟩

/-- An array of an odd width, a ratio of 3 and a rectangle in its corner. -/
theorem scaleRects_round_trip_sample : ∃ rects' : List Rect,
    scaleRects 3 5 4 (scaleRects (1 / 3) 5 4 [3, 2, 2, 2]) = rects'.flatMap Rect.data ∧
      List.Forall₂ (fun r r' : Rect => r'.Inside 5 4 ∧ r.Near ((3 + 1) / 2) r') [⟨3, 2, 2, 2⟩] rects' := by
  refine (scaleRects_round_trip 5 4 (by decide) (by decide)).1 3 (by norm_num) [⟨3, 2, 2, 2⟩] ?_
  intro r member
  obtain rfl := List.mem_singleton.mp member
  constructor <;> decide

end Hima.ZoomRatioMapper
