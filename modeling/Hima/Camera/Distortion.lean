import Mathlib.Algebra.GroupWithZero.Nat
import Mathlib.Data.Fin.VecNotation
import Hima.Camera.CoordinateMapper
import Hima.Lib.Runs

/-!
# DistortionMapper

The mapping of a lens for two sensor modes, with the grids that the map from raw to corrected coordinates
looks points up in. A distorted quad refers to its corrected quad by address, so the objects stand beside each
other, and an address is an object, one of its two infos and an index. The arithmetic of floats is left open.
-/
namespace Hima.CoordinateMapper

def ANDROID_REQUEST_AVAILABLE_CAPABILITIES_ULTRA_HIGH_RESOLUTION_SENSOR : Nat := 16

def ANDROID_SENSOR_PIXEL_MODE_MAXIMUM_RESOLUTION : Nat := 1

def ANDROID_DISTORTION_CORRECTION_MODE_OFF : Nat := 0

def kGridSize : Nat := 15

/-- What the mapper does with floats. -/
class Floats (F : Type) extends Add F, Sub F, Mul F, Div F, Neg F where
  ofInt : Int → F
  beq : F → F → Bool
  lt : F → F → Bool
  sqrt : F → F
  fabs : F → F
  round : F → F
  toInt32 : F → Int
  /-- 0.05f -/
  kGridMargin : F
  /-- 1e-4 -/
  kFloatFuzz : F

open Floats

local instance neZero_five : NeZero 5 := Nat.instNeZeroSucc

/-- A quad of a corrected grid. -/
structure QuadRef where
  object : Nat
  maxResolution : Bool
  index : Nat
  deriving DecidableEq

/-- The corners of a quad in clockwise order. -/
structure Corners (F : Type) where
  x1 : F
  y1 : F
  x2 : F
  y2 : F
  x3 : F
  y3 : F
  x4 : F
  y4 : F

structure GridQuad (F : Type) where
  src : Option QuadRef
  coords : Corners F

structure DistortionMapperInfo (F : Type) where
  mValidMapping : Bool := false
  mValidGrids : Bool := false
  mFx : F
  mFy : F
  mCx : F
  mCy : F
  mS : F
  mInvFx : F
  mInvFy : F
  mK : Fin 5 → F
  mArrayWidth : F
  mArrayHeight : F
  mActiveWidth : F
  mActiveHeight : F
  mArrayDiffX : F
  mArrayDiffY : F
  mCorrectedGrid : List (GridQuad F) := []
  mDistortedGrid : List (GridQuad F) := []

structure DistortionMapper (F : Type) where
  mMaxResolution : Bool := false
  mDistortionMapperInfo : DistortionMapperInfo F
  mDistortionMapperInfoMaximumResolution : DistortionMapperInfo F

/-! ### Tags -/

/-- `none` is -1, a tag that no entry has. Of the tags that the mapper asks for only those of the lens have a
counterpart. -/
def getAppropriateModeTag (defaultTag : Tag) (maxResolution : Bool) : Option Tag :=
  if maxResolution then
    match defaultTag with
    | .lensIntrinsicCalibration => some .lensIntrinsicCalibrationMaximumResolution
    | .lensDistortion => some .lensDistortionMaximumResolution
    | _ => none
  else some defaultTag

section

variable {F : Type}

def CameraMetadata.findI32 (metadata : CameraMetadata F) (tag : Option Tag) : List Int :=
  tag.elim [] metadata.i32

def CameraMetadata.findF (metadata : CameraMetadata F) (tag : Option Tag) : List F :=
  tag.elim [] metadata.f

def isUltraHighResolutionSensor (deviceInfo : CameraMetadata F) : Bool :=
  (deviceInfo.u8 .requestAvailableCapabilities).any
    (· = ANDROID_REQUEST_AVAILABLE_CAPABILITIES_ULTRA_HIGH_RESOLUTION_SENSOR)

def doesSettingsHaveMaxResolution (settings : CameraMetadata F) : Bool :=
  match settings.u8 .sensorPixelMode with
  | [] => false
  | mode :: _ => mode = ANDROID_SENSOR_PIXEL_MODE_MAXIMUM_RESOLUTION

/-- The mode of the correction is there and not off. -/
def correctionOn (metadata : CameraMetadata F) : Bool :=
  match metadata.u8 .distortionCorrectionMode with
  | [] => false
  | mode :: _ => mode ≠ ANDROID_DISTORTION_CORRECTION_MODE_OFF

/-! ### Loops over entries -/

/-- The loop over regions of four coordinates and a weight, up to a map that fails. -/
def correctRegionsData (f : List Int → Option (List Int)) : List Int → Option (List Int)
  | x0 :: y0 :: x1 :: y1 :: weight :: rest => do
    let corners ← if weight = 0 then some [x0, y0, x1, y1] else f [x0, y0, x1, y1]
    let regions ← correctRegionsData f rest
    some (corners ++ weight :: regions)
  | rest => some rest

/-- From a corner and a size to two corners in the rectangle, and back after these were mapped. -/
def correctRectsData (f : List Int → List Int) : List Int → List Int
  | x :: y :: width :: height :: rects =>
    match f [x, y, x + width - 1, y + height - 1] with
    | [left, top, right, bottom] =>
      left :: top :: (right - left + 1) :: (bottom - top + 1) :: correctRectsData f rects
    | coords => coords ++ correctRectsData f rects
  | rects => rects

/-- The entries of the tags are corrected one after the other, until a map fails. -/
def correctTags (f : List Int → Option (List Int)) :
    List Tag → CameraMetadata F → StatusT × CameraMetadata F
  | [], metadata => (.ok, metadata)
  | tag :: tags, metadata =>
    match f (metadata.i32 tag) with
    | none => (.invalidOperation, metadata)
    | some data => correctTags f tags (metadata.setI32 tag data)

/-- What comes next when the entries before were corrected. -/
def andThen (first : StatusT × CameraMetadata F)
    (next : CameraMetadata F → StatusT × CameraMetadata F) : StatusT × CameraMetadata F :=
  if first.1 = .ok then next first.2 else first

end

variable {F : Type} [Floats F]

/-- `std::min` and `std::max`. -/
def fmin (a b : F) : F := if lt b a then b else a

def fmax (a b : F) : F := if lt a b then b else a

/-- The loop over pairs of coordinates. -/
def mapPairs (f : F → F → F × F) : List Int → List Int
  | x :: y :: coordPairs =>
    let n := f (ofInt x) (ofInt y)
    toInt32 (round n.1) :: toInt32 (round n.2) :: mapPairs f coordPairs
  | coordPairs => coordPairs

namespace DistortionMapperInfo

variable (info : DistortionMapperInfo F)

/-- mapCorrectedToRawImpl for one point, before it is rounded. -/
def rawPoint (clamp : Bool) (x y : F) : F × F :=
  let activeCx := info.mCx - info.mArrayDiffX
  let activeCy := info.mCy - info.mArrayDiffY
  let ywi := (y - activeCy) * info.mInvFy
  let xwi := (x - activeCx - info.mS * ywi) * info.mInvFx
  let kK := info.mK
  let rSq := xwi * xwi + ywi * ywi
  let Fr := ofInt 1 + (kK 0 * rSq) + (kK 1 * rSq * rSq) + (kK 2 * rSq * rSq * rSq)
  let xc := xwi * Fr + (kK 3 * ofInt 2 * xwi * ywi) + kK 4 * (rSq + ofInt 2 * xwi * xwi)
  let yc := ywi * Fr + (kK 4 * ofInt 2 * xwi * ywi) + kK 3 * (rSq + ofInt 2 * ywi * ywi)
  let xr := info.mFx * xc + info.mS * yc + info.mCx
  let yr := info.mFy * yc + info.mCy
  if clamp then
    (fmin (info.mArrayWidth - ofInt 1) (fmax (ofInt 0) xr),
      fmin (info.mArrayHeight - ofInt 1) (fmax (ofInt 0) yr))
  else (xr, yr)

/-- mapCorrectedToRawImplSimple for one point. -/
def rawPointSimple (clamp : Bool) (x y : F) : F × F :=
  let rawX := x * (info.mArrayWidth / info.mActiveWidth)
  let rawY := y * (info.mArrayHeight / info.mActiveHeight)
  if clamp then
    (fmin (info.mArrayWidth - ofInt 1) (fmax (ofInt 0) rawX),
      fmin (info.mArrayHeight - ofInt 1) (fmax (ofInt 0) rawY))
  else (rawX, rawY)

/-- mapRawToCorrectedSimple for one point. -/
def correctedPointSimple (clamp : Bool) (x y : F) : F × F :=
  let corrX := x * (info.mActiveWidth / info.mArrayWidth)
  let corrY := y * (info.mActiveHeight / info.mArrayHeight)
  if clamp then
    (fmin (info.mActiveWidth - ofInt 1) (fmax (ofInt 0) corrX),
      fmin (info.mActiveHeight - ofInt 1) (fmax (ofInt 0) corrY))
  else (corrX, corrY)

/-- The mapping of whole entries; `none` is INVALID_OPERATION. -/
def mapCorrectedToRaw (clamp simple : Bool) (coordPairs : List Int) : Option (List Int) :=
  if info.mValidMapping then
    some (mapPairs (if simple then info.rawPointSimple clamp else info.rawPoint clamp) coordPairs)
  else none

def mapCorrectedRectToRaw (clamp simple : Bool) (rects : List Int) : Option (List Int) :=
  if info.mValidMapping then
    some (correctRectsData (fun coords => (info.mapCorrectedToRaw clamp simple coords).getD coords) rects)
  else none

def mapRawToCorrectedSimple (clamp : Bool) (coordPairs : List Int) : Option (List Int) :=
  if info.mValidMapping then some (mapPairs (info.correctedPointSimple clamp) coordPairs) else none

/-- mapRawRectToCorrected with the simple map. -/
def mapRawRectToCorrectedSimple (clamp : Bool) (rects : List Int) : Option (List Int) :=
  if info.mValidMapping then
    some (correctRectsData (fun coords => (info.mapRawToCorrectedSimple clamp coords).getD coords) rects)
  else none

/-! ### Grids -/

/-- The places of a loop that adds the spacing each time. -/
def gridLine (spacing : F) : Nat → F → List F
  | 0, _ => []
  | n + 1, start => start :: gridLine spacing n (start + spacing)

/-- The corrected grid that buildGrids fills. -/
def correctedGrid : List (GridQuad F) :=
  let gridMargin := info.mArrayWidth * kGridMargin
  let gridSpacingX := (info.mArrayWidth + ofInt 2 * gridMargin) / ofInt kGridSize
  let gridSpacingY := (info.mArrayHeight + ofInt 2 * gridMargin) / ofInt kGridSize
  (gridLine gridSpacingX kGridSize (-gridMargin)).flatMap fun x =>
    (gridLine gridSpacingY kGridSize (-gridMargin)).map fun y =>
      { src := none
        coords :=
          { x1 := x, y1 := y, x2 := x + gridSpacingX, y2 := y
            x3 := x + gridSpacingX, y3 := y + gridSpacingY, x4 := x, y4 := y + gridSpacingY } }

/-- mapCorrectedToRawImpl for the four corners, without clamping. -/
def rawCorners (coords : Corners F) : Corners F :=
  let p1 := info.rawPoint false coords.x1 coords.y1
  let p2 := info.rawPoint false coords.x2 coords.y2
  let p3 := info.rawPoint false coords.x3 coords.y3
  let p4 := info.rawPoint false coords.x4 coords.y4
  { x1 := round p1.1, y1 := round p1.2, x2 := round p2.1, y2 := round p2.2
    x3 := round p3.1, y3 := round p3.2, x4 := round p4.1, y4 := round p4.2 }

/-- The distorted grid that buildGrids fills for an info of an object. -/
def distortedGrid (object : Nat) (maxResolution : Bool) : List (GridQuad F) :=
  info.correctedGrid.mapIdx fun index quad =>
    { src := some ⟨object, maxResolution, index⟩, coords := info.rawCorners quad.coords }

/-- buildGrids for a valid mapping. -/
def buildGrids (object : Nat) (maxResolution : Bool) : DistortionMapperInfo F :=
  { info with
    mCorrectedGrid := info.correctedGrid
    mDistortedGrid := info.distortedGrid object maxResolution
    mValidGrids := true }

/-- The grids are built where there are none. -/
def withGrids (object : Nat) (maxResolution : Bool) : DistortionMapperInfo F :=
  if info.mValidGrids then info else info.buildGrids object maxResolution

end DistortionMapperInfo

/-- The point is on no edge's outer side. -/
def findEnclosingQuad (x y : F) : List (GridQuad F) → Option (GridQuad F)
  | [] => none
  | quad :: grid =>
    let c := quad.coords
    if lt (ofInt 0) ((x - c.x1) * (c.y2 - c.y1) - (y - c.y1) * (c.x2 - c.x1)) then findEnclosingQuad x y grid
    else if lt (ofInt 0) ((x - c.x2) * (c.y3 - c.y2) - (y - c.y2) * (c.x3 - c.x2)) then
      findEnclosingQuad x y grid
    else if lt (ofInt 0) ((x - c.x3) * (c.y4 - c.y3) - (y - c.y3) * (c.x4 - c.x3)) then
      findEnclosingQuad x y grid
    else if lt (ofInt 0) ((x - c.x4) * (c.y1 - c.y4) - (y - c.y4) * (c.x1 - c.x4)) then
      findEnclosingQuad x y grid
    else some quad

/-- A solution between 0 and 1, give or take the fuzz. -/
def inUnit (u : F) : Bool := lt (ofInt 0 - kFloatFuzz) u && lt u (ofInt 1 + kFloatFuzz)

def calculateUorV (x y : F) (quad : Corners F) (calculateU : Bool) : F :=
  let x1 := quad.x1
  let y1 := quad.y1
  let x2 := if calculateU then quad.x2 else quad.x4
  let y2 := if calculateU then quad.y2 else quad.y4
  let x3 := quad.x3
  let y3 := quad.y3
  let x4 := if calculateU then quad.x4 else quad.x2
  let y4 := if calculateU then quad.y4 else quad.y2
  let a := (x1 - x2) * (y1 - y2 + y3 - y4) - (y1 - y2) * (x1 - x2 + x3 - x4)
  let b := (x - x1) * (y1 - y2 + y3 - y4) + (x1 - x2) * (y4 - y1) -
    (y - y1) * (x1 - x2 + x3 - x4) - (y1 - y2) * (x4 - x1)
  let c := (x - x1) * (y4 - y1) - (y - y1) * (x4 - x1)
  if beq a (ofInt 0) then -c / b
  else
    let det := b * b - ofInt 4 * a * c
    if lt det (ofInt 0) then ofInt (-1)
    else
      let sqdet := if lt (ofInt 0) b then -sqrt det else sqrt det
      let u1 := (-b + sqdet) / (ofInt 2 * a)
      if inUnit u1 then u1
      else
        let u2 := c / (a * u1)
        if inUnit u2 then u2 else if lt (fabs u1) (fabs u2) then u1 else u2

namespace DistortionMapper

variable (m : DistortionMapper F)

def getMapperInfo (maxResolution : Bool) : DistortionMapperInfo F :=
  if maxResolution then m.mDistortionMapperInfoMaximumResolution else m.mDistortionMapperInfo

def setMapperInfo (maxResolution : Bool) (info : DistortionMapperInfo F) : DistortionMapper F :=
  if maxResolution then { m with mDistortionMapperInfoMaximumResolution := info }
  else { m with mDistortionMapperInfo := info }

def calibrationValid : Bool :=
  let isValid := m.mDistortionMapperInfo.mValidMapping
  if m.mMaxResolution then isValid && m.mDistortionMapperInfoMaximumResolution.mValidMapping else isValid

/-- The calibration fields have these values. -/
def noChange (info : DistortionMapperInfo F) (fx fy cx cy s k0 k1 k2 k3 k4 : F) : Bool :=
  beq info.mFx fx && beq info.mFy fy && beq info.mCx cx && beq info.mCy cy && beq info.mS s &&
    (beq (info.mK 0) k0 && beq (info.mK 1) k1 && beq (info.mK 2) k2 && beq (info.mK 3) k3 &&
      beq (info.mK 4) k4)

def updateCalibration (result : CameraMetadata F) (isStatic maxResolution : Bool) :
    StatusT × DistortionMapper F :=
  let mapperInfo := m.getMapperInfo maxResolution
  let calibrationKey := getAppropriateModeTag .lensIntrinsicCalibration (maxResolution && isStatic)
  let distortionKey := getAppropriateModeTag .lensDistortion (maxResolution && isStatic)
  match result.findF calibrationKey, result.findF distortionKey with
  | [fx, fy, cx, cy, s], [k0, k1, k2, k3, k4] =>
    if mapperInfo.mValidMapping && noChange mapperInfo fx fy cx cy s k0 k1 k2 k3 k4 then (.ok, m)
    else
      (.ok, m.setMapperInfo maxResolution
        { mapperInfo with
          mFx := fx, mFy := fy, mCx := cx, mCy := cy, mS := s
          mInvFx := ofInt 1 / fx, mInvFy := ofInt 1 / fy
          mK := ![k0, k1, k2, k3, k4]
          mValidMapping := true
          mValidGrids := false })
  | _, _ => (.badValue, m)

def setupStaticInfoLocked (deviceInfo : CameraMetadata F) (maxResolution : Bool) :
    StatusT × DistortionMapper F :=
  match deviceInfo.findI32 (getAppropriateModeTag .sensorInfoPreCorrectionActiveArraySize maxResolution) with
  | [arrayX, arrayY, arrayWidth, arrayHeight] =>
    let m := m.setMapperInfo maxResolution
      { m.getMapperInfo maxResolution with mArrayWidth := ofInt arrayWidth, mArrayHeight := ofInt arrayHeight }
    match deviceInfo.findI32 (getAppropriateModeTag .sensorInfoActiveArraySize maxResolution) with
    | [activeX, activeY, activeWidth, activeHeight] =>
      let m := m.setMapperInfo maxResolution
        { m.getMapperInfo maxResolution with
          mActiveWidth := ofInt activeWidth, mActiveHeight := ofInt activeHeight
          mArrayDiffX := ofInt activeX - ofInt arrayX, mArrayDiffY := ofInt activeY - ofInt arrayY }
      m.updateCalibration deviceInfo true maxResolution
    | _ => (.badValue, m)
  | _ => (.badValue, m)

def setupStaticInfo (deviceInfo : CameraMetadata F) : StatusT × DistortionMapper F :=
  let (res, m) := m.setupStaticInfoLocked deviceInfo false
  if res ≠ .ok then (res, m)
  else
    -- a variable of its own, which hides the member
    let mMaxResolution := isUltraHighResolutionSensor deviceInfo
    if mMaxResolution then m.setupStaticInfoLocked deviceInfo true else (res, m)

def correctCaptureRequest (request : CameraMetadata F) : StatusT × CameraMetadata F :=
  let mapperInfo := m.getMapperInfo (doesSettingsHaveMaxResolution request)
  if mapperInfo.mValidMapping = false then (.ok, request)
  else if correctionOn request then
    andThen (correctTags (correctRegionsData (mapperInfo.mapCorrectedToRaw true true))
      kMeteringRegionsToCorrect request)
      (correctTags (mapperInfo.mapCorrectedRectToRaw true true) kRectsToCorrect)
  else (.ok, request)

/-- The entries of a result, with the info that its calibration has updated. -/
def correctResultEntries (mapperInfo : DistortionMapperInfo F) (result : CameraMetadata F) :
    StatusT × CameraMetadata F :=
  if correctionOn result then
    andThen (andThen (correctTags (correctRegionsData (mapperInfo.mapRawToCorrectedSimple true))
      kMeteringRegionsToCorrect result)
      (correctTags (mapperInfo.mapRawRectToCorrectedSimple true) kRectsToCorrect))
      (correctTags (mapperInfo.mapRawToCorrectedSimple false) kResultPointsToCorrectNoClamp)
  else (.ok, result)

def correctCaptureResult (result : CameraMetadata F) :
    (StatusT × CameraMetadata F) × DistortionMapper F :=
  let maxResolution := doesSettingsHaveMaxResolution result
  if (m.getMapperInfo maxResolution).mValidMapping = false then ((.ok, result), m)
  else
    let (res, m) := m.updateCalibration result false maxResolution
    if res ≠ .ok then ((.invalidOperation, result), m)
    else (correctResultEntries (m.getMapperInfo maxResolution) result, m)

/-- The copy constructor: the infos with their grids, but not the member for the mode. -/
def copy : DistortionMapper F :=
  { mDistortionMapperInfo := m.mDistortionMapperInfo
    mDistortionMapperInfoMaximumResolution := m.mDistortionMapperInfoMaximumResolution }

end DistortionMapper

/-! ### Objects -/

/-- A mapper, and whether the device it was last set up for has an ultra high resolution sensor. -/
structure Tracked (F : Type) where
  mapper : DistortionMapper F
  ultraHigh : Bool := false

/-- The objects in the order in which they were made. -/
abbrev Objects (F : Type) := List (Tracked F)

namespace Objects

variable (w : Objects F)

/-- What is at an address. -/
def quadAt (w : Objects F) (ref : QuadRef) : Option (GridQuad F) := do
  let t ← w[ref.object]?
  (t.mapper.getMapperInfo ref.maxResolution).mCorrectedGrid[ref.index]?

/-- The loop of the full mapRawToCorrected; `none` for an address at which there is no quad. -/
def correctPoints (info : DistortionMapperInfo F) (clamp : Bool) : List Int → Option (StatusT × List Int)
  | x :: y :: coordPairs =>
    let px : F := ofInt x
    let py : F := ofInt y
    match findEnclosingQuad px py info.mDistortedGrid with
    | none => some (.invalidOperation, x :: y :: coordPairs)
    | some quad =>
      match quad.src with
      | none => some (.invalidOperation, x :: y :: coordPairs)
      | some ref => do
        let corrQuad ← w.quadAt ref
        let u := calculateUorV px py quad.coords true
        let v := calculateUorV px py quad.coords false
        let c := corrQuad.coords
        let corrX := c.x1 + u * (c.x2 - c.x1)
        let corrY := c.y1 + v * (c.y4 - c.y1)
        let corrX := if clamp then fmin (info.mActiveWidth - ofInt 1) (fmax (ofInt 0) corrX) else corrX
        let corrY := if clamp then fmin (info.mActiveHeight - ofInt 1) (fmax (ofInt 0) corrY) else corrY
        let (res, rest) ← correctPoints info clamp coordPairs
        some (res, toInt32 (round corrX) :: toInt32 (round corrY) :: rest)
  | coordPairs => some (.ok, coordPairs)

/-- mapRawToCorrected that is not simple, for an info of an object. -/
def mapRawToCorrected (object : Nat) (maxResolution clamp : Bool) (coordPairs : List Int) :
    Option ((StatusT × List Int) × Objects F) := do
  let t ← w[object]?
  let mapperInfo := t.mapper.getMapperInfo maxResolution
  if mapperInfo.mValidMapping = false then some ((.invalidOperation, coordPairs), w)
  else
    let mapperInfo := mapperInfo.withGrids object maxResolution
    let w : Objects F := w.set object { t with mapper := t.mapper.setMapperInfo maxResolution mapperInfo }
    let mapped ← w.correctPoints mapperInfo clamp coordPairs
    some (mapped, w)

end Objects

/-- `create` finds whatever is in memory for the fields that the constructor leaves alone. -/
inductive Call (F : Type) where
  | create (memory maxMemory : DistortionMapperInfo F)
  | copy (object : Nat)
  | setupStaticInfo (object : Nat) (deviceInfo : CameraMetadata F)
  | correctCaptureRequest (object : Nat) (request : CameraMetadata F)
  | correctCaptureResult (object : Nat) (result : CameraMetadata F)
  | mapRawToCorrected (object : Nat) (maxResolution clamp : Bool) (coordPairs : List Int)

/-- The object that a call is made of. -/
def Call.object {F : Type} : Call F → Option Nat
  | .create _ _ => none
  | .copy object | .setupStaticInfo object _ | .correctCaptureRequest object _
  | .correctCaptureResult object _ | .mapRawToCorrected object _ _ _ => some object

namespace Objects

/-- The objects after a call; one of an object that is not there has no outcome. -/
def step (w : Objects F) : Call F → Option (Objects F)
  | .create memory maxMemory =>
    let fresh (info : DistortionMapperInfo F) : DistortionMapperInfo F :=
      { info with mValidMapping := false, mValidGrids := false, mCorrectedGrid := [], mDistortedGrid := [] }
    some (w ++ [{ mapper :=
      { mDistortionMapperInfo := fresh memory
        mDistortionMapperInfoMaximumResolution := fresh maxMemory } }])
  | .copy object => do
    let t ← w[object]?
    some (w ++ [{ t with mapper := t.mapper.copy }])
  | .setupStaticInfo object deviceInfo => do
    let t ← w[object]?
    some (w.set object
      { mapper := (t.mapper.setupStaticInfo deviceInfo).2
        ultraHigh := isUltraHighResolutionSensor deviceInfo })
  | .correctCaptureRequest object _ => do
    let _ ← w[object]?
    some w
  | .correctCaptureResult object result => do
    let t ← w[object]?
    some (w.set object { t with mapper := (t.mapper.correctCaptureResult result).2 })
  | .mapRawToCorrected object maxResolution clamp coordPairs =>
    (w.mapRawToCorrected object maxResolution clamp coordPairs).map Prod.snd

end Objects

end Hima.CoordinateMapper
