import Mathlib.Data.List.Basic

/-!
# CoordinateMapper

The metadata that the coordinate mappers read and change. Floats are of a type `F`.
-/
namespace Hima.CoordinateMapper

inductive Tag where
  | controlAfRegions
  | controlAeRegions
  | controlAwbRegions
  | scalerCropRegion
  | scalerRotateAndCrop
  | statisticsFaceRectangles
  | statisticsFaceLandmarks
  | distortionCorrectionMode
  | sensorPixelMode
  | requestAvailableCapabilities
  | sensorInfoActiveArraySize
  | sensorInfoPreCorrectionActiveArraySize
  | lensIntrinsicCalibration
  | lensIntrinsicCalibrationMaximumResolution
  | lensDistortion
  | lensDistortionMaximumResolution
  deriving DecidableEq

/-- The entry of a tag is a list of numbers of the tag's type; one that was not found has none. -/
@[ext] structure CameraMetadata (F : Type) where
  u8 : Tag → List Nat := fun _ => []
  i32 : Tag → List Int := fun _ => []
  f : Tag → List F := fun _ => []

/-- The numbers of an entry are overwritten in place. -/
def CameraMetadata.setI32 {F : Type} (metadata : CameraMetadata F) (tag : Tag) (data : List Int) :
    CameraMetadata F :=
  { metadata with i32 := Function.update metadata.i32 tag data }

def kMeteringRegionsToCorrect : List Tag := [.controlAfRegions, .controlAeRegions, .controlAwbRegions]

def kRectsToCorrect : List Tag := [.scalerCropRegion]

/-- The rectangles are pairs of points. -/
def kResultPointsToCorrectNoClamp : List Tag := [.statisticsFaceRectangles, .statisticsFaceLandmarks]

inductive StatusT where
  | ok
  | badValue
  | invalidOperation
  deriving DecidableEq

end Hima.CoordinateMapper
