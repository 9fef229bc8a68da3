import Hima.Camera.Distortion

/-!
# Mappers over runs

What set-ups, results, full mappings and copies keep of the flags and of the grids. The mapping for the
maximum resolution never becomes valid: the tag of its array is not known to getAppropriateModeTag.
-/
namespace Hima.CoordinateMapper

open Floats Runs DistortionMapperInfo Objects

variable {F : Type} [Floats F]

/-- The grids of an info of an object are what buildGrids computes from its calibration. -/
structure GridsRight (object : Nat) (maxResolution : Bool) (info : DistortionMapperInfo F) : Prop where
  corrected : info.mCorrectedGrid = info.correctedGrid
  distorted : info.mDistortedGrid = info.distortedGrid object maxResolution

/-- What is promised of an object. -/
structure Holds (object : Nat) (t : Tracked F) : Prop where
  valid : t.mapper.calibrationValid = true ↔
    (t.mapper.getMapperInfo false).mValidMapping = true ∧
      (t.ultraHigh = true → (t.mapper.getMapperInfo true).mValidMapping = true)
  grids : ∀ maxResolution, (t.mapper.getMapperInfo maxResolution).mValidGrids = true →
    GridsRight object maxResolution (t.mapper.getMapperInfo maxResolution)
  src : ∀ maxResolution, (t.mapper.getMapperInfo maxResolution).mValidGrids = true →
    ∀ (index : Nat) (quad : GridQuad F),
      (t.mapper.getMapperInfo maxResolution).mDistortedGrid[index]? = some quad →
      quad.src = some ⟨object, maxResolution, index⟩

/-! ### Conditions -/

/-- The metadata have all the static data of the normal mode. -/
def Complete (deviceInfo : CameraMetadata F) : Prop :=
  (deviceInfo.i32 .sensorInfoPreCorrectionActiveArraySize).length = 4 ∧
    (deviceInfo.i32 .sensorInfoActiveArraySize).length = 4 ∧
    (deviceInfo.f .lensIntrinsicCalibration).length = 5 ∧ (deviceInfo.f .lensDistortion).length = 5

/-- The sizes and offsets of the arrays that the metadata have are those of the info. -/
def SameArrays (info : DistortionMapperInfo F) (deviceInfo : CameraMetadata F) : Prop :=
  ∀ arrayX arrayY arrayWidth arrayHeight,
    deviceInfo.i32 .sensorInfoPreCorrectionActiveArraySize = [arrayX, arrayY, arrayWidth, arrayHeight] →
    info.mArrayWidth = ofInt arrayWidth ∧ info.mArrayHeight = ofInt arrayHeight ∧
      ∀ activeX activeY activeWidth activeHeight,
        deviceInfo.i32 .sensorInfoActiveArraySize = [activeX, activeY, activeWidth, activeHeight] →
        info.mArrayDiffX = ofInt activeX - ofInt arrayX ∧ info.mArrayDiffY = ofInt activeY - ofInt arrayY

/-- The metadata have another calibration. -/
def NewCalibration (info : DistortionMapperInfo F) (deviceInfo : CameraMetadata F) : Prop :=
  Complete deviceInfo ∧ ∀ fx fy cx cy s k0 k1 k2 k3 k4,
    deviceInfo.f .lensIntrinsicCalibration = [fx, fy, cx, cy, s] →
    deviceInfo.f .lensDistortion = [k0, k1, k2, k3, k4] →
    DistortionMapper.noChange info fx fy cx cy s k0 k1 k2 k3 k4 = false

namespace Objects

/-- A device with an ultra high resolution sensor gets no valid mapping, an object with valid grids is not
copied, and one with valid grids is set up anew only for the same arrays or with another calibration. -/
def Sound (w : Objects F) : Call F → Prop
  | .copy object => ∀ t, w[object]? = some t →
    ∀ maxResolution, (t.mapper.getMapperInfo maxResolution).mValidGrids = false
  | .setupStaticInfo object deviceInfo => ∀ t, w[object]? = some t →
    (isUltraHighResolutionSensor deviceInfo = true →
      (t.mapper.getMapperInfo false).mValidMapping = false ∧ ¬ Complete deviceInfo) ∧
    ((t.mapper.getMapperInfo false).mValidGrids = true →
      SameArrays (t.mapper.getMapperInfo false) deviceInfo ∨
        NewCalibration (t.mapper.getMapperInfo false) deviceInfo)
  | _ => True

end Objects

/-! ### Set-up and calibration -/

theorem eq_four {α : Type} {l : List α} (length : l.length = 4) : ∃ a b c d, l = [a, b, c, d] := by
  match l, length with
  | [a, b, c, d], _ => exact ⟨a, b, c, d, rfl⟩

theorem eq_five {α : Type} {l : List α} (length : l.length = 5) : ∃ a b c d e, l = [a, b, c, d, e] := by
  match l, length with
  | [a, b, c, d, e], _ => exact ⟨a, b, c, d, e, rfl⟩

namespace DistortionMapper

variable (m : DistortionMapper F)

/-- The array of the maximum resolution is never found. -/
theorem setupStaticInfoLocked_max (deviceInfo : CameraMetadata F) :
    m.setupStaticInfoLocked deviceInfo true = (.badValue, m) := rfl

theorem setupStaticInfo_eq (deviceInfo : CameraMetadata F) :
    (m.setupStaticInfo deviceInfo).2 = (m.setupStaticInfoLocked deviceInfo false).2 := by
  rw [setupStaticInfo]
  dsimp only
  split
  · rfl
  · split
    · rw [setupStaticInfoLocked_max]
    · rfl

/-- What a set-up leaves of the normal info: its mapping is valid only if it was or if the data are complete,
and grids that stay valid are grids of the new info, unless the arrays have changed under them. -/
structure SetUp (info info' : DistortionMapperInfo F) (deviceInfo : CameraMetadata F) : Prop where
  valid : info'.mValidMapping = true → info.mValidMapping = true ∨ Complete deviceInfo
  grids : info'.mValidGrids = true → info.mValidGrids = true ∧
    (SameArrays info deviceInfo ∨ NewCalibration info deviceInfo →
      ∀ object maxResolution, GridsRight object maxResolution info → GridsRight object maxResolution info')

theorem SetUp.unchanged (info : DistortionMapperInfo F) (deviceInfo : CameraMetadata F) :
    SetUp info info deviceInfo where
  valid := .inl
  grids := fun valid => ⟨valid, fun _ _ _ right => right⟩

/-- Sizes that were written before anything was found to be missing. -/
theorem SetUp.incomplete {info : DistortionMapperInfo F} {deviceInfo : CameraMetadata F}
    {info' : DistortionMapperInfo F} (incomplete : ¬ NewCalibration info deviceInfo)
    (valid : info'.mValidMapping = info.mValidMapping) (validGrids : info'.mValidGrids = info.mValidGrids)
    (same : SameArrays info deviceInfo → ∀ object maxResolution,
      GridsRight object maxResolution info → GridsRight object maxResolution info') :
    SetUp info info' deviceInfo where
  valid := fun valid' => .inl (valid ▸ valid')
  grids := fun valid' => ⟨validGrids ▸ valid', fun condition => same (condition.resolve_right incomplete)⟩

theorem setupStaticInfo_normal (deviceInfo : CameraMetadata F) :
    ∃ info', (m.setupStaticInfo deviceInfo).2 = m.setMapperInfo false info' ∧
      SetUp (m.getMapperInfo false) info' deviceInfo := by
  rw [setupStaticInfo_eq, setupStaticInfoLocked]
  split
  next arrayX arrayY arrayWidth arrayHeight array =>
    split
    next activeX activeY activeWidth activeHeight active =>
      -- the grids are not changed by arrays that stay as they are
      have same : SameArrays (m.getMapperInfo false) deviceInfo → ∀ object maxResolution,
          GridsRight object maxResolution (m.getMapperInfo false) →
          GridsRight object maxResolution
            { m.getMapperInfo false with
              mArrayWidth := ofInt arrayWidth, mArrayHeight := ofInt arrayHeight
              mActiveWidth := ofInt activeWidth, mActiveHeight := ofInt activeHeight
              mArrayDiffX := ofInt activeX - ofInt arrayX, mArrayDiffY := ofInt activeY - ofInt arrayY } := by
        intro arrays object maxResolution right
        obtain ⟨width, height, differences⟩ := arrays _ _ _ _ array
        obtain ⟨diffX, diffY⟩ := differences _ _ _ _ active
        rw [← width, ← height, ← diffX, ← diffY]
        exact ⟨right.corrected, right.distorted⟩
      rw [updateCalibration]
      split
      next fx fy cx cy s k0 k1 k2 k3 k4 calib distortion =>
        have complete : Complete deviceInfo :=
          ⟨congrArg List.length array, congrArg List.length active, congrArg List.length calib,
            congrArg List.length distortion⟩
        split
        next unchanged =>
          -- the calibration that is set already: the grids stay
          refine ⟨_, rfl, .incomplete ?_ rfl rfl same⟩
          rintro ⟨-, changed⟩
          have differs := changed _ _ _ _ _ _ _ _ _ _ calib distortion
          cases differs.symm.trans (Bool.and_eq_true_iff.mp unchanged).2
        next => exact ⟨_, rfl, ⟨fun _ => .inr complete, nofun⟩⟩
      next incomplete =>
        -- no calibration: what was valid stays valid under the new arrays
        refine ⟨_, rfl, .incomplete ?_ rfl rfl same⟩
        rintro ⟨⟨-, -, calib, distortion⟩, -⟩
        obtain ⟨_, _, _, _, _, calib⟩ := eq_five calib
        obtain ⟨_, _, _, _, _, distortion⟩ := eq_five distortion
        exact incomplete _ _ _ _ _ _ _ _ _ _ calib distortion
    next incomplete =>
      refine ⟨_, rfl, .incomplete ?_ rfl rfl ?_⟩
      · rintro ⟨⟨-, active, -⟩, -⟩
        obtain ⟨_, _, _, _, active⟩ := eq_four active
        exact incomplete _ _ _ _ active
      · intro arrays object maxResolution right
        obtain ⟨width, height, -⟩ := arrays _ _ _ _ array
        rw [← width, ← height]
        exact ⟨right.corrected, right.distorted⟩
  next => exact ⟨_, rfl, .unchanged _ _⟩

/-- A result leaves the calibration alone, or brings a new one without grids. -/
theorem updateCalibration_result (result : CameraMetadata F) (maxResolution : Bool) :
    (m.updateCalibration result false maxResolution).2 = m ∨
      ∃ info', (m.updateCalibration result false maxResolution).2 = m.setMapperInfo maxResolution info' ∧
        info'.mValidGrids = false := by
  rw [updateCalibration]
  split
  · split
    · exact .inl rfl
    · exact .inr ⟨_, rfl, rfl⟩
  · exact .inl rfl

theorem correctCaptureResult_mapper (result : CameraMetadata F) :
    (m.correctCaptureResult result).2 = m ∨
      (m.getMapperInfo (doesSettingsHaveMaxResolution result)).mValidMapping = true ∧
        ∃ info', (m.correctCaptureResult result).2 =
          m.setMapperInfo (doesSettingsHaveMaxResolution result) info' ∧ info'.mValidGrids = false := by
  rw [correctCaptureResult]
  split
  · exact .inl rfl
  next valid =>
    have same : ∀ updated : StatusT × DistortionMapper F,
        (if updated.1 ≠ .ok then ((StatusT.invalidOperation, result), updated.2)
          else (correctResultEntries (updated.2.getMapperInfo (doesSettingsHaveMaxResolution result)) result,
            updated.2)).2 = updated.2 := by
      intro updated
      split <;> rfl
    rw [same]
    rcases m.updateCalibration_result result (doesSettingsHaveMaxResolution result) with unchanged | updated
    · exact .inl unchanged
    · exact .inr ⟨Bool.eq_true_of_not_eq_false valid, updated⟩

end DistortionMapper

/-! ### The invariant -/

/-- The mapping for the maximum resolution is not valid, and a device that needs it has no mapping. -/
structure Inv (object : Nat) (t : Tracked F) : Prop where
  member : t.mapper.mMaxResolution = false
  max : (t.mapper.getMapperInfo true).mValidMapping = false ∧ (t.mapper.getMapperInfo true).mValidGrids = false
  device : t.ultraHigh = true → (t.mapper.getMapperInfo false).mValidMapping = false
  grids : (t.mapper.getMapperInfo false).mValidGrids = true →
    GridsRight object false (t.mapper.getMapperInfo false)

variable {object : Nat} {t : Tracked F}

theorem gridsRight_buildGrids (info : DistortionMapperInfo F) (object : Nat) (maxResolution : Bool) :
    GridsRight object maxResolution (info.buildGrids object maxResolution) where
  corrected := by simp only [buildGrids, correctedGrid]
  distorted := by
    simp only [buildGrids, distortedGrid, correctedGrid, rawCorners, rawPoint]

theorem GridsRight.src {maxResolution : Bool} {info : DistortionMapperInfo F}
    (right : GridsRight object maxResolution info) {index : Nat} {quad : GridQuad F}
    (found : info.mDistortedGrid[index]? = some quad) : quad.src = some ⟨object, maxResolution, index⟩ := by
  rw [right.distorted, distortedGrid, List.getElem?_mapIdx, Option.map_eq_some_iff] at found
  obtain ⟨corrected, -, rfl⟩ := found
  rfl

theorem Inv.holds (h : Inv object t) : Holds object t where
  valid := by
    rw [DistortionMapper.calibrationValid, h.member, h.max.1]
    constructor
    · intro valid
      refine ⟨valid, fun ultraHigh => ?_⟩
      cases (h.device ultraHigh).symm.trans valid
    · exact And.left
  grids := by
    intro maxResolution valid
    cases maxResolution with
    | false => exact h.grids valid
    | true => cases h.max.2.symm.trans valid
  src := by
    intro maxResolution valid index quad found
    cases maxResolution with
    | false => exact (h.grids valid).src found
    | true => cases h.max.2.symm.trans valid

/-- A new info for the normal mode. -/
theorem Inv.setNormal (h : Inv object t) {info : DistortionMapperInfo F} {ultraHigh : Bool}
    (device : ultraHigh = true → info.mValidMapping = false)
    (grids : info.mValidGrids = true → GridsRight object false info) :
    Inv object { mapper := t.mapper.setMapperInfo false info, ultraHigh := ultraHigh } where
  member := h.member
  max := h.max
  device := device
  grids := grids

theorem Inv.setupStaticInfo (h : Inv object t) (deviceInfo : CameraMetadata F)
    (device : isUltraHighResolutionSensor deviceInfo = true →
      (t.mapper.getMapperInfo false).mValidMapping = false ∧ ¬ Complete deviceInfo)
    (arrays : (t.mapper.getMapperInfo false).mValidGrids = true →
      SameArrays (t.mapper.getMapperInfo false) deviceInfo ∨
        NewCalibration (t.mapper.getMapperInfo false) deviceInfo) :
    Inv object { mapper := (t.mapper.setupStaticInfo deviceInfo).2
                 ultraHigh := isUltraHighResolutionSensor deviceInfo } := by
  obtain ⟨info', setUp, result⟩ := t.mapper.setupStaticInfo_normal deviceInfo
  rw [setUp]
  refine h.setNormal ?_ ?_
  · intro ultraHigh
    obtain ⟨invalid, incomplete⟩ := device ultraHigh
    refine Bool.eq_false_iff.mpr fun valid => ?_
    rcases result.valid valid with before | complete
    · cases invalid.symm.trans before
    · exact incomplete complete
  · intro valid
    obtain ⟨before, kept⟩ := result.grids valid
    exact kept (arrays before) _ _ (h.grids before)

theorem Inv.correctCaptureResult (h : Inv object t) (result : CameraMetadata F) :
    Inv object { t with mapper := (t.mapper.correctCaptureResult result).2 } := by
  rcases t.mapper.correctCaptureResult_mapper result with unchanged | ⟨valid, info', updated, noGrids⟩
  · rw [unchanged]
    exact h
  · -- only the normal mode has a mapping
    cases mode : doesSettingsHaveMaxResolution result with
    | true =>
      rw [mode] at valid
      cases h.max.1.symm.trans valid
    | false =>
      rw [mode] at updated valid
      rw [updated]
      refine h.setNormal ?_ fun grids => ?_
      · intro ultraHigh
        cases (h.device ultraHigh).symm.trans valid
      · cases noGrids.symm.trans grids

/-- The grids that a full mapping finds or builds. -/
theorem Inv.withGrids (h : Inv object t) (valid : (t.mapper.getMapperInfo false).mValidMapping = true) :
    GridsRight object false ((t.mapper.getMapperInfo false).withGrids object false) ∧ Inv object { t with
        mapper := t.mapper.setMapperInfo false ((t.mapper.getMapperInfo false).withGrids object false) } := by
  have right : GridsRight object false ((t.mapper.getMapperInfo false).withGrids object false) := by
    rw [DistortionMapperInfo.withGrids]
    split
    next grids => exact h.grids grids
    next => exact gridsRight_buildGrids _ _ _
  refine ⟨right, h.setNormal ?_ fun _ => right⟩
  intro ultraHigh
  cases (h.device ultraHigh).symm.trans valid

theorem Inv.copy (h : Inv object t) (copied : Nat)
    (noGrids : ∀ maxResolution, (t.mapper.getMapperInfo maxResolution).mValidGrids = false) :
    Inv copied { t with mapper := t.mapper.copy } where
  member := rfl
  max := h.max
  device := h.device
  grids := fun grids => nomatch (noGrids false).symm.trans grids

namespace Objects

/-- Every object meets the invariant. -/
def AllInv (w : Objects F) : Prop := ∀ object t, w[object]? = some t → Inv object t

theorem AllInv.set {w : Objects F} (h : w.AllInv) {t' : Tracked F} (inv : Inv object t') :
    AllInv (w.set object t') := by
  intro other t found
  rw [List.getElem?_set] at found
  split at found
  next same =>
    split at found
    · obtain rfl := Option.some.inj found
      exact same ▸ inv
    · cases found
  next => exact h other t found

theorem AllInv.append {w : Objects F} (h : w.AllInv) {t' : Tracked F} (inv : Inv w.length t') :
    AllInv (w ++ [t']) := by
  intro other t found
  rw [List.getElem?_append] at found
  split at found
  · exact h other t found
  next after =>
    have last : other - w.length = 0 := by
      by_contra beyond
      rw [List.getElem?_eq_none (Nat.one_le_iff_ne_zero.mpr beyond)] at found
      cases found
    have same : other = w.length := by omega
    rw [last] at found
    obtain rfl := Option.some.inj found
    exact same ▸ inv

theorem mem_of_findEnclosingQuad {x y : F} {grid : List (GridQuad F)} {quad : GridQuad F}
    (found : findEnclosingQuad x y grid = some quad) : quad ∈ grid := by
  induction grid with
  | nil => cases found
  | cons first grid ih =>
    rw [findEnclosingQuad] at found
    repeat' split at found
    · exact List.mem_cons_of_mem _ (ih found)
    · exact List.mem_cons_of_mem _ (ih found)
    · exact List.mem_cons_of_mem _ (ih found)
    · exact List.mem_cons_of_mem _ (ih found)
    · exact List.mem_cons.mpr (.inl (Option.some.inj found).symm)

/-- A full mapping comes to an end where every quad that it may find has its corrected one. -/
theorem correctPoints_isSome (w : Objects F) (info : DistortionMapperInfo F) (clamp : Bool)
    (resolves : ∀ quad ∈ info.mDistortedGrid, ∀ ref, quad.src = some ref → (w.quadAt ref).isSome)
    (coordPairs : List Int) : (w.correctPoints info clamp coordPairs).isSome := by
  fun_induction correctPoints w info clamp coordPairs with
  | case1 => rfl
  | case2 => rfl
  | case3 x y coordPairs px py quad found ref src ih =>
    obtain ⟨corrQuad, there⟩ := Option.isSome_iff_exists.mp
      (resolves quad (mem_of_findEnclosingQuad found) ref src)
    obtain ⟨rest, mapped⟩ := Option.isSome_iff_exists.mp ih
    rw [there, mapped]
    rfl
  | case4 => rfl

theorem GridsRight.resolves {w : Objects F} {info : DistortionMapperInfo F} (right : GridsRight object false info)
    (there : w[object]? = some t) (current : t.mapper.getMapperInfo false = info) :
    ∀ quad ∈ info.mDistortedGrid, ∀ ref, quad.src = some ref → (w.quadAt ref).isSome := by
  intro quad member ref src
  obtain ⟨index, found⟩ := List.mem_iff_getElem?.mp member
  obtain rfl := Option.some.inj ((right.src found).symm.trans src)
  have inside : index < info.mCorrectedGrid.length := by
    have length : info.mDistortedGrid.length = info.mCorrectedGrid.length := by
      rw [right.distorted, right.corrected, distortedGrid, List.length_mapIdx]
    exact length ▸ (List.getElem?_eq_some_iff.mp found).1
  rw [quadAt]
  rw [there, Option.bind_eq_bind, Option.bind_some, current, List.getElem?_eq_getElem inside]
  rfl

/-- A full mapping returns, and leaves the invariant. -/
theorem AllInv.mapRawToCorrected {w : Objects F} (h : w.AllInv) (there : w[object]? = some t)
    (maxResolution clamp : Bool) (coordPairs : List Int) :
    ∃ mapped w', w.mapRawToCorrected object maxResolution clamp coordPairs = some (mapped, w') ∧ w'.AllInv := by
  rw [Objects.mapRawToCorrected, there, Option.bind_eq_bind, Option.bind_some]
  dsimp only
  have inv := h object t there
  cases maxResolution with
  | true => exact ⟨_, w, if_pos inv.max.1, h⟩
  | false =>
    by_cases valid : (t.mapper.getMapperInfo false).mValidMapping = false
    · exact ⟨_, w, if_pos valid, h⟩
    · obtain ⟨right, inv'⟩ := inv.withGrids (Bool.eq_true_of_not_eq_false valid)
      have stored : (w.set object { t with
          mapper := t.mapper.setMapperInfo false ((t.mapper.getMapperInfo false).withGrids object false) })[object]? =
          some { t with
            mapper := t.mapper.setMapperInfo false ((t.mapper.getMapperInfo false).withGrids object false) } := by
        rw [List.getElem?_set_self (List.getElem?_eq_some_iff.mp there).1]
      obtain ⟨mapped, maps⟩ := Option.isSome_iff_exists.mp
        (correctPoints_isSome _ _ clamp (GridsRight.resolves right stored rfl) coordPairs)
      rw [if_neg valid, maps]
      exact ⟨_, _, rfl, h.set inv'⟩

/-- Each call of an object that is there returns. -/
theorem AllInv.returns {w : Objects F} (h : w.AllInv) (c : Call F)
    (there : ∀ object, c.object = some object → object < w.length) : (w.step c).isSome := by
  cases c with
  | create memory maxMemory => rfl
  | mapRawToCorrected object maxResolution clamp coordPairs =>
    obtain ⟨mapped, w', maps, -⟩ :=
      h.mapRawToCorrected (List.getElem?_eq_getElem (there object rfl)) maxResolution clamp coordPairs
    rw [step, maps]
    rfl
  | copy object | setupStaticInfo object _ | correctCaptureRequest object _ | correctCaptureResult object _ =>
    rw [step, List.getElem?_eq_getElem (there object rfl)]
    rfl

theorem AllInv.step {w w' : Objects F} (h : w.AllInv) {c : Call F} (sound : w.Sound c)
    (stepped : w.step c = some w') : w'.AllInv := by
  cases c with
  | create memory maxMemory =>
    obtain rfl := Option.some.inj stepped
    exact h.append ⟨rfl, ⟨rfl, rfl⟩, nofun, nofun⟩
  | copy object =>
    obtain ⟨t, there, stepped⟩ := Option.bind_eq_some_iff.mp stepped
    obtain rfl := Option.some.inj stepped
    exact h.append ((h object t there).copy _ (sound t there))
  | setupStaticInfo object deviceInfo =>
    obtain ⟨t, there, stepped⟩ := Option.bind_eq_some_iff.mp stepped
    obtain rfl := Option.some.inj stepped
    obtain ⟨device, arrays⟩ := sound t there
    exact h.set ((h object t there).setupStaticInfo deviceInfo device arrays)
  | correctCaptureRequest object request =>
    obtain ⟨t, there, stepped⟩ := Option.bind_eq_some_iff.mp stepped
    exact Option.some.inj stepped ▸ h
  | correctCaptureResult object result =>
    obtain ⟨t, there, stepped⟩ := Option.bind_eq_some_iff.mp stepped
    obtain rfl := Option.some.inj stepped
    exact h.set ((h object t there).correctCaptureResult result)
  | mapRawToCorrected object maxResolution clamp coordPairs =>
    obtain ⟨⟨mapped, after⟩, maps, rfl⟩ := Option.map_eq_some_iff.mp stepped
    cases there : w[object]? with
    | none =>
      rw [Objects.mapRawToCorrected, there] at maps
      cases maps
    | some t =>
      obtain ⟨_, _, maps', inv⟩ := h.mapRawToCorrected there maxResolution clamp coordPairs
      obtain ⟨-, rfl⟩ := Prod.mk.inj (Option.some.inj (maps.symm.trans maps'))
      exact inv

/-- Flags and grids are right in every object, and each call returns, as long as all calls are sound. -/
theorem mappers_hold {calls : List (Call F)} {w : Objects F} (run : Run step Sound ([] : Objects F) calls w) :
    (∀ object t, w[object]? = some t → Holds object t) ∧
      ∀ c : Call F, (∀ object, c.object = some object → object < w.length) → (w.step c).isSome := by
  have inv : w.AllInv := run.invariant AllInv (fun _ _ _ h sound stepped => h.step sound stepped) nofun
  exact ⟨fun object t there => (inv object t there).holds, inv.returns⟩

end Objects

/-! ### What the conditions leave out -/

/-! ### Binary floats -/

instance : Floats Float32 where
  ofInt := Float32.ofInt
  beq a b := a == b
  lt a b := decide (a < b)
  sqrt := Float32.sqrt
  fabs := Float32.abs
  round := Float32.round
  toInt32 a := a.toInt32.toInt
  kGridMargin := 0.05
  kFloatFuzz := 1e-4

/-- Metadata with one array of 4000 x 3000 pixels and a lens without distortion. -/
def flatLens (capabilities : List Nat) : CameraMetadata Float32 where
  u8 tag := if tag = .requestAvailableCapabilities then capabilities else []
  i32 tag :=
    if tag = .sensorInfoPreCorrectionActiveArraySize ∨ tag = .sensorInfoActiveArraySize then [0, 0, 4000, 3000]
    else []
  f tag :=
    if tag = .lensIntrinsicCalibration then [1000, 1000, 2000, 1500, 0]
    else if tag = .lensDistortion then [0, 0, 0, 0, 0] else []

def memory : DistortionMapperInfo Float32 :=
  { mFx := 0, mFy := 0, mCx := 0, mCy := 0, mS := 0, mInvFx := 0, mInvFy := 0, mK := fun _ => 0
    mArrayWidth := 0, mArrayHeight := 0, mActiveWidth := 0, mActiveHeight := 0
    mArrayDiffX := 0, mArrayDiffY := 0 }

/-- A mapper is set up, copied, and maps a point with the grids that are built for the copy. -/
theorem mappers_hold_sample : ∃ w : Objects Float32,
    (∃ t, w[1]? = some t ∧ t.mapper.calibrationValid = true ∧ (t.mapper.getMapperInfo false).mValidGrids = true) ∧
    ∀ object t, w[object]? = some t → Holds object t := by
  have noGrids : ∀ t : Tracked Float32, t.mapper.mDistortionMapperInfo.mValidGrids = false →
      t.mapper.mDistortionMapperInfoMaximumResolution.mValidGrids = false →
      ∀ maxResolution, (t.mapper.getMapperInfo maxResolution).mValidGrids = false := by
    rintro t normal max (_ | _)
    · exact normal
    · exact max
  obtain ⟨w, run, valid⟩ : ∃ w, Run step Sound ([] : Objects Float32)
      [.create memory memory, .setupStaticInfo 0 (flatLens []), .copy 0, .mapRawToCorrected 1 false true []] w ∧
      ∃ t, w[1]? = some t ∧ t.mapper.calibrationValid = true ∧
        (t.mapper.getMapperInfo false).mValidGrids = true := by
    refine ⟨_, .cons trivial rfl (.cons ?_ rfl (.cons ?_ rfl (.cons trivial rfl (.nil _)))), _, rfl, rfl, rfl⟩
    · intro t there
      obtain rfl := Option.some.inj there
      exact ⟨nofun, nofun⟩
    · intro t there
      obtain rfl := Option.some.inj there
      exact noGrids _ rfl rfl
  exact ⟨w, valid, (mappers_hold run).1⟩

/-- The calibration of a device with an ultra high resolution sensor is called valid without the mapping for
the maximum resolution. -/
theorem max_resolution_ignored :
    ¬ ∀ (calls : List (Call Float32)) (w : Objects Float32),
      Run step (fun _ _ => True) ([] : Objects Float32) calls w →
      ∀ object t, w[object]? = some t → Holds object t := by
  intro all
  obtain ⟨w, run, t, there, valid, ultraHigh, missing⟩ : ∃ w, Run step (fun _ _ => True) ([] : Objects Float32)
        [.create memory memory,
          .setupStaticInfo 0 (flatLens [ANDROID_REQUEST_AVAILABLE_CAPABILITIES_ULTRA_HIGH_RESOLUTION_SENSOR])] w ∧
      ∃ t, w[0]? = some t ∧ t.mapper.calibrationValid = true ∧ t.ultraHigh = true ∧
        (t.mapper.getMapperInfo true).mValidMapping = false :=
    ⟨_, .of_checked rfl, _, rfl, rfl, rfl, rfl⟩
  have promised := ((all _ w run 0 t there).valid.mp valid).2 ultraHigh
  cases missing.symm.trans promised

end Hima.CoordinateMapper
