import Hima.Amplifier.Transfers

/-!
# Bringing one amplifier up

The part of tfa9887_open that concerns one amplifier whose device node is open: the hardware start,
the patch and the parameter files, up to three passes of calibration, and the HTC sequence. The
dummy stream that a thread writes to the I2S interface meanwhile touches none of this and is left
out.
-/
namespace Hima.Amplifier

open Hima.Fallible Reg

variable (env : Env) (amp : Amp)

/-! ### Hardware start -/

/-- tfa9887_startup -/
def startup : Bus Unit := do
  writeReg env amp SYSTEM_CONTROL 0x0002
  let value ← readReg env amp SYSTEM_CONTROL
  writeReg env amp SYSTEM_CONTROL (value ||| SYSCTRL_ENBL_AMP)
  writeReg env amp BAT_PROT 0x13AB
  writeReg env amp AUDIO_CONTROL 0x001F
  writeReg env amp SPKR_CALIBRATION 0x3C4E
  writeReg env amp SYSTEM_CONTROL 0x024D
  writeReg env amp PWM_CONTROL 0x0308
  writeReg env amp CURRENTSENSE4 0x0E82

/-- The rate bits of I2S_CONTROL, `none` for an unsupported rate. -/
def sampleRateBits (sampleRate : Nat) : Option (BitVec 16) :=
  if sampleRate = 48000 then some 0x8000
  else if sampleRate = 44100 then some 0x7000
  else if sampleRate = 32000 then some 0x6000
  else if sampleRate = 24000 then some 0x5000
  else if sampleRate = 22050 then some 0x4000
  else if sampleRate = 16000 then some 0x3000
  else if sampleRate = 12000 then some 0x2000
  else if sampleRate = 11025 then some 0x1000
  else if sampleRate = 8000 then some 0x0000
  else none

/-- The channel bits of I2S_CONTROL. -/
def channelBits (channels : Nat) : Option (BitVec 16) :=
  if channels = 0 then some 0x8
  else if channels = 1 then some 0x10
  else if channels = 2 then some 0x18
  else none

/-- The input bits of I2S_CONTROL. -/
def inputBits (input : Nat) : Option (BitVec 16) :=
  if input = 1 then some 0x40
  else if input = 2 then some 0x80
  else none

/-- Replaces the bits `mask` of I2S_CONTROL; without a setting for them the function returns -1. -/
def setI2sControl (mask : BitVec 16) (bits : Option (BitVec 16)) : Bus Unit := do
  let value ← readReg env amp I2S_CONTROL
  match bits with
  | none => .fail .minusOne
  | some bits => writeReg env amp I2S_CONTROL (value &&& ~~~mask ||| bits)

/-- tfa9887_set_sample_rate -/
def setSampleRate (sampleRate : Nat) : Bus Unit :=
  setI2sControl env amp 0xF000 (sampleRateBits sampleRate)

/-- tfa9887_select_channel -/
def selectChannel (channels : Nat) : Bus Unit := setI2sControl env amp 0x0018 (channelBits channels)

/-- tfa9887_select_input -/
def selectInput (input : Nat) : Bus Unit := setI2sControl env amp 0x00C0 (inputBits input)

/-- tfa9887_set_configured: the result of the write is dropped. -/
def setConfigured : Bus Unit := do
  let value ← readReg env amp SYSTEM_CONTROL
  let _ ← (writeReg env amp SYSTEM_CONTROL (value ||| SYSCTRL_CONFIGURED)).attempt
  pure ()

/-! ### Patches -/

/-- The loop of tfa9887_load_patch over what is left of the patch. The buffer keeps the bytes of
earlier blocks behind a shorter one, and `size` bytes are written after the address, one more
than the block has. -/
def patchBlocks : (fuel : Nat) → (buffer bytes : List Byte) → Bus Unit
  | 0, _, _ => pure ()
  | fuel + 1, buffer, bytes =>
    match bytes with
    | [] => pure ()
    | [_] => .fail EINVAL.negated
    | lo :: hi :: data =>
      let size := lo.toNat + hi.toNat * 256
      if data.length < size then .fail EINVAL.negated
      else do
        let buffer := data.take size ++ buffer.drop size
        match ← (write env amp (buffer.getD 0 0) ((buffer.drop 1).take size) 1).attempt with
        | .error _ => .fail EIO.negated
        | .ok () => patchBlocks fuel buffer (data.drop size)

def statusOk : BitVec 16 := STATUS_VDDS ||| STATUS_PLLS ||| STATUS_CLKS

/-- tfa9887_load_patch: the status is compared only when it could not be read, and is then whatever
the variable held. -/
def loadPatch (bytes : List Byte) : Bus Unit := do
  let stack ← Prog.inspect fun p => garbage env MAX_I2C_LENGTH p.host
  match ← (readReg env amp STATUS).attempt with
  | .error _ =>
    if (stack.getD 0 0 ++ stack.getD 1 0 : BitVec 16) &&& statusOk ≠ statusOk then
      .fail EIO.negated
    else
      patchBlocks env amp bytes.length stack bytes
  | .ok _ => patchBlocks env amp bytes.length stack bytes

/-- The cold boot patch behind its header. -/
def dspPatch : List Byte := [0x08, 0x00, 0x70, 0x00, 0x07, 0x81, 0x00, 0x00, 0x00, 0x01]

/-- The loop of tfa9887_force_coldboot with `left` tries after this one; a timeout is no error. -/
def coldbootTries : (left : Nat) → Bus Unit
  | 0 => do
    let _ ← (loadPatch env amp dspPatch).attempt
    let _ ← readReg env amp STATUS
    pure ()
  | left + 1 => do
    let _ ← (loadPatch env amp dspPatch).attempt
    let value ← readReg env amp STATUS
    if value &&& STATUS_ACS = 0 then coldbootTries left else pure ()

/-- tfa9887_force_coldboot -/
def forceColdboot : Bus Unit := coldbootTries env amp 9

/-! ### Calibration -/

/-- The three writes that reset the one time calibration; their results are overwritten. -/
def resetMtp : Bus Unit := do
  let _ ← (writeReg env amp MTPKEY2_REG 0x005A).attempt
  let _ ← (writeReg env amp MTP 0x0001).attempt
  let _ ← (writeReg env amp MTP_COPY 0x0800).attempt
  pure ()

/-- tfa9887_otc -/
def otc : Bus Unit := do
  let value ← readReg env amp MTP
  if value &&& MTP_MTPOTC = MTP_MTPOTC then
    waitReg env amp STATUS STATUS_MTPB false 10000
  else do
    resetMtp env amp
    waitReg env amp STATUS STATUS_MTPB false 10000
    writeReg env amp CF_CONTROLS 0x01

/-- tfa9887_reset_calibration -/
def resetCalibration : Bus Unit := do
  let value ← readReg env amp MTP
  (if value &&& (MTP_MTPOTC ||| MTP_MTPEX) = MTP_MTPOTC ||| MTP_MTPEX then
    resetMtp env amp
  else
    pure ())
  waitReg env amp STATUS STATUS_MTPB false 10000
  let _ ← readReg env amp MTP
  pure ()

/-- The memory loop of tfa9887_wait_for_calibration with `left` tries after this one. The last try
counts as a timeout, whatever it read. -/
def calibrationTries : (left : Nat) → Bus (BitVec 32)
  | 0 => do
    let _ ← readMem env amp 231 1
    .fail EBUSY.negated
  | left + 1 => do
    let mem ← readMem env amp 231 1
    if mem.getD 0 0 = 0 then calibrationTries left else pure (mem.getD 0 0)

/-- tfa9887_wait_for_calibration -/
def waitForCalibration : Bus (BitVec 32) := do
  let value ← readReg env amp MTP
  if value &&& MTP_MTPOTC ≠ 0 then do
    waitReg env amp MTP MTP_MTPEX true 30
    pure 1
  else
    calibrationTries env amp 29

/-- tfa9887_get_calibration_impedance, as the word that it divides by `1 << 14`. -/
def getCalibrationImpedance : Bus (BitVec 32) := do
  let word ← readMem env amp 231 1
  if word.getD 0 0 = 0 then
    .fail EBUSY.negated
  else do
    let bytes ← getData env amp MODULE_SPEAKERBOOST PARAM_GET_RE0 3
    pure ((bytes2data bytes).getD 0 0)

/-- `impedance` between 5.0f and 10.0f. A word below 2^24 is a `float` exactly, any other is far above. -/
def inRange (impedance : BitVec 32) : Bool :=
  5 * 2 ^ 14 ≤ impedance.toNat && impedance.toNat ≤ 10 * 2 ^ 14

/-- tfa9887_dsp_reset -/
def dspReset (reset : Bool) : Bus Unit := do
  let value ← readReg env amp CF_CONTROLS
  writeReg env amp CF_CONTROLS
    (if reset then value ||| CF_CONTROLS_RST_MSK else value &&& ~~~CF_CONTROLS_RST_MSK)

/-- tfa9887_set_calibration_impedance for 7.0f: what is sent are the bits of the `float` 7.0 * 2^14. -/
def setCalibrationImpedance : Bus Unit := do
  setData env amp MODULE_SETRE PARAM_SET_RE0 (data2bytes [0x47E00000])
  dspReset env amp true
  dspReset env amp false

/-- tfa9887_reset_agc -/
def resetAgc : Bus Unit := setData env amp MODULE_SPEAKERBOOST PARAM_SET_AGC (data2bytes [0])

/-! ### Initialisation -/

def CONFIG_TFA9887 : ParamFile := ⟨"/vendor/etc/tfa/tfa9895", some ".config"⟩
def PATCH_TFA9887 : ParamFile := ⟨"/vendor/etc/tfa/tfa9895", some ".patch"⟩
def SPKR_R : ParamFile := ⟨"/vendor/etc/tfa/tfa9895", some ".speaker"⟩
def SPKR_L : ParamFile := ⟨"/vendor/etc/tfa/tfa9895_l", some ".speaker"⟩

def Amp.speakerFile (amp : Amp) : ParamFile := if amp.isRight then SPKR_R else SPKR_L

def MAX_PATCH_SIZE : Nat := 3072
def PATCH_HEADER_LENGTH : Nat := 6

/-- tfa9887_hw_init; where the patch file counts as unreadable `rc` is still 0. -/
def hwInit : Bus Unit := do
  startup env amp
  setSampleRate env amp 48000
  selectChannel env amp (if amp.isRight then 1 else 0)
  selectInput env amp 2
  hwPower env amp true
  waitReg env amp STATUS STATUS_PLLS true 10
  forceColdboot env amp
  let (patchSize, patchBuf) ← readFile env PATCH_TFA9887 MAX_PATCH_SIZE PATCH_HEADER_LENGTH
  if patchSize < 0 then
    pure ()
  else do
    loadPatch env amp (patchBuf.take patchSize.toNat)
    otc env amp
    loadDsp env amp amp.speakerFile
    resetAgc env amp
    loadDsp env amp CONFIG_TFA9887
    resetAgc env amp
    forceColdboot env amp

/-- tfa9887_htc_init -/
def htcInit : Bus Unit := do
  let value ← readReg env amp DCDCBOOST
  writeReg env amp DCDCBOOST (value &&& 0xFFF8 ||| 5)
  let value ← readReg env amp SYSTEM_CONTROL
  writeReg env amp SYSTEM_CONTROL (value ||| 0x200)
  let value ← readReg env amp I2S_SEL
  writeReg env amp I2S_SEL (value &&& 0xF9FE ||| 0x10)

/-- Whether the impedance is one to go on with; without a calibration value it is taken as -1. -/
def impedanceInRange (calResult : Except Failure (BitVec 32)) : Bus Bool :=
  match calResult with
  | .error _ => pure false
  | .ok calValue =>
    if calValue = 0 then
      pure false
    else do
      let impedance ← getCalibrationImpedance env amp
      pure (inRange impedance)

/-- The end of a pass: a calibration out of range is reset before the next pass, or set to 7.0 in the
last one; one in range ends the loop. -/
def settleCalibration (left : Nat) (next : Bus Unit) : Bus Unit := do
  let calResult ← (waitForCalibration env amp).attempt
  let calibrated ← impedanceInRange env amp calResult
  if calibrated then pure ()
  else if left = 0 then setCalibrationImpedance env amp
  else do
    resetCalibration env amp
    next

/-- A pass up to the configured bit: hardware, mute of an uncalibrated DSP, and the data of the mode. -/
def configure : Bus Unit := do
  hwInit env amp
  let value ← readReg env amp MTP
  let _ ← (if value &&& MTP_MTPEX ≠ 0 then pure () else mute env amp .digital).attempt
  setDspMode env amp amp.mode
  setConfigured env amp

/-- The initialisation passes, `left` more after this one. -/
def passes : (left : Nat) → Bus Unit
  | 0 => do
    configure env amp
    settleCalibration env amp 0 (pure ())
  | left + 1 => do
    configure env amp
    settleCalibration env amp (left + 1) (passes left)

/-- What tfa9887_open does to an amplifier while the I2S interface is open. -/
def initialise : Bus Unit := do
  let _ ← readReg env amp REVISIONNUMBER
  passes env amp 2
  enableDsp env amp true
  htcInit env amp

/-- What tfa9887_open does to an amplifier whose device node is open. -/
def openAmp : Bus Unit := do
  enableDsp env amp false
  let _ ← (lockInit env amp false).attempt
  let rc ← (initialise env amp).attempt
  -- powered on in hw_init, whether or not that came to its end
  let _ ← (hwPower env amp false).attempt
  Prog.ofExcept rc

end Hima.Amplifier
