import Mathlib.Data.BitVec
import Hima.Amplifier.Device

/-!
# Registers, memory, messages and parameter files of tfa9887.c

The functions that make up a mode switch: register and memory transfers, the messages to the DSP
(set_data, get_data) with their status, the parameter files, and the mute and power bits.
-/
namespace Hima.Amplifier

open Hima.Fallible Reg Host

/-! ### Words -/

/-- One word of bytes2data, in C's 32-bit arithmetic. -/
def bytes2word (b0 b1 b2 : Byte) : BitVec 32 :=
  let d := b0.setWidth 32 <<< 16 ||| b1.setWidth 32 <<< 8 ||| b2.setWidth 32
  if b0 &&& 0x80 ≠ 0 then -((1#32 <<< 24) - d) else d

/-- bytes2data: 24-bit words, high byte first, with their sign. -/
def bytes2data : List Byte → List (BitVec 32)
  | b0 :: b1 :: b2 :: rest => bytes2word b0 b1 b2 :: bytes2data rest
  | _ => []

/-- MIN of two `int32_t`. -/
def minSigned (a b : BitVec 32) : BitVec 32 := if a.slt b then a else b

/-- One word of data2bytes: `data` cut to 24 bits with sign. -/
def data2word (data : BitVec 32) : BitVec 32 :=
  if BitVec.sle 0 data then minSigned data ((1#32 <<< 23) - 1)
  else (1#32 <<< 24) - minSigned (-data) (1#32 <<< 23)

def data2bytes (data : List (BitVec 32)) : List Byte :=
  data.flatMap fun d =>
    [(data2word d).extractLsb' 16 8, (data2word d).extractLsb' 8 8, (data2word d).extractLsb' 0 8]

/-- MAX_I2C_LENGTH -/
def MAX_I2C_LENGTH : Nat := 254

/-- ROUND_DOWN -/
def roundDown (a n : Nat) : Nat := a / n * n

variable (env : Env) (amp : Amp)

/-! ### Transfers -/

/-- tfa9887_read_reg -/
def readReg (reg : Byte) : Bus (BitVec 16) := do
  writeConfig env amp [reg]
  let buffer ← readConfig env amp 2
  pure (buffer.getD 0 0 ++ buffer.getD 1 0)

/-- The buffer of tfa9887_write_reg, with its size of 4. -/
def regBuffer (reg : Byte) (val : BitVec 16) : List Byte :=
  [reg, val.extractLsb' 8 8, val.extractLsb' 0 8, 0]

/-- tfa9887_write_reg -/
def writeReg (reg : Byte) (val : BitVec 16) : Bus Unit :=
  writeConfig env amp (regBuffer reg val)

/-- The loop of tfa9887_read over what is left of `len`; every pass but the last brings a whole
chunk. -/
def readChunks (chunkSize : Nat) : (fuel len : Nat) → Bus (List Byte)
  | 0, _ => pure []
  | fuel + 1, len => do
    let buffer ← readConfig env amp (min len chunkSize)
    if len ≤ chunkSize then
      pure buffer
    else do
      let rest ← readChunks chunkSize fuel (len - chunkSize)
      pure (buffer ++ rest)

/-- tfa9887_read -/
def read (addr : Byte) (len alignment : Nat) : Bus (List Byte) := do
  writeConfig env amp [addr]
  readChunks env amp (roundDown MAX_I2C_LENGTH alignment) (len + 1) len

/-- The loop of tfa9887_write over what is left of the buffer; the address takes one byte of each
chunk. -/
def writeChunks (addr : Byte) (room : Nat) : (fuel : Nat) → List Byte → Bus Unit
  | 0, _ => pure ()
  | fuel + 1, buf => do
    writeConfig env amp (addr :: buf.take room)
    if buf.length ≤ room then
      pure ()
    else
      writeChunks addr room fuel (buf.drop room)

/-- tfa9887_write -/
def write (addr : Byte) (buf : List Byte) (alignment : Nat) : Bus Unit :=
  writeChunks env amp addr (roundDown MAX_I2C_LENGTH alignment - 1) (buf.length + 1) buf

/-- CF_CONTROLS with AIF cleared and DMEM set to XMEM. -/
def selectXmem (cfCtrl : BitVec 16) : BitVec 16 := cfCtrl &&& ~~~0x000E ||| 0x0002

/-- tfa9887_read_mem -/
def readMem (startOffset : BitVec 16) (numWords : Nat) : Bus (List (BitVec 32)) := do
  let cfCtrl ← readReg env amp CF_CONTROLS
  writeReg env amp CF_CONTROLS (selectXmem cfCtrl)
  writeReg env amp CF_MAD startOffset
  let mem ← read env amp CF_MEM (numWords * 3) 3
  pure (bytes2data mem)

/-- tfa9887_write_mem -/
def writeMem (address : BitVec 16) (buf : List Byte) : Bus Unit := do
  let cfCtrl ← readReg env amp CF_CONTROLS
  writeReg env amp CF_CONTROLS (selectXmem cfCtrl)
  writeReg env amp CF_MAD address
  write env amp CF_MEM buf 3

/-- The loop of tfa9887_wait_reg with `left` tries after this one. The last try counts as a
timeout, whatever it read. -/
def waitTries (reg : Byte) (readyValue : BitVec 16) (valueSet : Bool) : (left : Nat) → Bus Unit
  | 0 => do
    let _ ← readReg env amp reg
    .fail EBUSY.negated
  | left + 1 => do
    let value ← readReg env amp reg
    if value &&& readyValue = if valueSet then 0 else readyValue then
      waitTries reg readyValue valueSet left
    else
      pure ()

/-- tfa9887_wait_reg -/
def waitReg (reg : Byte) (readyValue : BitVec 16) (valueSet : Bool) (maxTries : Nat) : Bus Unit :=
  waitTries env amp reg readyValue valueSet (maxTries - 1)

/-! ### Messages to the DSP -/

def MODULE_SPEAKERBOOST : Byte := 1
def MODULE_BIQUADFILTERBANK : Byte := 2
def MODULE_SETRE : Byte := 9
def PARAM_SET_LSMODEL : Byte := 0x06
def PARAM_SET_EQ : Byte := 0x0A
def PARAM_SET_PRESET : Byte := 0x0D
def PARAM_SET_CONFIG : Byte := 0x0E
def PARAM_SET_DRC : Byte := 0x0F
def PARAM_SET_AGC : Byte := 0x10
def PARAM_GET_RE0 : Byte := 0x85
def PARAM_SET_RE0 : Byte := 0x89

/-- rpc_status of the three bytes of the status word. -/
def rpcStatus (mem : List Byte) : Nat :=
  (mem.getD 0 0).toNat * 2 ^ 16 + (mem.getD 1 0).toNat * 2 ^ 8 + (mem.getD 2 0).toNat

/-- The result for a status that is not STATUS_OK. -/
def rpcFailure (status : Nat) : Failure := ⟨status + 100, by omega⟩

/-- The loop of tfa9887_check_rpc_status with `left` tries after this one. -/
def rpcTries : (left : Nat) → Bus Unit
  | 0 => do
    let mem ← read env amp CF_MEM 3 3
    if rpcStatus mem = 0 then pure () else .fail (rpcFailure (rpcStatus mem))
  | left + 1 => do
    let mem ← read env amp CF_MEM 3 3
    if rpcStatus mem = 0 then pure () else rpcTries left

/-- tfa9887_check_rpc_status -/
def checkRpcStatus : Bus Unit := do
  writeReg env amp CF_CONTROLS 0x0002
  writeReg env amp CF_MAD 0x0000
  rpcTries env amp 99

/-- The bytes that tell the DSP which parameter of which module is meant. -/
def rpcId (module param : Byte) : List Byte := [0, module + 128, param]

/-- tfa9887_get_data -/
def getData (module param : Byte) (length : Nat) : Bus (List Byte) := do
  writeReg env amp CF_CONTROLS 0x0002
  writeReg env amp CF_MAD 0x0001
  write env amp CF_MEM (rpcId module param) 3
  writeReg env amp CF_CONTROLS (0x0002 ||| CF_CONTROLS_WAKE)
  waitReg env amp CF_STATUS 0x100 true 100
  checkRpcStatus env amp
  writeReg env amp CF_MAD 0x0002
  read env amp CF_MEM length 3

/-- tfa9887_set_data -/
def setData (module param : Byte) (data : List Byte) : Bus Unit := do
  writeReg env amp CF_CONTROLS 0x0002
  writeReg env amp CF_MAD 0x0001
  write env amp CF_MEM (rpcId module param) 3
  write env amp CF_MEM data 3
  writeReg env amp CF_CONTROLS (0x0002 ||| CF_CONTROLS_WAKE)
  waitReg env amp CF_CONTROLS 0x100 true 100
  checkRpcStatus env amp

/-! ### Parameter files -/

/-- What an uninitialised buffer of `size` bytes holds now. -/
def garbage (size : Nat) (h : Host) : List Byte :=
  (List.range size).map (env.stack h.clock)

/-- The bytes of a file that `read` brings. -/
def contents (name : ParamFile) (sz seek : Nat) : List Byte :=
  ((env.file name).drop seek).take sz

/-- read_file, with what it leaves in the buffer. On a failure it returns `errno`, which is not
negative, and the buffer is as it was. -/
def readFileOn (name : ParamFile) (sz seek : Nat) (h : Host) : (Int × List Byte) × Host :=
  match h.openFile env with
  | (.error e, h') => ((e.code, garbage env sz h), h')
  | (.ok fd, h') =>
    -- lseek, then read
    match h'.tick.fileOp env with
    | (.error e, h'') => ((e.code, garbage env sz h), h''.closeFd fd)
    | (.ok (), h'') =>
      (((contents env name sz seek).length, contents env name sz seek), h''.closeFd fd)

/-- The bytes of line `i` of an EQ file, `none` where load_eq gives up with -EINVAL. A line whose
first five bytes are those of `disabled` is skipped, and its bytes stay 0. -/
def eqLineBytes (name : ParamFile) (i : Nat) : Option (List Byte) :=
  match env.scan name i with
  | none => none
  | some (idx, line) =>
    if idx ≠ i + 1 then none
    else if line 0 = 0x3F800000 ∧ (line 1).extractLsb' 0 8 = 0 then some (List.replicate 18 0)
    else (env.lineData line).map fun lineData =>
      data2bytes ((List.ofFn lineData).map (BitVec.ofInt 32))

/-- The loop of load_eq from line `i` on. -/
def eqLines (name : ParamFile) : (left i : Nat) → Host → Except Failure (List Byte) × Host
  | 0, _, h => (.ok [], h)
  | left + 1, i, h =>
    match h.fileOp env with
    | (.error _, h') => (.error EINVAL.negated, h')
    | (.ok (), h') =>
      match eqLineBytes env name i with
      | none => (.error EINVAL.negated, h')
      | some bytes =>
        match eqLines name left (i + 1) h' with
        | (.error e, h'') => (.error e, h'')
        | (.ok rest, h'') => (.ok (bytes ++ rest), h'')

/-- MAX_EQ_LINES -/
def MAX_EQ_LINES : Nat := 10

/-- load_eq up to its last fclose: each way out of the loop closes the file. -/
def readEqOn (name : ParamFile) (h : Host) : Except Failure (List Byte) × Host :=
  match h.openFile env with
  | (.error _, h') => (.error EIO.negated, h')
  | (.ok fd, h') =>
    ((eqLines env name MAX_EQ_LINES 0 h').1, (eqLines env name MAX_EQ_LINES 0 h').2.closeFd fd)

theorem Host.passes_fopen {h h' h'' : Host} {fd : Nat} (opened : h.openFile env = (.ok fd, h'))
    (inside : Passes h' h'') : Passes h (h''.closeFd fd) := by
  unfold openFile openFd at opened
  cases failed : env.fails h.clock with
  | some e => simp [failed] at opened
  | none =>
    simp only [failed, Prod.mk.injEq, Except.ok.injEq] at opened
    obtain ⟨rfl, rfl⟩ := opened
    have listed : h.unused env ∈ h''.table := by simp [inside.table]
    have nonneg : ¬ ((h.unused env : Nat) : Int) < 0 := by omega
    unfold closeFd
    rw [if_neg nonneg, Int.toNat_natCast, if_pos listed]
    exact ⟨Nat.le_trans (Nat.le_succ _) (Nat.le_trans inside.clock (Nat.le_succ _)), inside.failures,
      inside.fileFailures, by simp [inside.table], inside.strays⟩

theorem Host.passes_fopen_error {h h' : Host} {e : Errno} (failed : h.openFile env = (.error e, h')) :
    Passes h h' := by
  unfold openFile openFd at failed
  cases answer : env.fails h.clock with
  | none => simp [answer] at failed
  | some e' =>
    simp only [answer, Prod.mk.injEq] at failed
    obtain ⟨-, rfl⟩ := failed
    exact ⟨Nat.le_succ _, Nat.le_succ _, Nat.le_succ _, rfl, rfl⟩

variable (name : ParamFile)

theorem passes_readFileOn (sz seek : Nat) (h : Host) :
    Passes h (readFileOn env name sz seek h).2 := by
  unfold readFileOn
  split
  next e h' failed => exact passes_fopen_error env failed
  next fd h' opened =>
    have inside : Passes h' (h'.tick.fileOp env).2 :=
      h'.passes_tick.trans (passes_fileOp env _)
    split
    next e h'' answer =>
      rw [answer] at inside
      exact passes_fopen env opened inside
    next h'' answer =>
      rw [answer] at inside
      exact passes_fopen env opened inside

theorem passes_eqLines (left : Nat) :
    ∀ (i : Nat) (h : Host), Passes h (eqLines env name left i h).2 := by
  induction left with
  | zero => exact fun _ h => .refl h
  | succ left ih =>
    intro i h
    unfold eqLines
    have scanned := passes_fileOp env h
    split
    next e h' answer =>
      rw [answer] at scanned
      exact scanned
    next h' answer =>
      rw [answer] at scanned
      split
      · exact scanned
      · have below := ih (i + 1) h'
        split
        next e h'' rest =>
          rw [rest] at below
          exact scanned.trans below
        next bytes h'' rest =>
          rw [rest] at below
          exact scanned.trans below

theorem passes_readEqOn (h : Host) : Host.Passes h (readEqOn env name h).2 := by
  unfold readEqOn
  split
  next e h' failed => exact passes_fopen_error env failed
  next fd h' opened => exact passes_fopen env opened (passes_eqLines env name _ _ _)

/-- read_file -/
def readFile (sz seek : Nat) : Bus (Int × List Byte) where
  run p := (.ok (readFileOn env name sz seek p.host).1, ⟨(readFileOn env name sz seek p.host).2, p.dsp⟩)
  up p := ⟨passes_readFileOn env name sz seek p.host, List.suffix_refl _⟩

/-- The part of tfa9887_load_eq that reads the file. -/
def readEq : Bus (List Byte) where
  run p := ((readEqOn env name p.host).1, ⟨(readEqOn env name p.host).2, p.dsp⟩)
  up p := ⟨passes_readEqOn env name p.host, List.suffix_refl _⟩

def MAX_PARAM_SIZE : Nat := 768

/-- The parameter and module that the suffix stands for. -/
def ParamFile.ids (file : ParamFile) : Option (Byte × Byte) :=
  if file.suffix = some ".speaker" then some (PARAM_SET_LSMODEL, MODULE_SPEAKERBOOST)
  else if file.suffix = some ".config" then some (PARAM_SET_CONFIG, MODULE_SPEAKERBOOST)
  else if file.suffix = some ".preset" then some (PARAM_SET_PRESET, MODULE_SPEAKERBOOST)
  else if file.suffix = some ".drc" then some (PARAM_SET_DRC, MODULE_SPEAKERBOOST)
  else none

/-- tfa9887_load_dsp: a negative count is an error, but read_file returns none. -/
def loadDsp (file : ParamFile) : Bus Unit :=
  match file.ids with
  | none => .fail EINVAL.negated
  | some (paramId, moduleId) => do
    let (numBytes, data) ← readFile env file MAX_PARAM_SIZE 0
    if numBytes < 0 then
      .fail EIO.negated
    else
      setData env amp moduleId paramId (data.take numBytes.toNat)

/-- tfa9887_load_eq -/
def loadEq (eqFile : ParamFile) : Bus Unit := do
  let data ← readEq env eqFile
  setData env amp MODULE_BIQUADFILTERBANK PARAM_SET_EQ data

/-! ### Power and mute -/

/-- tfa9887_hw_power -/
def hwPower (on : Bool) : Bus Unit := do
  let value ← readReg env amp SYSTEM_CONTROL
  let value := value &&& ~~~SYSCTRL_POWERDOWN
  writeReg env amp SYSTEM_CONTROL (if on then value else value ||| SYSCTRL_POWERDOWN)

inductive Mute
  | off
  | digital
  | amplifier
  deriving DecidableEq

/-- CTRL_MUTE for a mute type. -/
def Mute.audio (mute : Mute) (audValue : BitVec 16) : BitVec 16 :=
  match mute with
  | .off | .amplifier => audValue &&& ~~~AUDIOCTRL_MUTE
  | .digital => audValue ||| AUDIOCTRL_MUTE

/-- ENBL_AMP for a mute type. -/
def Mute.system (mute : Mute) (sysValue : BitVec 16) : BitVec 16 :=
  match mute with
  | .off | .digital => sysValue ||| SYSCTRL_ENBL_AMP
  | .amplifier => sysValue &&& ~~~SYSCTRL_ENBL_AMP

/-- tfa9887_mute -/
def mute (mute : Mute) : Bus Unit := do
  let audValue ← readReg env amp AUDIO_CONTROL
  let sysValue ← readReg env amp SYSTEM_CONTROL
  writeReg env amp AUDIO_CONTROL (mute.audio audValue)
  writeReg env amp SYSTEM_CONTROL (mute.system sysValue)

/-! ### Locks and the DSP's switch -/

/-- The lock requests change nothing that the DSP shows. -/
def kernelLock : Bus Unit :=
  if amp.fd < 0 then .fail ENODEV.negated
  else ioctl env amp Errno.negated (fun _ d => ((), d)) accepted_same

/-- tfa9887_lock -/
def lock (_lock : Bool) : Bus Unit := kernelLock env amp

/-- tfa9887_lock_init -/
def lockInit (_lock : Bool) : Bus Unit := kernelLock env amp

/-- tfa9887_enable_dsp -/
def enableDsp (enable : Bool) : Bus Unit :=
  if amp.fd < 0 then .fail ENODEV.negated
  else ioctl env amp Errno.negated (fun _ d => ((), { d with enabled := enable })) accepted_same

/-! ### Modes -/

/-- mode_config_t -/
structure ModeConfig where
  preset : ParamFile
  eq : ParamFile
  drc : ParamFile

/-- The three files of a mode lie side by side. -/
def modeConfig (stem : String) : ModeConfig :=
  ⟨⟨stem, some ".preset"⟩, ⟨stem, some ".eq"⟩, ⟨stem, some ".drc"⟩⟩

/-- right_mode_configs -/
def rightModeConfigs : Mode → ModeConfig
  | .playback => modeConfig "/vendor/etc/tfa/playback"
  | .voice => modeConfig "/vendor/etc/tfa/voice"
  | .voip => modeConfig "/vendor/etc/tfa/voip"

/-- left_mode_configs -/
def leftModeConfigs : Mode → ModeConfig
  | .playback => modeConfig "/vendor/etc/tfa/playback_l"
  | .voice => modeConfig "/vendor/etc/tfa/voice_l"
  | .voip => modeConfig "/vendor/etc/tfa/voip_l"

/-- The table that tfa9887_set_dsp_mode takes the files from. -/
def Amp.config (amp : Amp) : Mode → ModeConfig :=
  if amp.isRight then rightModeConfigs else leftModeConfigs

/-- The bytes at 0x293: 0 for the two telephony modes. -/
def modeBytes (mode : Mode) : List Byte :=
  [0, 0, if mode = .voice ∨ mode = .voip then 0 else 1]

/-- tfa9887_set_dsp_mode -/
def setDspMode (mode : Mode) : Bus Unit := do
  writeMem env amp 0x0293 (modeBytes mode)
  loadDsp env amp (amp.config mode).preset
  loadEq env amp (amp.config mode).eq
  loadDsp env amp (amp.config mode).drc

end Hima.Amplifier
