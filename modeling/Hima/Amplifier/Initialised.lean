import Hima.Amplifier.ModeData

/-!
# What a bring-up that succeeds has done

An amplifier is initialised when its node is open, its DSP is enabled, and the last speaker model,
configuration, preset, EQ and DRC data that the DSP has accepted are those of its files. An opening
that returns 0 has done that, unless an operation on a file failed in it.
-/
namespace Hima.Amplifier

open Hima.Fallible Prog Triple

/-! ### The parameters -/

/-- The parameters that the initialisation sets from files. -/
inductive Parameter
  | speaker
  | config
  | block (b : Block)
  deriving DecidableEq

def Parameter.ident : Parameter → List Byte
  | .speaker => rpcId MODULE_SPEAKERBOOST PARAM_SET_LSMODEL
  | .config => rpcId MODULE_SPEAKERBOOST PARAM_SET_CONFIG
  | .block b => b.ident

variable (env : Env) (amp : Amp)

/-- The data of a parameter, as the amplifier's files for its mode have them. -/
def fileData : Parameter → Option (List Byte)
  | .speaker => some (contents env amp.speakerFile MAX_PARAM_SIZE 0)
  | .config => some (contents env CONFIG_TFA9887 MAX_PARAM_SIZE 0)
  | .block b => blockData env amp amp.mode b

/-- The last data of the parameter that the DSP has accepted are those of the files. -/
def Loaded (k : Parameter) (d : Dsp) : Prop :=
  ∃ data, fileData env amp k = some data ∧ lastUnder k.ident d.accepted = some data

/-- The DSP has the data of all files, and it is enabled. -/
def Ready (d : Dsp) : Prop := d.enabled = true ∧ ∀ k, Loaded env amp k d

/-- The amplifier's node is open, and its DSP is ready. -/
def Initialised (d : Dsp) : Prop := 0 ≤ amp.fd ∧ Ready env amp d

theorem Ready.matches {d : Dsp} (ready : Ready env amp d) : Matches env amp d :=
  fun b => ready.2 (.block b)

/-! ### What leaves a parameter alone -/

/-- The data of the parameter are loaded, and a wake-up of the DSP with what is in memory would not change
that. -/
def Settled (k : Parameter) (d : Dsp) : Prop :=
  Loaded env amp k d ∧ k.ident.isPrefixOf d.mem = false

variable {env amp} {k : Parameter}

theorem ids_speaker : amp.speakerFile.ids = some (PARAM_SET_LSMODEL, MODULE_SPEAKERBOOST) := by
  unfold Amp.speakerFile
  cases amp.isRight <;> rfl

theorem ident_nil (k : Parameter) : k.ident.isPrefixOf [] = false := by
  rcases k with _ | _ | b
  · rfl
  · rfl
  · cases b <;> rfl

/-- The identifier of no file's parameter begins a message under `rpcId module param`. -/
def Foreign (module param : Byte) : Prop :=
  ∀ (k : Parameter) (data : List Byte), k.ident.isPrefixOf (rpcId module param ++ data) = false

theorem foreign_agc : Foreign MODULE_SPEAKERBOOST PARAM_SET_AGC := by
  rintro (_ | _ | _ | _ | _) data <;> exact rpcId_apart (by decide) data

theorem foreign_getRe0 : Foreign MODULE_SPEAKERBOOST PARAM_GET_RE0 := by
  rintro (_ | _ | _ | _ | _) data <;> exact rpcId_apart (by decide) data

theorem foreign_setRe0 : Foreign MODULE_SETRE PARAM_SET_RE0 := by
  rintro (_ | _ | _ | _ | _) data <;> exact rpcId_apart (by decide) data

theorem parameter_apart {k' : Parameter} (apart : k ≠ k') (data : List Byte) :
    k.ident.isPrefixOf (k'.ident ++ data) = false := by
  rcases k with _ | _ | _ | _ | _ <;> rcases k' with _ | _ | _ | _ | _ <;>
    first | exact absurd rfl apart | exact rpcId_apart (by decide) data

theorem blind_settled : Blind (Settled env amp k) := fun _ _ settled => settled

theorem settled_of_message {d d' : Dsp} {message : List Byte} (settled : Settled env amp k d)
    (other : k.ident.isPrefixOf message = false) (sent : d'.accepted = message :: d.accepted)
    (empty : d'.mem = []) : Settled env amp k d' := by
  obtain ⟨⟨data, known, loaded⟩, -⟩ := settled
  refine ⟨⟨data, known, ?_⟩, ?_⟩
  · rw [sent, lastUnder_other other]
    exact loaded
  · rw [empty]
    exact ident_nil k

theorem settled_wake {d : Dsp} (settled : Settled env amp k d) (accepts : Bool) :
    Settled env amp k (d.wake accepts) := by
  unfold Dsp.wake
  split
  · obtain ⟨⟨data, known, loaded⟩, outside⟩ := settled
    refine ⟨⟨data, known, ?_⟩, outside⟩
    rw [lastUnder_other outside]
    exact loaded
  · exact settled

/-- The value that read_mem and dsp_reset write back may have the wake bits set. -/
theorem settled_cfControls (v : BitVec 16) :
    Maintains (Held (Settled env amp k)) (writeReg env amp Reg.CF_CONTROLS v) := by
  apply maintains_writeConfig
  intro accepts d settled
  rw [Dsp.write_cfControls]
  split
  · exact settled_wake (blind_settled d _ settled) accepts
  · exact blind_settled d _ settled

theorem settled_cfMad (v : BitVec 16) :
    Maintains (Held (Settled env amp k)) (writeReg env amp Reg.CF_MAD v) := by
  apply maintains_writeConfig
  intro accepts d settled
  rw [Dsp.write_cfMad]
  exact ⟨settled.1, ident_nil k⟩

theorem settled_readMem (offset : BitVec 16) (words : Nat) :
    Maintains (Held (Settled env amp k)) (readMem env amp offset words) := by
  apply Triple.bind (maintains_readReg blind_settled _)
  intro _
  apply Triple.bind (settled_cfControls _)
  intro _
  apply Triple.bind (settled_cfMad _)
  intro _
  apply Triple.bind (maintains_read blind_settled _ _ _)
  exact fun _ => .pure fun _ settled => settled

/-- The bytes of the mode go to memory, and are the beginning of no message. -/
theorem settled_writeMode (mode : Mode) :
    Does (Settled env amp k) (writeMem env amp 0x0293 (modeBytes mode)) fun _ => Settled env amp k := by
  have address : Does (Settled env amp k) (writeReg env amp Reg.CF_MAD 0x0293)
      fun _ d => Settled env amp k d ∧ d.mem = [] := by
    apply does_writeReg
    intro accepts d settled
    rw [Dsp.write_cfMad]
    exact ⟨⟨settled.1, ident_nil k⟩, rfl⟩
  apply Does.bind (Does.of_maintains (maintains_readReg blind_settled _))
  intro _
  apply Does.bind (Does.of_maintains (settled_cfControls _))
  intro _
  apply Does.bind address
  intro _
  apply does_write
  rintro d ⟨settled, empty⟩
  refine ⟨settled.1, ?_⟩
  rw [Dsp.mem_fill, empty]
  rcases k with _ | _ | _ | _ | _ <;> cases mode <;> rfl

theorem settled_calibrationTries (left : Nat) :
    Maintains (Held (Settled env amp k)) (calibrationTries env amp left) := by
  induction left with
  | zero =>
    apply Triple.bind (settled_readMem _ _)
    exact fun _ => .fail fun _ settled => settled
  | succ left ih =>
    apply Triple.bind (settled_readMem _ _)
    intro mem
    apply Triple.ite
    · exact fun _ => ih
    · exact fun _ => .pure fun _ settled => settled

theorem settled_waitForCalibration :
    Maintains (Held (Settled env amp k)) (waitForCalibration env amp) := by
  apply Triple.bind (maintains_readReg blind_settled _)
  intro value
  apply Triple.ite
  · intro _
    apply Triple.bind (maintains_waitReg blind_settled _ _ _ _)
    exact fun _ => .pure fun _ settled => settled
  · exact fun _ => settled_calibrationTries _

theorem settled_setConfigured : Maintains (Held (Settled env amp k)) (setConfigured env amp) := by
  apply Triple.bind (maintains_readReg blind_settled _)
  intro _
  apply Triple.bind (Triple.attempt (maintains_writeReg blind_settled (by decide) _))
  exact fun _ => .pure fun _ settled => settled

theorem settled_mute (m : Mute) : Maintains (Held (Settled env amp k)) (mute env amp m) := by
  apply Triple.bind (maintains_readReg blind_settled _)
  intro audValue
  apply Triple.bind (maintains_readReg blind_settled _)
  intro sysValue
  have written : Maintains (Held (Settled env amp k))
      (writeReg env amp Reg.AUDIO_CONTROL (m.audio audValue)) := by
    apply maintains_writeConfig
    intro accepts d settled
    rw [Dsp.write_audio]
    exact settled
  apply Triple.bind written
  exact fun _ => maintains_writeReg blind_settled (by decide) _

theorem settled_dspReset (reset : Bool) :
    Maintains (Held (Settled env amp k)) (dspReset env amp reset) := by
  apply Triple.bind (maintains_readReg blind_settled _)
  exact fun _ => settled_cfControls _

/-! ### The cold boot patch -/

/-- A write of CF_CONTROLS without the wake bits, whatever follows it in the transfer. -/
theorem settled_writeClear {rest : List Byte} (short : rest.length ≤ 200) :
    Maintains (Held (Settled env amp k)) (write env amp Reg.CF_CONTROLS (0x00 :: 0x07 :: rest) 1) := by
  have sent : Maintains (Held (Settled env amp k))
      (writeConfig env amp (Reg.CF_CONTROLS :: 0x00 :: 0x07 :: rest.take 251)) := by
    apply maintains_writeConfig
    intro accepts d settled
    exact blind_settled d Reg.CF_CONTROLS settled
  have room : roundDown MAX_I2C_LENGTH 1 - 1 = 253 := rfl
  unfold write writeChunks
  apply Triple.bind sent
  intro _
  apply Triple.ite
  · exact fun _ => .pure fun _ settled => settled
  · intro more
    simp only [List.length_cons] at more
    omega

/-- The cold boot patch has one block, and the byte sent behind it is what the buffer held there. -/
theorem settled_patchBlocks (buffer : List Byte) :
    Maintains (Held (Settled env amp k)) (patchBlocks env amp dspPatch.length buffer dspPatch) := by
  have sent : Maintains (Held (Settled env amp k)) (write env amp Reg.CF_CONTROLS
      (0x00 :: 0x07 :: ([0x81, 0x00, 0x00, 0x00, 0x01] ++ (buffer.drop 8)).take 6) 1) :=
    settled_writeClear ((List.length_take_le 6 _).trans (by decide))
  have length : dspPatch.length = 9 + 1 := rfl
  have size : (0x08 : Byte).toNat + (0x00 : Byte).toNat * 256 = 8 := rfl
  rw [length, dspPatch]
  unfold patchBlocks
  dsimp only
  rw [if_neg (by decide), size]
  apply Triple.bind (Triple.attempt sent)
  rintro (_ | _)
  · exact .fail fun _ settled => settled
  · exact .pure fun _ settled => settled

theorem settled_loadPatch : Maintains (Held (Settled env amp k)) (loadPatch env amp dspPatch) := by
  have looked : Maintains (Held (Settled env amp k))
      (Prog.inspect (ε := Failure) fun p => garbage env MAX_I2C_LENGTH p.host) := fun _ settled => settled
  apply Triple.bind looked
  intro stack
  apply Triple.bind (Triple.attempt (maintains_readReg blind_settled _))
  rintro (_ | _)
  · apply Triple.ite
    · exact fun _ => .fail fun _ settled => settled
    · exact fun _ => settled_patchBlocks stack
  · exact settled_patchBlocks stack

theorem settled_forceColdboot : Maintains (Held (Settled env amp k)) (forceColdboot env amp) := by
  have tries (left : Nat) : Maintains (Held (Settled env amp k)) (coldbootTries env amp left) := by
    induction left with
    | zero =>
      apply Triple.bind (Triple.attempt settled_loadPatch)
      intro _
      apply Triple.bind (maintains_readReg blind_settled _)
      exact fun _ => .pure fun _ settled => settled
    | succ left ih =>
      apply Triple.bind (Triple.attempt settled_loadPatch)
      intro _
      apply Triple.bind (maintains_readReg blind_settled _)
      intro value
      apply Triple.ite
      · exact fun _ => ih
      · exact fun _ => .pure fun _ settled => settled
  exact tries 9

/-! ### Messages -/

theorem settled_setData {module param : Byte}
    (other : ∀ data, k.ident.isPrefixOf (rpcId module param ++ data) = false) (data : List Byte) :
    Does (Settled env amp k) (setData env amp module param data) fun _ => Settled env amp k := by
  apply of_runs
  · intro p _ q settled ran
    obtain ⟨sent, empty⟩ := (does_setData _ _ _ p.dsp.accepted).ok rfl ran
    exact settled_of_message settled (other data) sent empty
  · exact fun _ _ _ _ _ => trivial

theorem settled_resetAgc : Does (Settled env amp k) (resetAgc env amp) fun _ => Settled env amp k :=
  settled_setData (foreign_agc k) _

theorem settled_loadDsp {file : ParamFile} {j : Parameter} {module param : Byte}
    (ids : file.ids = some (param, module)) (ident : j.ident = rpcId module param) (apart : k ≠ j) :
    Does (Settled env amp k) (loadDsp env amp file) fun _ => Settled env amp k := by
  unfold loadDsp
  rw [ids]
  have unmoved : Does (Settled env amp k) (readFile env file MAX_PARAM_SIZE 0) fun _ => Settled env amp k :=
    fun _ settled => settled
  apply Does.bind unmoved
  intro _
  apply Does.ite
  · exact fun _ => .fail
  · intro _
    exact settled_setData (fun data => ident ▸ parameter_apart apart data) _

theorem settled_loadEq (file : ParamFile) (apart : k ≠ .block .eq) :
    Does (Settled env amp k) (loadEq env amp file) fun _ => Settled env amp k := by
  have unmoved : Does (Settled env amp k) (readEq env file) fun _ => Settled env amp k :=
    .of_runs (fun p _ q settled ran => (readEq_ok ran).2 ▸ settled) fun _ _ _ _ _ => trivial
  apply Does.bind unmoved
  exact fun data => settled_setData (parameter_apart apart) data

/-- The loads of a mode leave the speaker model and the configuration alone. -/
theorem settled_setDspMode (mode : Mode) (apart : ∀ b, k ≠ .block b) :
    Does (Settled env amp k) (setDspMode env amp mode) fun _ => Settled env amp k := by
  apply Does.bind (settled_writeMode mode)
  intro _
  apply Does.bind (settled_loadDsp (j := .block .preset) (ids_preset mode) rfl (apart _))
  intro _
  apply Does.bind (settled_loadEq _ (apart _))
  exact fun _ => settled_loadDsp (j := .block .drc) (ids_drc mode) rfl (apart _)

/-- get_data makes the DSP accept the identifier alone. -/
theorem does_getData (module param : Byte) (length : Nat) (acc : List (List Byte)) :
    Does (fun d => d.accepted = acc) (getData env amp module param length)
      fun _ d => d.accepted = rpcId module param :: acc ∧ d.mem = [] := by
  apply does_beginMessage
  have ident : Does (fun d => d.accepted = acc ∧ d.mem = []) (write env amp Reg.CF_MEM (rpcId module param) 3)
      fun _ d => d.accepted = acc ∧ d.mem = rpcId module param := by
    apply does_write
    rintro d ⟨same, empty⟩
    exact ⟨same, by simp [empty]⟩
  have address : Does (fun d => d.accepted = rpcId module param :: acc ∧ d.mem = [])
      (writeReg env amp Reg.CF_MAD 0x0002)
      fun _ d => d.accepted = rpcId module param :: acc ∧ d.mem = [] := by
    apply does_writeReg
    rintro accepts d ⟨same, -⟩
    rw [Dsp.write_cfMad]
    exact ⟨same, rfl⟩
  apply Does.bind ident
  intro _
  apply Does.bind does_wake
  intro _
  apply Does.bind (Does.of_maintains (maintains_waitReg (blind_woken _) _ _ _ _))
  intro _
  apply Does.bind (does_checkRpcStatus _)
  intro _
  apply Does.bind address
  exact fun _ => Does.of_maintains (maintains_read (fun _ _ done => done) _ _ _)

theorem settled_getCalibrationImpedance :
    Does (Settled env amp k) (getCalibrationImpedance env amp) fun _ => Settled env amp k := by
  have answered : Does (Settled env amp k) (getData env amp MODULE_SPEAKERBOOST PARAM_GET_RE0 3)
      fun _ => Settled env amp k := by
    apply of_runs
    · intro p bytes q settled ran
      obtain ⟨sent, empty⟩ := (does_getData _ _ 3 p.dsp.accepted).ok rfl ran
      exact settled_of_message settled (foreign_getRe0 k []) sent empty
    · exact fun _ _ _ _ _ => trivial
  apply Does.bind (Does.of_maintains (settled_readMem _ _))
  intro word
  apply Does.ite
  · exact fun _ => .fail
  · intro _
    apply Does.bind answered
    exact fun _ => .pure fun _ settled => settled

theorem settled_setCalibrationImpedance :
    Does (Settled env amp k) (setCalibrationImpedance env amp) fun _ => Settled env amp k := by
  apply Does.bind (settled_setData (foreign_setRe0 k) _)
  intro _
  apply Does.bind (Does.of_maintains (settled_dspReset true))
  exact fun _ => Does.of_maintains (settled_dspReset false)

/-! ### The opening -/

/-- Unless a file operation has failed since the count was `c`, the DSP has `G`. -/
def Guarded (c : Nat) (G : Dsp → Prop) (p : Port) : Prop :=
  c ≤ p.host.fileFailures ∧ (p.host.fileFailures ≤ c → G p.dsp)

variable {c : Nat} {G G' : Dsp → Prop} {α : Type} {program : Bus α}

theorem since_up : Triple (fun p : Port => c ≤ p.host.fileFailures) program
    (fun _ p => c ≤ p.host.fileFailures) fun _ => True := by
  apply of_runs
  · exact fun _ _ _ since ran => Nat.le_trans since (fileFailures_le ran)
  · exact fun _ _ _ _ _ => trivial

theorem guarded_maintains (kept : Maintains (Held G) program) : Maintains (Guarded c G) program := by
  have through {p q : Port} {r : Except Failure α} (start : Guarded c G p)
      (ran : program.run p = (r, q)) : Guarded c G q := by
    refine ⟨Nat.le_trans start.1 (fileFailures_le ran), fun whole => ?_⟩
    exact kept.of_run (start.2 (Nat.le_trans (fileFailures_le ran) whole)) ran
  exact .of_runs (fun _ _ _ start ran => through start ran) fun _ _ _ start ran => through start ran

theorem guarded_does (does : Does G program fun _ => G') :
    Triple (Guarded c G) program (fun _ => Guarded c G') fun _ => True := by
  apply of_runs
  · intro p a q start ran
    refine ⟨Nat.le_trans start.1 (fileFailures_le ran), fun whole => ?_⟩
    exact does.ok (start.2 (Nat.le_trans (fileFailures_le ran) whole)) ran
  · exact fun _ _ _ _ _ => trivial

/-- What a program has brought about if it returns and no operation on a file failed in it. -/
theorem guarded_of_ok (brings : ∀ {p q : Port} {a : α}, program.run p = (.ok a, q) →
      q.host.fileFailures ≤ p.host.fileFailures → G q.dsp) :
    Triple (fun p : Port => c ≤ p.host.fileFailures) program (fun _ => Guarded c G) fun _ => True := by
  apply of_runs
  · intro p a q since ran
    refine ⟨Nat.le_trans since (fileFailures_le ran), fun whole => ?_⟩
    exact brings ran (Nat.le_trans whole since)
  · exact fun _ _ _ _ _ => trivial

/-- A load of a file that goes through leaves its contents under the parameter. -/
theorem loadDsp_loads {file : ParamFile} {module param : Byte} (ids : file.ids = some (param, module))
    (ident : k.ident = rpcId module param)
    (known : fileData env amp k = some (contents env file MAX_PARAM_SIZE 0)) :
    Triple (fun p : Port => c ≤ p.host.fileFailures) (loadDsp env amp file)
      (fun _ => Guarded c (Settled env amp k)) fun _ => True := by
  apply guarded_of_ok
  intro p q _ ran whole
  obtain ⟨sent, empty⟩ := loadDsp_ok ids ran whole
  refine ⟨⟨_, known, ?_⟩, ?_⟩
  · rw [sent, ident]
    exact lastUnder_same _ _ _ _
  · rw [empty]
    exact ident_nil k

theorem readFileOn_nonneg (name : ParamFile) (sz seek : Nat) (h : Host) :
    0 ≤ (readFileOn env name sz seek h).1.1 := by
  unfold readFileOn
  split
  · exact Int.natCast_nonneg _
  · split
    · exact Int.natCast_nonneg _
    · exact Int.natCast_nonneg _

/-- The end of hw_init, which is always reached when hw_init returns: it never takes the way out that skips
the rest with `rc` 0. -/
theorem hwInit_settled (named : k = .speaker ∨ k = .config) :
    Triple (fun p : Port => c ≤ p.host.fileFailures) (hwInit env amp)
      (fun _ => Guarded c (Settled env amp k)) fun _ => True := by
  have patch : Triple (fun p : Port => c ≤ p.host.fileFailures)
      (readFile env PATCH_TFA9887 MAX_PATCH_SIZE PATCH_HEADER_LENGTH)
      (fun r p => 0 ≤ r.1 ∧ c ≤ p.host.fileFailures) fun _ => True := fun p since =>
    ⟨readFileOn_nonneg _ _ _ p.host, Nat.le_trans since (passes_readFileOn env _ _ _ p.host).fileFailures⟩
  iterate 7
    apply Triple.bind since_up
    intro _
  apply Triple.bind patch
  rintro ⟨patchSize, patchBuf⟩
  apply Triple.ite
  · exact fun negative => fun _ kept => absurd negative (by simpa using kept.1)
  · intro _
    apply weaken (P := fun p => c ≤ p.host.fileFailures) _ (fun _ kept => kept.2)
      (fun _ _ done => done) fun _ done => done
    apply Triple.bind since_up
    intro _
    apply Triple.bind since_up
    intro _
    rcases named with rfl | rfl
    · apply Triple.bind (loadDsp_loads (k := .speaker) ids_speaker rfl rfl)
      intro _
      apply Triple.bind (guarded_does settled_resetAgc)
      intro _
      apply Triple.bind (guarded_does (settled_loadDsp (j := .config) rfl rfl (by decide)))
      intro _
      apply Triple.bind (guarded_does settled_resetAgc)
      exact fun _ => guarded_does (.of_maintains settled_forceColdboot)
    · apply Triple.bind since_up
      intro _
      apply Triple.bind since_up
      intro _
      apply Triple.bind (loadDsp_loads (k := .config) rfl rfl rfl)
      intro _
      apply Triple.bind (guarded_does settled_resetAgc)
      exact fun _ => guarded_does (.of_maintains settled_forceColdboot)

/-- A pass up to the configured bit loads every parameter. -/
theorem configure_settled : Triple (fun p : Port => c ≤ p.host.fileFailures) (configure env amp)
    (fun _ => Guarded c (Settled env amp k)) fun _ => True := by
  have uncalibrated (value : BitVec 16) : Maintains (Held (Settled env amp k))
      (if value &&& MTP_MTPEX ≠ 0 then pure () else mute env amp .digital) := by
    apply Triple.ite
    · exact fun _ => .pure fun _ settled => settled
    · exact fun _ => settled_mute .digital
  -- what hw_init has loaded the data of the mode leave alone
  have first (named : k = .speaker ∨ k = .config) (apart : ∀ b, k ≠ .block b) :
      Triple (fun p : Port => c ≤ p.host.fileFailures) (configure env amp)
        (fun _ => Guarded c (Settled env amp k)) fun _ => True := by
    apply Triple.bind (hwInit_settled named)
    intro _
    apply Triple.bind (guarded_does (.of_maintains (maintains_readReg blind_settled _)))
    intro value
    apply Triple.bind (Triple.attempt (guarded_maintains (uncalibrated value)))
    intro _
    apply Triple.bind (guarded_does (settled_setDspMode amp.mode apart))
    exact fun _ => guarded_does (.of_maintains settled_setConfigured)
  cases k with
  | speaker => exact first (.inl rfl) fun _ => Parameter.noConfusion
  | config => exact first (.inr rfl) fun _ => Parameter.noConfusion
  | block b =>
    have loaded : Triple (fun p : Port => c ≤ p.host.fileFailures) (setDspMode env amp amp.mode)
        (fun _ => Guarded c (Settled env amp (.block b))) fun _ => True := by
      apply guarded_of_ok
      intro p q _ ran whole
      obtain ⟨holds, empty⟩ := setDspMode_ok ran whole
      refine ⟨holds b, ?_⟩
      rw [empty]
      exact ident_nil (.block b)
    apply Triple.bind since_up
    intro _
    apply Triple.bind since_up
    intro _
    apply Triple.bind since_up
    intro _
    apply Triple.bind loaded
    exact fun _ => guarded_does (.of_maintains settled_setConfigured)

theorem impedanceInRange_settled (calResult : Except Failure (BitVec 32)) :
    Triple (Guarded c (Settled env amp k)) (impedanceInRange env amp calResult)
      (fun _ => Guarded c (Settled env amp k)) fun _ => True := by
  cases calResult with
  | error e => exact .pure fun _ kept => kept
  | ok calValue =>
    apply Triple.ite
    · exact fun _ => .pure fun _ kept => kept
    · intro _
      apply Triple.bind (guarded_does settled_getCalibrationImpedance)
      exact fun _ => .pure fun _ kept => kept

/-- The end of a pass keeps the data, or hands over to the next pass. -/
theorem settleCalibration_settled {left : Nat} {next : Bus Unit}
    (again : left ≠ 0 → Triple (fun p : Port => c ≤ p.host.fileFailures) next
      (fun _ => Guarded c (Settled env amp k)) fun _ => True) :
    Triple (Guarded c (Settled env amp k)) (settleCalibration env amp left next)
      (fun _ => Guarded c (Settled env amp k)) fun _ => True := by
  apply Triple.bind (Triple.attempt (guarded_maintains settled_waitForCalibration))
  intro calResult
  apply Triple.bind (impedanceInRange_settled calResult)
  intro calibrated
  apply Triple.ite
  · exact fun _ => .pure fun _ kept => kept
  · intro _
    apply Triple.ite
    · exact fun _ => guarded_does settled_setCalibrationImpedance
    · intro more
      apply weaken (P := fun p => c ≤ p.host.fileFailures) _ (fun _ kept => kept.1)
        (fun _ _ done => done) fun _ done => done
      apply Triple.bind since_up
      exact fun _ => again more

/-- Every pass loads the parameters anew, so the loop has loaded them whenever it returns. -/
theorem passes_settled (left : Nat) : Triple (fun p : Port => c ≤ p.host.fileFailures)
    (passes env amp left) (fun _ => Guarded c (Settled env amp k)) fun _ => True := by
  induction left with
  | zero =>
    apply Triple.bind configure_settled
    exact fun _ => settleCalibration_settled fun more => absurd rfl more
  | succ left ih =>
    apply Triple.bind configure_settled
    exact fun _ => settleCalibration_settled fun _ => ih

theorem does_enableDsp {I J : Dsp → Prop} (enable : Bool) (does : ∀ d, I d → J { d with enabled := enable }) :
    Does I (enableDsp env amp enable) fun _ => J := by
  apply Triple.ite
  · exact fun _ => .fail fun _ _ => trivial
  · exact fun _ => ioctl_spec (Q := fun _ => J) (E := fun _ => True) (fun _ _ start => does _ start)
      fun _ _ => trivial

/-- The parameter is loaded, and the DSP is enabled. -/
def Enabled (env : Env) (amp : Amp) (k : Parameter) (d : Dsp) : Prop :=
  d.enabled = true ∧ Settled env amp k d

theorem blind_enabled : Blind (Enabled env amp k) := fun _ _ enabled => enabled

theorem initialise_enabled : Triple (fun p : Port => c ≤ p.host.fileFailures) (initialise env amp)
    (fun _ => Guarded c (Enabled env amp k)) fun _ => True := by
  apply Triple.bind since_up
  intro _
  apply Triple.bind (passes_settled 2)
  intro _
  apply Triple.bind (guarded_does (does_enableDsp (J := Enabled env amp k) true fun _ kept => ⟨rfl, kept⟩))
  exact fun _ => guarded_does (.of_maintains (maintains_htcInit blind_enabled))

/-- An opening that returns 0, with no failure on a file, leaves the DSP ready: powering off at the end does
not undo it. -/
theorem openAmp_ready {p q : Port} (ran : (openAmp env amp).run p = (.ok (), q))
    (whole : q.host.fileFailures ≤ p.host.fileFailures) : Ready env amp q.dsp := by
  obtain ⟨_, p₁, disabled, ran⟩ := bind_ok ran
  obtain ⟨_, p₂, locked, ran⟩ := bind_ok ran
  obtain ⟨rc, p₃, attempted, ran⟩ := bind_ok ran
  obtain ⟨_, p₄, powered, done⟩ := bind_ok ran
  rw [run_ofExcept] at done
  obtain ⟨rfl, rfl⟩ := Prod.mk.inj done
  have since : p.host.fileFailures ≤ p₂.host.fileFailures :=
    Nat.le_trans (fileFailures_le disabled) (fileFailures_le locked)
  have each (k : Parameter) : Enabled env amp k p₄.dsp := by
    have loaded := (initialise_enabled (k := k)).ok since (attempt_ok attempted)
    have kept := (guarded_maintains (maintains_hwPower blind_enabled false)).of_run loaded (attempt_ok powered)
    exact kept.2 whole
  exact ⟨(each .speaker).1, fun k => (each k).2.1⟩

end Hima.Amplifier
