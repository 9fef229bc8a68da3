import Hima.Amplifier.Messages

/-!
# The data of a mode in the DSP

The last preset, EQ and DRC data that a DSP has accepted, and what a mode switch leaves there: if
tfa9887_set_dsp_mode returns 0 and no operation on a file failed in it, these are the data of the mode.
-/
namespace Hima.Amplifier

open Hima.Fallible Prog

/-! ### The three blocks of data -/

inductive Block
  | preset
  | eq
  | drc
  deriving DecidableEq

/-- The identifier that the data are sent under. -/
def Block.ident : Block → List Byte
  | .preset => rpcId MODULE_SPEAKERBOOST PARAM_SET_PRESET
  | .eq => rpcId MODULE_BIQUADFILTERBANK PARAM_SET_EQ
  | .drc => rpcId MODULE_SPEAKERBOOST PARAM_SET_DRC

/-- The last data of a kind among the messages, the newest first. -/
def lastData (b : Block) (messages : List (List Byte)) : Option (List Byte) :=
  (messages.find? fun m => b.ident.isPrefixOf m).map fun m => m.drop 3

/-- The last data of a kind that the DSP has accepted. -/
def Dsp.loaded (d : Dsp) (b : Block) : Option (List Byte) := lastData b d.accepted

/-- The last data under an identifier among the messages, the newest first. -/
def lastUnder (ident : List Byte) (messages : List (List Byte)) : Option (List Byte) :=
  (messages.find? fun m => ident.isPrefixOf m).map fun m => m.drop 3

theorem rpcId_begins (module param : Byte) (data : List Byte) :
    (rpcId module param).isPrefixOf (rpcId module param ++ data) = true := by
  simp [rpcId, List.isPrefixOf]

/-- An identifier does not begin a message under another one. -/
theorem rpcId_apart {module param module' param' : Byte}
    (apart : rpcId module param ≠ rpcId module' param') (data : List Byte) :
    (rpcId module param).isPrefixOf (rpcId module' param' ++ data) = false := by
  rw [Bool.eq_false_iff]
  intro begins
  have pre : rpcId module param <+: rpcId module' param' ++ data := List.isPrefixOf_iff_prefix.mp begins
  exact apart (List.prefix_iff_eq_take.mp pre)

theorem lastUnder_same (module param : Byte) (data : List Byte) (rest : List (List Byte)) :
    lastUnder (rpcId module param) ((rpcId module param ++ data) :: rest) = some data := by
  unfold lastUnder
  rw [List.find?_cons_of_pos (rpcId_begins module param data)]
  rfl

theorem lastUnder_other {ident message : List Byte} (other : ident.isPrefixOf message = false)
    (rest : List (List Byte)) : lastUnder ident (message :: rest) = lastUnder ident rest := by
  unfold lastUnder
  rw [List.find?_cons_of_neg (by simp [other])]

theorem ident_apart {b b' : Block} (apart : b ≠ b') (data : List Byte) :
    b.ident.isPrefixOf (b'.ident ++ data) = false := by
  cases b <;> cases b' <;> first | exact absurd rfl apart | exact rpcId_apart (by decide) data

variable (env : Env)

/-- What load_eq sends for a file, if it is well formed. -/
def eqBytes (name : ParamFile) : (left i : Nat) → Option (List Byte)
  | 0, _ => some []
  | left + 1, i =>
    match eqLineBytes env name i with
    | none => none
    | some bytes =>
      match eqBytes name left (i + 1) with
      | none => none
      | some rest => some (bytes ++ rest)

/-- The data of a mode for an amplifier, as its files have them. -/
def blockData (amp : Amp) (mode : Mode) : Block → Option (List Byte)
  | .preset => some (contents env (amp.config mode).preset MAX_PARAM_SIZE 0)
  | .eq => eqBytes env (amp.config mode).eq MAX_EQ_LINES 0
  | .drc => some (contents env (amp.config mode).drc MAX_PARAM_SIZE 0)

/-- The last data that the DSP has accepted are those of the mode. -/
def Holds (amp : Amp) (mode : Mode) (d : Dsp) : Prop :=
  ∀ b, ∃ data, blockData env amp mode b = some data ∧ d.loaded b = some data

/-- The last data that the DSP has accepted are those of the recorded mode. -/
def Matches (amp : Amp) (d : Dsp) : Prop := Holds env amp amp.mode d

variable {env : Env} {amp : Amp}

theorem holds_of_accepted {mode : Mode} {d d' : Dsp} (holds : Holds env amp mode d)
    (same : d'.accepted = d.accepted) : Holds env amp mode d' := by
  unfold Holds Dsp.loaded
  rw [same]
  exact holds

/-! ### Reading files -/

/-- Without a failure read_file brings the contents. -/
theorem readFileOn_contents {name : ParamFile} {sz seek : Nat} {h : Host}
    (whole : (readFileOn env name sz seek h).2.fileFailures ≤ h.fileFailures) :
    (readFileOn env name sz seek h).1 =
      (((contents env name sz seek).length : Int), contents env name sz seek) := by
  have closed (fd : Nat) (h : Host) : (h.closeFd fd).fileFailures = h.fileFailures := by
    unfold Host.closeFd
    split
    · rfl
    · split <;> rfl
  unfold readFileOn Host.openFile Host.openFd at whole ⊢
  cases opens : env.fails h.clock with
  | some e =>
    simp only [opens] at whole
    omega
  | none =>
    simp only [opens, Host.fileOp] at whole ⊢
    split at whole
    next e h'' answer =>
      split at answer
      · cases answer
        simp only [closed, Host.failed, Host.tick] at whole
        omega
      · cases answer
    · rfl

/-- The loop of load_eq gets to its end only with the bytes of the file. -/
theorem eqLines_ok {name : ParamFile} (left : Nat) :
    ∀ {i : Nat} {h h' : Host} {data : List Byte}, eqLines env name left i h = (.ok data, h') →
      eqBytes env name left i = some data := by
  induction left with
  | zero =>
    intro i h h' data ran
    cases ran
    rfl
  | succ left ih =>
    intro i h h' data ran
    unfold eqLines at ran
    unfold eqBytes
    split at ran
    · cases ran
    · cases line : eqLineBytes env name i with
      | none => simp [line] at ran
      | some bytes =>
        simp only [line] at ran
        split at ran
        · cases ran
        next rest h'' below =>
          cases ran
          simp only [ih below]

theorem readEq_ok {name : ParamFile} {p q : Port} {data : List Byte}
    (ran : (readEq env name).run p = (.ok data, q)) :
    eqBytes env name MAX_EQ_LINES 0 = some data ∧ q.dsp = p.dsp := by
  simp only [readEq, Prod.mk.injEq] at ran
  obtain ⟨read, rfl⟩ := ran
  unfold readEqOn at read
  split at read
  · cases read
  next fd h' opened => exact ⟨eqLines_ok MAX_EQ_LINES (Prod.ext read rfl), rfl⟩

/-! ### Loads -/

/-- A load that returns 0, with no failure on its file, makes the contents the last message. -/
theorem loadDsp_ok {file : ParamFile} {module param : Byte} (ids : file.ids = some (param, module))
    {p q : Port} (ran : (loadDsp env amp file).run p = (.ok (), q))
    (whole : q.host.fileFailures ≤ p.host.fileFailures) :
    q.dsp.accepted = (rpcId module param ++ contents env file MAX_PARAM_SIZE 0) :: p.dsp.accepted ∧
      q.dsp.mem = [] := by
  unfold loadDsp at ran
  rw [ids] at ran
  obtain ⟨⟨numBytes, data⟩, u, read, ran⟩ := bind_ok ran
  simp only [readFile, Prod.mk.injEq, Except.ok.injEq] at read
  obtain ⟨brought, rfl⟩ := read
  -- the count of failures has not moved from before the read to the end
  have later := fileFailures_le ran
  have exact_ := readFileOn_contents (Nat.le_trans later whole)
  rw [brought, Prod.mk.injEq] at exact_
  obtain ⟨rfl, rfl⟩ := exact_
  dsimp only at ran
  rw [if_neg (by omega)] at ran
  have sent := (does_setData module param _ p.dsp.accepted).ok (by rfl) ran
  rwa [Int.toNat_natCast, List.take_length] at sent

theorem loadEq_ok {file : ParamFile} {p q : Port} (ran : (loadEq env amp file).run p = (.ok (), q)) :
    ∃ data, eqBytes env file MAX_EQ_LINES 0 = some data ∧
      q.dsp.accepted = (Block.eq.ident ++ data) :: p.dsp.accepted ∧ q.dsp.mem = [] := by
  obtain ⟨data, u, read, ran⟩ := bind_ok ran
  obtain ⟨known, same⟩ := readEq_ok read
  exact ⟨data, known, (does_setData _ _ data p.dsp.accepted).ok (congrArg Dsp.accepted same) ran⟩

theorem ids_preset (mode : Mode) :
    (amp.config mode).preset.ids = some (PARAM_SET_PRESET, MODULE_SPEAKERBOOST) := by
  unfold Amp.config
  cases amp.isRight <;> cases mode <;> rfl

theorem ids_drc (mode : Mode) :
    (amp.config mode).drc.ids = some (PARAM_SET_DRC, MODULE_SPEAKERBOOST) := by
  unfold Amp.config
  cases amp.isRight <;> cases mode <;> rfl

/-- A mode switch that returns 0, with no failure on the files, leaves the data of the mode. -/
theorem setDspMode_ok {mode : Mode} {p q : Port} (ran : (setDspMode env amp mode).run p = (.ok (), q))
    (whole : q.host.fileFailures ≤ p.host.fileFailures) :
    Holds env amp mode q.dsp ∧ q.dsp.mem = [] := by
  obtain ⟨_, p₁, wrote, ran⟩ := bind_ok ran
  obtain ⟨_, p₂, preset, ran⟩ := bind_ok ran
  obtain ⟨_, p₃, eq, drc⟩ := bind_ok ran
  have from₁ := fileFailures_le wrote
  have from₂ := fileFailures_le preset
  have from₃ := fileFailures_le eq
  have from₄ := fileFailures_le drc
  obtain ⟨presetSent, -⟩ := loadDsp_ok (ids_preset mode) preset (by omega)
  obtain ⟨data, known, eqSent, -⟩ := loadEq_ok eq
  obtain ⟨drcSent, empty⟩ := loadDsp_ok (ids_drc mode) drc (by omega)
  refine ⟨fun b => ?_, empty⟩
  unfold Dsp.loaded
  rw [drcSent, eqSent, presetSent]
  change ∃ d, _ ∧ lastUnder b.ident ((Block.drc.ident ++ _) :: (Block.eq.ident ++ _) ::
    (Block.preset.ident ++ _) :: _) = some d
  cases b with
  | drc => exact ⟨_, rfl, lastUnder_same _ _ _ _⟩
  | eq =>
    refine ⟨data, known, ?_⟩
    rw [lastUnder_other (ident_apart (by decide) _)]
    exact lastUnder_same _ _ _ _
  | preset =>
    refine ⟨_, rfl, ?_⟩
    rw [lastUnder_other (ident_apart (by decide) _), lastUnder_other (ident_apart (by decide) _)]
    exact lastUnder_same _ _ _ _

end Hima.Amplifier
