import Hima.Amplifier.Bringup

/-!
# What the transfers do to the DSP

A write of any register but four only selects it. What is written through CF_MEM reaches the DSP in
order, however it is cut into chunks; set_data makes the DSP take up the identifier and the data as
one message, and returns 0 only if the DSP has accepted it.
-/
namespace Hima.Amplifier

open Hima.Fallible Prog Reg

/-! ### Single writes -/

theorem extractLsb'_append (v : BitVec 16) :
    (v.extractLsb' 8 8 ++ v.extractLsb' 0 8 : BitVec 16) = v := by
  apply BitVec.eq_of_getLsbD_eq
  intro i bound
  rw [BitVec.getLsbD_append]
  split
  · simp [*]
  · have same : 8 + (i - 8) = i := by omega
    have small : i - 8 < 8 := by omega
    simp [small, same]

namespace Dsp

variable (accepts : Bool) (d : Dsp)

def select (reg : Byte) : Dsp := { d with addressed := reg }

/-- The bytes `buf` behind those already in memory. -/
def fill (buf : List Byte) : Dsp := { d with addressed := Reg.CF_MEM, mem := d.mem ++ buf }

@[simp] theorem accepted_select (reg : Byte) : (d.select reg).accepted = d.accepted := rfl
@[simp] theorem mem_select (reg : Byte) : (d.select reg).mem = d.mem := rfl
@[simp] theorem mem_fill (buf : List Byte) : (d.fill buf).mem = d.mem ++ buf := rfl

theorem fill_fill (first rest : List Byte) : (d.fill first).fill rest = d.fill (first ++ rest) := by
  simp [fill]

theorem write_select (reg : Byte) : d.write accepts [reg] = d.select reg := by
  simp [write, value, select]

theorem write_cfMem (buf : List Byte) : d.write accepts (CF_MEM :: buf) = d.fill buf := by
  simp [write, fill]

theorem write_regBuffer {reg : Byte} (register : reg ≠ Reg.CF_MEM) (v : BitVec 16) :
    d.write accepts (regBuffer reg v) = if reg = CF_MAD then { d.select reg with mad := v, mem := [] }
      else if reg = AUDIO_CONTROL then { d.select reg with audio := v }
      else if reg = CF_CONTROLS ∧ v &&& CF_CONTROLS_WAKE = CF_CONTROLS_WAKE then
        (d.select reg).wake accepts
      else d.select reg := by
  have read : value [v.extractLsb' 8 8, v.extractLsb' 0 8, 0] = some v := by
    rw [value, extractLsb'_append]
  unfold write regBuffer
  dsimp only
  rw [if_neg register, read]
  rfl

theorem write_cfMad (v : BitVec 16) :
    d.write accepts (regBuffer CF_MAD v) = { d.select CF_MAD with mad := v, mem := [] } := by
  rw [write_regBuffer _ _ (by decide), if_pos rfl]

theorem write_cfControls (v : BitVec 16) :
    d.write accepts (regBuffer CF_CONTROLS v) =
      if v &&& CF_CONTROLS_WAKE = CF_CONTROLS_WAKE then (d.select CF_CONTROLS).wake accepts
      else d.select CF_CONTROLS := by
  rw [write_regBuffer _ _ (by decide), if_neg (by decide), if_neg (by decide)]
  simp only [true_and]

theorem write_audio (v : BitVec 16) :
    d.write accepts (regBuffer AUDIO_CONTROL v) = { d.select AUDIO_CONTROL with audio := v } := by
  rw [write_regBuffer _ _ (by decide), if_neg (by decide), if_pos rfl]

/-- The registers that do more than hold a setting. -/
def special : List Byte := [CF_MEM, Reg.CF_MAD, Reg.AUDIO_CONTROL, Reg.CF_CONTROLS]

theorem write_plain {reg : Byte} (plain : reg ∉ special) (v : BitVec 16) :
    d.write accepts (regBuffer reg v) = d.select reg := by
  simp only [special, List.mem_cons, List.not_mem_nil, or_false, not_or] at plain
  obtain ⟨memory, address, audio, controls⟩ := plain
  rw [write_regBuffer _ _ memory, if_neg address, if_neg audio, if_neg (fun both => controls both.1)]

end Dsp

/-! ### Facts that do not look at the selected register -/

/-- Reading a register, and writing one that only holds a setting, keeps `I`. -/
def Blind (I : Dsp → Prop) : Prop := ∀ d reg, I d → I (d.select reg)

/-- `I` of the DSP behind the port. -/
abbrev Held (I : Dsp → Prop) (p : Port) : Prop := I p.dsp

/-- A program that only has to be right when it returns. -/
abbrev Does {α : Type} (I : Dsp → Prop) (p : Bus α) (Q : α → Dsp → Prop) : Prop :=
  Triple (Held I) p (fun a q => Q a q.dsp) fun _ => True

variable {env : Env} {amp : Amp} {I J : Dsp → Prop}

theorem Does.of_maintains {α : Type} {p : Bus α} (kept : Maintains (Held I) p) : Does I p fun _ => I :=
  kept.weaken (fun _ start => start) (fun _ _ done => done) fun _ _ => trivial

theorem Does.bind {α β : Type} {p : Bus α} {f : α → Bus β} {R : α → Dsp → Prop} {Q : β → Dsp → Prop}
    (first : Does I p R) (rest : ∀ a, Does (R a) (f a) Q) : Does I (p >>= f) Q :=
  Triple.bind first rest

theorem Does.ite {α : Type} {c : Prop} [Decidable c] {p q : Bus α} {Q : α → Dsp → Prop}
    (left : c → Does I p Q) (right : ¬ c → Does I q Q) : Does I (if c then p else q) Q :=
  Triple.ite left right

theorem Does.pure {α : Type} {a : α} {Q : α → Dsp → Prop} (start : ∀ d, I d → Q a d) :
    Does I (Pure.pure a : Bus α) Q := fun p => start p.dsp

theorem Does.fail {α : Type} {e : Failure} {Q : α → Dsp → Prop} : Does I (Prog.fail e : Bus α) Q :=
  fun _ _ => trivial

theorem maintains_writeConfig {bytes : List Byte} (kept : ∀ accepts d, I d → I (d.write accepts bytes)) :
    Maintains (Held I) (writeConfig env amp bytes) :=
  ioctl_spec (Q := fun _ => I) (fun _ _ start => kept _ _ start) fun _ start => start

theorem maintains_readConfig (size : Nat) : Maintains (Held I) (readConfig env amp size) :=
  ioctl_spec (Q := fun _ => I) (fun _ _ start => start) fun _ start => start

theorem does_writeConfig {bytes : List Byte} (does : ∀ accepts d, I d → J (d.write accepts bytes)) :
    Does I (writeConfig env amp bytes) fun _ => J :=
  ioctl_spec (Q := fun _ => J) (E := fun _ => True) (fun _ _ start => does _ _ start) fun _ _ => trivial

theorem does_readConfig {size : Nat} {Q : List Byte → Dsp → Prop}
    (does : ∀ d reply, I d → Q (d.shows size reply) d) : Does I (readConfig env amp size) Q :=
  ioctl_spec (Q := Q) (E := fun _ => True) (fun _ _ start => does _ _ start) fun _ _ => trivial

theorem does_writeReg {reg : Byte} {v : BitVec 16}
    (does : ∀ accepts d, I d → J (d.write accepts (regBuffer reg v))) :
    Does I (writeReg env amp reg v) fun _ => J := does_writeConfig does

theorem maintains_readChunks (chunkSize : Nat) (fuel : Nat) :
    ∀ len, Maintains (Held I) (readChunks env amp chunkSize fuel len) := by
  induction fuel with
  | zero => exact fun _ => .pure fun _ start => start
  | succ fuel ih =>
    intro len
    apply Triple.bind (maintains_readConfig _)
    intro buffer
    apply Triple.ite
    · exact fun _ => .pure fun _ start => start
    · intro _
      apply Triple.bind (ih _)
      exact fun _ => .pure fun _ start => start

section blind

variable (blind : Blind I)
include blind

theorem maintains_select (reg : Byte) : Maintains (Held I) (writeConfig env amp [reg]) := by
  apply maintains_writeConfig
  intro accepts d start
  rw [Dsp.write_select]
  exact blind d reg start

theorem maintains_readReg (reg : Byte) : Maintains (Held I) (readReg env amp reg) := by
  apply Triple.bind (maintains_select blind reg)
  intro _
  apply Triple.bind (maintains_readConfig 2)
  exact fun _ => .pure fun _ start => start

theorem maintains_writeReg {reg : Byte} (plain : reg ∉ Dsp.special) (v : BitVec 16) :
    Maintains (Held I) (writeReg env amp reg v) := by
  apply maintains_writeConfig
  intro accepts d start
  rw [Dsp.write_plain _ _ plain]
  exact blind d reg start

theorem maintains_read (addr : Byte) (len alignment : Nat) :
    Maintains (Held I) (read env amp addr len alignment) := by
  apply Triple.bind (maintains_select blind addr)
  exact fun _ => maintains_readChunks _ _ _

theorem maintains_waitTries (reg : Byte) (ready : BitVec 16) (set : Bool) (left : Nat) :
    Maintains (Held I) (waitTries env amp reg ready set left) := by
  induction left with
  | zero =>
    apply Triple.bind (maintains_readReg blind reg)
    exact fun _ => .fail fun _ start => start
  | succ left ih =>
    apply Triple.bind (maintains_readReg blind reg)
    intro value
    apply Triple.ite
    · exact fun _ => ih
    · exact fun _ => .pure fun _ start => start

theorem maintains_waitReg (reg : Byte) (ready : BitVec 16) (set : Bool) (maxTries : Nat) :
    Maintains (Held I) (waitReg env amp reg ready set maxTries) :=
  maintains_waitTries blind _ _ _ _

theorem maintains_hwPower (on : Bool) : Maintains (Held I) (hwPower env amp on) := by
  apply Triple.bind (maintains_readReg blind _)
  exact fun _ => maintains_writeReg blind (by decide) _

theorem maintains_htcInit : Maintains (Held I) (htcInit env amp) := by
  apply Triple.bind (maintains_readReg blind _)
  intro _
  apply Triple.bind (maintains_writeReg blind (by decide) _)
  intro _
  apply Triple.bind (maintains_readReg blind _)
  intro _
  apply Triple.bind (maintains_writeReg blind (by decide) _)
  intro _
  apply Triple.bind (maintains_readReg blind _)
  exact fun _ => maintains_writeReg blind (by decide) _

end blind

/-! ### Memory -/

/-- The chunks arrive one behind the other: with a byte of room in each the last one ends the buffer
before the fuel is used up. -/
theorem does_writeChunks {room : Nat} (positive : 0 < room) (fuel : Nat) :
    ∀ {I J : Dsp → Prop} {buf : List Byte}, buf.length < fuel → (∀ d, I d → J (d.fill buf)) →
      Does I (writeChunks env amp CF_MEM room fuel buf) fun _ => J := by
  induction fuel with
  | zero => exact fun enough _ => absurd enough (Nat.not_lt_zero _)
  | succ fuel ih =>
    intro I J buf enough does
    have sent : Does I (writeConfig env amp (CF_MEM :: buf.take room)) fun _ d =>
        ∃ d', I d' ∧ d = d'.fill (buf.take room) := by
      apply does_writeConfig
      intro accepts d start
      exact ⟨d, start, Dsp.write_cfMem _ d _⟩
    apply Does.bind sent
    intro _
    apply Does.ite
    · intro last
      apply Does.pure
      rintro _ ⟨d, start, rfl⟩
      rw [List.take_of_length_le last]
      exact does d start
    · intro more
      apply ih
      · simp only [List.length_drop]
        omega
      · rintro _ ⟨d, start, rfl⟩
        rw [Dsp.fill_fill, List.take_append_drop]
        exact does d start

theorem does_write {buf : List Byte} (does : ∀ d, I d → J (d.fill buf)) :
    Does I (write env amp CF_MEM buf 3) fun _ => J :=
  does_writeChunks (by decide) _ (Nat.lt_succ_self _) does

theorem does_readWord {Q : List Byte → Dsp → Prop} (does : ∀ d reply, I d →
      Q ((d.select CF_MEM).shows 3 reply) (d.select CF_MEM)) :
    Does I (read env amp CF_MEM 3 3) Q := by
  have selected : Does I (writeConfig env amp [CF_MEM]) fun _ d =>
      ∃ d', I d' ∧ d = d'.select CF_MEM := by
    apply does_writeConfig
    intro accepts d start
    exact ⟨d, start, Dsp.write_select _ d _⟩
  apply Does.bind selected
  intro _
  have brought : Does (fun d => ∃ d', I d' ∧ d = d'.select CF_MEM) (readConfig env amp 3) Q := by
    apply does_readConfig
    rintro _ reply ⟨d, start, rfl⟩
    exact does d reply start
  have chunk : roundDown MAX_I2C_LENGTH 3 = 252 := rfl
  unfold readChunks
  apply Does.bind brought
  intro buffer
  apply Does.ite
  · exact fun _ => .pure fun _ done => done
  · exact fun more => absurd (by decide) more

/-! ### The status of a message -/

/-- The messages accepted are `acc`, unless the last one was refused. -/
def Woken (acc : List (List Byte)) (d : Dsp) : Prop :=
  (d.accepted = acc ∧ d.refused = false) ∨ d.refused = true

theorem blind_woken (acc : List (List Byte)) : Blind (Woken acc) := fun _ _ woken => woken

theorem rpcStatus_eq_zero {bytes : List Byte} (zero : rpcStatus bytes = 0) (three : bytes.length = 3) :
    bytes.all (· == 0) := by
  obtain ⟨b0, b1, b2, rfl⟩ := List.length_eq_three.mp three
  simp only [rpcStatus, List.getD_cons_zero, List.getD_cons_succ] at zero
  have h0 : b0 = 0 := BitVec.eq_of_toNat_eq (by simp; omega)
  have h1 : b1 = 0 := BitVec.eq_of_toNat_eq (by simp; omega)
  have h2 : b2 = 0 := BitVec.eq_of_toNat_eq (by simp; omega)
  simp [h0, h1, h2]

theorem rpcStatus_refused {d : Dsp} (reply : List Byte) (refused : d.refused = true) (mad : d.mad = 0) :
    rpcStatus ((d.select CF_MEM).shows 3 reply) ≠ 0 := by
  intro zero
  unfold Dsp.shows at zero
  dsimp only at zero
  split at zero
  · revert zero
    decide
  next shown =>
    apply shown
    have three : ((reply ++ List.replicate 3 0).take 3).length = 3 := by simp
    exact ⟨refused, rfl, mad, rpcStatus_eq_zero zero three⟩

theorem does_rpcTries (acc : List (List Byte)) (left : Nat) :
    Does (fun d => Woken acc d ∧ d.mad = 0 ∧ d.mem = []) (rpcTries env amp left)
      fun _ d => d.accepted = acc ∧ d.mem = [] := by
  have word : Does (fun d => Woken acc d ∧ d.mad = 0 ∧ d.mem = []) (read env amp CF_MEM 3 3)
      fun mem d => (Woken acc d ∧ d.mad = 0 ∧ d.mem = []) ∧
        (rpcStatus mem = 0 → d.accepted = acc ∧ d.mem = []) := by
    apply does_readWord
    rintro d reply ⟨woken, mad, mem⟩
    refine ⟨⟨woken, mad, mem⟩, fun zero => ?_⟩
    rcases woken with ⟨same, -⟩ | refused
    · exact ⟨same, mem⟩
    · exact absurd zero (rpcStatus_refused reply refused mad)
  induction left with
  | zero =>
    apply Does.bind word
    intro mem
    apply Does.ite
    · exact fun zero => .pure fun _ done => done.2 zero
    · exact fun _ => .fail
  | succ left ih =>
    apply Does.bind word
    intro mem
    apply Does.ite
    · exact fun zero => .pure fun _ done => done.2 zero
    · exact fun _ => Triple.weaken ih (fun _ done => done.1) (fun _ _ done => done) fun _ done => done

theorem does_checkRpcStatus (acc : List (List Byte)) :
    Does (Woken acc) (checkRpcStatus env amp) fun _ d => d.accepted = acc ∧ d.mem = [] := by
  have controls : Does (Woken acc) (writeReg env amp CF_CONTROLS 0x0002) fun _ => Woken acc := by
    apply does_writeReg
    intro accepts d woken
    rw [Dsp.write_cfControls, if_neg (by decide)]
    exact woken
  have address : Does (Woken acc) (writeReg env amp CF_MAD 0x0000)
      fun _ d => Woken acc d ∧ d.mad = 0 ∧ d.mem = [] := by
    apply does_writeReg
    intro accepts d woken
    rw [Dsp.write_cfMad]
    exact ⟨woken, rfl, rfl⟩
  apply Does.bind controls
  intro _
  apply Does.bind address
  exact fun _ => does_rpcTries acc 99

/-! ### set_data -/

/-- The preparation of a message: the memory is empty, and what was accepted is `acc`. -/
theorem does_beginMessage {α : Type} {acc : List (List Byte)} {rest : Bus α} {Q : α → Dsp → Prop}
    (after : Does (fun d => d.accepted = acc ∧ d.mem = []) rest Q) :
    Does (fun d => d.accepted = acc) (do
        writeReg env amp CF_CONTROLS 0x0002
        writeReg env amp CF_MAD 0x0001
        rest) Q := by
  have controls : Does (fun d => d.accepted = acc) (writeReg env amp CF_CONTROLS 0x0002)
      fun _ d => d.accepted = acc := by
    apply does_writeReg
    intro accepts d same
    rw [Dsp.write_cfControls, if_neg (by decide)]
    exact same
  have address : Does (fun d => d.accepted = acc) (writeReg env amp CF_MAD 0x0001)
      fun _ d => d.accepted = acc ∧ d.mem = [] := by
    apply does_writeReg
    intro accepts d same
    rw [Dsp.write_cfMad]
    exact ⟨same, rfl⟩
  apply Does.bind controls
  intro _
  apply Does.bind address
  exact fun _ => after

/-- The write that wakes the DSP hands it what is in memory. -/
theorem does_wake {acc : List (List Byte)} {message : List Byte} :
    Does (fun d => d.accepted = acc ∧ d.mem = message)
      (writeReg env amp CF_CONTROLS (0x0002 ||| CF_CONTROLS_WAKE)) fun _ => Woken (message :: acc) := by
  apply does_writeReg
  rintro accepts d ⟨same, filled⟩
  rw [Dsp.write_cfControls, if_pos (by decide), Dsp.wake]
  split
  · exact .inl ⟨by simp [same, filled], rfl⟩
  · exact .inr rfl

/-- set_data returns 0 only if the DSP has accepted the identifier with the data, whole and in order. -/
theorem does_setData (module param : Byte) (data : List Byte) (acc : List (List Byte)) :
    Does (fun d => d.accepted = acc) (setData env amp module param data)
      fun _ d => d.accepted = (rpcId module param ++ data) :: acc ∧ d.mem = [] := by
  apply does_beginMessage
  have ident : Does (fun d => d.accepted = acc ∧ d.mem = []) (write env amp CF_MEM (rpcId module param) 3)
      fun _ d => d.accepted = acc ∧ d.mem = rpcId module param := by
    apply does_write
    rintro d ⟨same, empty⟩
    exact ⟨same, by simp [empty]⟩
  have body : Does (fun d => d.accepted = acc ∧ d.mem = rpcId module param) (write env amp CF_MEM data 3)
      fun _ d => d.accepted = acc ∧ d.mem = rpcId module param ++ data := by
    apply does_write
    rintro d ⟨same, filled⟩
    exact ⟨same, by simp [filled]⟩
  apply Does.bind ident
  intro _
  apply Does.bind body
  intro _
  apply Does.bind does_wake
  intro _
  apply Does.bind (Does.of_maintains (maintains_waitReg (blind_woken _) _ _ _ _))
  exact fun _ => does_checkRpcStatus _

end Hima.Amplifier
