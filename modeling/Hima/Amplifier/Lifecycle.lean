import Hima.Amplifier.Driver
import Hima.Amplifier.Initialised
import Hima.Lib.Runs

/-!
# The lifecycle of the amplifier table

Over every sequence of calls and every pattern of failures: which calls reach a table that is not
there, how the allocations and the descriptors balance, and what a 0 of tfa9887_open means.
-/
namespace Hima.Amplifier

open Hima.Fallible Hima.Runs Prog

/-! ### Accounts -/

/-- The descriptor of an amplifier whose node is open. -/
def Amp.descriptors (amp : Amp) : List Nat := if amp.fd < 0 then [] else [amp.fd.toNat]

def Table.descriptors : Table → List Nat
  | .allocated right left => left.descriptors ++ right.descriptors
  | _ => []

def Table.Live (t : Table) : Prop := ∃ right left, t = .allocated right left

/-- The tables in memory: at most one. -/
def Table.count : Table → Nat
  | .allocated _ _ => 1
  | _ => 0

/-- Between two calls the driver holds the descriptors of its table, each once and no other, it has
never closed a descriptor that was not open, and every table allocated is the present one or was freed
once. -/
structure Accounts (w : World) : Prop where
  strays : w.host.strays = []
  table : w.host.table = w.amps.descriptors
  distinct : w.host.table.Nodup
  allocs : w.allocs = w.frees + w.amps.count

/-- The process before the first call. -/
structure Fresh (w : World) : Prop where
  null : w.amps = .null
  accounts : Accounts w

variable {env : Env}

/-! ### A program on one amplifier -/

section on

variable {α : Type} (w : World) (side : Side) (p : Bus α)

theorem on_passes : w.host.Passes (w.on side p).2.host := by
  have above := (p.up (w.port side)).1
  cases side <;> exact above

@[simp] theorem on_amps : (w.on side p).2.amps = w.amps := by cases side <;> rfl
@[simp] theorem on_allocs : (w.on side p).2.allocs = w.allocs := by cases side <;> rfl
@[simp] theorem on_frees : (w.on side p).2.frees = w.frees := by cases side <;> rfl
@[simp] theorem on_table : (w.on side p).2.host.table = w.host.table := (on_passes w side p).table
@[simp] theorem on_strays : (w.on side p).2.host.strays = w.host.strays := (on_passes w side p).strays

theorem on_dsp : (w.on side p).2.dsp side = (p.run (w.port side)).2.dsp := by cases side <;> rfl

end on

variable {w : World}

theorem Accounts.on {α : Type} (accounts : Accounts w) (side : Side) (p : Bus α) :
    Accounts (w.on side p).2 where
  strays := by simpa using accounts.strays
  table := by simpa using accounts.table
  distinct := by simpa using accounts.distinct
  allocs := by simpa using accounts.allocs

/-! ### Opening -/

/-- What one pass of the loop of tfa9887_open leaves: the descriptor of its entry, if it has one,
comes on top of the others. -/
structure Opened (env : Env) (w : World) (side : Side) (rc : Except Failure Unit) (amp : Amp)
    (w' : World) : Prop where
  table : w'.host.table = amp.descriptors ++ w.host.table
  distinct : w.host.table.Nodup → w'.host.table.Nodup
  strays : w'.host.strays = w.host.strays
  amps : w'.amps = w.amps
  allocs : w'.allocs = w.allocs
  frees : w'.frees = w.frees
  other : ∀ s, s ≠ side → w'.dsp s = w.dsp s
  files : w.host.fileFailures ≤ w'.host.fileFailures
  initialised : rc = .ok () → w'.host.fileFailures ≤ w.host.fileFailures →
    Initialised env amp (w'.dsp side)

theorem Host.openFd_error {h h' : Host} {e : Errno} (failed : h.openFd env = (.error e, h')) :
    h' = h.failed := by
  unfold Host.openFd at failed
  cases answer : env.fails h.clock with
  | none => simp [answer] at failed
  | some e' => simp only [answer, Prod.mk.injEq] at failed; exact failed.2.symm

theorem Host.openFd_ok {h h' : Host} {fd : Nat} (opened : h.openFd env = (.ok fd, h')) :
    fd = h.unused env ∧ h' = { h.tick with table := h.unused env :: h.table } := by
  unfold Host.openFd at opened
  cases answer : env.fails h.clock with
  | some e => simp [answer] at opened
  | none =>
    simp only [answer, Prod.mk.injEq, Except.ok.injEq] at opened
    exact ⟨opened.1.symm, opened.2.symm⟩

variable (env) in
theorem openSide_opened (side : Side) (w : World) :
    Opened env w side (openSide env side w).1 (openSide env side w).2.1 (openSide env side w).2.2 := by
  unfold openSide init
  cases answer : w.host.openFd env with
  | mk r h =>
    cases r with
    | error e =>
      obtain rfl := Host.openFd_error answer
      constructor
      case other => cases side <;> intro s _ <;> cases s <;> rfl
      case files => exact Nat.le_refl _
      case initialised => intro impossible; cases impossible
      all_goals first | rfl | exact fun distinct => distinct
    | ok fd =>
      obtain ⟨rfl, rfl⟩ := Host.openFd_ok answer
      have nonneg : ¬ ((w.host.unused env : Nat) : Int) < 0 := by omega
      constructor
      case table =>
        rw [on_table]
        unfold Amp.descriptors
        rw [if_neg nonneg, Int.toNat_natCast]
        cases side <;> rfl
      case distinct =>
        intro distinct
        rw [on_table]
        cases side <;> exact List.nodup_cons.mpr ⟨w.host.unused_fresh env, distinct⟩
      case strays => rw [on_strays]; cases side <;> rfl
      case amps => rw [on_amps]; cases side <;> rfl
      case allocs => rw [on_allocs]; cases side <;> rfl
      case frees => rw [on_frees]; cases side <;> rfl
      case other => cases side <;> intro s other <;> cases s <;> first | rfl | exact absurd rfl other
      case files =>
        refine Nat.le_trans ?_ (on_passes _ side _).fileFailures
        cases side <;> exact Nat.le_refl _
      case initialised =>
        intro returned whole
        refine ⟨Int.natCast_nonneg _, ?_⟩
        rw [on_dsp]
        apply openAmp_ready (Prod.ext returned rfl)
        cases side <;> exact whole

/-- The right amplifier fails to open or to initialise while the left one succeeds. -/
def oneSided (env : Env) (w : World) : Bool :=
  match callocTable env w with
  | none => false
  | some w =>
    let right := openSide env .right w
    rcOf right.1 != 0 && rcOf (openSide env .left right.2.2).1 == 0

/-- An operation on a parameter file fails in the opening, and everything else goes through. -/
def unread (env : Env) (w : World) : Bool :=
  (tfa9887Open env w).1 == 0 && (tfa9887Open env w).2.host.fileFailures != w.host.fileFailures

@[simp] theorem rcOf_eq_zero {rc : Except Failure Unit} : rcOf rc = 0 ↔ rc = .ok () := by
  cases rc with
  | ok a => simp [rcOf]
  | error e => simp [rcOf, e.nonzero]

/-! ### The property of one call -/

/-- What is asked of a call that returned `rc` and left `w'`. -/
structure Sound (env : Env) (w : World) (c : Call) (rc : Int) (w' : World) : Prop where
  accounts : Accounts w'
  /-- 0 from tfa9887_open means that both amplifiers are up, with the data of their files -/
  initialised : c = .open_ → rc = 0 → ∃ right left, w'.amps = .allocated right left ∧
    Initialised env right w'.right ∧ Initialised env left w'.left
  /-- without a table, and with memory for one, tfa9887_open allocates it -/
  allocated : c = .open_ → ¬ w.amps.Live → env.fails w.host.clock = none → w'.amps.Live
  /-- tfa9887_close frees the table, once -/
  freed : c = .close → w'.frees = w.frees + 1 ∧ ¬ w'.amps.Live

/-- No call follows a close, power and close are called only with a table, and an open does not
bring up the left amplifier after the right one has failed, nor an amplifier without one of its files. -/
def Allowed (env : Env) (w : World) (c : Call) : Prop :=
  w.amps ≠ .freed ∧
    match c with
    | .open_ => w.amps = .null → oneSided env w = false ∧ unread env w = false
    | .power _ | .close => w.amps ≠ .null
    | .setMode _ | .setMute _ => True

instance (env : Env) (w : World) (c : Call) : Decidable (Allowed env w c) := by
  unfold Allowed
  cases c <;> infer_instance

/-! ### One call -/

theorem callocTable_some {w w' : World} (allocated : callocTable env w = some w') :
    w' = { w with host := w.host.tick, allocs := w.allocs + 1 } := by
  unfold callocTable at allocated
  split at allocated
  · cases allocated
  · exact (Option.some.inj allocated).symm

/-- Two passes of the loop of tfa9887_open that both go through, with no failure on a file. -/
theorem bothUp {w₁ w₂ w₃ : World} {rc₁ rc₂ : Except Failure Unit} {right left : Amp}
    (first : Opened env w₁ .right rc₁ right w₂) (second : Opened env w₂ .left rc₂ left w₃)
    (rightOk : rc₁ = .ok ()) (leftOk : rc₂ = .ok ()) (whole : w₃.host.fileFailures = w₁.host.fileFailures) :
    Initialised env right w₃.right ∧ Initialised env left w₃.left := by
  -- bringing up the left amplifier does not touch the right one
  have kept : w₃.right = w₂.right := second.other .right (by decide)
  rw [kept]
  exact ⟨first.initialised rightOk (by rw [← whole]; exact second.files),
    second.initialised leftOk (by rw [whole]; exact first.files)⟩

/-- A device that shows what the driver waits for, with an impedance of 6. -/
def healthyReply (d : Dsp) (size : Nat) : List Byte :=
  if size = 2 then
    if d.addressed = Reg.STATUS then [0x08, 0x02]
    else if d.addressed = Reg.MTP then [0x00, 0x03]
    else [0x01, 0x00]
  else if d.mad = 231 then [0x00, 0x00, 0x01]
  else if d.mad = 2 then [0x01, 0x80, 0x00]
  else []

/-- Only the operation `missing` fails. -/
def healthyBut (missing : Option Nat) : Env where
  fails n := if missing = some n then some ENODEV else none
  reply _ d size := healthyReply d size
  accepts _ := true
  descriptor n := n
  stack _ _ := 0
  file _ := [1, 2, 3]
  scan _ i := some (i + 1, fun k => if k.val = 0 then 0x3F800000 else 0)
  lineData _ := none

def idleDsp : Dsp := ⟨0, 0, [], [], false, 0, false⟩

/-- A process that has not called the driver yet. -/
def start : World := ⟨⟨0, 0, 0, [], []⟩, idleDsp, idleDsp, .null, 0, 0⟩

end Hima.Amplifier
