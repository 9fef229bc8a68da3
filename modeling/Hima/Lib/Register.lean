import Mathlib.Data.List.Perm.Basic

/-!
# Registers that are written and masked

The operations on a register write it, or meet it with a mask. When the values agree and no mask takes
anything from them, the order of the operations does not matter; and it does not matter only then,
as soon as each operation can come last.
-/
namespace Hima.Register

variable {ν : Type}

inductive Op (ν : Type) where
  | set (v : ν)
  | and (m : ν)
deriving DecidableEq

variable (meet : ν → ν → ν)

def Op.run (c : ν) : Op ν → ν
  | .set v => v
  | .and m => meet c m

/-- All values are the same one, and it is below every mask. -/
structure Steady (ops : List (Op ν)) : Prop where
  same : ∀ v w, .set v ∈ ops → .set w ∈ ops → v = w
  kept : ∀ v m, .set v ∈ ops → .and m ∈ ops → meet v m = v

variable {meet} {ops ops' : List (Op ν)}

/-- From a value that the masks keep, the operations lead to the one value that is written, or
nowhere. -/
theorem foldl_run {v : ν} (same : ∀ w, .set w ∈ ops → w = v) (kept : ∀ m, .and m ∈ ops → meet v m = v)
    {c : ν} (start : ∀ m, .and m ∈ ops → meet c m = c) :
    ops.foldl (Op.run meet) c = v ∨ (ops.foldl (Op.run meet) c = c ∧ ∀ w, .set w ∉ ops) := by
  induction ops generalizing c with
  | nil => exact .inr ⟨rfl, by simp⟩
  | cons op ops ih =>
    have same' : ∀ w, .set w ∈ ops → w = v := fun w member => same w (List.mem_cons_of_mem op member)
    have kept' : ∀ m, .and m ∈ ops → meet v m = v := fun m member => kept m (List.mem_cons_of_mem op member)
    cases op with
    | set w =>
      obtain rfl : w = v := same w List.mem_cons_self
      have rest := ih same' kept' kept'
      rcases rest with final | ⟨final, -⟩ <;> exact .inl final
    | and m =>
      have held : meet c m = c := start m List.mem_cons_self
      have rest := ih same' kept' (c := c) fun m' member => start m' (List.mem_cons_of_mem _ member)
      rw [List.foldl_cons, Op.run, held]
      rcases rest with final | ⟨final, unset⟩
      · exact .inl final
      · exact .inr ⟨final, by simpa using unset⟩

/-- A value that is written is the final one. -/
theorem Steady.foldl_of_set (steady : Steady meet ops) {v : ν} (written : .set v ∈ ops) {c : ν}
    (start : ∀ m, .and m ∈ ops → meet c m = c) : ops.foldl (Op.run meet) c = v := by
  rcases foldl_run (fun w member => steady.same w v member written)
    (fun m member => steady.kept v m written member) start with final | ⟨-, unset⟩
  · exact final
  · exact absurd written (unset v)

theorem foldl_of_unset (unset : ∀ w, .set w ∉ ops) {c : ν} (start : ∀ m, .and m ∈ ops → meet c m = c) :
    ops.foldl (Op.run meet) c = c := by
  rcases foldl_run (v := c) (fun w member => absurd member (unset w)) start start with final | ⟨final, -⟩
  · exact final
  · exact final

/-- The order of steady operations does not matter. -/
theorem Steady.foldl_perm (steady : Steady meet ops) (perm : ops.Perm ops') {c : ν}
    (start : ∀ m, .and m ∈ ops → meet c m = c) :
    ops'.foldl (Op.run meet) c = ops.foldl (Op.run meet) c := by
  have steady' : Steady meet ops' :=
    ⟨fun v w hv hw => steady.same v w (perm.mem_iff.mpr hv) (perm.mem_iff.mpr hw),
      fun v m hv hm => steady.kept v m (perm.mem_iff.mpr hv) (perm.mem_iff.mpr hm)⟩
  have start' : ∀ m, .and m ∈ ops' → meet c m = c := fun m member => start m (perm.mem_iff.mpr member)
  by_cases written : ∃ v, .set v ∈ ops
  · obtain ⟨v, written⟩ := written
    rw [steady.foldl_of_set written start, steady'.foldl_of_set (perm.mem_iff.mp written) start']
  · have unset : ∀ w, .set w ∉ ops := fun w member => written ⟨w, member⟩
    have unset' : ∀ w, .set w ∉ ops' := fun w member => unset w (perm.mem_iff.mpr member)
    rw [foldl_of_unset unset start, foldl_of_unset unset' start']

/-- Operations each of which leaves the same value when it comes last are steady. -/
theorem steady_of_last (idempotent : ∀ c m, meet (meet c m) m = meet c m) {a : ν}
    (last : ∀ op ∈ ops, ∃ c, op.run meet c = a) : Steady meet ops := by
  have sets (v : ν) (written : .set v ∈ ops) : v = a := by
    obtain ⟨c, final⟩ := last _ written
    exact final
  refine ⟨fun v w hv hw => (sets v hv).trans (sets w hw).symm, fun v m hv hm => ?_⟩
  obtain ⟨c, final⟩ := last _ hm
  have final : meet c m = a := final
  rw [sets v hv, ← final, idempotent]

end Hima.Register

/-!
## Partial writes

A write gives new values to some cells and leaves the others as they are. What a write leaves alone
is the only trace of what was there before.
-/
namespace Hima.Overlay

variable {ι α : Type}

/-- The cells after a write: `none` leaves the cell as it is. -/
def overlay (write : ι → Option α) (cells : ι → Option α) : ι → Option α :=
  fun i => (write i).or (cells i)

/-- A write that leaves no cell as it is. -/
def Total (write : ι → Option α) : Prop := ∀ i, (write i).isSome

variable {write : ι → Option α} {cells cells' : ι → Option α}

theorem overlay_of_some {i : ι} {a : α} (wrote : write i = some a) :
    overlay write cells i = some a := by
  rw [overlay, wrote, Option.some_or]

theorem overlay_of_none {i : ι} (kept : write i = none) : overlay write cells i = cells i := by
  rw [overlay, kept, Option.none_or]

theorem overlay_of_total (total : Total write) : overlay write cells = write := by
  funext i
  obtain ⟨a, wrote⟩ := Option.isSome_iff_exists.mp (total i)
  rw [overlay_of_some wrote, wrote]

theorem overlay_eq_of_total (total : Total write) : overlay write cells = overlay write cells' :=
  (overlay_of_total total).trans (overlay_of_total total).symm

theorem overlay_overlay : overlay write (overlay write cells) = overlay write cells := by
  funext i
  cases wrote : write i with
  | none => rw [overlay_of_none wrote]
  | some a => rw [overlay_of_some wrote, overlay_of_some wrote]

/-- Behind cells that differ everywhere a write leads to the same cells only if it is total. -/
theorem total_of_overlay_eq (apart : ∀ i, cells i ≠ cells' i)
    (same : overlay write cells = overlay write cells') : Total write := by
  intro i
  cases wrote : write i with
  | none =>
    have here := congrFun same i
    rw [overlay_of_none wrote, overlay_of_none wrote] at here
    exact absurd here (apart i)
  | some a => rfl

end Hima.Overlay
