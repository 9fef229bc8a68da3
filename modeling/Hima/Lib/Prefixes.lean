import Mathlib.Data.List.Basic
import Mathlib.Data.List.Induction

/-!
# Every state on the way

A list of writes that is applied one at a time, with a reader that may look after any of them.
-/
namespace Hima.Prefixes

variable {σ ω : Type} {apply : σ → ω → σ} {P Q : σ → Prop}

/-- `P` holds before the first write and after each of them. -/
def EveryPrefix (apply : σ → ω → σ) (P : σ → Prop) : σ → List ω → Prop
  | s, [] => P s
  | s, w :: ws => P s ∧ EveryPrefix apply P (apply s w) ws

theorem EveryPrefix.start {s : σ} {ws : List ω} (h : EveryPrefix apply P s ws) : P s := by
  cases ws with
  | nil => exact h
  | cons => exact h.1

theorem EveryPrefix.final {s : σ} {ws : List ω} (h : EveryPrefix apply P s ws) :
    P (ws.foldl apply s) := by
  induction ws generalizing s with
  | nil => exact h
  | cons w ws ih => exact ih h.2

theorem everyPrefix_iff_take (s : σ) (ws : List ω) :
    EveryPrefix apply P s ws ↔ ∀ k, P ((ws.take k).foldl apply s) := by
  induction ws generalizing s with
  | nil => simp only [EveryPrefix, List.take_nil, List.foldl_nil, forall_const]
  | cons w ws ih =>
    simp only [EveryPrefix, ih]
    constructor
    · rintro ⟨first, rest⟩ k
      cases k with
      | zero => exact first
      | succ k => exact rest k
    · exact fun h => ⟨h 0, fun k => h (k + 1)⟩

theorem EveryPrefix.append {s : σ} {ws vs : List ω} (first : EveryPrefix apply P s ws)
    (second : EveryPrefix apply P (ws.foldl apply s) vs) :
    EveryPrefix apply P s (ws ++ vs) := by
  induction ws generalizing s with
  | nil => exact second
  | cons w ws ih => exact ⟨first.1, ih first.2 second⟩

theorem EveryPrefix.mono (weaker : ∀ s, P s → Q s) {s : σ} {ws : List ω}
    (h : EveryPrefix apply P s ws) : EveryPrefix apply Q s ws := by
  induction ws generalizing s with
  | nil => exact weaker s h
  | cons w ws ih => exact ⟨weaker s h.1, ih h.2⟩

/-- Writes of a kind that keeps `P`. -/
theorem EveryPrefix.of_kept {kind : ω → Prop} (kept : ∀ s w, P s → kind w → P (apply s w))
    {s : σ} {ws : List ω} (first : P s) (all : ∀ w ∈ ws, kind w) :
    EveryPrefix apply P s ws ∧ P (ws.foldl apply s) := by
  induction ws generalizing s with
  | nil => exact ⟨first, first⟩
  | cons w ws ih =>
    have next := ih (kept s w first (all w List.mem_cons_self))
      (fun v member => all v (List.mem_cons_of_mem w member))
    exact ⟨⟨first, next.1⟩, next.2⟩

/-! ### The first step that goes wrong -/

/-- The elements of a list, each with those before it. -/
theorem forall_prefix_iff {ws : List ω} {R : List ω → ω → Prop} :
    (∀ pre w, pre ++ [w] <+: ws → R pre w) ↔ ∀ k (inside : k < ws.length), R (ws.take k) ws[k] := by
  constructor
  · intro always k inside
    refine always _ _ ?_
    rw [← List.take_succ_eq_append_getElem inside]
    exact List.take_prefix _ _
  · intro always pre w before
    obtain ⟨rest, rfl⟩ := before
    have here := always pre.length (by simp)
    simpa using here

section Steps

variable {step : σ → ω → σ} {allowed ok : σ → ω → Prop} {Inv : σ → Prop} {start : σ} {ws : List ω}

/-- What the steps that are allowed keep holds after any of them. -/
theorem invariant_of_steps (Inv : σ → Prop) (allowed : σ → ω → Prop) (initial : Inv start)
    (kept : ∀ s w, Inv s → allowed s w → Inv (step s w))
    (steps : ∀ pre w, pre ++ [w] <+: ws → allowed (pre.foldl step start) w) :
    ∀ pre, pre <+: ws → Inv (pre.foldl step start) := by
  intro pre
  induction pre using List.reverseRecOn with
  | nil => exact fun _ => initial
  | append_singleton pre w ih =>
    intro before
    rw [List.foldl_concat]
    exact kept _ w (ih ((List.prefix_append _ _).trans before)) (steps pre w before)

/-- A step that keeps an invariant when it meets `ok`, and breaks `P` when it does not: `P` holds
all the way exactly when every step meets `ok`. -/
theorem holds_iff_steps (Inv : σ → Prop) (allowed ok : σ → ω → Prop) (initial : Inv start) (holds : ∀ s, Inv s → P s)
    (kept : ∀ s w, Inv s → allowed s w → ok s w → Inv (step s w))
    (broken : ∀ s w, Inv s → allowed s w → ¬ ok s w → ¬ P (step s w))
    (steps : ∀ pre w, pre ++ [w] <+: ws → allowed (pre.foldl step start) w) :
    (∀ pre, pre <+: ws → P (pre.foldl step start)) ↔
      ∀ pre w, pre ++ [w] <+: ws → ok (pre.foldl step start) w := by
  constructor
  · intro always
    -- up to the step in question all went well
    have inv : ∀ pre, pre <+: ws → Inv (pre.foldl step start) := by
      intro pre
      induction pre using List.reverseRecOn with
      | nil => exact fun _ => initial
      | append_singleton pre w ih =>
        intro before
        have here := ih ((List.prefix_append _ _).trans before)
        have next := always _ before
        rw [List.foldl_concat] at next ⊢
        by_contra fails
        exact broken _ w here (steps pre w before)
          (fun fine => fails (kept _ w here (steps pre w before) fine)) next
    intro pre w before
    by_contra bad
    have next := always _ before
    rw [List.foldl_concat] at next
    exact broken _ w (inv pre ((List.prefix_append _ _).trans before)) (steps pre w before) bad next
  · intro fine pre before
    exact holds _ (invariant_of_steps Inv (fun s w => allowed s w ∧ ok s w) initial
      (fun s w inv both => kept s w inv both.1 both.2)
      (fun pre w before => ⟨steps pre w before, fine pre w before⟩) pre before)

end Steps

end Hima.Prefixes
