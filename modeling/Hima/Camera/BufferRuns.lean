import Hima.Camera.BufferAccounts

/-!
# Buffer counts over all interleavings

A call that drops the lock to detach a buffer acts afterwards on what it had found before. The counts
hold in the runs where that is still so, where a notification finds a free buffer, and where no buffer
comes back to a stream that has been registered anew since it was handed out.
-/
namespace Hima.BufferManager

open Runs Camera3BufferManager

variable {m m' : Camera3BufferManager} {a : Action} {as : List Action}

namespace Camera3BufferManager

/-- The buffers that count under a registration. -/
def claims (m : Camera3BufferManager) (b : Registration) : Nat :=
  m.out b + m.detaching.countP (·.call = b)

def Inv (m : Camera3BufferManager) : Prop := m.Sound m.claims

/-- What was found before the lock was dropped still holds: the entries of the map are in place and the
other stream has a free buffer; buffers come back under the registration they were handed out under. -/
def Undisturbed (m : Camera3BufferManager) : Action → Prop
  | .resume call freed _ =>
    (freed = true → call.storage = m.storage ∧ m.hasFreeBuffer call.call.key call.other = true) ∧
      (call.checks ≠ 0 → (m.mStreamSetMap.lookup call.call.key).isSome = true)
  | .onBufferReleased buffer =>
    m.checkIfStreamRegisteredLocked buffer.key buffer.streamId = true →
      m.registration buffer.key buffer.streamId = buffer.number
  | .onBuffersRemoved key streamId numbers =>
    m.checkIfStreamRegisteredLocked key streamId = true →
      ∀ number ∈ numbers, number = m.registration key streamId
  | .notifyBufferRemoved key streamId => m.hasFreeBuffer key streamId = true
  | _ => True

instance : (a : Action) → Decidable (m.Undisturbed a)
  | .resume _ _ _ => inferInstanceAs (Decidable (_ ∧ _))
  | .onBufferReleased _ => inferInstanceAs (Decidable (_ → _))
  | .onBuffersRemoved _ _ _ => inferInstanceAs (Decidable (_ → _))
  | .notifyBufferRemoved _ _ => inferInstanceAs (Decidable (_ = true))
  | .registerStream _ => isTrue trivial
  | .unregisterStream _ _ => isTrue trivial
  | .getBufferForStream _ _ _ _ _ => isTrue trivial

/-- What the call found when it dropped the lock. -/
def Good (m : Camera3BufferManager) (call : Detach) : Prop :=
  call.storage = m.storage ∧ m.hasFreeBuffer call.call.key call.other = true

/-- The step neither registers nor unregisters a stream nor takes a buffer from the other stream. -/
def Quiet (call : Detach) : Action → Prop
  | .registerStream _ | .unregisterStream _ _ => False
  | .getBufferForStream key s _ _ _ | .notifyBufferRemoved key s => Besides key s call.call.key call.other
  | .resume call' freed _ => freed = true → Besides call'.call.key call'.other call.call.key call.other
  | .onBufferReleased _ | .onBuffersRemoved _ _ _ => True

/-- What a step leaves to the calls that it is quiet for, and to one that drops the lock. -/
def Window (m : Camera3BufferManager) (a : Action) (m' : Camera3BufferManager) : Prop :=
  ∀ call, m.Good call ∧ Quiet call a ∨ call ∈ m'.detaching ∧ call ∉ m.detaching → m'.Good call

theorem inv_init (k : Nat) : ({ kMaxBufferCount := k } : Camera3BufferManager).Inv :=
  ⟨nofun, nofun, fun _ _ => Nat.le_refl 0, fun _ _ => rfl⟩

/-! ### Steps -/

/-- The answer to a call, or its wait, takes what counts under its registration. -/
theorem Sound.proceed {claims : Registration → Nat} {call : Registration} {progress : Progress}
    (h : m.Sound claims) (claimed : ∀ b, m.claims b + (if b = call then progress.buffers else 0) ≤ claims b) :
    (m.proceed call progress).Inv := by
  cases progress with
  | returns rv =>
    rw [Camera3BufferManager.proceed]
    by_cases handsOut : rv = .ok ∨ rv = .alreadyExists
    · rw [if_pos handsOut]
      refine Sound.congr h rfl rfl rfl rfl fun b => ?_
      have before := claimed b
      simp only [Progress.buffers, if_pos handsOut] at before
      by_cases same : b = call
      · subst same
        simp only [Camera3BufferManager.claims, Function.update_self, if_true] at before ⊢
        omega
      · simpa [Camera3BufferManager.claims, Function.update_of_ne same, same] using before
    · rw [if_neg handsOut]
      exact h.mono fun b => Nat.le_trans (Nat.le_add_right _ _) (claimed b)
  | detaches other checks =>
    refine Sound.congr h rfl rfl rfl rfl fun b => ?_
    have before := claimed b
    simp only [Progress.buffers] at before
    simp only [Camera3BufferManager.claims, Camera3BufferManager.proceed, List.countP_cons,
      decide_eq_true_eq] at before ⊢
    by_cases same : b = call
    · simp only [same, if_true] at before ⊢
      omega
    · simp only [same, Ne.symm same, if_false] at before ⊢
      omega

/-- The stream that is chosen when the lock is dropped has what the call needs. -/
theorem Good.proceed {call : Registration} {progress : Progress} {d : Detach} (chooses : m.Chooses call.key progress)
    (good : m.Good d ∨ d ∈ (m.proceed call progress).detaching ∧ d ∉ m.detaching) :
    (m.proceed call progress).Good d := by
  cases progress with
  | returns rv =>
    have same : (m.proceed call (.returns rv)).detaching = m.detaching := by
      rw [Camera3BufferManager.proceed]
      split <;> rfl
    have old := good.resolve_right fun new => new.2 (same ▸ new.1)
    rw [Camera3BufferManager.proceed]
    split <;> exact old
  | detaches other checks =>
    rcases good with old | ⟨waits, new⟩
    · exact old
    · obtain rfl := (List.mem_cons.mp waits).resolve_right new
      exact ⟨rfl, chooses other checks rfl⟩

theorem Good.spared {alone : StreamSetKey → Int → Prop} {d : Detach} (good : m.Good d) (spares : m.Spares m' alone)
    (left : alone d.call.key d.other) : m'.Good d :=
  ⟨good.1.trans spares.1.symm, spares.2 _ _ left good.2⟩

theorem Inv.getBufferForStream (h : m.Inv) (key : StreamSetKey) (s : Int) (noFree allocates promotes : Bool) :
    Returns (m.perform (.getBufferForStream key s noFree allocates promotes)) fun m' => m'.Inv ∧
      m.Window (.getBufferForStream key s noFree allocates promotes) m' := by
  refine (Sound.getBufferForStream h noFree allocates promotes).map ?_
  rintro ⟨progress, m'⟩ ⟨out, detaching, registration, chooses, sound, spares⟩
  refine ⟨sound.proceed fun b => ?_, fun d good => .proceed chooses ?_⟩
  · rw [registration]
    simp [claims, out, detaching]
  · rw [detaching]
    exact good.imp_left fun old => old.1.spared spares old.2

theorem Inv.resume (h : m.Inv) {call : Detach} {freed promotes : Bool} (waits : call ∈ m.detaching)
    (undisturbed : m.Undisturbed (.resume call freed promotes)) :
    Returns (m.perform (.resume call freed promotes)) fun m' => m'.Inv ∧
      m.Window (.resume call freed promotes) m' := by
  obtain ⟨free, left⟩ := undisturbed
  -- the other stream loses the buffer that was freed
  have removed : ∃ m', m.detached call freed = .ok m' ∧ m'.out = m.out ∧ m'.detaching = m.detaching ∧
      m.Leaves m.claims (fun k s => freed = true → Besides call.call.key call.other k s) m' ∧
      (m'.mStreamSetMap.lookup call.call.key).isSome = (m.mStreamSetMap.lookup call.call.key).isSome := by
    cases freed with
    | false => exact ⟨m, rfl, rfl, rfl, ⟨h, rfl, fun _ _ _ free => free⟩, rfl⟩
    | true =>
      obtain ⟨storage, free⟩ := free rfl
      obtain ⟨set', -, removes, sound, spares⟩ := Sound.bufferRemoved h free
      refine ⟨m.setStreamSet _ set', ?_, rfl, rfl, ⟨sound, spares.1, fun k s left => spares.2 k s (left rfl)⟩,
        KeyedVector.isSome_lookup_setValueFor _ _ _ _⟩
      rw [detached, if_pos rfl, if_pos storage, removes]
  obtain ⟨m', removes, out, detaching, ⟨sound, spares⟩, same⟩ := removed
  have resumes : Returns (m.resume call freed promotes) fun r => m' = r.2 ∧ m'.Chooses call.call.key r.1 := by
    rw [Camera3BufferManager.resume, removes, ok_bind]
    refine Returns.bind ?_ fun progress chooses => .of_ok ⟨rfl, chooses⟩
    apply freeOnOtherStreams_returns
    intro some_left
    obtain ⟨set, found⟩ := Option.isSome_iff_exists.mp (same.trans (left some_left))
    exact ⟨set, found, sound.agrees _ _ found⟩
  refine resumes.map ?_
  rintro ⟨progress, m'⟩ ⟨rfl, chooses⟩
  have kept : Sound { m' with detaching := m'.detaching.erase call } m.claims :=
    sound.congr rfl rfl rfl rfl fun _ => Nat.le_refl _
  refine ⟨kept.proceed fun b => ?_, fun d good => Good.proceed (m := { m' with detaching := _ }) chooses ?_⟩
  rotate_left
  · exact good.imp (fun old => old.1.spared spares old.2)
      (And.imp_right fun new old => new (detaching ▸ List.mem_of_mem_erase old))
  have one := progress.buffers_le
  have there := (List.perm_cons_erase waits).countP_eq (fun d => decide (d.call = b))
  rw [List.countP_cons] at there
  simp only [claims, out, detaching, there, decide_eq_true_eq]
  by_cases mine : b = call.call
  · simp only [mine, if_true]
    omega
  · simp only [mine, Ne.symm mine, if_false]
    omega

theorem window_of_spares {alone : StreamSetKey → Int → Prop} (detaching : m'.detaching = m.detaching)
    (spares : m.Spares m' alone) (quiet : ∀ d, Quiet d a → alone d.call.key d.other) : m.Window a m' := by
  rintro d (⟨good, quiet'⟩ | ⟨waits, new⟩)
  · exact good.spared spares (quiet d quiet')
  · exact absurd (detaching ▸ waits) new

theorem Inv.onBufferReleased (h : m.Inv) {b : Registration} (permitted : 0 < m.out b)
    (undisturbed : m.Undisturbed (.onBufferReleased b)) :
    Returns (m.perform (.onBufferReleased b)) fun m' => m'.Inv ∧ m.Window (.onBufferReleased b) m' := by
  obtain ⟨should, m', releases, out, detaching, sound, spares⟩ :=
    Sound.onBufferReleased h (Nat.lt_of_lt_of_le permitted (Nat.le_add_right _ _)) undisturbed
  rw [perform, releases]
  refine .of_ok ⟨Sound.congr sound rfl rfl rfl rfl fun b' => ?_,
    window_of_spares detaching spares fun _ _ => trivial⟩
  by_cases same : b' = b
  · subst same
    simp only [claims, out, detaching, Function.update_self]
    omega
  · simp [claims, out, detaching, Function.update_of_ne same]

theorem Inv.onBuffersRemoved (h : m.Inv) {key : StreamSetKey} {s : Int} {numbers : List Nat}
    (permitted : m.Permitted (.onBuffersRemoved key s numbers))
    (undisturbed : m.Undisturbed (.onBuffersRemoved key s numbers)) :
    Returns (m.perform (.onBuffersRemoved key s numbers)) fun m' => m'.Inv ∧
      m.Window (.onBuffersRemoved key s numbers) m' := by
  obtain ⟨rv, m', removes, out, detaching, sound, spares⟩ := Sound.onBuffersRemoved (s := s) h
    numbers.length (fun b => (if b.key = key ∧ b.streamId = s then m.out b - numbers.count b.number else m.out b) +
      m.detaching.countP (·.call = b))
    (fun b => by
      dsimp only [claims]
      split <;> omega)
    (fun registered => by
      have current := undisturbed registered
      have all : numbers.count (m.registration key s) = numbers.length := by
        rw [List.count_eq_length]
        exact fun number member => (current number member).symm
      have enough : numbers.length ≤ m.out ⟨key, s, m.registration key s⟩ := by
        cases numbers with
        | nil => exact Nat.zero_le _
        | cons number rest =>
          have one := permitted number List.mem_cons_self
          obtain rfl := current number List.mem_cons_self
          rwa [all] at one
      simp only [claims, and_self, if_true, all]
      omega)
  rw [perform, removes]
  refine .of_ok ⟨Sound.congr sound rfl rfl rfl rfl fun b => ?_,
    window_of_spares detaching spares fun _ _ => trivial⟩
  simp [claims, out, detaching]

/-- A step within the conditions ends, at worst for want of a stream in `mStreamMap`, and keeps the
counts. -/
theorem Inv.perform (h : m.Inv) (permitted : m.Permitted a) (undisturbed : m.Undisturbed a) :
    Returns (m.perform a) fun m' => m'.Inv ∧ m.Window a m' := by
  have loud : ∀ {m' : Camera3BufferManager}, m'.detaching = m.detaching → (∀ d, ¬ Quiet d a) → m.Window a m' :=
    fun same loud d good => good.elim (fun old => absurd old.2 (loud d)) fun new => absurd (same ▸ new.1) new.2
  cases a with
  | registerStream info =>
    obtain ⟨out, detaching, sound⟩ := Sound.registerStream h info
    exact .of_ok ⟨sound.mono fun b => by simp [claims, out, detaching], loud detaching fun _ => id⟩
  | unregisterStream key s =>
    obtain ⟨rv, m', unregisters, out, detaching, sound⟩ :=
      Sound.unregisterStream (s := s) h
    rw [perform, unregisters]
    exact .of_ok ⟨sound.mono fun b => by simp [claims, out, detaching], loud detaching fun _ => id⟩
  | getBufferForStream key s noFree allocates promotes =>
    exact h.getBufferForStream key s noFree allocates promotes
  | resume call freed promotes => exact h.resume permitted undisturbed
  | onBufferReleased buffer => exact h.onBufferReleased permitted undisturbed
  | onBuffersRemoved key s numbers => exact h.onBuffersRemoved permitted undisturbed
  | notifyBufferRemoved key s =>
    obtain ⟨set', -, removes, sound, spares⟩ := Sound.bufferRemoved h undisturbed
    rw [perform, notifyBufferRemoved, removes]
    exact .of_ok ⟨Sound.congr sound rfl rfl rfl rfl fun _ => Nat.le_refl _,
      window_of_spares rfl spares fun _ => id⟩

theorem Inv.step (h : m.Inv) (undisturbed : m.Permitted a ∧ m.Undisturbed a) (steps : m.step a = some m') :
    m'.Inv ∧ m.Window a m' := by
  rcases h.perform undisturbed.1 undisturbed.2 with unknown | ⟨m'', performs, inv⟩
  · rw [Camera3BufferManager.step, unknown] at steps
    cases steps
  · rw [Camera3BufferManager.step, performs] at steps
    exact Option.some.inj steps ▸ inv

/-! ### Runs -/

/-- What the counts promise whenever `mLock` is free. -/
def Accounts (m : Camera3BufferManager) : Prop :=
  ∀ key set s, m.mStreamSetMap.lookup key = some set → (set.streamInfoMap.lookup s).isSome →
    ∃ handout attached, set.counts s = some (handout, attached) ∧ handout ≤ attached ∧
      handout ≤ m.allowed key s

theorem Inv.accounts (h : m.Inv) : m.Accounts := by
  intro key set s found known
  have agrees := h.agrees key set found
  obtain ⟨handout, is_handout⟩ := Option.isSome_iff_exists.mp ((agrees.handout s).trans known)
  obtain ⟨attached, is_attached⟩ := Option.isSome_iff_exists.mp ((agrees.attached s).trans known)
  have counted := StreamSet.counts_of_lookup is_handout is_attached
  obtain ⟨le, allowed, -⟩ := h.counted key s handout attached ((counts_of_found found s).trans counted)
  exact ⟨handout, attached, counted, le, allowed⟩

/-- In every interleaving in which a call finds again what it had found before it dropped the lock, and
buffers come back under the registration they were handed out under, the counts keep their promise, and
no step underflows a counter or follows a reference to an entry that is gone. -/
theorem buffer_counts_hold (k : Nat)
    (run : Run step (fun m a => m.Permitted a ∧ m.Undisturbed a) { kMaxBufferCount := k } as m) :
    m.Accounts ∧ ∀ a, m.Permitted a → m.Undisturbed a →
      m.perform a ≠ .error .removedEntry ∧ m.perform a ≠ .error .underflow := by
  have inv : m.Inv := run.invariant Inv (fun _ _ _ h undisturbed steps => (h.step undisturbed steps).1) (inv_init k)
  refine ⟨inv.accounts, fun a permitted undisturbed => ?_⟩
  rcases inv.perform permitted undisturbed with unknown | ⟨m', performs, -⟩
  · rw [unknown]
    exact ⟨nofun, nofun⟩
  · rw [performs]
    exact ⟨nofun, nofun⟩

/-- A call that drops the lock is undisturbed when it resumes, if all the steps meanwhile were and are
quiet for it: the code's own choice of a stream is good then. -/
theorem undisturbed_of_quiet (h : m.Inv) (undisturbed : m.Permitted a ∧ m.Undisturbed a)
    {m₁ : Camera3BufferManager} (drops : m.step a = some m₁) {call : Detach}
    (waits : call ∈ m₁.detaching ∧ call ∉ m.detaching)
    (window : Run step (fun m a => (m.Permitted a ∧ m.Undisturbed a) ∧ Quiet call a) m₁ as m') (freed promotes : Bool) :
    m'.Undisturbed (.resume call freed promotes) := by
  obtain ⟨inv, start⟩ := h.step undisturbed drops
  have kept : m'.Inv ∧ m'.Good call := by
    refine window.invariant (fun m => m.Inv ∧ m.Good call) ?_ ⟨inv, start call (.inr waits)⟩
    rintro m a m' ⟨h, good⟩ ⟨undisturbed, quiet⟩ steps
    exact (h.step undisturbed steps).imp_right fun window => window call (.inl ⟨good, quiet⟩)
  obtain ⟨_, there, -⟩ := Sound.bufferRemoved kept.1 kept.2.2
  exact ⟨fun _ => kept.2, fun _ => there⟩

/-! ### What a window can do -/

def sampleKey : StreamSetKey := { id := 1, isMultiRes := false }

def sampleInfo (streamId : Int) : StreamInfo :=
  { streamId := streamId, streamSetId := 1, totalBufferCount := 4, isConfigured := true,
    isMultiRes := false }

/-- Stream 0 takes buffers until it has to detach one of the two free ones of stream 1. -/
def untilDetach : List Action :=
  [.registerStream (sampleInfo 0), .registerStream (sampleInfo 1),
    .getBufferForStream sampleKey 1 false true true, .getBufferForStream sampleKey 1 false true true,
    .onBufferReleased ⟨sampleKey, 1, 2⟩, .onBufferReleased ⟨sampleKey, 1, 2⟩,
    .getBufferForStream sampleKey 0 false true true, .getBufferForStream sampleKey 0 false true true]

def sampleDetach : Detach :=
  { call := ⟨sampleKey, 0, 1⟩, other := 1, storage := 1, checks := 1 }

/-- In the window stream 1 is handed out its free buffers. -/
def handedOutMeanwhile : List Action :=
  untilDetach ++ [.getBufferForStream sampleKey 1 false true true,
    .getBufferForStream sampleKey 1 false true true, .resume sampleDetach true true]

/-- In the window stream 1 leaves. -/
def unregisteredMeanwhile : List Action := untilDetach ++ [.unregisterStream sampleKey 1]

/-- A stream is registered anew while a buffer of it is out. -/
def registeredAnew : List Action :=
  [.registerStream (sampleInfo 0), .getBufferForStream sampleKey 0 false true true,
    .unregisterStream sampleKey 0, .registerStream (sampleInfo 0)]

/-- Without the conditions more buffers are handed out than attached, an entry is accessed after it was
removed, and a counter underflows. -/
theorem buffer_counts_disturbed :
    (∃ m, Run step Permitted { kMaxBufferCount := 64 } handedOutMeanwhile m ∧
      m.counts sampleKey 1 = some (2, 1)) ∧
    (∃ m, Run step Permitted { kMaxBufferCount := 64 } unregisteredMeanwhile m ∧
      m.Permitted (.resume sampleDetach true true) ∧
      m.perform (.resume sampleDetach true true) = .error .removedEntry) ∧
    ∃ m, Run step Permitted { kMaxBufferCount := 64 } registeredAnew m ∧
      m.Permitted (.onBufferReleased ⟨sampleKey, 0, 1⟩) ∧
      m.perform (.onBufferReleased ⟨sampleKey, 0, 1⟩) = .error .underflow := by
  refine ⟨?_, ?_, ?_⟩
  · exact ⟨_, .of_checked rfl, rfl⟩
  · exact ⟨_, .of_checked rfl, by decide, rfl⟩
  · exact ⟨_, .of_checked rfl, by decide, rfl⟩

/-- Undisturbed, stream 1 is left with one free buffer. -/
theorem buffer_counts_hold_sample :
    ∃ m : Camera3BufferManager, m.counts sampleKey 1 = some (0, 1) ∧ m.Accounts := by
  obtain ⟨m, run, counted⟩ : ∃ m, Run step (fun m a => m.Permitted a ∧ m.Undisturbed a)
      { kMaxBufferCount := 64 } (untilDetach ++ [.resume sampleDetach true true]) m ∧
      m.counts sampleKey 1 = some (0, 1) := ⟨_, .of_checked rfl, rfl⟩
  exact ⟨m, counted, (buffer_counts_hold 64 run).1⟩

end Camera3BufferManager

end Hima.BufferManager
