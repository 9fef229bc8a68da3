import Hima.LanToLan.HandleRelease

/-!
# Runs that return every handle

The events that bring filtering rules back or take single connections away, and from all events the
account of the handles over a run.
-/
namespace Hima.LanToLan

open Slots FirstMatch Handles Runs Net

set_option linter.unusedSectionVars false

variable {K A I : Type} [DecidableEq K] [DecidableEq A]

namespace Family

variable {config : Config K A I} {answers : Answers} {f f' : Family K A I} {p q : Ptr K}
  {c d : ClientInfo K A I}

/-! ### The end of power save -/

/-- Behind the loop of `add_flt_rules` the rules of every link of `p` are installed. -/
theorem waking_peersOf (at_p : f.deref p = some c) (paired : f.net.Paired) {on : Ptr K → Ptr K → Bool}
    {a b : Ptr K} (linked : 0 < f.net.linkCount a b) :
    waking p on (peersOf c) (2 * c.link.length) a b = if a = p ∨ b = p then true else on a b := by
  have all : (peersOf c).length ≤ (2 * c.link.length + 1) / 2 := by
    rw [List.length_map]
    omega
  have all' : (peersOf c).length ≤ 2 * c.link.length / 2 := by
    omega
  rw [waking, List.take_of_length_le all, List.take_of_length_le all']
  by_cases a_p : a = p
  · subst a_p
    simp [(mem_peersOf at_p).mpr linked]
  · by_cases b_p : b = p
    · subst b_p
      rw [paired.linksMutual] at linked
      simp [a_p, (mem_peersOf at_p).mpr linked]
    · simp [a_p, b_p]

theorem handleClientPowerRecover_kept (h : f.net.Kept) (succeed : answers.Succeed) {ip : A}
    (run : f.handleClientPowerRecover config answers ip = some f') : f'.net.Kept := by
  cases handleClientPowerRecover_cases run with
  | ignored same => rwa [same]
  | failed p c found at_p inactive asleep run₁ =>
    obtain ⟨no, -⟩ := addFltRules_held h succeed at_p asleep run₁
    cases no
  | recovered p c d f₁ f₂ f₃ found at_p inactive asleep run₁ at_p₁ net₂ run₃ net' =>
    obtain ⟨-, bare₁, counts₁, held₁⟩ := addFltRules_held h succeed at_p asleep run₁
    have at_p₁' : f₁.net.client p = some d := at_p₁
    have links₂ : f₂.net.links = f₁.net.links := by
      rw [net₂]
      exact links_put_same (links_eq at_p₁').symm
    have counts₂ : f₂.net.linkCount = f.net.linkCount := by
      rw [← counts₁]
      funext a b
      rw [linkCount, links₂]
      rfl
    have saves₂ : ∀ a, f₂.net.saves a = if a = p then false else f.net.saves a := by
      intro a
      rw [net₂, saves_put, saves_of_bare bare₁]
    -- no client that `p` is linked to saves power
    have others : ∀ a, 0 < f.net.linkCount a p → f.net.saves a = false := by
      intro a linked
      rw [h.paired.linksMutual] at linked
      exact h.rested.oneSide p a ((saves_eq (client_net p ▸ at_p)).trans asleep) linked
    have kept₂ : f₂.net.Kept := by
      refine ⟨?_, ⟨?_, ?_, ?_⟩, ?_⟩
      · have paired₁ : f₁.net.Paired := h.paired.of_counts bare₁ counts₁
        rw [net₂]
        exact paired₁.put at_p₁' rfl rfl (by simp)
      · intro a e at_a active
        rw [net₂, client_put] at at_a
        split at at_a
        · cases at_a
          rfl
        · obtain ⟨link, at_a'⟩ := client_of_bare bare₁.symm at_a
          have awake := h.rested.modes a _ at_a' active
          exact awake
      · intro a b saving
        rw [saves₂] at saving
        rw [counts₂]
        split at saving
        next => cases saving
        next => exact h.rested.single a b saving
      · intro a b saving linked
        rw [saves₂] at saving ⊢
        rw [counts₂] at linked
        split at saving
        next => cases saving
        next =>
          split
          next => rfl
          next => exact h.rested.oneSide a b saving linked
      · intro fresh
        have calls₂ : f₂.net.calls = f₁.net.calls := by rw [net₂, calls_put]
        rw [calls₂] at fresh
        refine (held₁ fresh).congr links₂ calls₂ fun a b linked => ?_
        rw [counts₁] at linked
        rw [waking_peersOf at_p h.paired linked, on, on, saves₂, saves₂]
        by_cases a_p : a = p
        · subst a_p
          rw [h.paired.linksMutual] at linked
          simp [others b linked]
        · by_cases b_p : b = p
          · subst b_p
            simp [a_p, others a linked]
          · simp [a_p, b_p]
    have at_p₂ : f₂.deref p = some { d with isActive := true, isPowersave := false } := by
      rw [← client_net, net₂, client_put_self]
    rw [net']
    exact checkPotentialLink_kept kept₂ succeed at_p₂ rfl run₃

/-! ### Connections -/

theorem handleNewLan2lanConnection_kept (h : f.net.Kept) (succeed : answers.Succeed) {src dst : A}
    (apart : config.key src ≠ config.key dst)
    (run : f.handleNewLan2lanConnection config answers src dst = some f') : f'.net.Kept := by
  -- counting the connection leaves the links alone
  have counting : ∀ {p q : Ptr K} {first : Bool} {f₁ : Family K A I},
      f.find (config.key src) = some p → f.find (config.key dst) = some q →
      f.addConnection p q = some (first, f₁) → p ≠ q ∧ f₁.net.Kept := by
    intro p q first f₁ found_p found_q run₁
    obtain ⟨other, -, step⟩ := addConnection_run h.paired found_p found_q apart run₁
    exact ⟨other, h.of_sansPeers step.paired step.sansPeers step.calls⟩
  cases handleNewLan2lanConnection_cases run with
  | absent same => rwa [same]
  | counted p q c d first found_p found_q _ _ run₁ => exact (counting found_p found_q run₁).2
  | refused p q c d f₁ found_p found_q run₁ at_p₁ at_q₁ _ _ run₂ =>
    obtain ⟨-, kept₁⟩ := counting found_p found_q run₁
    obtain ⟨res, f₂, run₂', result⟩ := addOffloadLink_result (answers.add 0) at_p₁ at_q₁
    obtain ⟨rfl, rfl⟩ : res = false ∧ f₂ = f' := by simpa using run₂'.symm.trans run₂
    cases result with
    | full => exact kept₁
    | refused _ _ no => simp [succeed.add] at no
  | linked p q c d res f₁ f₂ f₃ found_p found_q run₁ at_p₁ at_q₁ p_active q_active run₂ run₃ eq =>
    obtain ⟨other, kept₁⟩ := counting found_p found_q run₁
    obtain ⟨f₂', res', f₃', run₂', run₃', num₃, result⟩ := addBoth_result at_p₁ at_q₁ other
      (fun _ => (succeed.add 0).trans (succeed.add 1).symm)
    obtain ⟨rfl, rfl⟩ : res' = true ∧ f₂' = f₂ := by simpa using run₂'.symm.trans run₂
    obtain ⟨rfl, rfl⟩ : true = res ∧ f₃' = f₃ := by simpa using run₃'.symm.trans run₃
    generalize net₃ : f₃'.net = n₃ at result
    cases result with
    | linked l r room _ l_to r_to =>
      rw [eq, if_pos rfl, net_count, net₃]
      exact kept₁.linkUp at_p₁ at_q₁ other l_to r_to p_active q_active _

/-- The entry for the peer says 1 when `remove_connection` reports the last connection. -/
theorem lastConnection (at_p : f.deref p = some c) {num : Option Int}
    (entry : f.net.peerNum p q = num) (gone : (num.isSome && (numDown num).isNone) = true) :
    ∃ e, c.peer.find? (peerTo q) = some e ∧ toInt32 (e.numConnection - 1) = 0 := by
  rw [peerNum_eq (client_net p ▸ at_p)] at entry
  cases found : c.peer.find? (peerTo q) with
  | none =>
    rw [found, Option.map_none] at entry
    simp [← entry] at gone
  | some e =>
    rw [found, Option.map_some] at entry
    refine ⟨e, rfl, ?_⟩
    rw [← entry] at gone
    simpa [numDown] using gone

theorem handleDelLan2lanConnection_kept (h : f.net.Kept) (succeed : answers.Succeed) {src dst : A}
    (inPlace : f.RulesInPlace config (.delConnection src dst))
    (run : f.handleDelLan2lanConnection config answers src dst = some f') : f'.net.Kept := by
  cases handleDelLan2lanConnection_cases run with
  | absent same => rwa [same]
  | counted p q found_p found_q run₁ =>
    rcases removeConnection_run h.paired found_p found_q run₁ with ⟨-, rfl⟩ | ⟨-, -, step⟩
    · exact h
    · exact h.of_sansPeers step.paired step.sansPeers step.calls
  | last p q c d f₁ f₂ f₃ found_p found_q run₁ at_p₁ at_q₁ run₂ run₃ run₄ =>
    obtain ⟨-, c₀, at_p⟩ := find_eq_some found_p
    obtain ⟨-, d₀, at_q⟩ := find_eq_some found_q
    obtain ⟨no, -⟩ | ⟨apart, gone, step⟩ := removeConnection_run h.paired found_p found_q run₁
    · cases no
    have kept₁ := h.of_sansPeers step.paired step.sansPeers step.calls
    -- the links that go had their rules before the connection was uncounted
    have installed : 0 < f₁.net.linkCount p q → f₁.net.on p q = true := by
      intro linked
      rw [step.linkCount, linkCount_eq (client_net p ▸ at_p)] at linked
      obtain ⟨l, member, to_q⟩ := countP_hasKey_pos.mp linked
      obtain ⟨p_awake, q_awake⟩ := inPlace p q c₀ d₀ found_p found_q at_p at_q
        (lastConnection at_p rfl gone.symm) l member to_q
      rw [on_iff, saves_of_sansPeers step.sansPeers, saves_eq (client_net p ▸ at_p),
        saves_eq (client_net q ▸ at_q)]
      exact ⟨p_awake, q_awake⟩
    have kept₂ := eraseLinks_kept kept₁ succeed at_p₁ at_q₁ apart installed run₂
    exact eraseIfUnused_kept (eraseIfUnused_kept kept₂ run₃) run₄

/-- An event that finds the filtering rules in place keeps the account of the handles. -/
theorem handle_kept (h : f.net.Kept) (succeed : answers.Succeed) {event : Event A I}
    (apart : event.Apart config) (inPlace : f.RulesInPlace config event)
    (run : f.handle config answers event = some f') : f'.net.Kept := by
  cases event with
  | clientActive ip mac iface => exact handleClientActive_kept h succeed inPlace run
  | clientInactive ip => exact handleClientInactive_kept h succeed inPlace run
  | clientDisconnect ip => exact handleClientDisconnect_kept h succeed inPlace run
  | clientPowerSave ip => exact handleClientPowerSave_kept h succeed inPlace run
  | clientPowerRecover ip => exact handleClientPowerRecover_kept h succeed run
  | newConnection src dst => exact handleNewLan2lanConnection_kept h succeed apart run
  | delConnection src dst => exact handleDelLan2lanConnection_kept h succeed inPlace run

/-- Each handle of a family was taken back at most as often as it was handed out and used only while
it was handed out; when no client is left every one was taken back. -/
structure HandlesReturned (f : Family K A I) : Prop where
  sound : Sound id (ledger f.calls)
  atMostOnce : ∀ h, takenBack h (ledger f.calls) ≤ givenOut id h (ledger f.calls)
  returned : f.clientInfo = ∅ → ∀ h, takenBack h (ledger f.calls) = givenOut id h (ledger f.calls)

theorem links_of_empty (empty : f.clientInfo = ∅) (p : Ptr K) : f.net.links p = [] := by
  apply links_of_absent
  rw [client_net, deref, empty, AList.lookup_empty]
  rfl

theorem handlesReturned_of_kept (h : f.net.Kept) (fresh : Fresh id (ledger f.calls)) :
    f.HandlesReturned := by
  have held : f.net.Holds f.net.on := h.held fresh
  have sound : Sound id (ledger f.calls) := held.sound
  refine ⟨sound, fun hdl => ?_, fun empty hdl => ?_⟩
  · rw [givenOut_eq fresh sound]
    exact Nat.le_add_right _ _
  · have none_live : live id (ledger f.calls) = 0 := held.empty (links_of_empty empty)
    rw [givenOut_eq fresh sound, none_live]
    rfl

theorem kept_init : (Family.init : Family K A I).net.Kept := by
  have empty : (Family.init : Family K A I).clientInfo = ∅ := rfl
  have absent : ∀ p, (Family.init : Family K A I).net.client p = none := fun _ => rfl
  have no_links : ∀ p q, (Family.init : Family K A I).net.linkCount p q = 0 := by
    intro p q
    rfl
  refine ⟨paired_init, ⟨?_, ?_, ?_⟩, fun _ => ⟨0, ?_, trivial, rfl⟩⟩
  · intro p c at_p
    cases at_p
  · intro p q _
    exact Nat.zero_le 1
  · intro p q _ linked
    cases linked
  · intro p
    rfl

/-- No client saves power. -/
def NoneSaves (f : Family K A I) : Prop := ∀ e ∈ f.clientInfo.entries, e.2.isPowersave = false

instance (f : Family K A I) : Decidable f.NoneSaves :=
  inferInstanceAs (Decidable (∀ e ∈ f.clientInfo.entries, e.2.isPowersave = false))

theorem NoneSaves.awake (none : f.NoneSaves) (at_p : f.deref p = some c) : c.isPowersave = false :=
  none ⟨p.key, c⟩ (AList.mem_lookup_iff.mp (lookup_of_deref at_p))

/-- No client saves power when an event comes, unless it is the end of that; one that is to save power has
one link at most. -/
def Rested (f : Family K A I) : Event A I → Prop
  | .clientPowerRecover _ => True
  | .clientPowerSave _ => f.NoneSaves ∧ ∀ e ∈ f.clientInfo.entries, e.2.link.length ≤ 1
  | _ => f.NoneSaves

instance (f : Family K A I) (event : Event A I) : Decidable (f.Rested event) := by
  unfold Rested
  split <;> infer_instance

theorem Rested.inPlace {event : Event A I} (rested : f.Rested event) : f.RulesInPlace config event := by
  have links : f.NoneSaves → ∀ p c, f.deref p = some c → f.LinksAwake c := fun none p c at_p l _ =>
    ⟨none.awake at_p, fun d at_l => none.awake at_l⟩
  cases event with
  | clientActive ip mac iface =>
    intro p c _ at_p
    split
    · exact fun _ => links rested p c at_p
    · intro saving
      rw [NoneSaves.awake rested at_p] at saving
      cases saving
  | clientInactive ip => exact fun p c _ at_p => links rested p c at_p
  | clientDisconnect ip => exact fun p c _ at_p => links rested p c at_p
  | clientPowerSave ip =>
    intro p c _ at_p
    have one := rested.2 ⟨p.key, c⟩ (AList.mem_lookup_iff.mp (lookup_of_deref at_p))
    exact ⟨links rested.1 p c at_p, fun q => List.countP_le_length.trans one⟩
  | clientPowerRecover ip => trivial
  | newConnection src dst => trivial
  | delConnection src dst =>
    exact fun p q c d _ _ at_p at_q _ l _ _ => ⟨NoneSaves.awake rested at_p, NoneSaves.awake rested at_q⟩

end Family

/-! ### Runs of the component -/

namespace IpacmLanToLan

variable {I : Type}

/-- The event finds the filtering rules of the links it takes down installed. -/
def RulesInPlace (config : LanConfig I) (s : IpacmLanToLan I) (event : LanEvent I × Answers) : Prop :=
  match event.1.dispatch with
  | none => True
  | some (.inl e) => s.v4.RulesInPlace config.v4 e
  | some (.inr e) => s.v6.RulesInPlace config.v6 e

theorem eventCallback_kept {config : LanConfig I} {s s' : IpacmLanToLan I}
    {event : LanEvent I × Answers} (kept : s.v4.net.Kept ∧ s.v6.net.Kept)
    (smooth : Smooth config event) (inPlace : s.RulesInPlace config event)
    (stepped : s.eventCallback config event = some s') : s'.v4.net.Kept ∧ s'.v6.net.Kept := by
  obtain ⟨succeed, apart⟩ := smooth
  unfold RulesInPlace at inPlace
  unfold eventCallback at stepped
  split at stepped
  next =>
    obtain rfl := Option.some.inj stepped
    exact kept
  next e target =>
    rw [target] at apart inPlace
    obtain ⟨f, run, rfl⟩ := Option.map_eq_some_iff.mp stepped
    exact ⟨Family.handle_kept kept.1 succeed apart inPlace run, kept.2⟩
  next e target =>
    rw [target] at apart inPlace
    obtain ⟨f, run, rfl⟩ := Option.map_eq_some_iff.mp stepped
    exact ⟨kept.1, Family.handle_kept kept.2 succeed apart inPlace run⟩

/-- In every run in which the hardware does what it is asked, no client is connected to itself and
every event finds the filtering rules in place, the handles are returned. The hardware hands out no
handle that is handed out already. -/
theorem handles_are_returned (config : LanConfig I) {events : List (LanEvent I × Answers)} {t : IpacmLanToLan I}
    (run : Run (eventCallback config)
      (fun s event => Smooth config event ∧ s.RulesInPlace config event) .init events t) :
    (Fresh id (ledger t.v4.calls) → t.v4.HandlesReturned) ∧
      (Fresh id (ledger t.v6.calls) → t.v6.HandlesReturned) := by
  have kept := run.invariant (fun s => s.v4.net.Kept ∧ s.v6.net.Kept)
    (fun s event s' kept ok stepped => eventCallback_kept kept ok.1 ok.2 stepped)
    ⟨Family.kept_init, Family.kept_init⟩
  exact ⟨Family.handlesReturned_of_kept kept.1, Family.handlesReturned_of_kept kept.2⟩

/-- Hands out other handles. -/
def willingAgain : Answers :=
  { willing with add i := willing.add (i + 16), fltAdd i := willing.fltAdd (i + 16) }

/-- Two clients meet, one of them saves power for a time, and they leave. -/
def parting : List (LanEvent Nat × Answers) :=
  meeting willing ++ [(.ipaLanClientPowerSave (sampleClient 1 0), willing),
    (.ipaLanClientPowerRecover (sampleClient 1 0), willingAgain),
    (.ipaLanClientDisconnect (sampleClient 1 0), willing), (.ipaLanClientDisconnect (sampleClient 2 1), willing)]

/-- The event is for IPv4 and finds its family rested. -/
def RestedV4 (s : IpacmLanToLan I) (event : LanEvent I × Answers) : Prop :=
  match event.1.dispatch with
  | some (.inl e) => s.v4.Rested e
  | _ => False

instance (s : IpacmLanToLan I) (event : LanEvent I × Answers) : Decidable (s.RestedV4 event) := by
  unfold RestedV4
  split <;> infer_instance

theorem handles_are_returned_sample :
    ∃ t, Run (eventCallback sampleConfig)
      (fun s event => Smooth sampleConfig event ∧ s.RulesInPlace sampleConfig event) .init parting t ∧
      givenOut id (.flt 1) (ledger t.v4.calls) = 1 ∧ t.v4.clientInfo.entries.length = 0 ∧
      t.v4.HandlesReturned := by
  have outcome : (checked (eventCallback sampleConfig) RestedV4 parting .init).map
      (fun t => (decide (Fresh id (ledger t.v4.calls)), givenOut id (.flt 1) (ledger t.v4.calls),
        t.v4.clientInfo.entries.length)) = some (true, 1, 0) := by decide
  obtain ⟨t, evaluates, facts⟩ := Option.map_eq_some_iff.mp outcome
  simp only [Prod.mk.injEq, decide_eq_true_eq] at facts
  have smooth : ∀ event ∈ parting, Smooth sampleConfig event := by
    simp only [parting, meeting, List.cons_append, List.nil_append, List.forall_mem_cons]
    exact ⟨⟨willing_succeed, trivial⟩, ⟨willing_succeed, trivial⟩,
      ⟨willing_succeed, (by decide : (1 : UInt32) ≠ 2)⟩, ⟨willing_succeed, trivial⟩,
      ⟨by constructor <;> intro i <;> rfl, trivial⟩, ⟨willing_succeed, trivial⟩, ⟨willing_succeed, trivial⟩,
      by simp⟩
  have inPlace : ∀ s : IpacmLanToLan Nat, ∀ event, s.RestedV4 event → s.RulesInPlace sampleConfig event := by
    intro s event rested
    rw [RestedV4] at rested
    rw [RulesInPlace]
    split at rested
    next e target =>
      rw [target]
      exact rested.inPlace
    next => exact rested.elim
  have run := (Run.of_checked evaluates).mono fun s event member rested =>
    And.intro (smooth event member) (inPlace s event rested)
  exact ⟨t, run, facts.2.1, facts.2.2, (handles_are_returned sampleConfig run).1 facts.1⟩

/-- A client saves power and leaves. -/
def leftAsleep : List (LanEvent Nat × Answers) :=
  meeting willing ++ [(.ipaLanClientPowerSave (sampleClient 1 0), willing),
    (.ipaLanClientDisconnect (sampleClient 1 0), willing)]

/-- With all operations of the hardware done, a filtering rule is taken back twice. -/
theorem sleeping_client_returned_twice :
    ¬ ∀ (events : List (LanEvent Nat × Answers)) (t : IpacmLanToLan Nat),
      Run (eventCallback sampleConfig) (fun _ event => event.2.Succeed) .init events t →
        Fresh id (ledger t.v4.calls) → t.v4.HandlesReturned := by
  intro always
  have outcome : (leftAsleep.foldlM (eventCallback sampleConfig) .init).map
      (fun t => (decide (Fresh id (ledger t.v4.calls)), givenOut id (.flt 1) (ledger t.v4.calls),
        takenBack (.flt 1) (ledger t.v4.calls))) = some (true, 1, 2) := by decide
  obtain ⟨t, evaluates, facts⟩ := Option.map_eq_some_iff.mp outcome
  simp only [Prod.mk.injEq, decide_eq_true_eq] at facts
  have succeed : ∀ event ∈ leftAsleep, event.2.Succeed := by
    simp [leftAsleep, meeting, willing_succeed]
  have returned := always _ t (.of_foldlM (fun event member _ => succeed event member) evaluates) facts.1
  have once := returned.atMostOnce (.flt 1)
  omega

end IpacmLanToLan

end Hima.LanToLan
