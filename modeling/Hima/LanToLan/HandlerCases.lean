import Hima.LanToLan.Connections

/-!
# What an event can do

For each handler the ways it can end: which of its parts ran, and what is left of them in the net.
-/
namespace Hima.LanToLan

open FirstMatch

set_option linter.unusedSectionVars false

variable {K A I : Type} [DecidableEq K] [DecidableEq A]

namespace Family

variable {config : Config K A I} {answers : Answers} {f f' : Family K A I} {p : Ptr K}

theorem net_of_generateNewConnection (run : f.generateNewConnection config p = some f') :
    f'.net = f.net := by
  unfold generateNewConnection at run
  split at run
  · cases run
    rfl
  · obtain ⟨c, -, rest⟩ := Option.bind_eq_some_iff.mp run
    cases rest
    rfl

theorem net_of_checkCacheConnection (run : f.checkCacheConnection config p = some f') :
    f'.net = f.net := by
  unfold checkCacheConnection at run
  split at run
  · obtain ⟨c, -, rest⟩ := Option.bind_eq_some_iff.mp run
    cases rest
    rfl
  · cases run
    rfl

/-- A client as the assignments of `handle_client_active` leave it. -/
def renewed (c : ClientInfo K A I) (ip : A) (mac : MacAddr) (iface : I) : ClientInfo K A I :=
  { c with ip := ip, macAddr := mac, isActive := true, isPowersave := false, pIface := iface }

/-! ### Client events -/

inductive ActiveCases (config : Config K A I) (answers : Answers) (ip : A) (mac : MacAddr)
    (iface : I) (f f' : Family K A I) : Prop
  | appeared : f.find (config.key ip) = none →
      f'.net = f.net.put ⟨config.key ip, f.nextNode⟩
        ⟨f.nextNode, ip, mac, true, false, iface, [], []⟩ →
      ActiveCases config answers ip mac iface f f'
  | repeated : f' = f → ActiveCases config answers ip mac iface f f'
  | replaced (p : Ptr K) (c d : ClientInfo K A I) (f₁ f₂ : Family K A I) :
      f.find (config.key ip) = some p → f.deref p = some c → c.isActive = true → c.macAddr ≠ mac →
      f.turnoffOffloadLinks answers p = some f₁ → f₁.clearPeerList p = some f₂ →
      f₂.deref p = some d → f'.net = f₂.net.put p (renewed d ip mac iface) →
      ActiveCases config answers ip mac iface f f'
  | returned (p : Ptr K) (c : ClientInfo K A I) (f₁ f₂ : Family K A I) :
      f.find (config.key ip) = some p → f.deref p = some c → c.isActive = false →
      f₁.net = f.net.put p (renewed c ip mac iface) → f₁.checkPotentialLink answers p = some f₂ →
      f'.net = f₂.net → ActiveCases config answers ip mac iface f f'

theorem handleClientActive_cases {ip : A} {mac : MacAddr} {iface : I}
    (run : f.handleClientActive config answers ip mac iface = some f') :
    ActiveCases config answers ip mac iface f f' := by
  simp only [handleClientActive] at run
  -- posting connections and looking into the cache leave the net alone
  cases found : f.find (config.key ip) with
  | none =>
    simp only [found, Option.bind_eq_bind] at run
    obtain ⟨f₁, posted, cached⟩ := Option.bind_eq_some_iff.mp run
    refine .appeared found ?_
    rw [net_of_checkCacheConnection cached, net_of_generateNewConnection posted,
      net_newClient config ip mac iface found]
  | some p =>
    simp only [found, Option.bind_eq_bind] at run
    obtain ⟨c, at_p, run⟩ := Option.bind_eq_some_iff.mp run
    cases active : c.isActive with
    | true =>
      simp only [active, if_true] at run
      by_cases same : c.macAddr = mac
      · rw [if_pos same] at run
        exact .repeated (Option.some.inj run).symm
      · rw [if_neg same] at run
        obtain ⟨f₁, run₁, run⟩ := Option.bind_eq_some_iff.mp run
        obtain ⟨f₂, run₂, run⟩ := Option.bind_eq_some_iff.mp run
        obtain ⟨f₃, run₃, run⟩ := Option.bind_eq_some_iff.mp run
        obtain ⟨f₄, posted, cached⟩ := Option.bind_eq_some_iff.mp run
        obtain ⟨d, at_p₂, set⟩ := Option.bind_eq_some_iff.mp run₃
        cases set
        refine .replaced p c d f₁ f₂ found at_p active same run₁ run₂ at_p₂ ?_
        rw [net_of_checkCacheConnection cached, net_of_generateNewConnection posted]
        exact net_set at_p₂ (by rfl)
    | false =>
      simp only [active, Bool.false_eq_true, if_false] at run
      obtain ⟨f₁, run₁, run⟩ := Option.bind_eq_some_iff.mp run
      obtain ⟨f₂, run₂, run⟩ := Option.bind_eq_some_iff.mp run
      obtain ⟨f₃, posted, cached⟩ := Option.bind_eq_some_iff.mp run
      obtain ⟨c', at_p', set⟩ := Option.bind_eq_some_iff.mp run₁
      obtain rfl : c = c' := Option.some.inj (at_p.symm.trans at_p')
      cases set
      refine .returned p c _ f₂ found at_p active (net_set at_p (by rfl)) run₂ ?_
      rw [net_of_checkCacheConnection cached, net_of_generateNewConnection posted]

/-- Most handlers do nothing for a client that is not in the table. -/
theorem found_or_same {key : K} {next : Ptr K → Option (Family K A I)}
    (run : (match f.find key with | none => some f | some p => next p) = some f') :
    f' = f ∨ ∃ p c, f.find key = some p ∧ p.key = key ∧ f.deref p = some c ∧ next p = some f' := by
  cases found : f.find key with
  | none =>
    rw [found] at run
    exact .inl (Option.some.inj run).symm
  | some p =>
    obtain ⟨at_key, c, at_p⟩ := find_eq_some found
    rw [found] at run
    exact .inr ⟨p, c, rfl, at_key, at_p, run⟩

theorem both_found_or_same {key key' : K} {next : Ptr K → Ptr K → Option (Family K A I)}
    (run : (match f.find key, f.find key' with | some p, some q => next p q | _, _ => some f) = some f') :
    f' = f ∨ ∃ p q, f.find key = some p ∧ f.find key' = some q ∧ next p q = some f' := by
  split at run
  next p q found_p found_q => exact .inr ⟨p, q, found_p, found_q, run⟩
  next => exact .inl (Option.some.inj run).symm

inductive InactiveCases (config : Config K A I) (answers : Answers) (ip : A) (f f' : Family K A I) : Prop
  | absent : f' = f → InactiveCases config answers ip f f'
  | stays (p : Ptr K) (c d : ClientInfo K A I) (f₁ : Family K A I) :
      f.find (config.key ip) = some p → f.deref p = some c →
      f.turnoffOffloadLinks answers p = some f₁ → f₁.deref p = some d →
      f'.net = f₁.net.put p { d with isActive := false } →
      InactiveCases config answers ip f f'
  | leaves (p : Ptr K) (c d : ClientInfo K A I) (f₁ : Family K A I) :
      f.find (config.key ip) = some p → f.deref p = some c →
      f.turnoffOffloadLinks answers p = some f₁ → f₁.deref p = some d → d.peer = [] →
      f'.net = (f₁.net.put p { d with isActive := false }).drop p →
      InactiveCases config answers ip f f'

theorem handleClientInactive_cases {ip : A} (run : f.handleClientInactive config answers ip = some f') :
    InactiveCases config answers ip f f' := by
  simp only [handleClientInactive] at run
  rcases found_or_same run with same | ⟨p, c, found, key, at_p, run⟩
  · exact .absent same
  obtain ⟨f₁, run₁, run⟩ := Option.bind_eq_some_iff.mp run
  obtain ⟨d, at_p₁, run⟩ := Option.bind_eq_some_iff.mp run
  have net₂ : (f₁.set p { d with isActive := false }).net =
      f₁.net.put p { d with isActive := false } := net_set at_p₁ (by rfl)
  by_cases no_peers : d.peer = []
  · rw [if_pos no_peers] at run
    refine .leaves p c d f₁ found at_p run₁ at_p₁ no_peers ?_
    have at_p₂ : (f₁.set p { d with isActive := false }).deref p = some { d with isActive := false } := by
      rw [deref_set at_p₁ (by rfl), if_pos rfl]
    rw [← Option.some.inj run, ← net₂]
    exact net_erase (key ▸ find_of_deref at_p₂)
  · rw [if_neg no_peers] at run
    exact .stays p c d f₁ found at_p run₁ at_p₁ (by rw [← Option.some.inj run, net₂])

inductive DisconnectCases (config : Config K A I) (answers : Answers) (ip : A) (f f' : Family K A I) : Prop
  | absent : f' = f → DisconnectCases config answers ip f f'
  | left (p : Ptr K) (c : ClientInfo K A I) (f₁ f₂ : Family K A I) :
      f.find (config.key ip) = some p → f.deref p = some c →
      f.turnoffOffloadLinks answers p = some f₁ → f₁.clearPeerList p = some f₂ →
      f' = f₂.erase p.key → DisconnectCases config answers ip f f'

theorem handleClientDisconnect_cases {ip : A} (run : f.handleClientDisconnect config answers ip = some f') :
    DisconnectCases config answers ip f f' := by
  unfold handleClientDisconnect at run
  rcases found_or_same run with same | ⟨p, c, found, key, at_p, run⟩
  · exact .absent same
  obtain ⟨f₁, run₁, run⟩ := Option.bind_eq_some_iff.mp run
  obtain ⟨f₂, run₂, run⟩ := Option.bind_eq_some_iff.mp run
  exact .left p c f₁ f₂ found at_p run₁ run₂ (by rw [key]; exact (Option.some.inj run).symm)

inductive PowerSaveCases (config : Config K A I) (answers : Answers) (ip : A) (f f' : Family K A I) : Prop
  | absent : f' = f → PowerSaveCases config answers ip f f'
  | failed (p : Ptr K) (c : ClientInfo K A I) : f.find (config.key ip) = some p →
      f.deref p = some c → f.removeFltRules answers p = some (false, f') →
      PowerSaveCases config answers ip f f'
  | saved (p : Ptr K) (c d : ClientInfo K A I) (f₁ : Family K A I) :
      f.find (config.key ip) = some p → f.deref p = some c →
      f.removeFltRules answers p = some (true, f₁) → f₁.deref p = some d →
      f'.net = f₁.net.put p { d with isActive := false, isPowersave := true } →
      PowerSaveCases config answers ip f f'

theorem handleClientPowerSave_cases {ip : A} (run : f.handleClientPowerSave config answers ip = some f') :
    PowerSaveCases config answers ip f f' := by
  unfold handleClientPowerSave at run
  rcases found_or_same run with same | ⟨p, c, found, -, at_p, run⟩
  · exact .absent same
  obtain ⟨⟨res, f₁⟩, run₁, run⟩ := Option.bind_eq_some_iff.mp run
  cases res with
  | true =>
    obtain ⟨d, at_p₁, run⟩ := Option.bind_eq_some_iff.mp run
    cases run
    exact .saved p c d f₁ found at_p run₁ at_p₁ (net_set at_p₁ (by rfl))
  | false =>
    obtain rfl : f₁ = f' := by simpa using run
    exact .failed p c found at_p run₁

inductive PowerRecoverCases (config : Config K A I) (answers : Answers) (ip : A) (f f' : Family K A I) : Prop
  | ignored : f' = f → PowerRecoverCases config answers ip f f'
  | failed (p : Ptr K) (c : ClientInfo K A I) : f.find (config.key ip) = some p →
      f.deref p = some c → c.isActive = false → c.isPowersave = true →
      f.addFltRules answers p = some (false, f') → PowerRecoverCases config answers ip f f'
  | recovered (p : Ptr K) (c d : ClientInfo K A I) (f₁ f₂ f₃ : Family K A I) :
      f.find (config.key ip) = some p → f.deref p = some c → c.isActive = false →
      c.isPowersave = true → f.addFltRules answers p = some (true, f₁) → f₁.deref p = some d →
      f₂.net = f₁.net.put p { d with isActive := true, isPowersave := false } →
      f₂.checkPotentialLink answers p = some f₃ → f'.net = f₃.net →
      PowerRecoverCases config answers ip f f'

theorem handleClientPowerRecover_cases {ip : A} (run : f.handleClientPowerRecover config answers ip = some f') :
    PowerRecoverCases config answers ip f f' := by
  simp only [handleClientPowerRecover] at run
  rcases found_or_same run with same | ⟨p, -, found, -, -, run⟩
  · exact .ignored same
  obtain ⟨c, at_p, run⟩ := Option.bind_eq_some_iff.mp run
  by_cases wrong : c.isActive = true ∨ (!c.isPowersave) = true
  · rw [if_pos wrong] at run
    exact .ignored (Option.some.inj run).symm
  · rw [if_neg wrong] at run
    obtain ⟨inactive, asleep⟩ : c.isActive = false ∧ c.isPowersave = true := by
      simpa using wrong
    obtain ⟨⟨res, f₁⟩, run₁, run⟩ := Option.bind_eq_some_iff.mp run
    cases res with
    | true =>
      obtain ⟨d, at_p₁, run⟩ := Option.bind_eq_some_iff.mp run
      obtain ⟨f₃, run₃, posted⟩ := Option.bind_eq_some_iff.mp run
      exact .recovered p c d f₁ _ f₃ found at_p inactive asleep run₁ at_p₁
        (net_set at_p₁ (by rfl)) run₃ (net_of_generateNewConnection posted)
    | false =>
      obtain rfl : f₁ = f' := by simpa using run
      exact .failed p c found at_p inactive asleep run₁

/-! ### Connection events -/

inductive NewCases (config : Config K A I) (answers : Answers) (src dst : A) (f f' : Family K A I) : Prop
  | absent : f' = f → NewCases config answers src dst f f'
  | counted (p q : Ptr K) (c d : ClientInfo K A I) (first : Bool) :
      f.find (config.key src) = some p → f.find (config.key dst) = some q → f'.deref p = some c →
      f'.deref q = some d → f.addConnection p q = some (first, f') →
      ¬ (first = true ∧ c.isActive = true ∧ d.isActive = true) →
      NewCases config answers src dst f f'
  | refused (p q : Ptr K) (c d : ClientInfo K A I) (f₁ : Family K A I) :
      f.find (config.key src) = some p → f.find (config.key dst) = some q →
      f.addConnection p q = some (true, f₁) → f₁.deref p = some c → f₁.deref q = some d →
      c.isActive = true → d.isActive = true →
      f₁.addOffloadLink (answers.add 0) p q = some (false, f') →
      NewCases config answers src dst f f'
  | linked (p q : Ptr K) (c d : ClientInfo K A I) (res : Bool) (f₁ f₂ f₃ : Family K A I) :
      f.find (config.key src) = some p → f.find (config.key dst) = some q →
      f.addConnection p q = some (true, f₁) → f₁.deref p = some c → f₁.deref q = some d →
      c.isActive = true → d.isActive = true →
      f₁.addOffloadLink (answers.add 0) p q = some (true, f₂) →
      f₂.addOffloadLink (answers.add 1) q p = some (res, f₃) →
      f' = (if res then { f₃ with numOffloadPair := f₃.numOffloadPair + 1 } else f₃) →
      NewCases config answers src dst f f'

theorem handleNewLan2lanConnection_cases {src dst : A}
    (run : f.handleNewLan2lanConnection config answers src dst = some f') :
    NewCases config answers src dst f f' := by
  simp only [handleNewLan2lanConnection] at run
  rcases both_found_or_same run with same | ⟨p, q, found_p, found_q, run⟩
  · exact .absent same
  obtain ⟨⟨first, f₁⟩, run₁, run⟩ := Option.bind_eq_some_iff.mp run
  obtain ⟨c, at_p, run⟩ := Option.bind_eq_some_iff.mp run
  obtain ⟨d, at_q, run⟩ := Option.bind_eq_some_iff.mp run
  by_cases wanted : (first && c.isActive && d.isActive) = true
  · obtain ⟨⟨rfl, p_active⟩, q_active⟩ :
        (first = true ∧ c.isActive = true) ∧ d.isActive = true := by simpa using wanted
    rw [if_pos wanted] at run
    obtain ⟨⟨res, f₂⟩, run₂, run⟩ := Option.bind_eq_some_iff.mp run
    cases res with
    | true =>
      obtain ⟨⟨res', f₃⟩, run₃, run⟩ := Option.bind_eq_some_iff.mp run
      exact .linked p q c d res' f₁ f₂ f₃ found_p found_q run₁ at_p at_q p_active q_active run₂
        run₃ (Option.some.inj run).symm
    | false =>
      obtain rfl : f₂ = f' := by simpa using run
      exact .refused p q c d f₁ found_p found_q run₁ at_p at_q p_active q_active run₂
  · rw [if_neg wanted] at run
    obtain rfl := Option.some.inj run
    exact .counted p q c d first found_p found_q at_p at_q run₁ (by simpa [and_assoc] using wanted)

inductive DelCases (config : Config K A I) (answers : Answers) (src dst : A) (f f' : Family K A I) : Prop
  | absent : f' = f → DelCases config answers src dst f f'
  | counted (p q : Ptr K) : f.find (config.key src) = some p → f.find (config.key dst) = some q →
      f.removeConnection p q = some (false, f') → DelCases config answers src dst f f'
  | last (p q : Ptr K) (c d : ClientInfo K A I) (f₁ f₂ f₃ : Family K A I) :
      f.find (config.key src) = some p → f.find (config.key dst) = some q →
      f.removeConnection p q = some (true, f₁) → f₁.deref p = some c → f₁.deref q = some d →
      f₁.eraseLinks answers p q c d = some f₂ → f₂.eraseIfUnused p = some f₃ →
      f₃.eraseIfUnused q = some f' → DelCases config answers src dst f f'

theorem handleDelLan2lanConnection_cases {src dst : A}
    (run : f.handleDelLan2lanConnection config answers src dst = some f') :
    DelCases config answers src dst f f' := by
  unfold handleDelLan2lanConnection at run
  rcases both_found_or_same run with same | ⟨p, q, found_p, found_q, run⟩
  · exact .absent same
  obtain ⟨⟨res, f₁⟩, run₁, run⟩ := Option.bind_eq_some_iff.mp run
  cases res with
  | true =>
    obtain ⟨c, at_p, run⟩ := Option.bind_eq_some_iff.mp run
    obtain ⟨d, at_q, run⟩ := Option.bind_eq_some_iff.mp run
    obtain ⟨f₂, run₂, run⟩ := Option.bind_eq_some_iff.mp run
    obtain ⟨f₃, run₃, run₄⟩ := Option.bind_eq_some_iff.mp run
    exact .last p q c d f₁ f₂ f₃ found_p found_q run₁ at_p at_q run₂ run₃ run₄
  | false =>
    obtain rfl : f₁ = f' := by simpa using run
    exact .counted p q found_p found_q run₁

theorem eraseIfUnused_cases (run : f.eraseIfUnused p = some f') :
    ∃ c, f.deref p = some c ∧ (f' = f ∨
      c.isActive = false ∧ c.isPowersave = false ∧ c.peer = [] ∧ f'.net = f.net.drop p) := by
  obtain ⟨c, at_p, run⟩ := Option.bind_eq_some_iff.mp run
  refine ⟨c, at_p, ?_⟩
  split at run
  next unused =>
    have unused : c.isActive = false ∧ c.isPowersave = false ∧ c.peer = [] := by
      simpa [and_assoc] using unused
    refine .inr ⟨unused.1, unused.2.1, unused.2.2, ?_⟩
    rw [← Option.some.inj run]
    exact net_erase (find_of_deref at_p)
  next => exact .inl (Option.some.inj run).symm

end Family

end Hima.LanToLan
