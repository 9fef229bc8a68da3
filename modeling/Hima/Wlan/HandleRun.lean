import Hima.Wlan.Accounts

/-!
# The table accounts for handles

Which events keep the records and the driver in agreement, and what that says of every run.
-/
namespace Hima.Wlan

open IpaWlanClient IpacmWlan
open Wan (IpaIpType)
open Runs Handles

variable {cfg : Iface} {d : Driver}

/-- The records hold what is live, and the records behind the first one of an address hold no rules. -/
structure Accounted (cfg : Iface) (s : IpacmWlan) : Prop where
  live : liveIn s.ledger = ∑ j ∈ Finset.range s.numWifiClient, (s.wlanClient j).held cfg
  sound : SoundLedger s.ledger
  settled : ∀ j < s.numWifiClient, (s.wlanClient j).Settled
  first : ∀ i j, i < j → j < s.numWifiClient → (s.wlanClient i).mac = (s.wlanClient j).mac →
    (s.wlanClient j).routeRuleSetV4 = false ∧ (s.wlanClient j).routeRuleSetV6 = 0
  unset : ∀ ip, cfg.txProp.find? (·.ip = ip) = none → ∀ k, (s.wlanClient k).headerSet ip = false

/-- What the records besides the one at `i` hold. -/
def IpacmWlan.heldBeside (cfg : Iface) (i : Nat) (s : IpacmWlan) : Multiset Resource :=
  ∑ j ∈ (Finset.range s.numWifiClient).erase i, (s.wlanClient j).held cfg

variable {s s' : IpacmWlan}

theorem Touches.heldBeside {i : Nat} (touches : Touches i s s') :
    s'.heldBeside cfg i = s.heldBeside cfg i := by
  rw [IpacmWlan.heldBeside, IpacmWlan.heldBeside, touches.num]
  apply Finset.sum_congr rfl
  intro j member
  rw [touches.same j (Finset.ne_of_mem_erase member)]

theorem Touches.unset {i : Nat} (touches : Touches i s s') {ip : IpaIpType} {k : Nat}
    (clear : (s.wlanClient k).headerSet ip = false) : (s'.wlanClient k).headerSet ip = false := by
  by_cases this : k = i
  · subst this
    rw [Bool.eq_false_iff] at clear ⊢
    cases ip with
    | v4 => exact clear ∘ touches.keeps.ipv4HeaderSet
    | v6 => exact clear ∘ touches.keeps.ipv6HeaderSet
  · rw [touches.same k this]
    exact clear

theorem Accounted.balanced {s : IpacmWlan} (accounted : Accounted cfg s) {i : Nat} (below : i < s.numWifiClient) :
    Balanced cfg i (s.heldBeside cfg i) s where
  live := accounted.live.trans (Finset.add_sum_erase (Finset.range s.numWifiClient)
    (fun j => (s.wlanClient j).held cfg) (Finset.mem_range.mpr below)).symm
  sound := accounted.sound
  settled := accounted.settled i below

/-- An event of the first record of an address keeps the account when it keeps its own. -/
theorem Accounted.touched {mac : MacAddr} {i : Nat} (accounted : Accounted cfg s)
    (found : s.getWlanClientIndex mac = some i) (touches : Touches i s s')
    (balanced : Balanced cfg i (s.heldBeside cfg i) s') : Accounted cfg s' := by
  obtain ⟨below, here, earlier⟩ := getWlanClientIndex_some found
  refine ⟨?_, balanced.sound, fun j inside => ?_, fun k j order inside same => ?_,
    fun ip none k => touches.unset (accounted.unset ip none k)⟩
  · have live := balanced.live
    rw [← touches.heldBeside, IpacmWlan.heldBeside, Finset.add_sum_erase (Finset.range s'.numWifiClient)
      (fun j => (s'.wlanClient j).held cfg)] at live
    · exact live
    · rw [touches.num]
      exact Finset.mem_range.mpr below
  · by_cases this : j = i
    · subst this
      exact balanced.settled
    · rw [touches.same j this]
      exact accounted.settled j (touches.num ▸ inside)
  · rw [touches.macs, touches.macs] at same
    rw [touches.num] at inside
    by_cases this : j = i
    · subst this
      exact absurd (same.trans here) (earlier k order)
    · rw [touches.same j this]
      exact accounted.first k j order inside same

/-! ### Adding a client -/

/-- Besides the record at `i` nothing has changed, and of it not the headers of the other families. -/
structure Besides (i : Nat) (ip : IpaIpType) (s s' : IpacmWlan) : Prop where
  num : s'.numWifiClient = s.numWifiClient
  same : ∀ j ≠ i, s'.wlanClient j = s.wlanClient j
  flag : ∀ ip' ≠ ip, (s'.wlanClient i).headerSet ip' = (s.wlanClient i).headerSet ip'
  hdl : ∀ ip' ≠ ip, (s'.wlanClient i).hdrHdl ip' = (s.wlanClient i).hdrHdl ip'

/-- How the header of a family is added to the record at `i`. -/
inductive HeaderAdded (cfg : Iface) (d : Driver) (i : Nat) (ip : IpaIpType) (s : IpacmWlan) :
    Bool → IpacmWlan → Prop
  | absent : cfg.txProp.find? (·.ip = ip) = none → HeaderAdded cfg d i ip s true s
  | failed {tx : TxProp} {s' : IpacmWlan} : cfg.txProp.find? (·.ip = ip) = some tx →
      ¬ ((d.copyHeader tx.hdrName).isSome ∧ d.outcome s.attempts = .ok) →
      s'.ledger = s.ledger → (s'.wlanClient i).headerSet ip = (s.wlanClient i).headerSet ip →
      Besides i ip s s' → HeaderAdded cfg d i ip s false s'
  | added {tx : TxProp} {s' : IpacmWlan} (hdr : HdrAdd) : cfg.txProp.find? (·.ip = ip) = some tx →
      (d.copyHeader tx.hdrName).isSome ∧ d.outcome s.attempts = .ok → s'.attempts = s.attempts + 1 →
      s'.ledger = .addHdr hdr ((s'.wlanClient i).hdrHdl ip) :: s.ledger →
      (s'.wlanClient i).headerSet ip = true → Besides i ip s s' → HeaderAdded cfg d i ip s true s'

theorem addHeader_ok {s : IpacmWlan} {hdr : HdrAdd} (taken : d.outcome s.attempts = .ok) :
    addHeader d s hdr = (some (d.hdrHandle s.ledger), { s with
      attempts := s.attempts + 1, ledger := .addHdr hdr (d.hdrHandle s.ledger) :: s.ledger }) := by
  simp only [addHeader, taken]

theorem addHeader_fails {s : IpacmWlan} {hdr : HdrAdd} (fails : d.outcome s.attempts ≠ .ok) :
    addHeader d s hdr = (none, { s with attempts := s.attempts + 1 }) := by
  cases answer : d.outcome s.attempts with
  | ok => exact absurd answer fails
  | refused => simp only [addHeader, answer]
  | noMemory => simp only [addHeader, answer]

theorem addClientHeader_added (cfg : Iface) (d : Driver) (i : Nat) (attribs : List HdrAttrib) (ip : IpaIpType)
    (s : IpacmWlan) : HeaderAdded cfg d i ip s (addClientHeader cfg d i attribs ip s).1
      (addClientHeader cfg d i attribs ip s).2 := by
  rw [addClientHeader]
  cases prop : cfg.txProp.find? (·.ip = ip) with
  | none => exact .absent prop
  | some tx =>
    dsimp only
    cases copied : d.copyHeader tx.hdrName with
    | none => exact .failed prop (by simp [copied]) rfl rfl ⟨rfl, fun _ _ => rfl, fun _ _ => rfl, fun _ _ => rfl⟩
    | some hdr =>
      dsimp only
      generalize naming : (s.update i fun c => { c with mac := attribs.foldl HdrAttrib.takeMac c.mac }) = s₀
      -- naming writes the address only
      have named : Besides i ip s s₀ := by
        rw [← naming]
        refine ⟨rfl, fun j other => by simp [update, other], fun ip' _ => ?_, fun ip' _ => ?_⟩
        · cases ip' <;> simp [update, headerSet]
        · cases ip' <;> simp [update, hdrHdl]
      have flag : (s₀.wlanClient i).headerSet ip = (s.wlanClient i).headerSet ip := by
        rw [← naming]
        cases ip <;> simp [update, headerSet]
      have attempts : s₀.attempts = s.attempts := by rw [← naming]; rfl
      have ledger : s₀.ledger = s.ledger := by rw [← naming]; rfl
      generalize HdrAdd.mk (digit cfg.ipaIfNum ++ partialHdrName ip ++ digit s₀.headerNameCount)
        (attribs.foldl HdrAttrib.patch hdr) = made
      by_cases taken : d.outcome s₀.attempts = .ok
      · rw [addHeader_ok taken]
        refine .added made prop ⟨by simp [copied], attempts ▸ taken⟩ (congrArg (· + 1) attempts) ?_ ?_
          ⟨named.num, fun j other => ?_, fun ip' other => ?_, fun ip' other => ?_⟩
        · simp only [update, ledger, Function.update_self]
          cases ip <;> rfl
        · cases ip <;> simp [update, setHeader, headerSet]
        · simpa [update, other] using named.same j other
        · rw [← named.flag ip' other]
          cases ip <;> cases ip' <;> first
            | contradiction
            | simp [update, setHeader, headerSet]
        · rw [← named.hdl ip' other]
          cases ip <;> cases ip' <;> first
            | contradiction
            | simp [update, setHeader, hdrHdl]
      · rw [addHeader_fails taken]
        exact .failed prop (fun both => taken (attempts ▸ both.2)) ledger flag
          ⟨named.num, named.same, named.flag, named.hdl⟩

/-- The record behind the others while its headers are added: what is live besides the records is
what it holds of the families that were handled. -/
structure Pending (cfg : Iface) (s : IpacmWlan) (families : List IpaIpType) (s' : IpacmWlan) : Prop where
  num : s'.numWifiClient = s.numWifiClient
  same : ∀ j ≠ s.numWifiClient, s'.wlanClient j = s.wlanClient j
  live : liveIn s'.ledger =
    (families.map (s'.wlanClient s.numWifiClient).heldHeader).sum + liveIn s.ledger
  sound : SoundLedger s'.ledger
  unset : ∀ ip, cfg.txProp.find? (·.ip = ip) = none →
    (s'.wlanClient s.numWifiClient).headerSet ip = false

theorem Pending.step {families : List IpaIpType} {ip : IpaIpType} {s s₁ s₂ : IpacmWlan} {done : Bool}
    (pending : Pending cfg s families s₁) (new : ip ∉ families)
    (added : HeaderAdded cfg d s.numWifiClient ip s₁ done s₂) :
    Pending cfg s (if done then ip :: families else families) s₂ := by
  cases added with
  -- no property of the family, no header
  | absent prop =>
    have none : (s₁.wlanClient s.numWifiClient).heldHeader ip = 0 := by
      simp [heldHeader, pending.unset ip prop]
    refine ⟨pending.num, pending.same, ?_, pending.sound, pending.unset⟩
    rw [if_pos rfl, List.map_cons, List.sum_cons, none, zero_add]
    exact pending.live
  -- the flag stays unset and the ledger as it was
  | failed prop _ ledger flag besides =>
    have flags : ∀ ip', (s₂.wlanClient s.numWifiClient).headerSet ip' =
        (s₁.wlanClient s.numWifiClient).headerSet ip' := by
      intro ip'
      by_cases this : ip' = ip
      · rw [this, flag]
      · exact besides.flag ip' this
    refine ⟨besides.num.trans pending.num, fun j other => (besides.same j other).trans (pending.same j other), ?_,
      ledger ▸ pending.sound, fun ip' none => (flags ip').trans (pending.unset ip' none)⟩
    rw [if_neg (by simp), ledger, pending.live]
    congr 2
    apply List.map_congr_left
    intro ip' member
    have this : ip' ≠ ip := fun same => new (same ▸ member)
    exact (heldHeader_congr ip' (flags ip') (besides.hdl ip' this)).symm
  -- one handle more, under the family it was made for
  | added hdr prop _ _ ledger flag besides =>
    refine ⟨besides.num.trans pending.num, fun j other => (besides.same j other).trans (pending.same j other), ?_,
      ?_, fun ip' none => ?_⟩
    · have held : (s₂.wlanClient s.numWifiClient).heldHeader ip =
          {.header ((s₂.wlanClient s.numWifiClient).hdrHdl ip)} := if_pos flag
      have others : families.map (s₂.wlanClient s.numWifiClient).heldHeader =
          families.map (s₁.wlanClient s.numWifiClient).heldHeader := by
        apply List.map_congr_left
        intro ip' member
        have this : ip' ≠ ip := fun same => new (same ▸ member)
        exact heldHeader_congr ip' (besides.flag ip' this) (besides.hdl ip' this)
      rw [if_pos rfl, List.map_cons, List.sum_cons, held, others, add_assoc, ← pending.live, ledger,
        Multiset.singleton_add]
      rfl
    · rw [ledger]
      exact pending.sound
    · have this : ip' ≠ ip := by
        rintro rfl
        rw [prop] at none
        contradiction
      exact (besides.flag ip' this).trans (pending.unset ip' none)

/-- Not the IPv4 header alone: once it is added, the IPv6 header does not fail. -/
def AddHarmless (cfg : Iface) (d : Driver) (s : IpacmWlan) : Prop :=
  maxNumWifiClients ≤ s.numWifiClient + s.others ∨
    ∀ tx ∈ cfg.txProp.find? (·.ip = .v4), ∀ tx' ∈ cfg.txProp.find? (·.ip = .v6),
      (d.copyHeader tx.hdrName).isSome → d.outcome s.attempts = .ok →
        (d.copyHeader tx'.hdrName).isSome ∧ d.outcome (s.attempts + 1) = .ok

/-- A client that could not be added leaves the account as it was. -/
theorem Accounted.pending {s s' : IpacmWlan} (accounted : Accounted cfg s) (pending : Pending cfg s [] s') :
    Accounted cfg s' := by
  have same : ∀ j < s.numWifiClient, s'.wlanClient j = s.wlanClient j := fun j below =>
    pending.same j below.ne
  refine ⟨?_, pending.sound, fun j below => ?_, fun i j order below macs => ?_, fun ip none k => ?_⟩
  · have live := pending.live
    rw [List.map_nil, List.sum_nil, zero_add, accounted.live] at live
    rw [live, pending.num]
    apply Finset.sum_congr rfl
    intro j member
    rw [same j (Finset.mem_range.mp member)]
  · rw [pending.num] at below
    rw [same j below]
    exact accounted.settled j below
  · rw [pending.num] at below
    rw [same i (order.trans below), same j below] at macs
    rw [same j below]
    exact accounted.first i j order below macs
  · by_cases this : k = s.numWifiClient
    · rw [this]
      exact pending.unset ip none
    · rw [pending.same k this]
      exact accounted.unset ip none k

/-- A client that was added holds its headers and no rules. -/
theorem Accounted.added (accounted : Accounted cfg s) (pending : Pending cfg s [.v6, .v4] s') (name : Nat) :
    Accounted cfg { s'.update s.numWifiClient initEx with
      numWifiClient := s'.numWifiClient + 1, headerNameCount := name } := by
  have same : ∀ j < s.numWifiClient, (s'.update s.numWifiClient initEx).wlanClient j = s.wlanClient j := by
    intro j below
    rw [← pending.same j below.ne]
    simp [update, below.ne]
  have last : (s'.update s.numWifiClient initEx).wlanClient s.numWifiClient =
      (s'.wlanClient s.numWifiClient).initEx := by
    simp [update]
  -- a new record has no rules, so it holds the headers that were pending
  have held : (s'.wlanClient s.numWifiClient).initEx.held cfg =
      ([IpaIpType.v6, .v4].map (s'.wlanClient s.numWifiClient).heldHeader).sum := by
    have headers : ∀ ip, (s'.wlanClient s.numWifiClient).initEx.heldHeader ip =
        (s'.wlanClient s.numWifiClient).heldHeader ip := fun ip => by cases ip <;> rfl
    have rules : ∀ ip, (s'.wlanClient s.numWifiClient).initEx.heldRules cfg ip = 0 := by
      intro ip
      cases ip <;>
        simp [heldRules, covered, initEx, Iface.slotsV6]
    simp only [held, headers, rules]
    simp [add_comm]
  refine ⟨?_, pending.sound, fun j below => ?_, fun i j order below macs => ?_, fun ip none k => ?_⟩
  · simp only [pending.num, Finset.sum_range_succ, last, held]
    rw [add_comm, Finset.sum_congr rfl fun j member => by rw [same j (Finset.mem_range.mp member)]]
    rw [← accounted.live]
    exact pending.live
  · simp only [pending.num] at below ⊢
    rcases Nat.lt_succ_iff_lt_or_eq.mp below with old | rfl
    · rw [same j old]
      exact accounted.settled j old
    · rw [last]
      exact ⟨by simp [initEx], by simp [initEx], by simp [initEx]⟩
  · simp only [pending.num] at below macs ⊢
    rcases Nat.lt_succ_iff_lt_or_eq.mp below with old | rfl
    · rw [same i (order.trans old), same j old] at macs
      rw [same j old]
      exact accounted.first i j order old macs
    · rw [last]
      exact ⟨rfl, rfl⟩
  · by_cases this : k = s.numWifiClient
    · rw [this, last]
      have clear := pending.unset ip none
      cases ip <;> exact clear
    · have clear := accounted.unset ip none k
      rw [← pending.same k this] at clear
      simpa [update, this] using clear

theorem clientAdd_accounted {attribs : List HdrAttrib} {s : IpacmWlan} (accounted : Accounted cfg s)
    (harmless : AddHarmless cfg d s) : Accounted cfg (handleWlanClientInitEx cfg d attribs s) := by
  rw [handleWlanClientInitEx]
  split_ifs with full props
  · exact accounted
  · exact accounted
  have start : Pending cfg s [] (s.update s.numWifiClient fun c => { c with pHdrInfo := some attribs }) := by
    refine ⟨rfl, fun j other => by simp [update, other], ?_, accounted.sound, fun ip none => ?_⟩
    · rw [List.map_nil, List.sum_nil, zero_add]
      rfl
    · have clear := accounted.unset ip none s.numWifiClient
      simp only [update, Function.update_self]
      cases ip <;> exact clear
  have attempts : (s.update s.numWifiClient fun c => { c with pHdrInfo := some attribs }).attempts =
    s.attempts := rfl
  dsimp only
  generalize (s.update s.numWifiClient fun c => { c with pHdrInfo := some attribs }) = s₀ at start attempts ⊢
  have added₁ := addClientHeader_added cfg d s.numWifiClient attribs .v4 s₀
  have pending₁ := start.step (by simp) added₁
  generalize addClientHeader cfg d s.numWifiClient attribs .v4 s₀ = result at added₁ pending₁ ⊢
  obtain ⟨done₁, s₁⟩ := result
  cases done₁ with
  | false => exact accounted.pending pending₁
  | true =>
    have added₂ := addClientHeader_added cfg d s.numWifiClient attribs .v6 s₁
    have pending₂ := pending₁.step (by simp) added₂
    dsimp only
    generalize addClientHeader cfg d s.numWifiClient attribs .v6 s₁ = result at added₂ pending₂ ⊢
    obtain ⟨done₂, s₂⟩ := result
    cases done₂ with
    | true => exact accounted.added pending₂ _
    | false =>
      cases added₁ with
      | absent _ => exact accounted.pending (start.step (by simp) added₂)
      | added _ prop taken later =>
        -- the second half of the add fails
        cases added₂ with
        | failed prop' fails =>
          rw [later, attempts] at fails
          rw [attempts] at taken
          exact absurd (harmless.resolve_left (fun limit => full (.inr limit)) _ prop _ prop' taken.1 taken.2) fails

/-! ### Going down -/

theorem held_copyClient {dst src : IpaWlanClient} (settled : src.Settled) :
    (copyClient cfg dst src).held cfg = src.held cfg := by
  apply held_congr
  · intro ip
    cases ip <;> rfl
  · intro ip
    apply heldRules_congr
    · cases ip <;> rfl
    · intro slot member
      cases ip with
      | v4 =>
        rw [covered] at member
        split at member
        · obtain ⟨tx, here, rfl⟩ := mem_slotsV4.mp member
          simp [entry, copyClient, ruleOf, mem_txOf here]
        · simp at member
      | v6 =>
        have order := settled.v6
        obtain ⟨tx, here, num, _, below, rfl | rfl⟩ := mem_slotsV6.mp member <;>
          simp [entry, copyClient, ruleOf, mem_txOf here, below, Nat.lt_of_lt_of_le below order]

theorem settled_copyClient {dst src : IpaWlanClient} (settled : src.Settled) : (copyClient cfg dst src).Settled where
  v4 := settled.v4
  v6 := settled.v6
  distinct n below_n m below_m same := by
    have below_n : n < src.ipv6Set := below_n
    have below_m : m < src.ipv6Set := below_m
    simp only [copyClient, below_n, below_m, if_true] at same
    exact settled.distinct n below_n m below_m same

/-- The records move up behind one that holds nothing. -/
theorem Accounted.moveUp {mac : MacAddr} {i : Nat} (accounted : Accounted cfg s)
    (found : s.getWlanClientIndex mac = some i) (touches : Touches i s s')
    (live : liveIn s'.ledger = s.heldBeside cfg i) (sound : SoundLedger s'.ledger) :
    Accounted cfg { s' with
      wlanClient := Wlan.moveUp cfg i s'.numWifiClient s'.wlanClient
      numWifiClient := s'.numWifiClient - 1 } := by
  obtain ⟨inside, -, -⟩ := getWlanClientIndex_some found
  rw [touches.num]
  -- what a record says was said by the one it came from
  have moved : ∀ k < s.numWifiClient - 1,
      Wlan.moveUp cfg i s.numWifiClient s'.wlanClient k = s.wlanClient (cameFrom i k) ∨
        Wlan.moveUp cfg i s.numWifiClient s'.wlanClient k =
          copyClient cfg (s'.wlanClient k) (s.wlanClient (cameFrom i k)) := by
    intro k below
    have := moveUp_cameFrom cfg i s'.wlanClient below
    rwa [touches.same _ (cameFrom_ne i k)] at this
  have settled : ∀ k < s.numWifiClient - 1, (s.wlanClient (cameFrom i k)).Settled := fun k below =>
    accounted.settled _ (cameFrom_lt below)
  refine ⟨?_, sound, fun k below => ?_, fun k l order below macs => ?_, fun ip none k => ?_⟩
  · rw [show liveIn s'.ledger = s.heldBeside cfg i from live, IpacmWlan.heldBeside]
    symm
    refine Finset.sum_nbij (cameFrom i) (fun k member => ?_) (fun k _ l _ same => cameFrom_injective i same)
      (fun j member => ?_) (fun k member => ?_)
    · exact Finset.mem_erase.mpr ⟨cameFrom_ne i k, Finset.mem_range.mpr (cameFrom_lt (Finset.mem_range.mp member))⟩
    · obtain ⟨other, below⟩ := Finset.mem_erase.mp member
      obtain ⟨k, before, from_k⟩ := cameFrom_onto inside (Finset.mem_range.mp below) other
      exact ⟨k, Finset.mem_coe.mpr (Finset.mem_range.mpr before), from_k⟩
    · have below := Finset.mem_range.mp member
      rcases moved k below with this | this
      · simp only [this]
      · simp only [this, held_copyClient (settled k below)]
  · rcases moved k below with this | this
    · simpa only [this] using settled k below
    · simpa only [this] using settled_copyClient (settled k below)
  · have macs_from : ∀ k < s.numWifiClient - 1,
        (Wlan.moveUp cfg i s.numWifiClient s'.wlanClient k).mac = (s.wlanClient (cameFrom i k)).mac := by
      intro k below
      rcases moved k below with this | this <;> rw [this]
      rfl
    rw [macs_from k (order.trans below), macs_from l below] at macs
    have none := accounted.first _ _ (cameFrom_mono.mpr order) (cameFrom_lt below) macs
    rcases moved l below with this | this
    · simpa only [this] using none
    · simp only [this]
      exact none
  · have clear : ∀ k, (s'.wlanClient k).headerSet ip = false := fun k => touches.unset (accounted.unset ip none k)
    simp only [moveUp_apply]
    split
    · have := clear (k + 1)
      cases ip <;> exact this
    · exact clear k

/-! ### Events -/

/-- The condition on the answers that the driver gives from the next attempt on. -/
def Harmless (cfg : Iface) (d : Driver) (s : IpacmWlan) : Event → Prop
  | .clientAddEx _ => AddHarmless cfg d s
  | .ipAddr mac addr => ∀ i ∈ s.getWlanClientIndex mac, AddressHarmless cfg d s (s.wlanClient i) addr
  | .routeRule mac ip => ∀ i ∈ s.getWlanClientIndex mac, (s.wlanClient i).powerSaveSet = false →
      ∃ stop done, WholeInstall d s.attempts ((s.wlanClient i).installCount cfg ip) stop done
  | .powerSave mac => ∀ i ∈ s.getWlanClientIndex mac, (s.wlanClient i).powerSaveSet = false →
      SleepHarmless cfg d s (s.wlanClient i)
  | .recover mac => ∀ i ∈ s.getWlanClientIndex mac, (s.wlanClient i).powerSaveSet = true →
      WakeHarmless cfg d s (s.wlanClient i)
  | .clientDel mac => ∀ i ∈ s.getWlanClientIndex mac, DownHarmless cfg d s (s.wlanClient i)
  | .otherClients _ => True

/-- A handler that does nothing without a record. -/
theorem Accounted.of_touchesMac {mac : MacAddr} (accounted : Accounted cfg s) (touches : TouchesMac mac s s')
    (balanced : ∀ i, s.getWlanClientIndex mac = some i → Balanced cfg i (s.heldBeside cfg i) s →
      Balanced cfg i (s.heldBeside cfg i) s') : Accounted cfg s' := by
  cases found : s.getWlanClientIndex mac with
  | none =>
    rw [TouchesMac, found] at touches
    obtain rfl : s' = s := touches
    exact accounted
  | some i =>
    have inside := (getWlanClientIndex_some found).1
    exact accounted.touched found ((touchesMac_of_touches found).mp touches)
      (balanced i found (accounted.balanced inside))

theorem step_accounted {s : IpacmWlan} {e : Event} (accounted : Accounted cfg s) (issued : Issued s.ledger)
    (harmless : Harmless cfg d s e) : Accounted cfg (step cfg d s e) := by
  cases e with
  | clientAddEx attribs => exact clientAdd_accounted accounted harmless
  | ipAddr mac addr =>
    exact accounted.of_touchesMac (touches_ipaddr mac addr s) fun i found balanced =>
      ipaddr_balanced found balanced issued (harmless i found)
  | routeRule mac ip =>
    apply accounted.of_touchesMac (touches_routeRule mac ip s)
    intro i found balanced
    by_cases awake : (s.wlanClient i).powerSaveSet = false
    · obtain ⟨stop, done, whole⟩ := harmless i found awake
      obtain ⟨s', runs, balanced', -⟩ := routeRule_whole found awake balanced whole
      rwa [runs]
    · have asleep : (s.wlanClient i).powerSaveSet = true := by simpa using awake
      simpa [handleWlanClientRouteRule, found, asleep] using balanced
  | powerSave mac =>
    exact accounted.of_touchesMac (touches_pwrsave mac s) fun i found balanced =>
      pwrsave_balanced found balanced issued (harmless i found)
  | recover mac =>
    exact accounted.of_touchesMac (touches_recover mac s) fun i found balanced =>
      recover_balanced found balanced (harmless i found)
  | clientDel mac =>
    cases found : s.getWlanClientIndex mac with
    | none => simpa [step, handleWlanClientDownEvt, found] using accounted
    | some i =>
      have inside := (getWlanClientIndex_some found).1
      rcases down_balanced found (accounted.balanced inside) issued (harmless i found) with
        ⟨touches, balanced⟩ | ⟨s', touches, live, sound, runs⟩
      · exact accounted.touched found touches balanced
      · rw [step, runs]
        exact accounted.moveUp found touches live sound
  | otherClients n => exact ⟨accounted.live, accounted.sound, accounted.settled, accounted.first, accounted.unset⟩

theorem run_accounted {es : List Event} {s : IpacmWlan} (run : Run (fun s e => some (step cfg d s e))
      (fun s e => Harmless cfg d s e ∧ Issued (step cfg d s e).ledger) {} es s) :
    Accounted cfg s ∧ Issued s.ledger := by
  refine run.invariant (fun s => Accounted cfg s ∧ Issued s.ledger) ?_ ⟨⟨rfl, trivial, ?_, ?_, ?_⟩, trivial, ?_⟩
  · intro s e s' before allowed stepped
    obtain rfl := Option.some.inj stepped
    exact ⟨step_accounted before.1 before.2 allowed.1, allowed.2⟩
  · intro j below
    simp at below
  · intro i j _ below
    simp at below
  · intro ip _ k
    cases ip <;> rfl
  · simp

end Hima.Wlan
