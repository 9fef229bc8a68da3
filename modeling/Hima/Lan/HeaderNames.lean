import Hima.Wlan.HeaderNames
import Hima.Lan.EthRuns

/-!
# Header names of ethernet clients

`IPACM_Lan` as a registry of header names, and what names the two interfaces give to the headers of
their clients.
-/
namespace Hima.Lan

open Function
open Wan (IpaIpType)
open Wlan (MacAddr IpAddr RtSlot HdrView Unset headersOf nodup_headersOf idle_effect lastFamily hdrName
  hdrName_eq_iff HeaderGiven HeaderTaken ClientJoins ClientLeaves header_moved digit)
open Members Handles

variable {cfg : Iface} {d : Driver}

/-! ### The driver's headers -/

/-- What a call does to the headers. -/
def Call.hdrEntry : Call → Option (Entry (UInt32 × String) UInt32)
  | .addHdr _ _ hdr hdl => some (.gain (hdl, hdr.name))
  | .delHdr hdl true => some (.release hdl)
  | .delHdr _ false => none
  | .addRt _ _ _ _ => none
  | .delRt _ _ _ => none

/-- The headers that the driver has, with their names. -/
def hdrTable (ledger : List Call) : List (UInt32 × String) := headersOf (ledger.filterMap Call.hdrEntry)

theorem hdrEntry_narrow (call : Call) :
    Narrow Resource.handle Prod.fst Wlan.Handle.header call.entry call.hdrEntry := by
  cases call with
  | addHdr mac ip hdr hdl => exact .gain _ _ rfl
  | delHdr hdl taken =>
    cases taken with
    | false => exact .none
    | true => exact .release hdl
  | addRt mac slot rule hdl => exact .otherGain _ (by simp [Resource.handle])
  | delRt ip hdl taken =>
    cases taken with
    | false => exact .none
    | true => exact .otherRelease _ (by simp)

theorem nodup_hdrTable {l : List Call} (issued : Issued l) : ((hdrTable l).map Prod.fst).Nodup :=
  nodup_headersOf (issued.fresh.narrow (fun _ _ => Wlan.Handle.header.inj) hdrEntry_narrow)

/-! ### The view -/

def EthClient.header (c : EthClient) (ip : IpaIpType) : Option UInt32 :=
  if c.headerSet ip = true then some (c.hdrHdl ip) else none

/-- What the headers show of the interface. -/
def IpacmLan.hdrView (s : IpacmLan) : HdrView where
  num := s.numEthClient
  count := s.headerNameCount
  handle i ip := (s.ethClient i).header ip
  table := hdrTable s.ledger

/-- The interface as a registry of header names. -/
def registry (cfg : Iface) (d : Driver) : Registry IpacmLan Event IpaIpType UInt32 String where
  step := step cfg d
  view := IpacmLan.hdrView
  leaver s e :=
    match e with
    | .clientDel mac => s.getEthClientIndex mac
    | _ => none

theorem hdrView_change {s : IpacmLan} {i : Nat} {f : EthClient → EthClient}
    {header : IpaIpType → Option UInt32} (changed : (f (s.ethClient i)).header = header) :
    (s.update i f).hdrView = { s.hdrView with handle := update s.hdrView.handle i header } := by
  have handles := comp_update EthClient.header s.ethClient i (f (s.ethClient i))
  rw [changed] at handles
  exact congrArg (fun handle => { s.hdrView with handle := handle }) handles

theorem hdrView_update {s : IpacmLan} {i : Nat} {f : EthClient → EthClient}
    (same : ∀ c, (f c).header = c.header) : (s.update i f).hdrView = s.hdrView := by
  rw [hdrView_change (same _)]
  exact congrArg (fun handle => { s.hdrView with handle := handle }) (update_eq_self i s.hdrView.handle)

/-! ### Calls for rules -/

theorem hdrView_addRules (cfg : Iface) (d : Driver) (i : Nat) (slots : List RtSlot) (s : IpacmLan) :
    (addRules cfg d i slots s).2.hdrView = s.hdrView := by
  induction slots generalizing s with
  | nil => rfl
  | cons slot slots ih =>
    rw [addRules, addRoutingRule]
    cases d.outcome s.attempts with
    | ok => exact (ih _).trans (hdrView_update fun _ => rfl)
    | refused => rfl
    | noMemory => rfl

theorem hdrView_deleteRoutingHdl (hdl : UInt32) (ip : IpaIpType) (s : IpacmLan) :
    (deleteRoutingHdl d hdl ip s).2.hdrView = s.hdrView := by
  unfold deleteRoutingHdl
  split
  · rfl
  · split <;> rfl

theorem hdrView_deleteRules (i : Nat) (ip : IpaIpType) (slots : List RtSlot) (s : IpacmLan) :
    (deleteRules d i ip slots s).2.hdrView = s.hdrView := by
  induction slots generalizing s with
  | nil => rfl
  | cons slot slots ih =>
    have first := hdrView_deleteRoutingHdl (d := d) ((s.ethClient i).ethRtHdl slot) ip s
    rw [deleteRules]
    rcases answer : deleteRoutingHdl d ((s.ethClient i).ethRtHdl slot) ip s with ⟨_ | _, s'⟩ <;>
      rw [answer] at first
    · exact first
    · exact (ih s').trans first

theorem hdrView_deleteEthRtrules (cfg : Iface) (d : Driver) (i : Nat) (ip : IpaIpType) (s : IpacmLan) :
    (deleteEthRtrules cfg d i ip s).2.hdrView = s.hdrView := by
  have rules := hdrView_deleteRules (d := d) i ip ((s.ethClient i).covered cfg ip) s
  rw [deleteEthRtrules]
  rcases answer : deleteRules d i ip ((s.ethClient i).covered cfg ip) s with ⟨_ | _, s'⟩ <;>
    rw [answer] at rules
  · exact rules
  · exact (hdrView_update fun c => by cases ip <;> rfl).trans rules

theorem hdrView_ipaddr (mac : MacAddr) (addr : IpAddr) (s : IpacmLan) :
    (handleEthClientIpaddr cfg d mac addr s).2.hdrView = s.hdrView := by
  rw [handleEthClientIpaddr]
  cases s.getEthClientIndex mac with
  | none => rfl
  | some i =>
    cases addr with
    | v4 a =>
      dsimp only
      split_ifs
      · exact hdrView_update fun _ => rfl
      · rfl
      · refine (hdrView_update ?_).trans (hdrView_deleteEthRtrules cfg d i .v4 s)
        exact fun _ => rfl
      · rfl
    | v6 a =>
      dsimp only
      split_ifs
      · rfl
      · exact hdrView_update fun _ => rfl
      · rfl
      · rfl

theorem hdrView_routeRule (mac : MacAddr) (ip : IpaIpType) (s : IpacmLan) :
    (handleEthClientRouteRule cfg d mac ip s).hdrView = s.hdrView := by
  rw [handleEthClientRouteRule]
  split_ifs
  · rfl
  cases s.getEthClientIndex mac with
  | none => rfl
  | some i =>
    have added := hdrView_addRules cfg d i ((s.ethClient i).missing cfg ip) s
    dsimp only
    split_ifs
    · rcases answer : addRules cfg d i ((s.ethClient i).missing cfg ip) s with ⟨_ | _, s'⟩ <;>
        rw [answer] at added
      · exact added
      · exact (hdrView_update fun c => by cases ip <;> rfl).trans added
    · rfl

/-! ### Calls for headers -/

/-- The names that the handler builds. -/
def clientHdrName (cfg : Iface) : IpaIpType → Nat → String := hdrName cfg.ipaIfNum ethHdrName

theorem header_setHeader (c : EthClient) (ip : IpaIpType) (hdl : UInt32) :
    (c.setHeader ip hdl).header = update c.header ip (some hdl) := by
  funext ip'
  cases ip <;> cases ip' <;> rfl

theorem header_clearHeader (c : EthClient) (ip : IpaIpType) :
    (c.clearHeader ip).header = update c.header ip none := by
  funext ip'
  cases ip <;> cases ip' <;> rfl

theorem addEthHeader_view (cfg : Iface) (d : Driver) (i : Nat) (mac : MacAddr) (ip : IpaIpType) (s : IpacmLan)
    (keys : ((hdrTable (addEthHeader cfg d i mac ip s).2.ledger).map Prod.fst).Nodup) :
    HeaderGiven cfg.txProp (clientHdrName cfg) i ip s.hdrView
      (addEthHeader cfg d i mac ip s).1 (addEthHeader cfg d i mac ip s).2.hdrView := by
  rw [addEthHeader] at keys ⊢
  cases first : cfg.txProp.find? (·.ip = ip) with
  | none => exact .absent (by simpa using first)
  | some tx =>
    have present : ∃ tx ∈ cfg.txProp, tx.ip = ip :=
      ⟨tx, List.mem_of_find?_eq_some first, by simpa using List.find?_some first⟩
    rw [first] at keys
    dsimp only at keys ⊢
    cases copied : d.copyHeader tx.hdrName with
    | none => exact .fails
    | some hdr =>
      rw [copied] at keys
      dsimp only [addHeader] at keys ⊢
      cases answer : d.outcome s.attempts with
      | refused => exact .fails
      | noMemory => exact .fails
      | ok =>
        rw [answer] at keys
        have fresh := (List.nodup_cons.mp keys).1
        have given : HeaderGiven cfg.txProp (clientHdrName cfg) i ip s.hdrView true _ :=
          .added (d.hdrHandle s.ledger) present fresh
        rw [hdrView_change (header_setHeader _ ip _)]
        exact given

theorem addEthHeader_table (cfg : Iface) (d : Driver) (i : Nat) (mac : MacAddr) (ip : IpaIpType) (s : IpacmLan) :
    (hdrTable s.ledger).Sublist (hdrTable (addEthHeader cfg d i mac ip s).2.ledger) := by
  rw [addEthHeader]
  cases cfg.txProp.find? (·.ip = ip) with
  | none => exact .refl _
  | some tx =>
    dsimp only
    cases d.copyHeader tx.hdrName with
    | none => exact .refl _
    | some hdr =>
      dsimp only [addHeader]
      cases d.outcome s.attempts with
      | ok => exact List.sublist_cons_self _ _
      | refused => exact .refl _
      | noMemory => exact .refl _

theorem deleteEthHeader_view (i : Nat) (ip : IpaIpType) (s : IpacmLan) :
    HeaderTaken i ip s.hdrView (deleteEthHeader d i ip s).1 (deleteEthHeader d i ip s).2.hdrView := by
  rw [deleteEthHeader]
  by_cases set : (s.ethClient i).headerSet ip = true
  · have held : s.hdrView.handle i ip = some ((s.ethClient i).hdrHdl ip) := if_pos set
    have fails : HeaderTaken i ip s.hdrView false s.hdrView := .fails (by rw [held]; rfl)
    rw [if_pos set, deleteHeaderHdl]
    by_cases zero : (s.ethClient i).hdrHdl ip = 0
    · rw [if_pos zero]
      exact fails
    · rw [if_neg zero]
      cases answer : d.outcome s.attempts with
      | ok =>
        change HeaderTaken i ip s.hdrView true
          (IpacmLan.update (s.record _) i (EthClient.clearHeader ip)).hdrView
        rw [hdrView_change (header_clearHeader _ ip)]
        exact .deleted _ held
      | refused => exact fails
      | noMemory => exact fails
  · rw [if_neg set]
    exact .unset (if_neg set)

/-! ### Joining and leaving -/

theorem newNeighbour_view (mac : MacAddr) (s : IpacmLan)
    (keys : ((hdrTable (handleEthHdrInit cfg d mac s).ledger).map Prod.fst).Nodup) :
    (handleEthHdrInit cfg d mac s).hdrView = s.hdrView ∨
      (cfg.txProp ≠ [] ∧ ClientJoins cfg.txProp (clientHdrName cfg) s.hdrView
        (handleEthHdrInit cfg d mac s).hdrView) := by
  rw [handleEthHdrInit] at keys ⊢
  cases found : s.getEthClientIndex mac with
  | some i => exact .inl rfl
  | none =>
    rw [found] at keys
    dsimp only at keys ⊢
    have named : (s.update s.numEthClient fun c => { c with mac := mac }).hdrView = s.hdrView :=
      hdrView_update fun _ => rfl
    split_ifs at keys ⊢ with full props
    · exact .inl rfl
    · exact .inl named
    · refine .inr ⟨props, ?_⟩
      generalize s.update s.numEthClient _ = s₀ at keys named ⊢
      have v4 := addEthHeader_view cfg d s.numEthClient mac .v4 s₀
      rw [named] at v4
      rcases first : addEthHeader cfg d s.numEthClient mac .v4 s₀ with ⟨_ | _, s₁⟩ <;> rw [first] at v4 keys
      · exact .refused₁ (v4 keys)
      · have v6 := addEthHeader_view cfg d s.numEthClient mac .v6 s₁
        have table := addEthHeader_table cfg d s.numEthClient mac .v6 s₁
        dsimp only at keys ⊢
        rcases second : addEthHeader cfg d s.numEthClient mac .v6 s₁ with ⟨_ | _, s₂⟩ <;>
          rw [second] at v6 keys table
        · exact .refused₂ (v4 (keys.sublist (table.map _))) (v6 keys)
        · have joined : ClientJoins cfg.txProp (clientHdrName cfg) s.hdrView { s₂.hdrView with
              num := s₂.hdrView.num + 1, count := s₂.hdrView.count + 1 } :=
            .joined (v4 (keys.sublist (table.map _))) (v6 keys)
          have started : (s₂.update s.numEthClient EthClient.init).hdrView = s₂.hdrView :=
            hdrView_update fun _ => rfl
          rw [← started] at joined
          exact joined

theorem header_copyClient (dst src : EthClient) : (copyClient cfg dst src).header = src.header := rfl

theorem clientDel_view (mac : MacAddr) (s : IpacmLan) (unset : Unset cfg.txProp s.hdrView) :
    (handleEthClientDownEvt cfg d mac s).hdrView = s.hdrView ∨
      ∃ i, s.getEthClientIndex mac = some i ∧ ClientLeaves cfg.txProp i s.hdrView
        (handleEthClientDownEvt cfg d mac s).hdrView := by
  rw [handleEthClientDownEvt]
  cases found : s.getEthClientIndex mac with
  | none => exact .inl rfl
  | some i =>
    have rules₄ := hdrView_deleteEthRtrules cfg d i .v4 s
    dsimp only
    rcases first : deleteEthRtrules cfg d i .v4 s with ⟨_ | _, s₁⟩ <;> rw [first] at rules₄
    · exact .inl rules₄
    have rules₆ := hdrView_deleteEthRtrules cfg d i .v6 s₁
    rw [show s₁.hdrView = s.hdrView from rules₄] at rules₆
    dsimp only
    rcases second : deleteEthRtrules cfg d i .v6 s₁ with ⟨_ | _, s₂⟩ <;> rw [second] at rules₆
    · exact .inl rules₆
    refine .inr ⟨i, rfl, ?_⟩
    have v4 := deleteEthHeader_view (d := d) i .v4 s₂
    rw [show s₂.hdrView = s.hdrView from rules₆] at v4
    dsimp only
    rcases third : deleteEthHeader d i .v4 s₂ with ⟨_ | _, s₃⟩ <;> rw [third] at v4
    · exact .refused₁ v4
    have v6 := deleteEthHeader_view (d := d) i .v6 s₃
    dsimp only
    rcases fourth : deleteEthHeader d i .v6 s₃ with ⟨_ | _, s₄⟩ <;> rw [fourth] at v6
    · exact .refused₂ v4 v6
    have num : s₄.numEthClient = s.numEthClient := v6.num.trans v4.num
    have after := v6.unset_kept (v4.unset_kept unset)
    obtain ⟨moved, left_set⟩ := header_moved (moveUp_apply i s₄.numEthClient (s₄.update i EthClient.reset).ethClient)
      (fun _ _ => rfl) header_copyClient
    refine .left v4 v6 _ (fun j below => moved j (num ▸ below)) fun j ip set => ?_
    obtain ⟨k, set⟩ := left_set j ip set
    exact after k ip set

/-! ### Events -/

theorem step_effect {s : IpacmLan} {e : Event} (issued : Issued s.ledger)
    (issued' : Issued (step cfg d s e).ledger) (unset : Unset cfg.txProp s.hdrView) :
    Effect (clientHdrName cfg) (lastFamily cfg.txProp) ((registry cfg d).leaver s e) s.hdrView
      (step cfg d s e).hdrView ∧ Unset cfg.txProp (step cfg d s e).hdrView := by
  have keys := nodup_hdrTable issued
  cases e with
  | newNeighbour mac =>
    rcases newNeighbour_view mac s (nodup_hdrTable issued') with same | ⟨props, joins⟩
    · exact idle_effect same keys unset
    · exact joins.effect props unset keys
  | ipAddr mac addr => exact idle_effect (hdrView_ipaddr mac addr s) keys unset
  | routeRule mac ip => exact idle_effect (hdrView_routeRule mac ip s) keys unset
  | clientDel mac =>
    rcases clientDel_view (d := d) mac s unset with same | ⟨i, found, leaves⟩
    · exact idle_effect same keys unset
    · exact leaves.effect found (index_some found).1 unset keys

theorem clientHdrName_eq_iff (cfg : Iface) (ip ip' : IpaIpType) (n n' : Nat) :
    clientHdrName cfg ip n = clientHdrName cfg ip' n' ↔ ip = ip' ∧ digit n = digit n' :=
  hdrName_eq_iff (by decide) (by decide) cfg.ipaIfNum ip ip' n n'

/-- Along a run the clients' headers have names of their own exactly when no client joins at a
count whose first digit is that of a client in the table. -/
theorem lan_names_distinct (cfg : Iface) (d : Driver) {es : List Event}
    (issued : ∀ pre, pre <+: es → Issued ((registry cfg d).after {} pre).1.ledger) :
    (∀ pre, pre <+: es → ((registry cfg d).after {} pre).1.hdrView.NamesDistinct) ↔
      ∀ pre e, pre ++ [e] <+: es → (registry cfg d).JoinsApart digit ((registry cfg d).after {} pre) e := by
  have start : Unset cfg.txProp (IpacmLan.hdrView {}) := by
    intro i ip set
    cases set
  refine names_distinct_iff_of_invariant (registry cfg d) (clientHdrName_eq_iff cfg) (.empty (lastFamily cfg.txProp) rfl rfl)
    (fun s => Unset cfg.txProp s.hdrView ∧ Issued s.ledger) (fun s => Issued s.ledger)
    ⟨start, issued [] List.nil_prefix⟩ ?_ issued
  rintro s e ⟨unset, fresh⟩ next
  obtain ⟨effect, unset'⟩ := step_effect fresh next unset
  exact ⟨effect, unset', next⟩

/-! ### Both interfaces -/

/-- On both interfaces the clients' headers have names of their own in every state of a run, exactly
when no client joins at a count whose first digit is that of a client in the table. -/
theorem header_names_distinct {wlan : Wlan.Iface} {dw : Wlan.Driver} {ws : List Wlan.Event}
    {lan : Iface} {dl : Driver} {es : List Event}
    (issuedWlan : ∀ pre, pre <+: ws → Wlan.Issued ((Wlan.registry wlan dw).after {} pre).1.ledger)
    (issuedLan : ∀ pre, pre <+: es → Issued ((registry lan dl).after {} pre).1.ledger) :
    ((∀ pre, pre <+: ws → ((Wlan.registry wlan dw).after {} pre).1.hdrView.NamesDistinct) ↔
      ∀ pre e, pre ++ [e] <+: ws →
        (Wlan.registry wlan dw).JoinsApart digit ((Wlan.registry wlan dw).after {} pre) e) ∧
    ((∀ pre, pre <+: es → ((registry lan dl).after {} pre).1.hdrView.NamesDistinct) ↔
      ∀ pre e, pre ++ [e] <+: es → (registry lan dl).JoinsApart digit ((registry lan dl).after {} pre) e) :=
  ⟨Wlan.wlan_names_distinct wlan dw issuedWlan, lan_names_distinct lan dl issuedLan⟩

/-! ### Runs -/

/-- Clients join until the counter shows its first digit again. -/
def crowd : List Event := (List.range 11).map fun k => .newNeighbour (sampleMac (k + 1))

def crowdWlan : List Wlan.Event := (List.range 11).map fun k => Wlan.sampleAdd (k + 1)

theorem issued_crowds :
    (∀ pre, pre <+: crowdWlan →
      Wlan.Issued ((Wlan.registry Wlan.sampleIface Wlan.willing).after {} pre).1.ledger) ∧
    ∀ pre, pre <+: crowd → Issued ((registry sampleIface willing).after {} pre).1.ledger := by
  have wlan : ∀ pre ∈ crowdWlan.inits,
      Wlan.Issued ((Wlan.registry Wlan.sampleIface Wlan.willing).after {} pre).1.ledger := by
    decide
  have lan : ∀ pre ∈ crowd.inits, Issued ((registry sampleIface willing).after {} pre).1.ledger := by
    decide
  exact ⟨fun pre before => wlan pre ((List.mem_inits pre crowdWlan).mpr before),
    fun pre before => lan pre ((List.mem_inits pre crowd).mpr before)⟩

/-- The counts 1 and 10 give two clients one name. -/
theorem tenth_name_again :
    ¬ (∀ (cfg : Wlan.Iface) (d : Wlan.Driver) (es : List Wlan.Event),
      (∀ pre, pre <+: es → Wlan.Issued ((Wlan.registry cfg d).after {} pre).1.ledger) →
      ∀ pre, pre <+: es → ((Wlan.registry cfg d).after {} pre).1.hdrView.NamesDistinct) ∧
    ¬ ∀ (cfg : Iface) (d : Driver) (es : List Event),
      (∀ pre, pre <+: es → Issued ((registry cfg d).after {} pre).1.ledger) →
      ∀ pre, pre <+: es → ((registry cfg d).after {} pre).1.hdrView.NamesDistinct := by
  constructor
  · intro always
    have distinct := always Wlan.sampleIface Wlan.willing crowdWlan issued_crowds.1 crowdWlan List.prefix_rfl
    have same := (distinct 1 (by decide) 10 (by decide) .v4 .v4 "0IEEE802_3_v41" (by decide) (by decide)).1
    contradiction
  · intro always
    have distinct := always sampleIface willing crowd issued_crowds.2 crowd List.prefix_rfl
    have same := (distinct 1 (by decide) 10 (by decide) .v4 .v4 "3IPACM_ETH_v41" (by decide) (by decide)).1
    contradiction

/-- The first ten clients of an interface have names of their own. -/
theorem first_names_distinct :
    ((Wlan.registry Wlan.sampleIface Wlan.willing).after {} (crowdWlan.take 10)).1.hdrView.NamesDistinct ∧
    ((registry sampleIface willing).after {} (crowd.take 10)).1.hdrView.NamesDistinct := by
  have issuedWlan := fun pre (before : pre <+: crowdWlan.take 10) =>
    issued_crowds.1 pre (before.trans (List.take_prefix _ _))
  have issuedLan := fun pre (before : pre <+: crowd.take 10) =>
    issued_crowds.2 pre (before.trans (List.take_prefix _ _))
  obtain ⟨wlan, lan⟩ := header_names_distinct issuedWlan issuedLan
  constructor
  · refine wlan.mpr ?_ _ List.prefix_rfl
    rw [Prefixes.forall_prefix_iff]
    unfold Registry.JoinsApart
    decide
  · refine lan.mpr ?_ _ List.prefix_rfl
    rw [Prefixes.forall_prefix_iff]
    unfold Registry.JoinsApart
    decide

end Hima.Lan
