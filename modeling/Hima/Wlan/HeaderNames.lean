import Hima.Wlan.HeaderView
import Hima.Wlan.HandleRun

/-!
# Header names of Wi-Fi clients

`IPACM_Wlan` as a registry of header names: its events join, leave or do nothing to the headers,
whatever the driver answers.
-/
namespace Hima.Wlan

open Function IpaWlanClient
open Wan (IpaIpType)
open Members Handles

variable {cfg : Iface} {d : Driver}

/-! ### The driver's headers -/

/-- What a call does to the headers. -/
def Call.hdrEntry : Call → Option (Entry (UInt32 × String) UInt32)
  | .addHdr hdr hdl => some (.gain (hdl, hdr.name))
  | .delHdr hdl true => some (.release hdl)
  | .delHdr _ false => none
  | .addRt _ _ _ _ => none
  | .delRt _ _ _ => none

/-- The headers that the driver has, with their names. -/
def hdrTable (ledger : List Call) : List (UInt32 × String) := headersOf (ledger.filterMap Call.hdrEntry)

theorem hdrEntry_narrow (call : Call) :
    Narrow Resource.handle Prod.fst Handle.header call.entry call.hdrEntry := by
  cases call with
  | addHdr hdr hdl => exact .gain _ _ rfl
  | delHdr hdl taken =>
    cases taken with
    | false => exact .none
    | true => exact .release hdl
  | addRt mac slot rule hdl => exact .otherGain _ (by simp [Resource.handle])
  | delRt ip hdl taken =>
    cases taken with
    | false => exact .none
    | true => exact .otherRelease _ (by simp)

theorem nodup_hdrTable {l : List Call} (issued : Issued l) : ((hdrTable l).map Prod.fst).Nodup :=
  nodup_headersOf (issued.fresh.narrow (fun _ _ => Handle.header.inj) hdrEntry_narrow)

/-! ### The view -/

def IpaWlanClient.header (c : IpaWlanClient) (ip : IpaIpType) : Option UInt32 :=
  if c.headerSet ip = true then some (c.hdrHdl ip) else none

/-- What the headers show of the interface. -/
def IpacmWlan.hdrView (s : IpacmWlan) : HdrView where
  num := s.numWifiClient
  count := s.headerNameCount
  handle i ip := (s.wlanClient i).header ip
  table := hdrTable s.ledger

/-- The interface as a registry of header names. -/
def registry (cfg : Iface) (d : Driver) : Registry IpacmWlan Event IpaIpType UInt32 String where
  step := step cfg d
  view := IpacmWlan.hdrView
  leaver s e :=
    match e with
    | .clientDel mac => s.getWlanClientIndex mac
    | _ => none

/-- The view once a record has other headers. -/
theorem hdrView_change {s : IpacmWlan} {i : Nat} {f : IpaWlanClient → IpaWlanClient}
    {header : IpaIpType → Option UInt32} (changed : (f (s.wlanClient i)).header = header) :
    (s.update i f).hdrView = { s.hdrView with handle := update s.hdrView.handle i header } := by
  have handles := comp_update IpaWlanClient.header s.wlanClient i (f (s.wlanClient i))
  rw [changed] at handles
  exact congrArg (fun handle => { s.hdrView with handle := handle }) handles

theorem hdrView_update {s : IpacmWlan} {i : Nat} {f : IpaWlanClient → IpaWlanClient}
    (same : ∀ c ip, (f c).header ip = c.header ip) : (s.update i f).hdrView = s.hdrView := by
  rw [hdrView_change (funext (same _))]
  exact congrArg (fun handle => { s.hdrView with handle := handle }) (update_eq_self i s.hdrView.handle)

/-! ### Calls for rules -/

theorem hdrView_addRoutingRule (s : IpacmWlan) (mac : MacAddr) (slot : RtSlot) (rule : RtRule) :
    (addRoutingRule d s mac slot rule).2.hdrView = s.hdrView := by
  unfold addRoutingRule
  split <;> rfl

theorem hdrView_deleteRoutingHdl (s : IpacmWlan) (hdl : UInt32) (ip : IpaIpType) :
    (deleteRoutingHdl d s hdl ip).2.hdrView = s.hdrView := by
  unfold deleteRoutingHdl
  split
  · rfl
  · split <;> rfl

theorem hdrView_addRules (cfg : Iface) (d : Driver) (i : Nat) (slots : List RtSlot) (s : IpacmWlan) :
    (addRules cfg d i slots s).2.hdrView = s.hdrView := by
  induction slots generalizing s with
  | nil => rfl
  | cons slot slots ih =>
    have first := hdrView_addRoutingRule (d := d) s (s.wlanClient i).mac slot ((s.wlanClient i).ruleOf cfg slot)
    rw [addRules]
    rcases answer : addRoutingRule d s (s.wlanClient i).mac slot ((s.wlanClient i).ruleOf cfg slot) with
      ⟨_ | hdl, s'⟩ <;> rw [answer] at first
    · exact first
    · refine ((ih _).trans (hdrView_update fun c ip => ?_)).trans first
      cases ip <;> rfl

theorem hdrView_deleteDefaultQosRtrules (cfg : Iface) (d : Driver) (i : Nat) (ip : IpaIpType) (s : IpacmWlan) :
    (deleteDefaultQosRtrules cfg d i ip s).2.hdrView = s.hdrView := by
  refine deleteDefaultQosRtrules_keeps (P := fun t => t.hdrView = s.hdrView)
    (fun t hdl same => (hdrView_deleteRoutingHdl t hdl ip).trans same)
    (fun t same => (hdrView_update fun c ip' => ?_).trans same) rfl
  cases ip <;> cases ip' <;> rfl

theorem hdrView_ipaddr (mac : MacAddr) (addr : IpAddr) (s : IpacmWlan) :
    (handleWlanClientIpaddr cfg d mac addr s).2.hdrView = s.hdrView := by
  rw [handleWlanClientIpaddr]
  cases s.getWlanClientIndex mac with
  | none => rfl
  | some i =>
    cases addr with
    | v4 a =>
      simp only
      split_ifs <;> dsimp only
      · exact hdrView_update fun c ip => by cases ip <;> rfl
      · exact (hdrView_update fun c ip => by cases ip <;> rfl).trans
          (hdrView_deleteDefaultQosRtrules cfg d i .v4 s)
    | v6 a =>
      simp only
      split_ifs <;> dsimp only
      exact hdrView_update fun c ip => by cases ip <;> rfl

theorem hdrView_routeRule (mac : MacAddr) (ip : IpaIpType) (s : IpacmWlan) :
    (handleWlanClientRouteRule cfg d mac ip s).hdrView = s.hdrView := by
  rw [handleWlanClientRouteRule]
  split_ifs
  · rfl
  cases s.getWlanClientIndex mac with
  | none => rfl
  | some i =>
    have added := hdrView_addRules cfg d i ((s.wlanClient i).missing cfg ip) s
    dsimp only
    split_ifs
    · rfl
    · rcases answer : addRules cfg d i ((s.wlanClient i).missing cfg ip) s with ⟨_ | _, s'⟩ <;>
        rw [answer] at added
      · exact added
      · refine (hdrView_update fun c ip' => ?_).trans added
        cases ip <;> cases ip' <;> rfl
    · rfl

theorem hdrView_pwrsave (mac : MacAddr) (s : IpacmWlan) :
    (handleWlanClientPwrsave cfg d mac s).hdrView = s.hdrView := by
  rw [handleWlanClientPwrsave]
  cases s.getWlanClientIndex mac with
  | none => rfl
  | some i =>
    dsimp only
    split_ifs
    · refine (hdrView_update fun c ip => by cases ip <;> rfl).trans ?_
      exact (hdrView_deleteDefaultQosRtrules cfg d i .v6 _).trans (hdrView_deleteDefaultQosRtrules cfg d i .v4 s)
    · rfl

theorem hdrView_recover (mac : MacAddr) (s : IpacmWlan) :
    (handleClientRecover cfg d mac s).hdrView = s.hdrView := by
  rw [handleClientRecover]
  cases s.getWlanClientIndex mac with
  | none => rfl
  | some i =>
    have awake : (s.update i fun c => { c with powerSaveSet := false }).hdrView = s.hdrView :=
      hdrView_update fun c ip => by cases ip <;> rfl
    dsimp only
    split_ifs
    · exact (hdrView_routeRule mac .v6 _).trans ((hdrView_routeRule mac .v4 _).trans awake)
    · exact (hdrView_routeRule mac .v4 _).trans awake
    · exact (hdrView_routeRule mac .v6 _).trans awake
    · exact awake
    · rfl

/-! ### Calls for headers -/

/-- The names that the handlers build. -/
def clientHdrName (cfg : Iface) : IpaIpType → Nat → String := hdrName cfg.ipaIfNum partialHdrName

theorem header_setHeader (c : IpaWlanClient) (ip : IpaIpType) (hdl : UInt32) :
    (c.setHeader ip hdl).header = update c.header ip (some hdl) := by
  funext ip'
  cases ip <;> cases ip' <;> rfl

theorem header_clearHeader (c : IpaWlanClient) (ip : IpaIpType) :
    (c.clearHeader ip).header = update c.header ip none := by
  funext ip'
  cases ip <;> cases ip' <;> rfl

/-- A header that is added stands in the driver's table under its name. -/
theorem addClientHeader_view (cfg : Iface) (d : Driver) (i : Nat) (attribs : List HdrAttrib) (ip : IpaIpType) (s : IpacmWlan)
    (keys : ((hdrTable (addClientHeader cfg d i attribs ip s).2.ledger).map Prod.fst).Nodup) :
    HeaderGiven cfg.txProp (clientHdrName cfg) i ip s.hdrView
      (addClientHeader cfg d i attribs ip s).1 (addClientHeader cfg d i attribs ip s).2.hdrView := by
  rw [addClientHeader] at keys ⊢
  cases first : cfg.txProp.find? (·.ip = ip) with
  | none => exact .absent (by simpa using first)
  | some tx =>
    have present : ∃ tx ∈ cfg.txProp, tx.ip = ip :=
      ⟨tx, List.mem_of_find?_eq_some first, by simpa using List.find?_some first⟩
    rw [first] at keys
    dsimp only at keys ⊢
    cases copied : d.copyHeader tx.hdrName with
    | none => exact .fails
    | some hdr =>
      -- the address is written before the driver is asked
      have addressed : (s.update i fun c => { c with
          mac := attribs.foldl HdrAttrib.takeMac c.mac }).hdrView = s.hdrView :=
        hdrView_update fun c ip => by cases ip <;> rfl
      rw [copied] at keys
      dsimp only at keys ⊢
      generalize s.update i _ = t at keys addressed ⊢
      rw [← addressed]
      cases answer : d.outcome t.attempts with
      | refused =>
        rw [addHeader_fails (by simp [answer])]
        exact .fails
      | noMemory =>
        rw [addHeader_fails (by simp [answer])]
        exact .fails
      | ok =>
        rw [addHeader_ok answer] at keys ⊢
        have fresh := (List.nodup_cons.mp keys).1
        have given : HeaderGiven cfg.txProp (clientHdrName cfg) i ip t.hdrView true _ :=
          .added (d.hdrHandle t.ledger) present fresh
        rw [hdrView_change (header_setHeader _ ip _)]
        exact given

/-- A header that is deleted is gone from the driver's table. -/
theorem deleteClientHeader_view (i : Nat) (ip : IpaIpType) (s : IpacmWlan) :
    HeaderTaken i ip s.hdrView (deleteClientHeader d i ip s).1 (deleteClientHeader d i ip s).2.hdrView := by
  rw [deleteClientHeader_eq]
  by_cases set : (s.wlanClient i).headerSet ip = true
  · have held : s.hdrView.handle i ip = some ((s.wlanClient i).hdrHdl ip) := if_pos set
    have fails : HeaderTaken i ip s.hdrView false s.hdrView := .fails (by rw [held]; rfl)
    rw [if_pos set, deleteHeaderHdl]
    by_cases zero : (s.wlanClient i).hdrHdl ip = 0
    · rw [if_pos zero]
      exact fails
    · rw [if_neg zero]
      cases answer : d.outcome s.attempts with
      | ok =>
        rw [hdrView_change (header_clearHeader _ ip)]
        exact .deleted _ held
      | refused => exact fails
      | noMemory => exact fails
  · rw [if_neg set]
    exact .unset (if_neg set)

/-! ### Joining and leaving -/

/-- The headers that were there stay. -/
theorem addClientHeader_table (cfg : Iface) (d : Driver) (i : Nat) (attribs : List HdrAttrib) (ip : IpaIpType) (s : IpacmWlan) :
    (hdrTable s.ledger).Sublist (hdrTable (addClientHeader cfg d i attribs ip s).2.ledger) := by
  have shape := addClientHeader_added cfg d i attribs ip s
  generalize (addClientHeader cfg d i attribs ip s).1 = done at shape
  generalize (addClientHeader cfg d i attribs ip s).2 = s' at shape ⊢
  cases shape with
  | absent prop => exact .refl _
  | failed prop fails ledger flag besides => rw [ledger]
  | added hdr prop copied attempts ledger set besides =>
    rw [ledger]
    exact List.sublist_cons_self _ _

theorem clientAdd_view (attribs : List HdrAttrib) (s : IpacmWlan)
    (keys : ((hdrTable (handleWlanClientInitEx cfg d attribs s).ledger).map Prod.fst).Nodup) :
    (handleWlanClientInitEx cfg d attribs s).hdrView = s.hdrView ∨
      (cfg.txProp ≠ [] ∧ ClientJoins cfg.txProp (clientHdrName cfg) s.hdrView
        (handleWlanClientInitEx cfg d attribs s).hdrView) := by
  rw [handleWlanClientInitEx] at keys ⊢
  split_ifs at keys ⊢ with full props
  · exact .inl rfl
  · exact .inl rfl
  · refine .inr ⟨props, ?_⟩
    dsimp only at keys ⊢
    have noted : (s.update s.numWifiClient fun c => { c with pHdrInfo := some attribs }).hdrView = s.hdrView :=
      hdrView_update fun c ip => by cases ip <;> rfl
    generalize s.update s.numWifiClient _ = s₀ at keys noted ⊢
    have v4 := addClientHeader_view cfg d s.numWifiClient attribs .v4 s₀
    rw [noted] at v4
    rcases first : addClientHeader cfg d s.numWifiClient attribs .v4 s₀ with ⟨_ | _, s₁⟩ <;>
      rw [first] at v4 keys
    · exact .refused₁ (v4 keys)
    · have v6 := addClientHeader_view cfg d s.numWifiClient attribs .v6 s₁
      have table := addClientHeader_table cfg d s.numWifiClient attribs .v6 s₁
      dsimp only at keys ⊢
      rcases second : addClientHeader cfg d s.numWifiClient attribs .v6 s₁ with ⟨_ | _, s₂⟩ <;>
        rw [second] at v6 keys table
      · exact .refused₂ (v4 (keys.sublist (table.map _))) (v6 keys)
      · have joined : ClientJoins cfg.txProp (clientHdrName cfg) s.hdrView { s₂.hdrView with
            num := s₂.hdrView.num + 1, count := s₂.hdrView.count + 1 } :=
          .joined (v4 (keys.sublist (table.map _))) (v6 keys)
        have started : (s₂.update s.numWifiClient initEx).hdrView = s₂.hdrView :=
          hdrView_update fun c ip => by cases ip <;> rfl
        rw [← started] at joined
        exact joined

theorem header_copyClient (dst src : IpaWlanClient) : (copyClient cfg dst src).header = src.header := by
  funext ip
  cases ip <;> rfl

theorem clientDel_view (mac : MacAddr) (s : IpacmWlan) (unset : Unset cfg.txProp s.hdrView) :
    (handleWlanClientDownEvt cfg d mac s).hdrView = s.hdrView ∨
      ∃ i, s.getWlanClientIndex mac = some i ∧ ClientLeaves cfg.txProp i s.hdrView
        (handleWlanClientDownEvt cfg d mac s).hdrView := by
  rw [handleWlanClientDownEvt]
  cases found : s.getWlanClientIndex mac with
  | none => exact .inl rfl
  | some i =>
    have rules₄ := hdrView_deleteDefaultQosRtrules cfg d i .v4 s
    dsimp only
    rcases first : deleteDefaultQosRtrules cfg d i .v4 s with ⟨_ | _, s₁⟩ <;> rw [first] at rules₄
    · exact .inl rules₄
    have rules₆ := hdrView_deleteDefaultQosRtrules cfg d i .v6 s₁
    rw [show s₁.hdrView = s.hdrView from rules₄] at rules₆
    dsimp only
    rcases second : deleteDefaultQosRtrules cfg d i .v6 s₁ with ⟨_ | _, s₂⟩ <;> rw [second] at rules₆
    · exact .inl rules₆
    refine .inr ⟨i, rfl, ?_⟩
    have v4 := deleteClientHeader_view (d := d) i .v4 s₂
    rw [show s₂.hdrView = s.hdrView from rules₆] at v4
    dsimp only
    rcases third : deleteClientHeader d i .v4 s₂ with ⟨_ | _, s₃⟩ <;> rw [third] at v4
    · exact .refused₁ v4
    have v6 := deleteClientHeader_view (d := d) i .v6 s₃
    dsimp only
    rcases fourth : deleteClientHeader d i .v6 s₃ with ⟨_ | _, s₄⟩ <;> rw [fourth] at v6
    · exact .refused₂ v4 v6
    have num : s₄.numWifiClient = s.numWifiClient := v6.num.trans v4.num
    have after := v6.unset_kept (v4.unset_kept unset)
    obtain ⟨moved, left_set⟩ := header_moved (moveUp_apply cfg i s₄.numWifiClient (s₄.update i reset).wlanClient)
      (fun c ip => by cases ip <;> rfl) header_copyClient
    refine .left v4 v6 _ (fun j below => moved j (num ▸ below)) fun j ip set => ?_
    obtain ⟨k, set⟩ := left_set j ip set
    exact after k ip set

/-! ### Events -/

/-- What an event does to the headers of the clients. -/
theorem step_effect {s : IpacmWlan} {e : Event} (issued : Issued s.ledger)
    (issued' : Issued (step cfg d s e).ledger) (unset : Unset cfg.txProp s.hdrView) :
    Effect (clientHdrName cfg) (lastFamily cfg.txProp) ((registry cfg d).leaver s e) s.hdrView
      (step cfg d s e).hdrView ∧ Unset cfg.txProp (step cfg d s e).hdrView := by
  have keys := nodup_hdrTable issued
  cases e with
  | clientAddEx attribs =>
    rcases clientAdd_view attribs s (nodup_hdrTable issued') with same | ⟨props, joins⟩
    · exact idle_effect same keys unset
    · exact joins.effect props unset keys
  | ipAddr mac addr => exact idle_effect (hdrView_ipaddr mac addr s) keys unset
  | routeRule mac ip => exact idle_effect (hdrView_routeRule mac ip s) keys unset
  | powerSave mac => exact idle_effect (hdrView_pwrsave mac s) keys unset
  | recover mac => exact idle_effect (hdrView_recover mac s) keys unset
  | clientDel mac =>
    rcases clientDel_view (d := d) mac s unset with same | ⟨i, found, leaves⟩
    · exact idle_effect same keys unset
    · exact leaves.effect found (getWlanClientIndex_some found).1 unset keys
  | otherClients n => exact idle_effect rfl keys unset

theorem clientHdrName_eq_iff (cfg : Iface) (ip ip' : IpaIpType) (n n' : Nat) :
    clientHdrName cfg ip n = clientHdrName cfg ip' n' ↔ ip = ip' ∧ digit n = digit n' :=
  hdrName_eq_iff (by decide) (by decide) cfg.ipaIfNum ip ip' n n'

/-- Along a run the clients' headers have names of their own exactly when no client joins at a
count whose first digit is that of a client in the table. -/
theorem wlan_names_distinct (cfg : Iface) (d : Driver) {es : List Event}
    (issued : ∀ pre, pre <+: es → Issued ((registry cfg d).after {} pre).1.ledger) :
    (∀ pre, pre <+: es → ((registry cfg d).after {} pre).1.hdrView.NamesDistinct) ↔
      ∀ pre e, pre ++ [e] <+: es → (registry cfg d).JoinsApart digit ((registry cfg d).after {} pre) e := by
  have start : Unset cfg.txProp (IpacmWlan.hdrView {}) := by
    intro i ip set
    cases ip <;> cases set
  refine names_distinct_iff_of_invariant (registry cfg d) (clientHdrName_eq_iff cfg) (.empty (lastFamily cfg.txProp) rfl rfl)
    (fun s => Unset cfg.txProp s.hdrView ∧ Issued s.ledger) (fun s => Issued s.ledger)
    ⟨start, issued [] List.nil_prefix⟩ ?_ issued
  rintro s e ⟨unset, fresh⟩ next
  obtain ⟨effect, unset'⟩ := step_effect fresh next unset
  exact ⟨effect, unset', next⟩

end Hima.Wlan
