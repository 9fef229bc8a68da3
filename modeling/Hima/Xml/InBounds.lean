import Hima.Xml.CfgTree
import Hima.Xml.FirewallTree

/-!
# Which trees are parsed within the arrays

What is written depends on how many entries were counted before, whatever the elements are nested
in. So a tree is parsed without a write outside an array when each element that is read, taken in
document order, finds a count that its table has room for, and has a text that fits its buffer.
-/
namespace Hima.Xml

open SiblingTree CountedTable FirewallTag IpacmConf
open CountedTable.Table (InBounds)
open Wan (maxFirewallEntries)

/-! ### The configuration file -/

/-- The tables of `IPACM_conf_t`. -/
inductive CfgTable where
  | iface
  | privateSubnet
  | alg
deriving DecidableEq

def CfgTable.size : CfgTable → Nat
  | .iface => ipaMaxIfaceEntries
  | .privateSubnet => ipaMaxPrivateSubnetEntries
  | .alg => ipaMaxAlgEntries

/-- The element that counts an entry. -/
def CfgTable.counter : CfgTable → CfgTag
  | .iface => .iface
  | .privateSubnet => .subnet
  | .alg => .alg

def IpacmConf.num (config : IpacmConf) : CfgTable → UInt8
  | .iface => config.ifaceConfig.num
  | .privateSubnet => config.privateSubnetConfig.num
  | .alg => config.algConfig.num

/-- The table that an element with this text writes to. -/
def CfgTag.table (content : Text) : CfgTag → Option CfgTable
  | .name => some .iface
  | .category => (beginningWith ifaceCategories content).map fun _ => .iface
  | .subnetAddress | .subnetMask => some .privateSubnet
  | .protocol => (beginningWith algProtocols (terminated content)).map fun _ => .alg
  | .port => some .alg
  | _ => none

/-- An element that is read fits in its buffers, and writes to an entry that there is. -/
def CfgFits (num : CfgTable → UInt8) (v : XmlLabel × XmlNode) : Prop :=
  ∀ tag ∈ cfgTagOf v.1, tag.isContainer = false → ∀ content ∈ readContentElement v.2,
    content.length ≤ maxXmlStrLen ∧ (tag = .name → content.length ≤ ipaIfaceNameLen) ∧
      ∀ t ∈ tag.table content, InBounds t.size (num t)

instance (num : CfgTable → UInt8) (v : XmlLabel × XmlNode) : Decidable (CfgFits num v) :=
  inferInstanceAs (Decidable (∀ tag ∈ cfgTagOf v.1, _))

def countCfg (num : CfgTable → UInt8) (v : XmlLabel × XmlNode) (t : CfgTable) : UInt8 :=
  if cfgTagOf v.1 = some t.counter then num t + 1 else num t

/-- How many elements count an entry, as the byte that counts them. -/
def cfgCounted (pre : List (XmlLabel × XmlNode)) (t : CfgTable) : UInt8 :=
  .ofNat (pre.countP fun v => cfgTagOf v.1 = some t.counter)

def cfgVisits : XmlNode → List (XmlLabel × XmlNode) := visits cfgDescends

/-- Each element fits after those before it in document order. -/
def CfgInBounds (xmlNode : XmlNode) : Prop :=
  ∀ pre v post, cfgVisits xmlNode = pre ++ v :: post → CfgFits (cfgCounted pre) v

theorem foldl_countCfg (pre : List (XmlLabel × XmlNode)) :
    pre.foldl countCfg (num {}) = cfgCounted pre := by
  induction pre using List.reverseRecOn with
  | nil => funext t; cases t <;> rfl
  | append_singleton pre v ih =>
    funext t
    rw [List.foldl_append, List.foldl_cons, List.foldl_nil, ih, countCfg, cfgCounted, cfgCounted,
      List.countP_append, List.countP_singleton]
    by_cases counts : cfgTagOf v.1 = some t.counter
    · simp [counts, UInt8.ofNat_add]
    · simp [counts]

theorem writeIface_num (config : IpacmConf) (f : IpaIfiDevName → IpaIfiDevName) :
    (config.writeIface f).map num =
      if InBounds CfgTable.iface.size (config.num .iface) then some config.num else none :=
  Table.map_modifyLast config.ifaceConfig f _ fun table same => by
    funext t
    cases t <;> simp [num, same]

theorem writeSubnet_num (config : IpacmConf) (f : IpaPrivateSubnet → IpaPrivateSubnet) :
    (config.writeSubnet f).map num =
      if InBounds CfgTable.privateSubnet.size (config.num .privateSubnet) then some config.num else none :=
  Table.map_modifyLast config.privateSubnetConfig f _ fun table same => by
    funext t
    cases t <;> simp [num, same]

theorem writeAlg_num (config : IpacmConf) (f : IpacmAlg → IpacmAlg) :
    (config.writeAlg f).map num =
      if InBounds CfgTable.alg.size (config.num .alg) then some config.num else none :=
  Table.map_modifyLast config.algConfig f _ fun table same => by
    funext t
    cases t <;> simp [num, same]

theorem CfgTag.read_num (libc : Libc) (content : Text) (config : IpacmConf) (tag : CfgTag) :
    (tag.read libc content config).map num = if (tag = .name → content.length ≤ ipaIfaceNameLen) ∧
          ∀ t ∈ tag.table content, InBounds t.size (config.num t) then some config.num else none := by
  cases tag with
  | name =>
    by_cases fits : content.length ≤ ipaIfaceNameLen
    · simp [CfgTag.read, CfgTag.table, fits, writeIface_num]
    · simp [CfgTag.read, fits]
  | category =>
    cases cat : beginningWith ifaceCategories content <;>
      simp [CfgTag.read, CfgTag.table, cat, writeIface_num]
  | protocol =>
    cases ipproto : beginningWith algProtocols (terminated content) <;>
      simp [CfgTag.read, CfgTag.table, ipproto, writeAlg_num]
  | oduMode =>
    cases mode : beginningWith oduModes content with
    | none => simp [CfgTag.read, CfgTag.table, mode]
    | some enable =>
      have same : num { config with routerModeEnable := enable } = config.num := by
        funext t; cases t <;> rfl
      simp [CfgTag.read, CfgTag.table, mode, same]
  | subnetAddress => simp [CfgTag.read, CfgTag.table, writeSubnet_num]
  | subnetMask => simp [CfgTag.read, CfgTag.table, writeSubnet_num]
  | port => simp [CfgTag.read, CfgTag.table, writeAlg_num]
  | natMaxEntries =>
    have same : num { config with natMaxEntries := atoi content } = config.num := by
      funext t; cases t <;> rfl
    simp [CfgTag.read, CfgTag.table, same]
  | _ => simp [CfgTag.read, CfgTag.table]

theorem CfgTag.count_num (config : IpacmConf) (tag : CfgTag) (t : CfgTable) :
    (tag.count config).num t = if tag = t.counter then config.num t + 1 else config.num t := by
  cases tag <;> cases t <;> rfl

theorem enterCfg_num (libc : Libc) (label : XmlLabel) (children : XmlNode) (l : Unit) (config : IpacmConf) :
    (enterCfg libc label children l config).map (fun r => num r.2) =
    if CfgFits config.num (label, children) then some (countCfg config.num (label, children)) else none := by
  rw [enterCfg]
  cases known : cfgTagOf label with
  | none =>
    have uncounted : countCfg config.num (label, children) = config.num := by
      funext t
      simp [countCfg, known]
    simp [CfgFits, known, uncounted]
  | some tag =>
    have counted (t : CfgTable) : countCfg config.num (label, children) t =
        if tag = t.counter then config.num t + 1 else config.num t := by
      simp [countCfg, known]
    have mapped : ((tag.enter libc (readContentElement children) config).map ((), ·)).map (fun r => num r.2) =
          (tag.enter libc (readContentElement children) config).map num := by
      rw [Option.map_map]
      rfl
    rw [mapped]
    simp only [CfgTag.enter]
    -- a container is counted and reads nothing; an element with a text counts nothing
    by_cases container : tag.isContainer = true
    · have fits : CfgFits config.num (label, children) := by
        intro tag' same reads
        obtain rfl : tag = tag' := Option.some.inj (known.symm.trans same)
        simp [container] at reads
      rw [if_pos container, if_pos fits, Option.map_some]
      refine congrArg some (funext fun t => ?_)
      rw [counted t, CfgTag.count_num]
    have uncounted : countCfg config.num (label, children) = config.num := by
      funext t
      rw [counted t, if_neg]
      rintro rfl
      exact container (by cases t <;> rfl)
    rw [if_neg container, uncounted]
    cases content : readContentElement children with
    | none =>
      have fits : CfgFits config.num (label, children) := by
        intro tag' same reads text' has
        simp [content] at has
      simp [fits]
    | some content' =>
      have iff : CfgFits config.num (label, children) ↔ content'.length ≤ maxXmlStrLen ∧
          (tag = .name → content'.length ≤ ipaIfaceNameLen) ∧
            ∀ t ∈ tag.table content', InBounds t.size (config.num t) := by
        simp [CfgFits, known, content, container]
      by_cases room : content'.length ≤ maxXmlStrLen
      · simp [iff, copyContent, room, CfgTag.read_num]
      · simp [iff, copyContent, room]

/-- The configuration file is parsed within the arrays exactly when its tree fits. -/
theorem ipacmCfgXmlParseTree_isSome (libc : Libc) (xmlNode : XmlNode) :
    (ipacmCfgXmlParseTree libc xmlNode {}).isSome ↔ CfgInBounds xmlNode := by
  have walked : (ipacmCfgXmlParseTree libc xmlNode {}).map num = (cfgVisits xmlNode).foldlM
        (fun num v => if CfgFits num v then some (countCfg num v) else none) (num {}) :=
    walk_map (enterCfg_num libc) xmlNode () _
  rw [← Option.isSome_map, walked, foldlM_isSome_iff]
  simp only [foldl_countCfg]
  rfl

/-! ### The firewall file -/

/-- The elements whose text is copied. -/
def FirewallTag.readsText (tag : FirewallTag) : Bool :=
  !tag.isContainer || tag = .firewallPktsAllowed || tag = .firewallEnabled

/-- An element writes to the last entry: a container that sets a bit, or an element with a text. -/
def FirewallTag.writesEntry (content : Option Text) (tag : FirewallTag) : Bool :=
  if tag.isContainer then tag.marks.isSome else content.isSome

/-- An element fits in `content_buf`, writes to an entry that there is, and has a text if it is the one
that is read without a check. -/
def FirewallFits (num : UInt8) (v : XmlLabel × XmlNode) : Prop :=
  ∀ tag ∈ firewallTagOf v.1,
    (tag.readsText → ∀ content ∈ readContentElement v.2, content.length ≤ maxXmlStrLen) ∧
    (tag.writesEntry (readContentElement v.2) → InBounds maxFirewallEntries num) ∧
    (tag = .ipv4DestinationSubnetMask → (readContentElement v.2).isSome)

instance (num : UInt8) (v : XmlLabel × XmlNode) : Decidable (FirewallFits num v) :=
  inferInstanceAs (Decidable (∀ tag ∈ firewallTagOf v.1, _))

def countFirewall (num : UInt8) (v : XmlLabel × XmlNode) : UInt8 :=
  if firewallTagOf v.1 = some .firewall then num + 1 else num

/-- How many `Firewall` elements there are, as the byte that counts them. -/
def firewallCounted (pre : List (XmlLabel × XmlNode)) : UInt8 :=
  .ofNat (pre.countP fun v => firewallTagOf v.1 = some .firewall)

def firewallVisits : XmlNode → List (XmlLabel × XmlNode) := visits firewallDescends

/-- Each element fits after those before it in document order. -/
def FirewallInBounds (xmlNode : XmlNode) : Prop :=
  ∀ pre v post, firewallVisits xmlNode = pre ++ v :: post → FirewallFits (firewallCounted pre) v

theorem foldl_countFirewall (pre : List (XmlLabel × XmlNode)) :
    pre.foldl countFirewall 0 = firewallCounted pre := by
  induction pre using List.reverseRecOn with
  | nil => rfl
  | append_singleton pre v ih =>
    rw [List.foldl_append, List.foldl_cons, List.foldl_nil, ih, countFirewall, firewallCounted,
      firewallCounted, List.countP_append, List.countP_singleton]
    by_cases counts : firewallTagOf v.1 = some .firewall
    · simp [counts, UInt8.ofNat_add]
    · simp [counts]

def IpacmFirewallConf.num (config : IpacmFirewallConf) : UInt8 := config.extdFirewallEntries.num

theorem assign_num (u : UnionLayout) (config : IpacmFirewallConf) (xs : List Assign) :
    (config.assign u xs).map IpacmFirewallConf.num =
      if InBounds maxFirewallEntries config.num then some config.num else none :=
  Table.map_modifyLast config.extdFirewallEntries _ _ fun _ same => same

theorem FirewallTag.configure_num (content : Option Text) (config : IpacmFirewallConf) (tag : FirewallTag)
    (container : tag.isContainer = true) :
    (tag.configure content config).map IpacmFirewallConf.num =
      if tag.readsText → ∀ content' ∈ content, content'.length ≤ maxXmlStrLen then
        some (if tag = .firewall then config.num + 1 else config.num) else none := by
  have flag (content : Text) (f : Text → IpacmFirewallConf) (same : ∀ buf, (f buf).num = config.num) :
      ((copyContent content).map f).map IpacmFirewallConf.num =
        if content.length ≤ maxXmlStrLen then some config.num else none := by
    by_cases room : content.length ≤ maxXmlStrLen
    · simp [copyContent, room, same]
    · simp [copyContent, room]
  cases tag with
  | firewall =>
    simp [configure, readsText, isContainer, IpacmFirewallConf.num]
  | firewallPktsAllowed =>
    cases content with
    | none => simp [configure]
    | some content =>
      have flagged := flag content (fun buf => { config with ruleActionAccept := atoi buf = 1 }) fun _ => rfl
      simpa [configure, readsText] using flagged
  | firewallEnabled =>
    cases content with
    | none => simp [configure]
    | some content =>
      have flagged := flag content (fun buf => { config with firewallEnable := atoi buf = 1 }) fun _ => rfl
      simpa [configure, readsText] using flagged
  | _ =>
    cases container <;> simp [configure, readsText, isContainer]

theorem enterFirewall_num (libc : Libc) (u : UnionLayout) (label : XmlLabel) (children : XmlNode)
    (ip6Addr : Vector UInt32 4) (config : IpacmFirewallConf) :
    (enterFirewall libc u label children ip6Addr config).map (fun r => IpacmFirewallConf.num r.2) =
    if FirewallFits config.num (label, children) then some (countFirewall config.num (label, children))
    else none := by
  rw [enterFirewall]
  cases known : firewallTagOf label with
  | none => simp [FirewallFits, countFirewall, known]
  | some tag =>
    have iff : FirewallFits config.num (label, children) ↔
        (tag.readsText → ∀ content ∈ readContentElement children, content.length ≤ maxXmlStrLen) ∧
        (tag.writesEntry (readContentElement children) → InBounds maxFirewallEntries config.num) ∧
        (tag = .ipv4DestinationSubnetMask → (readContentElement children).isSome) := by
      simp [FirewallFits, known]
    have counted : countFirewall config.num (label, children) =
        if tag = .firewall then config.num + 1 else config.num := by
      simp [countFirewall, known]
    simp only [iff, counted, enter, writesEntry]
    -- the children matter by their text only
    generalize readContentElement children = content
    by_cases container : tag.isContainer = true
    · have other : tag ≠ .ipv4DestinationSubnetMask := by
        rintro rfl
        cases container
      simp only [container, if_true, other, false_implies, and_true]
      -- the containers that set a bit write to the entry, the others are read for the configuration
      cases marked : tag.marks with
      | some b =>
        have silent : tag.readsText = false := by cases tag <;> first | rfl | cases marked
        have uncounted : tag ≠ .firewall := by
          rintro rfl
          cases marked
        have written := assign_num u config [.bit b]
        simp only [silent, uncounted, Option.isSome_some, Option.map_map]
        simpa [Function.comp_def] using written
      | none =>
        have configured := configure_num content config tag container
        simpa [Function.comp_def] using configured
    · have uncounted : tag ≠ .firewall := by
        rintro rfl
        exact container rfl
      have reads : tag.readsText = true := by simp [readsText, container]
      simp only [container, if_false, reads, uncounted, true_implies]
      cases content with
      | none =>
        by_cases unchecked : tag = .ipv4DestinationSubnetMask
        · simp [unchecked]
        · simp [unchecked]
      | some content =>
        by_cases room : content.length ≤ maxXmlStrLen
        · have written (ip6Addr) := assign_num u config (tag.assigns libc content ip6Addr)
          simpa [copyContent, room, Function.comp_def] using written _
        · simp [copyContent, room]

/-- What a tree does to the count, from any count on. -/
theorem ipacmFirewallXmlParseTree_num (libc : Libc) (u : UnionLayout) (xmlNode : XmlNode)
    (config : IpacmFirewallConf) :
    (ipacmFirewallXmlParseTree libc u xmlNode config).map IpacmFirewallConf.num =
      (firewallVisits xmlNode).foldlM
        (fun num v => if FirewallFits num v then some (countFirewall num v) else none) config.num :=
  walk_map (enterFirewall_num libc u) xmlNode libc.uninitialised config

/-- The firewall file is parsed within the arrays exactly when its tree fits. -/
theorem ipacmFirewallXmlParseTree_isSome (libc : Libc) (u : UnionLayout) (xmlNode : XmlNode) :
    (ipacmFirewallXmlParseTree libc u xmlNode {}).isSome ↔ FirewallInBounds xmlNode := by
  have start : IpacmFirewallConf.num {} = 0 := rfl
  rw [← Option.isSome_map, ipacmFirewallXmlParseTree_num, foldlM_isSome_iff, start]
  simp only [foldl_countFirewall]
  rfl

/-! ### Entries that are not counted yet -/

section Behind

variable {libc : Libc} {u : UnionLayout}

/-- The configurations that the walk over a file gets to, and how many entries were counted until then. -/
inductive Reached (libc : Libc) (u : UnionLayout) : Nat → IpacmFirewallConf → Prop
  | start : Reached libc u 0 {}
  | enter {n : Nat} {config config' : IpacmFirewallConf} {label : XmlLabel} {children : XmlNode}
      {ip6Addr ip6Addr' : Vector UInt32 4} :
      Reached libc u n config → enterFirewall libc u label children ip6Addr config = some (ip6Addr', config') →
      Reached libc u (if firewallTagOf label = some .firewall then n + 1 else n) config'

variable {config config' : IpacmFirewallConf}

theorem assign_behind {xs : List Assign}
    (written : config.assign u xs = some config') {i : Nat} (behind : config.num.toNat ≤ i) :
    config'.extdFirewallEntries.entries[i]? = config.extdFirewallEntries.entries[i]? := by
  obtain ⟨table, modified, rfl⟩ := Option.map_eq_some_iff.mp written
  exact Table.getElem?_modifyLast modified behind

theorem FirewallTag.configure_entries {content : Option Text}
    {tag : FirewallTag} (set : tag.configure content config = some config') :
    config'.extdFirewallEntries.entries = config.extdFirewallEntries.entries := by
  cases tag with
  | firewallPktsAllowed | firewallEnabled =>
    cases content with
    | none =>
      cases set
      rfl
    | some content =>
      obtain ⟨contentBuf, -, rfl⟩ := Option.map_eq_some_iff.mp set
      rfl
  | _ =>
    cases set
    rfl

/-- Reading an element writes no entry behind those that are counted. -/
theorem enterFirewall_behind {label : XmlLabel} {children : XmlNode} {ip6Addr ip6Addr' : Vector UInt32 4}
    (done : enterFirewall libc u label children ip6Addr config = some (ip6Addr', config')) {i : Nat}
    (behind : config.num.toNat ≤ i) :
    config'.extdFirewallEntries.entries[i]? = config.extdFirewallEntries.entries[i]? := by
  rw [enterFirewall] at done
  split at done
  next tag known =>
    rw [enter.eq_def] at done
    split at done
    -- a container sets its bit, or is read for the configuration
    · split at done
      · obtain ⟨config'', written, same⟩ := Option.map_eq_some_iff.mp done
        cases same
        exact assign_behind written behind
      · obtain ⟨config'', set, same⟩ := Option.map_eq_some_iff.mp done
        cases same
        rw [configure_entries set]
    · split at done
      · obtain ⟨contentBuf, -, done⟩ := Option.bind_eq_some_iff.mp done
        obtain ⟨config'', written, same⟩ := Option.map_eq_some_iff.mp done
        cases same
        exact assign_behind written behind
      · split at done
        · cases done
        · cases done
          rfl
  next =>
    cases done
    rfl

/-- As long as the byte that counts has not started over, the entries that are not counted yet are those
that the `memset` has cleared. -/
theorem Reached.cleared {n : Nat} {config : IpacmFirewallConf} (reached : Reached libc u n config)
    (few : n < 256) :
    config.num.toNat = n ∧ ∀ i, n ≤ i → ∀ e ∈ config.extdFirewallEntries.entries[i]?, e = ⟨{}, 0⟩ := by
  induction reached with
  | start =>
    refine ⟨rfl, fun i _ e found => ?_⟩
    obtain ⟨below, same⟩ := Vector.getElem?_eq_some_iff.mp found
    rw [← same]
    exact Vector.getElem_replicate below
  | @enter n config config' label children ip6Addr ip6Addr' _ entered ih =>
    have counted : config'.num = countFirewall config.num (label, children) := by
      have num := enterFirewall_num libc u label children ip6Addr config
      rw [entered] at num
      split at num
      · exact Option.some.inj num
      · cases num
    have earlier : n < 256 := by
      split at few
      · exact Nat.lt_of_succ_lt few
      · exact few
    obtain ⟨same, zero⟩ := ih earlier
    -- the count goes up by one at most, and what is behind it is not written
    constructor
    · rw [counted, countFirewall]
      split
      next counts =>
        rw [if_pos counts] at few
        rw [UInt8.toNat_add, same]
        exact Nat.mod_eq_of_lt few
      next => exact same
    · intro i behind e found
      have behind' : n ≤ i := by
        split at behind
        · exact Nat.le_of_succ_le behind
        · exact behind
      rw [enterFirewall_behind entered (same.symm ▸ behind')] at found
      exact zero i behind' e found

/-- The entry that the next `Firewall` element counts is cleared. -/
theorem Reached.next_cleared {n : Nat} {config : IpacmFirewallConf} (reached : Reached libc u n config)
    (few : n < 255) : ∀ e ∈ config.extdFirewallEntries.push.last?, e = ⟨{}, 0⟩ := by
  obtain ⟨same, zero⟩ := reached.cleared (Nat.lt_succ_of_lt few)
  intro e found
  have num : (config.num + 1).toNat = n + 1 := by
    rw [UInt8.toNat_add, same]
    exact Nat.mod_eq_of_lt (Nat.succ_lt_succ few)
  rw [Table.last?] at found
  split at found
  next => cases found
  next =>
    refine zero n (Nat.le_refl n) e ?_
    have here : (config.extdFirewallEntries.push.num).toNat - 1 = n := by
      change (config.num + 1).toNat - 1 = n
      omega
    rw [here] at found
    exact found

end Behind

/-! ### Both files -/

/-- A file is parsed within the arrays when the elements that are read, in document order, find a count
that their table has room for, and texts that fit. -/
theorem xml_parsed_in_bounds (libc : Libc) (u : UnionLayout) (xmlNode : XmlNode) :
    ((ipacmCfgXmlParseTree libc xmlNode {}).isSome ↔ CfgInBounds xmlNode) ∧
    ((ipacmFirewallXmlParseTree libc u xmlNode {}).isSome ↔ FirewallInBounds xmlNode) :=
  ⟨ipacmCfgXmlParseTree_isSome libc xmlNode, ipacmFirewallXmlParseTree_isSome libc u xmlNode⟩

/-- A name outside of an interface, a name that is too long for its field, and a rule outside of an
entry are written in front of or behind what there is. -/
theorem item_before_its_container :
    (ipacmCfgXmlParseTree ⟨fun _ => 0, fun _ => none, .replicate 4 0⟩
      (chain [elem "system" [elem "IPACM" [leaf "Name" "wlan0"]]]) {}).isSome = false ∧
    (ipacmCfgXmlParseTree ⟨fun _ => 0, fun _ => none, .replicate 4 0⟩
      (chain [elem "system" [elem "Iface" [leaf "Name" "an_interface_name"]]]) {}).isSome = false ∧
    (ipacmFirewallXmlParseTree ⟨fun _ => 0, fun _ => none, .replicate 4 0⟩ ⟨fun _ v6 => v6, fun _ v4 => v4⟩
      (chain [elem "system" [leaf "IPFamily" "4", elem "Firewall" []]]) {}).isSome = false := by
  decide

end Hima.Xml
