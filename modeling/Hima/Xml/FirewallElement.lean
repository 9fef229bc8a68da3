import Hima.Xml.InBounds

/-!
# Firewall elements

An element of one entry: the family first, then elements with a text and groups of them, in any
order. What it leaves in its entry is what its elements assign, one after the other.
-/
namespace Hima.Xml

open SiblingTree CountedTable
open CountedTable.Table (InBounds)
open Wan (IpaIpType RuleAttrib FirewallEntry maxFirewallEntries)

/-! ### Elements and their arrangements -/

/-- An element that is read for its text, other than the family, or a node that is skipped. -/
def IsLeaf (node : XmlLabel × XmlNode) : Prop :=
  ∀ tag ∈ firewallTagOf node.1, tag.isContainer = false ∧ tag ≠ .ipFamily

instance (node : XmlLabel × XmlNode) : Decidable (IsLeaf node) :=
  inferInstanceAs (Decidable (∀ tag ∈ firewallTagOf node.1, _))

theorem isLeaf_of_tag {node : XmlLabel × XmlNode} {tag : FirewallTag} (known : firewallTagOf node.1 = some tag)
    (isText : tag.isContainer = false) (other : tag ≠ .ipFamily) : IsLeaf node := by
  intro tag' known'
  obtain rfl := Option.some.inj (known.symm.trans known')
  exact ⟨isText, other⟩

/-- The containers that are part of an entry. -/
def FirewallTag.isGroup : FirewallTag → Bool
  | .ipv4SourceAddress | .ipv4DestinationAddress | .ipv4TypeOfService
  | .ipv6SourceAddress | .ipv6DestinationAddress | .ipv6TrafficClass
  | .tcpSource | .tcpDestination | .udpSource | .udpDestination | .tcpUdpSource | .tcpUdpDestination => true
  | _ => false

inductive FirewallChild where
  | leaf (node : { node // IsLeaf node })
  | group (label : XmlLabel) (tag : FirewallTag) (known : firewallTagOf label = some tag)
      (isGroup : tag.isGroup = true) (leaves : List { node // IsLeaf node })

def FirewallChild.node : FirewallChild → XmlLabel × XmlNode
  | .leaf node => node.val
  | .group label _ _ _ leaves => (label, chain (leaves.map Subtype.val))

def FirewallChild.leaves : FirewallChild → List (XmlLabel × XmlNode)
  | .leaf node => [node.val]
  | .group _ _ _ _ leaves => leaves.map Subtype.val

structure FirewallElement where
  label : XmlLabel
  isFirewall : firewallTagOf label = some .firewall
  family : XmlLabel × XmlNode
  isFamily : firewallTagOf family.1 = some .ipFamily
  children : List FirewallChild

def FirewallElement.node (f : FirewallElement) : XmlLabel × XmlNode :=
  (f.label, chain (f.family :: f.children.map FirewallChild.node))

/-- The elements with a text, in the order given. -/
def FirewallElement.leaves (f : FirewallElement) : List (XmlLabel × XmlNode) :=
  f.children.flatMap FirewallChild.leaves

/-- The leaves of a group in another order. -/
inductive FirewallChild.Reordered : FirewallChild → FirewallChild → Prop
  | leaf (node : { node // IsLeaf node }) : Reordered (.leaf node) (.leaf node)
  | group {label : XmlLabel} {tag : FirewallTag} {known : firewallTagOf label = some tag}
      {isGroup : tag.isGroup = true} {leaves leaves' : List { node // IsLeaf node }} :
      leaves.Perm leaves' →
      Reordered (.group label tag known isGroup leaves) (.group label tag known isGroup leaves')

/-- The children in another order, and the leaves of each in another order. -/
def Rearranged (children children' : List FirewallChild) : Prop :=
  ∃ reordered, List.Forall₂ FirewallChild.Reordered children reordered ∧ reordered.Perm children'

theorem FirewallChild.Reordered.refl (c : FirewallChild) : c.Reordered c := by
  cases c with
  | leaf node => exact .leaf node
  | group label tag known isGroup leaves => exact .group (List.Perm.refl leaves)

theorem Rearranged.refl (children : List FirewallChild) : Rearranged children children :=
  ⟨children, List.forall₂_same.mpr fun c _ => .refl c, List.Perm.refl children⟩

/-! ### What the elements assign -/

section Assigns

variable (libc : Libc)

/-- What a leaf assigns, when its text is an address if it has to be one. -/
def leafAssigns (node : XmlLabel × XmlNode) : List Assign :=
  match firewallTagOf node.1, readContentElement node.2 with
  | some tag, some content => tag.assigns libc content ((libc.inetPton content).getD (.replicate 4 0))
  | _, _ => []

theorem leafAssigns_of_tag {node : XmlLabel × XmlNode} {tag : FirewallTag} {content : Text}
    (known : firewallTagOf node.1 = some tag) (given : readContentElement node.2 = some content) :
    leafAssigns libc node = tag.assigns libc content ((libc.inetPton content).getD (.replicate 4 0)) := by
  rw [leafAssigns, known, given]

def FirewallChild.assigns : FirewallChild → List Assign
  | .leaf node => leafAssigns libc node.val
  | .group _ tag _ _ leaves =>
    tag.marks.toList.map .bit ++ leaves.flatMap fun node => leafAssigns libc node.val

def FirewallElement.assigns (f : FirewallElement) : List Assign :=
  f.children.flatMap (FirewallChild.assigns libc)

/-- The texts that are read as IPv6 addresses are addresses. -/
def AddressText (node : XmlLabel × XmlNode) : Prop :=
  ∀ tag ∈ firewallTagOf node.1, tag.isIpv6Address → ∀ content ∈ readContentElement node.2,
    (libc.inetPton content).isSome

instance (node : XmlLabel × XmlNode) : Decidable (AddressText libc node) :=
  inferInstanceAs (Decidable (∀ tag ∈ firewallTagOf node.1, _))

theorem addressText_of_tag {node : XmlLabel × XmlNode} {tag : FirewallTag}
    (known : firewallTagOf node.1 = some tag) (other : tag.isIpv6Address = false) : AddressText libc node := by
  intro tag' known' isAddress
  obtain rfl := Option.some.inj (known.symm.trans known')
  rw [other] at isAddress
  cases isAddress

variable {libc}

theorem assigns_reordered {c c' : FirewallChild} (reordered : c.Reordered c') :
    (c.assigns libc).Perm (c'.assigns libc) := by
  cases reordered with
  | leaf node => exact List.Perm.refl _
  | group perm => exact (perm.flatMap_right _).append_left _

theorem leaves_reordered {c c' : FirewallChild} (reordered : c.Reordered c') : c.leaves.Perm c'.leaves := by
  cases reordered with
  | leaf node => exact List.Perm.refl _
  | group perm => exact perm.map _

/-- What is collected from the children is the same in another order. -/
theorem Rearranged.flatMap {α : Type} {g : FirewallChild → List α}
    (each : ∀ c c', c.Reordered c' → (g c).Perm (g c')) {children children' : List FirewallChild}
    (rearranged : Rearranged children children') : (children.flatMap g).Perm (children'.flatMap g) := by
  obtain ⟨reordered, inside, perm⟩ := rearranged
  refine List.Perm.trans ?_ (perm.flatMap_right g)
  clear perm
  induction inside with
  | nil => exact List.Perm.refl _
  | cons first _ ih => exact (each _ _ first).append ih

theorem assigns_rearranged {f : FirewallElement} {children : List FirewallChild}
    (rearranged : Rearranged f.children children) :
    (f.assigns libc).Perm ({ f with children := children }.assigns libc) :=
  rearranged.flatMap fun _ _ => assigns_reordered

theorem leaves_rearranged {f : FirewallElement} {children : List FirewallChild}
    (rearranged : Rearranged f.children children) :
    f.leaves.Perm { f with children := children }.leaves :=
  rearranged.flatMap fun _ _ => leaves_reordered

theorem perm_last {α : Type} (pre post : List α) (a : α) :
    (pre ++ a :: post).Perm (pre ++ post ++ [a]) :=
  List.perm_middle.trans (List.perm_append_singleton a (pre ++ post)).symm

variable (libc) in
/-- There is an order in which a leaf comes last of all. -/
theorem exists_last (f : FirewallElement) {node : XmlLabel × XmlNode} (member : node ∈ f.leaves) :
    ∃ children, Rearranged f.children children ∧
      ∃ earlier, { f with children := children }.assigns libc = earlier ++ leafAssigns libc node := by
  obtain ⟨c, child, member⟩ := List.mem_flatMap.mp member
  obtain ⟨pre, post, split⟩ := List.append_of_mem child
  -- the child goes to the end once the leaf is at the end of the child
  have moved {c' : FirewallChild} (reordered : c.Reordered c') :
      Rearranged f.children (pre ++ post ++ [c']) := by
    refine ⟨pre ++ c' :: post, ?_, perm_last pre post c'⟩
    rw [split]
    exact List.rel_append (List.forall₂_same.mpr fun c _ => .refl c)
      (.cons reordered (List.forall₂_same.mpr fun c _ => .refl c))
  cases c with
  | leaf node' =>
    obtain rfl := List.mem_singleton.mp member
    exact ⟨_, moved (.leaf node'), _, by
      rw [FirewallElement.assigns, List.flatMap_append, List.flatMap_singleton]; rfl⟩
  | group label tag known isGroup leaves =>
    obtain ⟨node', inside, rfl⟩ := List.mem_map.mp member
    obtain ⟨before, behind, rfl⟩ := List.append_of_mem inside
    refine ⟨_, moved (.group (perm_last before behind node')),
      (pre ++ post).flatMap (FirewallChild.assigns libc) ++ (tag.marks.toList.map .bit ++
        (before ++ behind).flatMap fun node => leafAssigns libc node.val), ?_⟩
    simp [FirewallElement.assigns, FirewallChild.assigns]

end Assigns

/-! ### Which elements are read within the arrays -/

/-- A text fits in `content_buf`, and is there where it is not checked for. -/
def TextFits (node : XmlLabel × XmlNode) : Prop :=
  ∀ tag ∈ firewallTagOf node.1,
    (∀ content ∈ readContentElement node.2, content.length ≤ maxXmlStrLen) ∧
    (tag = .ipv4DestinationSubnetMask → (readContentElement node.2).isSome)

instance (node : XmlLabel × XmlNode) : Decidable (TextFits node) :=
  inferInstanceAs (Decidable (∀ tag ∈ firewallTagOf node.1, _))

theorem textFits_leaf {name content : String} (short : (text content).length ≤ maxXmlStrLen) :
    TextFits (leaf name content) := by
  intro tag _
  refine ⟨fun content' given => ?_, fun _ => rfl⟩
  obtain rfl := Option.some.inj given
  exact short

theorem leaf_descends (node : { node // IsLeaf node }) : firewallDescends node.val.1 = false := by
  rw [firewallDescends, Option.any_eq_false]
  intro tag known
  simpa using (node.property tag known).1

theorem group_descends {label : XmlLabel} {tag : FirewallTag} (known : firewallTagOf label = some tag)
    (isGroup : tag.isGroup = true) : firewallDescends label = true := by
  rw [firewallDescends, known, Option.any_some]
  cases tag <;> first | rfl | cases isGroup

theorem group_silent {tag : FirewallTag} (isGroup : tag.isGroup = true) : tag.readsText = false := by
  cases tag <;> first | rfl | cases isGroup

def FirewallChild.visits : FirewallChild → List (XmlLabel × XmlNode)
  | .leaf node => [node.val]
  | .group label _ _ _ leaves => (label, chain (leaves.map Subtype.val)) :: leaves.map Subtype.val

theorem visits_leaves (leaves : List { node // IsLeaf node }) :
    firewallVisits (chain (leaves.map Subtype.val)) = leaves.map Subtype.val := by
  induction leaves with
  | nil => rfl
  | cons node rest ih =>
    have step : firewallVisits (chain ((node :: rest).map Subtype.val)) =
        node.val :: ((if firewallDescends node.val.1 then firewallVisits node.val.2 else []) ++
          firewallVisits (chain (rest.map Subtype.val))) := rfl
    rw [step, leaf_descends node, ih]
    rfl

theorem visits_children (children : List FirewallChild) :
    firewallVisits (chain (children.map FirewallChild.node)) = children.flatMap FirewallChild.visits := by
  induction children with
  | nil => rfl
  | cons c rest ih =>
    have step : firewallVisits (chain ((c :: rest).map FirewallChild.node)) =
        c.node :: ((if firewallDescends c.node.1 then firewallVisits c.node.2 else []) ++
          firewallVisits (chain (rest.map FirewallChild.node))) := rfl
    rw [step, ih, List.flatMap_cons]
    cases c with
    | leaf node =>
      have leaf : firewallDescends (FirewallChild.leaf node).node.1 = false := leaf_descends node
      rw [leaf]
      rfl
    | group label tag known isGroup leaves =>
      have down : firewallDescends (FirewallChild.group label tag known isGroup leaves).node.1 = true :=
        group_descends known isGroup
      have below : firewallVisits (FirewallChild.group label tag known isGroup leaves).node.2 =
          leaves.map Subtype.val := visits_leaves leaves
      rw [down, if_pos rfl, below]
      rfl

/-- Within an entry that there is, a node fits when its text does. -/
theorem fits_iff_textFits {num : UInt8} (bounds : InBounds maxFirewallEntries num)
    {node : XmlLabel × XmlNode} (isText : ∀ tag ∈ firewallTagOf node.1, tag.isContainer = false) :
    FirewallFits num node ↔ TextFits node := by
  refine forall₂_congr fun tag known => ?_
  simp [FirewallTag.readsText, isText tag known, bounds]

theorem leaves_fit_iff {num : UInt8} (bounds : InBounds maxFirewallEntries num)
    (leaves : List { node // IsLeaf node }) :
    (∀ v ∈ leaves.map Subtype.val, FirewallFits num v) ↔ ∀ node ∈ leaves.map Subtype.val, TextFits node := by
  refine forall₂_congr fun v member => ?_
  obtain ⟨node, -, rfl⟩ := List.mem_map.mp member
  exact fits_iff_textFits bounds fun tag known => (node.property tag known).1

theorem child_fits_iff {num : UInt8} (bounds : InBounds maxFirewallEntries num) (c : FirewallChild) :
    (∀ v ∈ c.visits, FirewallFits num v) ↔ ∀ node ∈ c.leaves, TextFits node := by
  cases c with
  | leaf node => exact leaves_fit_iff bounds [node]
  | group label tag known isGroup leaves =>
    have own : FirewallFits num (label, chain (leaves.map Subtype.val)) := by
      intro tag' same
      obtain rfl := Option.some.inj (known.symm.trans same)
      refine ⟨fun reads => ?_, fun _ => bounds, fun unchecked => ?_⟩
      · rw [group_silent isGroup] at reads
        cases reads
      · rw [unchecked] at isGroup
        cases isGroup
    rw [FirewallChild.visits, FirewallChild.leaves, List.forall_mem_cons, leaves_fit_iff bounds]
    exact and_iff_right own

theorem visits_element (f : FirewallElement) :
    firewallVisits (chain [f.node]) = f.node :: f.family :: f.children.flatMap FirewallChild.visits := by
  have down : firewallDescends f.label = true := by
    rw [firewallDescends, f.isFirewall]
    rfl
  have across : firewallDescends f.family.1 = false := by
    rw [firewallDescends, f.isFamily]
    rfl
  have step : firewallVisits (chain [f.node]) = f.node :: ((if firewallDescends f.label then
        f.family :: ((if firewallDescends f.family.1 then firewallVisits f.family.2 else []) ++
          firewallVisits (chain (f.children.map FirewallChild.node))) else []) ++ []) := rfl
  rw [step, down, across, visits_children]
  simp

/-- No other element counts an entry. -/
theorem children_still {f : FirewallElement} {v : XmlLabel × XmlNode}
    (member : v ∈ f.family :: f.children.flatMap FirewallChild.visits) (num : UInt8) :
    countFirewall num v = num := by
  rw [countFirewall, if_neg]
  intro counts
  rcases List.mem_cons.mp member with rfl | member
  · cases f.isFamily.symm.trans counts
  obtain ⟨c, -, member⟩ := List.mem_flatMap.mp member
  have leaf (node : { node // IsLeaf node }) : firewallTagOf node.val.1 ≠ some .firewall := by
    intro known
    cases (node.property .firewall known).1
  cases c with
  | leaf node =>
    obtain rfl := List.mem_singleton.mp member
    exact leaf node counts
  | group label tag known isGroup leaves =>
    rcases List.mem_cons.mp member with rfl | member
    · obtain rfl := Option.some.inj (known.symm.trans counts)
      cases isGroup
    · obtain ⟨node, -, rfl⟩ := List.mem_map.mp member
      exact leaf node counts

/-- Where there is an entry for it, an element is read within the arrays when its texts fit. -/
theorem element_isSome (libc : Libc) (u : UnionLayout) (f : FirewallElement) {config : IpacmFirewallConf}
    (bounds : InBounds maxFirewallEntries (config.num + 1)) :
    (ipacmFirewallXmlParseTree libc u (chain [f.node]) config).isSome ↔
      ∀ node ∈ f.family :: f.leaves, TextFits node := by
  -- the element itself counts, so it fits in front of any entry
  have start : FirewallFits config.num f.node := by
    intro tag known
    obtain rfl := Option.some.inj (f.isFirewall.symm.trans known)
    refine ⟨fun reads => ?_, fun writes => ?_, fun unchecked => ?_⟩
    · cases reads
    · cases writes
    · cases unchecked
  have counts : countFirewall config.num f.node = config.num + 1 := if_pos f.isFirewall
  have family : FirewallFits (config.num + 1) f.family ↔ TextFits f.family :=
    fits_iff_textFits bounds fun tag known => by rw [f.isFamily] at known; cases known; rfl
  have children : (∀ v ∈ f.children.flatMap FirewallChild.visits, FirewallFits (config.num + 1) v) ↔
      ∀ node ∈ f.leaves, TextFits node := by
    simp only [FirewallElement.leaves, List.forall_mem_flatMap]
    exact forall₂_congr fun c _ => child_fits_iff bounds c
  rw [← Option.isSome_map, ipacmFirewallXmlParseTree_num, visits_element, List.foldlM_cons, if_pos start,
    counts]
  refine (foldlM_isSome_of_still fun v member => children_still member (config.num + 1)).trans ?_
  rw [List.forall_mem_cons, List.forall_mem_cons, family, children]

/-! ### What the walk leaves in the entry -/

section Entry

variable {libc : Libc} {u : UnionLayout}

/-- The last entry after some assignments. -/
def assigned (u : UnionLayout) (entry : Option FirewallEntry) (xs : List Assign) : Option FirewallEntry :=
  entry.map (xs.foldl (Assign.run u))

theorem assigned_append (entry : Option FirewallEntry) (xs ys : List Assign) :
    assigned u (assigned u entry xs) ys = assigned u entry (xs ++ ys) := by
  simp [assigned, Function.comp_def]

variable {config config' : IpacmFirewallConf}

theorem assign_last {xs : List Assign} (done : config.assign u xs = some config') :
    config'.extdFirewallEntries.last? = assigned u config.extdFirewallEntries.last? xs := by
  obtain ⟨table, written, rfl⟩ := Option.map_eq_some_iff.mp done
  exact Table.last?_modifyLast written

theorem assigns_other {tag : FirewallTag} (other : tag.isIpv6Address = false) (content : Text)
    (addr addr' : Vector UInt32 4) :
    tag.assigns libc content addr = tag.assigns libc content addr' := by
  cases tag <;> first | rfl | cases other

/-- An element that is read for its text assigns to the last entry. -/
theorem enter_last {node : XmlLabel × XmlNode} {ip6Addr ip6Addr' : Vector UInt32 4}
    (isText : ∀ tag ∈ firewallTagOf node.1, tag.isContainer = false) (address : AddressText libc node)
    (done : enterFirewall libc u node.1 node.2 ip6Addr config = some (ip6Addr', config')) :
    config'.extdFirewallEntries.last? =
      assigned u config.extdFirewallEntries.last? (leafAssigns libc node) := by
  rw [enterFirewall] at done
  rw [leafAssigns]
  cases known : firewallTagOf node.1 with
  | none =>
    simp only [known] at done
    cases done
    simp [assigned]
  | some tag =>
    have text : tag.isContainer = false := isText tag known
    simp only [known, FirewallTag.enter, text] at done
    cases given : readContentElement node.2 with
    | none =>
      simp only [given, Bool.false_eq_true, if_false] at done
      split at done
      next => cases done
      next =>
        cases done
        simp [assigned]
    | some content =>
      simp only [given, Bool.false_eq_true, if_false] at done
      obtain ⟨contentBuf, copied, done⟩ := Option.bind_eq_some_iff.mp done
      obtain ⟨config'', written, same⟩ := Option.map_eq_some_iff.mp done
      cases same
      -- what is in `content_buf` is the whole text
      obtain rfl : content = contentBuf := by
        rw [copyContent] at copied
        split at copied
        · exact Option.some.inj copied
        · cases copied
      rw [assign_last written]
      -- only an IPv6 address looks at `ip6_addr`, and it has written it before
      cases isAddress : tag.isIpv6Address with
      | false => rw [assigns_other isAddress content]
      | true =>
        obtain ⟨addr, valid⟩ := Option.isSome_iff_exists.mp (address tag known isAddress content given)
        simp [valid]

/-- A group sets its bit. -/
theorem enter_group_last {label : XmlLabel} {tag : FirewallTag} (known : firewallTagOf label = some tag)
    (isGroup : tag.isGroup = true) {children : XmlNode} {ip6Addr ip6Addr' : Vector UInt32 4}
    (done : enterFirewall libc u label children ip6Addr config = some (ip6Addr', config')) :
    config'.extdFirewallEntries.last? =
      assigned u config.extdFirewallEntries.last? (tag.marks.toList.map .bit) := by
  have container : tag.isContainer = true := by cases tag <;> first | rfl | cases isGroup
  simp only [enterFirewall, known, FirewallTag.enter, container, if_true] at done
  cases marks : tag.marks with
  | some b =>
    simp only [marks] at done
    obtain ⟨config'', written, same⟩ := Option.map_eq_some_iff.mp done
    cases same
    exact assign_last written
  | none =>
    have unchanged : tag.configure (readContentElement children) config = some config := by
      cases tag <;> first | rfl | cases isGroup
    simp only [marks, unchanged, Option.map_some] at done
    cases done
    simp [assigned]

variable {fresh : Vector UInt32 4}

theorem walk_leaves_last {leaves : List { node // IsLeaf node }}
    (addresses : ∀ node ∈ leaves, AddressText libc node.val) {ip6Addr : Vector UInt32 4}
    (done : walk firewallDescends (enterFirewall libc u) fresh (chain (leaves.map Subtype.val)) ip6Addr
      config = some config') :
    config'.extdFirewallEntries.last? = assigned u config.extdFirewallEntries.last?
      (leaves.flatMap fun node => leafAssigns libc node.val) := by
  induction leaves generalizing ip6Addr config with
  | nil =>
    cases done
    simp [assigned]
  | cons node rest ih =>
    obtain ⟨ip6Addr', config'', config₂, entered, below, done⟩ := walk_node_eq_some done
    rw [leaf_descends node] at below
    cases below
    have first := enter_last (fun tag known => (node.property tag known).1)
      (addresses node List.mem_cons_self) entered
    rw [ih (fun node member => addresses node (List.mem_cons_of_mem _ member)) done, first,
      assigned_append, List.flatMap_cons]

/-- The children of an element assign to the last entry, in their order. -/
theorem walk_children_last {children : List FirewallChild}
    (addresses : ∀ node ∈ children.flatMap FirewallChild.leaves, AddressText libc node)
    {ip6Addr : Vector UInt32 4} (done : walk firewallDescends (enterFirewall libc u) fresh
      (chain (children.map FirewallChild.node)) ip6Addr config = some config') :
    config'.extdFirewallEntries.last? = assigned u config.extdFirewallEntries.last?
      (children.flatMap (FirewallChild.assigns libc)) := by
  induction children generalizing ip6Addr config with
  | nil =>
    cases done
    simp [assigned]
  | cons c rest ih =>
    obtain ⟨ip6Addr', config₁, config₂, entered, below, done⟩ := walk_node_eq_some done
    have own (node) (member : node ∈ c.leaves) : AddressText libc node :=
      addresses node (by rw [List.flatMap_cons]; exact List.mem_append_left _ member)
    -- a leaf assigns by itself; a group sets its bit and then walks its leaves
    have first : config₂.extdFirewallEntries.last? =
        assigned u config.extdFirewallEntries.last? (c.assigns libc) := by
      cases c with
      | leaf node =>
        have below : (if firewallDescends node.val.1 then _ else some config₁) = some config₂ := below
        rw [leaf_descends node] at below
        cases below
        exact enter_last (fun tag known => (node.property tag known).1)
          (own node.val (List.mem_singleton_self _)) entered
      | group label tag known isGroup leaves =>
        have below : (if firewallDescends label then _ else some config₁) = some config₂ := below
        rw [group_descends known isGroup, if_pos rfl] at below
        rw [walk_leaves_last (fun node member => own node.val (List.mem_map_of_mem member)) below,
          enter_group_last known isGroup entered, assigned_append]
        rfl
    rw [ih (fun node member => addresses node (by rw [List.flatMap_cons]; exact List.mem_append_right _ member)) done,
      first, assigned_append, List.flatMap_cons]

/-- An element assigns to the entry that it counts. -/
theorem element_last {f : FirewallElement} (addresses : ∀ node ∈ f.leaves, AddressText libc node)
    (done : ipacmFirewallXmlParseTree libc u (chain [f.node]) config = some config') :
    config'.extdFirewallEntries.last? = assigned u config.extdFirewallEntries.push.last?
      (leafAssigns libc f.family ++ f.assigns libc) := by
  obtain ⟨ip6Addr, config₁, config₂, entered, below, rest⟩ := walk_node_eq_some done
  cases rest
  simp only [enterFirewall, f.isFirewall] at entered
  cases entered
  have down : firewallDescends f.label = true := by
    rw [firewallDescends, f.isFirewall]
    rfl
  have below : (if firewallDescends f.label then _ else _) = some config' := below
  rw [down, if_pos rfl] at below
  -- the family is the first of the children
  obtain ⟨ip6Addr', config₃, config₄, entered, across, rest⟩ := walk_node_eq_some below
  have up : firewallDescends f.family.1 = false := by
    rw [firewallDescends, f.isFamily]
    rfl
  rw [up] at across
  cases across
  have address : AddressText libc f.family := fun tag known isAddress => by
    rw [f.isFamily] at known
    cases known
    cases isAddress
  have family := enter_last (fun tag known => by rw [f.isFamily] at known; cases known; rfl) address entered
  rw [walk_children_last addresses rest, family, assigned_append]
  rfl

end Entry

end Hima.Xml
