import Mathlib.Algebra.Group.Int.Defs
import Hima.Xml.EntryFields

/-!
# The order of siblings

A port and its range, or a value and its mask, are combined as they are found. What a rule is
then does not depend on the order of the siblings exactly when the assignments to each field agree,
and of a port and its range one is zero.
-/
namespace Hima.Xml

open SiblingTree CountedTable Register FirewallElement PortOp
open CountedTable.Table (InBounds)
open Wan (IpaIpType FltBit RuleAttrib FirewallEntry maxFirewallEntries)

/-! ### What an element is to lead to -/

/-- The family by `ip_vsn`, which is four or not. -/
def FirewallElement.ip (f : FirewallElement) : IpaIpType :=
  match readContentElement f.family.2 with
  | some content => if atoi content = 4 then .v4 else .v6
  | none => .v6

/-- A number is a port that the attributes match. -/
def Direction.Matches (a : RuleAttrib) (q : Int) (d : Direction) : Prop :=
  ∃ port : UInt16, (port.toNat : Int) = q ∧
    (d.rangeBit ∈ a.attribMask → (d.ports a).lo ≤ port ∧ port ≤ (d.ports a).hi) ∧
    (d.portBit ∈ a.attribMask → port = (d.ports a).port)

/-- The attributes match the ports from a port that is given to the end of its range, or the port alone
when no range is given. -/
def MatchesAll (ports ranges : List Int) (a : RuleAttrib) (d : Direction) : Prop :=
  ∀ port ∈ ports, ∀ range ∈ (if ranges = [] then [0] else ranges),
    ∀ q, d.Matches a q ↔ port ≤ q ∧ q ≤ port + range

section

variable (libc : Libc) (u : UnionLayout) (config : IpacmFirewallConf) (f : FirewallElement)

/-- An element is parsed into an entry with these attributes. -/
def FirewallElement.Parsed (a : RuleAttrib) : Prop :=
  ∃ config' e, ipacmFirewallXmlParseTree libc u (chain [f.node]) config = some config' ∧
    config'.extdFirewallEntries.last? = some e ∧ ofFamily f.ip e.attrib = a

/-- In every order of the siblings the attributes are the same, and they match the ports. -/
def FirewallElement.OrderIndependent : Prop :=
  ∃ a, (∀ children, Rearranged f.children children →
    { f with children := children }.Parsed libc u config a) ∧ ∀ d, MatchesAll (f.ports d) (f.ranges d) a d

/-! ### When it does -/

/-- The elements are those of the family, and IPv6 addresses are addresses. -/
structure FirewallElement.Regular : Prop where
  family : ∀ x ∈ f.assigns libc, x.InFamily f.ip
  addresses : ∀ node ∈ f.leaves, AddressText libc node

/-- Without a port, the ranges that are not zero are the same for sixteen bits. With a port there is a
range, and either all ranges are zero and all ports are the same, or the other way round. -/
def PortsAgree (ports ranges : List Int) : Prop :=
  (ports = [] ∧ ∀ r ∈ ranges, ∀ r' ∈ ranges, r ≠ 0 → r' ≠ 0 → UInt16.ofInt r = UInt16.ofInt r') ∨
  (∃ p, 0 ≤ p ∧ p < 2 ^ 16 ∧ ranges ≠ [] ∧ (∀ r ∈ ranges, r = 0) ∧ ∀ p' ∈ ports, p' = p) ∨
  (∃ r, 0 < r ∧ r < 2 ^ 16 ∧ ranges ≠ [] ∧ (∀ r' ∈ ranges, r' = r) ∧ ∀ p ∈ ports, p = 0)

structure FirewallElement.Agrees : Prop where
  regular : f.Regular libc
  counted : InBounds maxFirewallEntries (config.num + 1)
  texts : ∀ node ∈ f.family :: f.leaves, TextFits node
  fields : ∀ fld : Field, fld.InFamily f.ip →
    Steady (· &&& ·) ((f.assigns libc).filterMap (Assign.opOn fld))
  ports : ∀ d, PortsAgree (f.ports d) (f.ranges d)

end

/-! ### Ports after an element -/

section Ports

/-- What the ports are when the order does not matter. -/
structure PortsSettled (ports ranges : List Int) (p : Ports) : Prop where
  port : ∀ n ∈ ports, p.port = .ofInt n
  ranged : ∀ n ∈ ranges, n ≠ 0 → p = ⟨0, 0, .ofInt n⟩

/-- Without a range, equal ports leave the port. -/
theorem foldl_ports (ops : List PortOp) {h : UInt16} (unranged : ∀ n, .range n ∉ ops)
    (same : ∀ n, .port n ∈ ops → UInt16.ofInt n = h) (p : Ports) :
    ops.foldl run p = if ops = [] then p else { p with port := h } := by
  induction ops generalizing p with
  | nil => rfl
  | cons op ops ih =>
    have rest := ih (fun n member => unranged n (List.mem_cons_of_mem _ member))
      (fun n member => same n (List.mem_cons_of_mem _ member))
    cases op with
    | range n => exact absurd List.mem_cons_self (unranged n)
    | port n =>
      have here : UInt16.ofInt n = h := same n List.mem_cons_self
      rw [List.foldl_cons, rest, run, Ports.withPort, here, if_neg (List.cons_ne_nil _ _)]
      split <;> rfl

/-- From a port of zero, ranges that are equal leave the range; a port of zero leaves what is there. -/
theorem foldl_ranges (ops : List PortOp) {h : UInt16} (zero : ∀ n, .port n ∈ ops → UInt16.ofInt n = 0)
    (same : ∀ n, .range n ∈ ops → UInt16.ofInt n = h) {p : Ports} (start : p.port = 0) (low : p.lo = 0) :
    (ops.foldl run p = ⟨0, 0, h⟩ ∧ ∃ n, .range n ∈ ops) ∨ (ops.foldl run p = p ∧ ∀ n, .range n ∉ ops) := by
  induction ops generalizing p with
  | nil => exact .inr ⟨rfl, by simp⟩
  | cons op ops ih =>
    have zero' : ∀ n, .port n ∈ ops → UInt16.ofInt n = 0 := fun n member =>
      zero n (List.mem_cons_of_mem _ member)
    have same' : ∀ n, .range n ∈ ops → UInt16.ofInt n = h := fun n member =>
      same n (List.mem_cons_of_mem _ member)
    cases op with
    | port n =>
      -- a port of zero over a port of zero
      have still : p.withPort n = p := by
        rw [Ports.withPort, zero n List.mem_cons_self, ← start]
      rw [List.foldl_cons, run, still]
      rcases ih zero' same' start low with ⟨final, n', member⟩ | ⟨final, unranged⟩
      · exact .inl ⟨final, n', List.mem_cons_of_mem _ member⟩
      · exact .inr ⟨final, by simpa using unranged⟩
    | range n =>
      -- the first range starts at zero and leaves zero, so every later one does the same
      have moved : p.withRange n = ⟨0, 0, h⟩ := by
        rw [Ports.withRange, start, ← same n List.mem_cons_self]
        simp
      rw [List.foldl_cons, run, moved]
      rcases ih zero' same' (p := ⟨0, 0, h⟩) rfl rfl with ⟨final, -⟩ | ⟨final, -⟩
      · exact .inl ⟨final, n, List.mem_cons_self⟩
      · exact .inl ⟨final, n, List.mem_cons_self⟩

variable {ports ranges : List Int}

/-- Ports that agree are all zero, or the ranges are. -/
theorem PortsAgree.forms (agree : PortsAgree ports ranges) :
    (∃ h : UInt16, (∀ n ∈ ports, UInt16.ofInt n = 0) ∧ ∀ n ∈ ranges, n ≠ 0 → UInt16.ofInt n = h) ∨
      ∃ h : UInt16, (∀ n ∈ ports, UInt16.ofInt n = h) ∧ ∀ n ∈ ranges, n = 0 := by
  rcases agree with ⟨rfl, same⟩ | ⟨p, -, -, -, zero, same⟩ | ⟨r, -, -, -, same, zero⟩
  · by_cases ranged : ∃ r ∈ ranges, r ≠ 0
    · obtain ⟨r, member, nonzero⟩ := ranged
      exact .inl ⟨.ofInt r, by simp, fun n here nonzero' => same n here r member nonzero' nonzero⟩
    · exact .inr ⟨0, by simp, by simpa using ranged⟩
  · exact .inr ⟨.ofInt p, fun n member => by rw [same n member], zero⟩
  · exact .inl ⟨.ofInt r, fun n member => by rw [zero n member]; rfl, fun n member _ => by rw [same n member]⟩

/-- The operations on the ports are those that the elements give. -/
def OpsOf (ports ranges : List Int) (ops : List PortOp) : Prop :=
  (∀ n, .port n ∈ ops ↔ n ∈ ports) ∧ ∀ n, .range n ∈ ops ↔ n ∈ ranges ∧ n ≠ 0

theorem OpsOf.perm {ops ops' : List PortOp} (of : OpsOf ports ranges ops) (perm : ops.Perm ops') :
    OpsOf ports ranges ops' :=
  ⟨fun n => perm.mem_iff.symm.trans (of.1 n), fun n => perm.mem_iff.symm.trans (of.2 n)⟩

/-- Ports that agree are settled, and in any order they are the same. -/
theorem PortsAgree.foldl (agree : PortsAgree ports ranges) :
    ∃ p, PortsSettled ports ranges p ∧ ∀ ops, OpsOf ports ranges ops → ops.foldl run ⟨0, 0, 0⟩ = p := by
  rcases agree.forms with ⟨h, zero, same⟩ | ⟨h, same, zero⟩
  -- no port but zero: the ranges decide
  · have ends (ops : List PortOp) (of : OpsOf ports ranges ops) :=
      foldl_ranges ops (h := h) (fun n member => zero n ((of.1 n).mp member))
        (fun n member => same n ((of.2 n).mp member).1 ((of.2 n).mp member).2)
        (p := ⟨0, 0, 0⟩) rfl rfl
    by_cases ranged : ∃ r ∈ ranges, r ≠ 0
    · obtain ⟨r, member, nonzero⟩ := ranged
      refine ⟨⟨0, 0, h⟩, ⟨fun n port => (zero n port).symm, fun n range positive => by
        rw [same n range positive]⟩, fun ops of => ?_⟩
      rcases ends ops of with ⟨final, -⟩ | ⟨-, unranged⟩
      · exact final
      · exact absurd ((of.2 r).mpr ⟨member, nonzero⟩) (unranged r)
    · refine ⟨⟨0, 0, 0⟩, ⟨fun n port => (zero n port).symm, fun n range nonzero =>
        absurd ⟨n, range, nonzero⟩ ranged⟩, fun ops of => ?_⟩
      rcases ends ops of with ⟨-, n, member⟩ | ⟨final, -⟩
      · exact absurd ⟨n, (of.2 n).mp member⟩ ranged
      · exact final
  -- no range but zero: the ports decide
  · have ends (ops : List PortOp) (of : OpsOf ports ranges ops) :=
      foldl_ports ops (h := h) (fun n member => ((of.2 n).mp member).2 (zero n ((of.2 n).mp member).1))
        (fun n member => same n ((of.1 n).mp member)) ⟨0, 0, 0⟩
    have unranged (p : Ports) (n : Int) (range : n ∈ ranges) (nonzero : n ≠ 0) : p = ⟨0, 0, .ofInt n⟩ :=
      absurd (zero n range) nonzero
    cases ports with
    | nil =>
      refine ⟨⟨0, 0, 0⟩, ⟨by simp, unranged _⟩, fun ops of => ?_⟩
      have empty : ops = [] := by
        refine List.eq_nil_iff_forall_not_mem.mpr fun op member => ?_
        cases op with
        | port n => cases (of.1 n).mp member
        | range n => exact ((of.2 n).mp member).2 (zero n ((of.2 n).mp member).1)
      rw [empty]
      rfl
    | cons n ports =>
      refine ⟨⟨h, 0, 0⟩, ⟨fun n port => (same n port).symm, unranged _⟩, fun ops of => ?_⟩
      have some_op : ops ≠ [] := List.ne_nil_of_mem ((of.1 n).mpr List.mem_cons_self)
      rw [ends ops of, if_neg some_op]

/-! ### The ports that attributes match -/

variable {a : RuleAttrib} {d : Direction}

/-- The bits of the mask are those that the ranges set. -/
def BitsOf (ranges : List Int) (a : RuleAttrib) (d : Direction) : Prop :=
  (d.portBit ∈ a.attribMask ↔ 0 ∈ ranges) ∧ (d.rangeBit ∈ a.attribMask ↔ ∃ r ∈ ranges, r ≠ 0)

theorem toNat_ofInt {n : Int} (low : 0 ≤ n) (high : n < 2 ^ 16) : ((UInt16.ofInt n).toNat : Int) = n := by
  obtain ⟨m, rfl⟩ := Int.eq_ofNat_of_zero_le low
  have below : m < 2 ^ 16 := by exact_mod_cast high
  have same : UInt16.ofInt (m : Int) = UInt16.ofNat m := by
    rw [UInt16.ofInt]
    congr 1
    omega
  rw [same, UInt16.toNat_ofNat_of_lt' below]

/-- Ports that agree and are settled are those that the attributes match. -/
theorem PortsAgree.matchesAll (agree : PortsAgree ports ranges) (settled : PortsSettled ports ranges (d.ports a))
    (bits : BitsOf ranges a d) : MatchesAll ports ranges a d := by
  intro port given range member q
  rcases agree with ⟨rfl, -⟩ | ⟨p, low, high, some_range, zero, same⟩ | ⟨r, low, high, some_range, same, zero⟩
  · cases given
  · rw [if_neg some_range] at member
    obtain rfl : port = p := same port given
    obtain rfl : range = 0 := zero range member
    -- the bit for a single port is set, and no other
    have single : d.portBit ∈ a.attribMask := bits.1.mpr member
    have unranged : d.rangeBit ∉ a.attribMask := fun ranged => by
      obtain ⟨r, range, nonzero⟩ := bits.2.mp ranged
      exact nonzero (zero r range)
    have value := toNat_ofInt low high
    rw [← settled.port port given] at value
    constructor
    · rintro ⟨n, rfl, -, is_port⟩
      rw [is_port single, value]
      omega
    · rintro ⟨above, below⟩
      exact ⟨(d.ports a).port, by omega, fun ranged => absurd ranged unranged, fun _ => rfl⟩
  · rw [if_neg some_range] at member
    obtain rfl : range = r := same range member
    obtain rfl : port = 0 := zero port given
    have nonzero : range ≠ 0 := by omega
    have ranged : d.rangeBit ∈ a.attribMask := bits.2.mpr ⟨range, member, nonzero⟩
    have no_single : d.portBit ∉ a.attribMask := fun single => by
      have here := same 0 (bits.1.mp single)
      omega
    have value := toNat_ofInt (Int.le_of_lt low) high
    have ports := settled.ranged range member nonzero
    constructor
    · rintro ⟨n, rfl, within, -⟩
      obtain ⟨-, below⟩ := within ranged
      rw [ports] at below
      have below : n.toNat ≤ (UInt16.ofInt range).toNat := UInt16.le_iff_toNat_le.mp below
      omega
    · rintro ⟨above, below⟩
      refine ⟨.ofInt q, toNat_ofInt above (by omega), fun _ => ?_, fun single => absurd single no_single⟩
      have here := toNat_ofInt above (by omega : q < 2 ^ 16)
      rw [ports]
      refine ⟨UInt16.le_iff_toNat_le.mpr (Nat.zero_le _), UInt16.le_iff_toNat_le.mpr ?_⟩
      show (UInt16.ofInt q).toNat ≤ (UInt16.ofInt range).toNat
      omega

/-- Settled ports that the attributes match agree. -/
theorem PortsSettled.agree (settled : PortsSettled ports ranges (d.ports a)) (bits : BitsOf ranges a d)
    (all : MatchesAll ports ranges a d) : PortsAgree ports ranges := by
  by_cases unported : ports = []
  · refine .inl ⟨unported, fun r member r' member' nonzero nonzero' => ?_⟩
    have same := (settled.ranged r member nonzero).symm.trans (settled.ranged r' member' nonzero')
    exact (Ports.mk.inj same).2.2
  obtain ⟨port, given⟩ := List.exists_mem_of_ne_nil ports unported
  have some_range : ranges ≠ [] := by
    -- without a bit in the mask more than one port is matched
    intro none_range
    have every (n : UInt16) : d.Matches a n.toNat :=
      ⟨n, rfl, fun ranged => by simpa [none_range] using bits.2.mp ranged,
        fun single => by simpa [none_range] using bits.1.mp single⟩
    have here := all port given 0 (by simp [none_range])
    have zero := (here _).mp (every 0)
    have one := (here _).mp (every 1)
    simp at zero one
    omega
  rw [MatchesAll, if_neg some_range] at all
  by_cases ranged : ∃ r ∈ ranges, r ≠ 0
  · obtain ⟨r, member, nonzero⟩ := ranged
    have ports_are := settled.ranged r member nonzero
    have zero_matches : d.Matches a 0 :=
      ⟨0, rfl, fun _ => by rw [ports_are]; exact ⟨UInt16.le_refl 0, UInt16.le_iff_toNat_le.mpr (Nat.zero_le _)⟩,
        fun _ => by rw [ports_are]⟩
    -- zero is matched, so no port is above it; and a port is matched itself
    have zero_port (x : Int) (x_given : x ∈ ports) : x = 0 := by
      have inside := (all x x_given r member 0).mp zero_matches
      obtain ⟨n, same, -⟩ := (all x x_given r member x).mpr (by omega)
      omega
    have range_matches (r' : Int) (member' : r' ∈ ranges) :
        ∃ n : UInt16, (n.toNat : Int) = r' ∧ (d.portBit ∈ a.attribMask → n = 0) := by
      have inside := (all port given r' member' 0).mp zero_matches
      have zero := zero_port port given
      obtain ⟨n, same, -, single⟩ := (all port given r' member' r').mpr (by omega)
      exact ⟨n, same, fun bit => by rw [single bit, ports_are]⟩
    have no_single : d.portBit ∉ a.attribMask := by
      intro single
      obtain ⟨n, same, is_zero⟩ := range_matches r member
      rw [is_zero single] at same
      exact nonzero same.symm
    have value (r' : Int) (member' : r' ∈ ranges) : r' = (d.ports a).hi.toNat := by
      have nonzero' : r' ≠ 0 := fun zero => no_single (bits.1.mpr (zero ▸ member'))
      obtain ⟨n, same, -⟩ := range_matches r' member'
      have below := n.toNat_lt
      rw [settled.ranged r' member' nonzero', toNat_ofInt (by omega) (by omega)]
    refine .inr (.inr ⟨r, ?_, ?_, some_range, fun r' member' => ?_, zero_port⟩)
    · have here := value r member
      omega
    · have here := value r member
      have below := (d.ports a).hi.toNat_lt
      omega
    · rw [value r' member', value r member]
  · have zero_range (r : Int) (member : r ∈ ranges) : r = 0 := by
      by_contra nonzero
      exact ranged ⟨r, member, nonzero⟩
    obtain ⟨r, member⟩ := List.exists_mem_of_ne_nil ranges some_range
    have zero : 0 ∈ ranges := zero_range r member ▸ member
    have value (x : Int) (x_given : x ∈ ports) : x = (d.ports a).port.toNat := by
      obtain ⟨n, same, -, single⟩ := (all x x_given 0 zero x).mpr (by omega)
      rw [← same, single (bits.1.mpr zero)]
    refine .inr (.inl ⟨(d.ports a).port.toNat, by omega, ?_, some_range, zero_range, value⟩)
    have below := (d.ports a).port.toNat_lt
    omega

end Ports

/-! ### The attributes after an element -/

section Attributes

variable {libc : Libc} {u : UnionLayout} {config : IpacmFirewallConf} {f : FirewallElement}

/-- The attributes after the assignments of an element. -/
def FirewallElement.attrib (libc : Libc) (u : UnionLayout) (f : FirewallElement) : RuleAttrib :=
  (f.assigns libc).foldl (Assign.attrib u) {}

theorem attrib_foldl (xs : List Assign) (e : FirewallEntry) :
    (xs.foldl (Assign.run u) e).attrib = xs.foldl (Assign.attrib u) e.attrib := by
  induction xs generalizing e with
  | nil => rfl
  | cons x xs ih => exact ih (x.run u e)

/-- The family is no attribute. -/
theorem attrib_family (f : FirewallElement) (a : RuleAttrib) :
    (leafAssigns libc f.family).foldl (Assign.attrib u) a = a := by
  rw [leafAssigns, f.isFamily]
  cases readContentElement f.family.2 <;> rfl

/-- An element is parsed when there is an entry for it and its texts fit; the attributes are those that it
assigns to an entry that the `memset` has cleared. -/
theorem parsed_iff (cleared : ∀ e ∈ config.extdFirewallEntries.push.last?, e = ⟨{}, 0⟩)
    (addresses : ∀ node ∈ f.leaves, AddressText libc node) (a : RuleAttrib) :
    f.Parsed libc u config a ↔ InBounds maxFirewallEntries (config.num + 1) ∧
      (∀ node ∈ f.family :: f.leaves, TextFits node) ∧ ofFamily f.ip (f.attrib libc u) = a := by
  have counted : config.extdFirewallEntries.push.last?.isSome ↔
      InBounds maxFirewallEntries (config.num + 1) := Table.last?_isSome _
  have attributes (e : FirewallEntry) (zero : e = ⟨{}, 0⟩) :
      ((leafAssigns libc f.family ++ f.assigns libc).foldl (Assign.run u) e).attrib = f.attrib libc u := by
    rw [attrib_foldl, List.foldl_append, attrib_family, zero, attrib]
  constructor
  · rintro ⟨config', e, parsed, last, rfl⟩
    rw [element_last addresses parsed] at last
    obtain ⟨e₀, start, rfl⟩ := Option.map_eq_some_iff.mp last
    have bounds := counted.mp (by rw [start]; rfl)
    exact ⟨bounds, (element_isSome libc u f bounds).mp (by rw [parsed]; rfl),
      by rw [attributes e₀ (cleared e₀ start)]⟩
  · rintro ⟨bounds, texts, rfl⟩
    obtain ⟨config', parsed⟩ := Option.isSome_iff_exists.mp ((element_isSome libc u f bounds).mpr texts)
    obtain ⟨e₀, start⟩ := Option.isSome_iff_exists.mp (counted.mpr bounds)
    refine ⟨config', _, parsed, by rw [element_last addresses parsed, start]; rfl, ?_⟩
    rw [attributes e₀ (cleared e₀ start)]

/-! ### Which leaf does what -/

/-- What is assigned is assigned by a leaf, or is the bit of a group. -/
theorem assigned_leaf {x : Assign} (assigned : x ∈ f.assigns libc) :
    (∃ node ∈ f.leaves, x ∈ leafAssigns libc node) ∨ ∃ tag : FirewallTag, ∃ b ∈ tag.marks, x = .bit b := by
  obtain ⟨c, child, assigned⟩ := List.mem_flatMap.mp assigned
  cases c with
  | leaf node => exact .inl ⟨node.val, List.mem_flatMap.mpr ⟨_, child, List.mem_singleton_self _⟩, assigned⟩
  | group label tag known isGroup leaves =>
    rcases List.mem_append.mp assigned with mark | below
    · obtain ⟨b, marks, rfl⟩ := List.mem_map.mp mark
      exact .inr ⟨tag, b, Option.mem_toList.mp marks, rfl⟩
    · obtain ⟨node, inside, assigned⟩ := List.mem_flatMap.mp below
      exact .inl ⟨node.val, List.mem_flatMap.mpr ⟨_, child, List.mem_map_of_mem inside⟩, assigned⟩

/-- What is done to fields and ports is done by leaves. -/
theorem ops_leaf {β : Type} {does : Assign → Option β} (silent : ∀ b, does (.bit b) = none) {op : β}
    (member : op ∈ (f.assigns libc).filterMap does) :
    ∃ node ∈ f.leaves, op ∈ (leafAssigns libc node).filterMap does := by
  obtain ⟨x, assigned, done⟩ := List.mem_filterMap.mp member
  rcases assigned_leaf assigned with ⟨node, leaf, here⟩ | ⟨tag, b, -, rfl⟩
  · exact ⟨node, leaf, List.mem_filterMap.mpr ⟨x, here, done⟩⟩
  · cases (silent b).symm.trans done

/-- What a leaf assigns is assigned by the element. -/
theorem leaf_assigned {node : XmlLabel × XmlNode} (member : node ∈ f.leaves) {x : Assign}
    (assigned : x ∈ leafAssigns libc node) : x ∈ f.assigns libc := by
  obtain ⟨c, child, inside⟩ := List.mem_flatMap.mp member
  refine List.mem_flatMap.mpr ⟨c, child, ?_⟩
  cases c with
  | leaf node' =>
    obtain rfl := List.mem_singleton.mp inside
    exact assigned
  | group label tag known isGroup leaves =>
    obtain ⟨node', here, rfl⟩ := List.mem_map.mp inside
    exact List.mem_append_right _ (List.mem_flatMap.mpr ⟨node', here, assigned⟩)

/-- An operation of a leaf comes last in some order. -/
theorem exists_last_op {β : Type} {does : Assign → Option β} (silent : ∀ b, does (.bit b) = none)
    (single : ∀ node (op : β), op ∈ (leafAssigns libc node).filterMap does →
      (leafAssigns libc node).filterMap does = [op]) {op : β} (member : op ∈ (f.assigns libc).filterMap does) :
    ∃ children, Rearranged f.children children ∧ ∃ earlier,
      ({ f with children := children }.assigns libc).filterMap does = earlier ++ [op] := by
  obtain ⟨node, leaf, does_it⟩ := ops_leaf silent member
  obtain ⟨children, rearranged, earlier, last⟩ := exists_last libc f leaf
  exact ⟨children, rearranged, earlier.filterMap does, by
    rw [last, List.filterMap_append, single node op does_it]⟩

theorem leaf_op {β : Type} {does : Assign → Option β} {node : XmlLabel × XmlNode} (member : node ∈ f.leaves)
    {op : β} (done : op ∈ (leafAssigns libc node).filterMap does) :
    op ∈ (f.assigns libc).filterMap does := by
  obtain ⟨x, assigned, does_it⟩ := List.mem_filterMap.mp done
  exact List.mem_filterMap.mpr ⟨x, leaf_assigned member assigned, does_it⟩

/-- What is done to the ports of a direction is what the ports and ranges of the elements say. -/
theorem opsOf (libc : Libc) (f : FirewallElement) (d : Direction) :
    OpsOf (f.ports d) (f.ranges d) ((f.assigns libc).filterMap (Assign.portOp d)) := by
  have silent (b : FltBit) : (Assign.bit b).portOp d = none := rfl
  constructor
  · intro n
    constructor
    · intro member
      obtain ⟨node, leaf, done⟩ := ops_leaf silent member
      rw [leaf_portOps] at done
      exact List.mem_filterMap.mpr ⟨node, leaf, by simpa using done⟩
    · intro given
      obtain ⟨node, leaf, number⟩ := List.mem_filterMap.mp given
      exact leaf_op leaf (by rw [leaf_portOps]; simp [number])
  · intro n
    constructor
    · intro member
      obtain ⟨node, leaf, done⟩ := ops_leaf silent member
      rw [leaf_portOps] at done
      have given : numberOf (FirewallTag.givesRange d) node = some n ∧ n ≠ 0 := by simpa using done
      exact ⟨List.mem_filterMap.mpr ⟨node, leaf, given.1⟩, given.2⟩
    · rintro ⟨given, nonzero⟩
      obtain ⟨node, leaf, number⟩ := List.mem_filterMap.mp given
      exact leaf_op leaf (by rw [leaf_portOps]; simp [number, nonzero])

/-- The bits for the ports are those that the ranges set. -/
theorem bitsOf (libc : Libc) (u : UnionLayout) (f : FirewallElement) (d : Direction) :
    BitsOf (f.ranges d) (f.attrib libc u) d := by
  have unmarked (tag : FirewallTag) : d.portBit ∉ tag.marks ∧ d.rangeBit ∉ tag.marks := by
    cases d <;> cases tag <;> simp [FirewallTag.marks, Direction.portBit, Direction.rangeBit]
  have assigned (b : FltBit) : b ∈ (f.attrib libc u).attribMask ↔ .bit b ∈ f.assigns libc := by
    refine (mem_attribMask_foldl u b (f.assigns libc) {}).trans ?_
    simp
  -- no group marks these bits, so they come from leaves
  have leaf {b : FltBit} (none_marks : ∀ tag : FirewallTag, b ∉ tag.marks) :
      .bit b ∈ f.assigns libc ↔ ∃ node ∈ f.leaves, .bit b ∈ leafAssigns libc node := by
    constructor
    · intro member
      rcases assigned_leaf member with here | ⟨tag, b', marks, same⟩
      · exact here
      · cases same
        exact absurd marks (none_marks tag)
    · rintro ⟨node, member, here⟩
      exact leaf_assigned member here
  constructor
  · rw [assigned, leaf fun tag => (unmarked tag).1, ranges, List.mem_filterMap]
    exact exists_congr fun node => and_congr_right fun _ => (leaf_bit libc node d).1
  · rw [assigned, leaf fun tag => (unmarked tag).2]
    simp only [(leaf_bit libc _ d).2, ranges, List.mem_filterMap]
    constructor
    · rintro ⟨node, member, n, number, nonzero⟩
      exact ⟨n, ⟨node, member, number⟩, nonzero⟩
    · rintro ⟨n, ⟨node, member, number⟩, nonzero⟩
      exact ⟨node, member, n, number, nonzero⟩

/-! ### Both directions -/

theorem get_ofFamily {ip : IpaIpType} {fld : Field} (own : fld.InFamily ip) (a : RuleAttrib) :
    fld.get (ofFamily ip a) = fld.get a := by
  cases ip <;> cases fld <;> first | rfl | cases own _ rfl

theorem ports_ofFamily (ip : IpaIpType) (a : RuleAttrib) (d : Direction) :
    d.ports (ofFamily ip a) = d.ports a := by
  cases ip <;> cases d <;> rfl

theorem attribMask_ofFamily (ip : IpaIpType) (a : RuleAttrib) : (ofFamily ip a).attribMask = a.attribMask := by
  cases ip <;> rfl

theorem get_attrib_element {fld : Field} (regular : f.Regular libc) (own : fld.InFamily f.ip) :
    fld.get (f.attrib libc u) = ((f.assigns libc).filterMap (Assign.opOn fld)).foldl (Op.run (· &&& ·)) 0 := by
  have start : fld.get {} = 0 := by
    cases fld <;> first | rfl | exact Vector.getElem_replicate (Fin.isLt _)
  rw [attrib, get_foldl u own regular.family, start]

variable (libc u f) in
theorem ports_attrib_element (d : Direction) :
    d.ports (f.attrib libc u) = ((f.assigns libc).filterMap (Assign.portOp d)).foldl run ⟨0, 0, 0⟩ := by
  have start : d.ports {} = ⟨0, 0, 0⟩ := by cases d <;> rfl
  rw [attrib, ports_foldl, start]

theorem Regular.rearranged (regular : f.Regular libc) {children : List FirewallChild}
    (rearranged : Rearranged f.children children) : { f with children := children }.Regular libc :=
  ⟨fun x member => regular.family x ((assigns_rearranged rearranged).mem_iff.mpr member),
    fun node member => regular.addresses node ((leaves_rearranged rearranged).mem_iff.mpr member)⟩

/-- When the assignments agree, the order does not matter. -/
theorem orderIndependent_of_agrees (cleared : ∀ e ∈ config.extdFirewallEntries.push.last?, e = ⟨{}, 0⟩)
    (agrees : f.Agrees libc config) : f.OrderIndependent libc u config := by
  have regular := agrees.regular
  refine ⟨ofFamily f.ip (f.attrib libc u), fun children rearranged => ?_, fun d => ?_⟩
  · have perm : (f.assigns libc).Perm ({ f with children := children }.assigns libc) :=
      assigns_rearranged rearranged
    have regular' := Regular.rearranged regular rearranged
    have texts : ∀ node ∈ f.family :: { f with children := children }.leaves, TextFits node := by
      intro node member
      refine agrees.texts node ?_
      rcases List.mem_cons.mp member with rfl | member
      · exact List.mem_cons_self
      · exact List.mem_cons_of_mem _ ((leaves_rearranged rearranged).mem_iff.mpr member)
    refine (parsed_iff cleared regular'.addresses _).mpr ⟨agrees.counted, texts, ?_⟩
    refine ofFamily_ext ?_ ?_ (fun d => ?_) (fun fld own => ?_)
    · refine Finset.ext fun b => ?_
      rw [attrib, attrib, mem_attribMask_foldl, mem_attribMask_foldl, perm.mem_iff]
    · rw [attrib, attrib]
      simp only [metaData_foldl, and_self]
    · obtain ⟨p, -, final⟩ := (agrees.ports d).foldl
      have of := opsOf libc f d
      rw [ports_attrib_element, ports_attrib_element, final _ (of.perm (perm.filterMap _)), final _ of]
    · rw [get_attrib_element regular' own, get_attrib_element regular own]
      exact (agrees.fields fld own).foldl_perm (perm.filterMap _) fun m _ => by simp
  · obtain ⟨p, settled, final⟩ := (agrees.ports d).foldl
    refine (agrees.ports d).matchesAll ?_ ?_
    · rw [ports_ofFamily, ports_attrib_element, final _ (opsOf libc f d)]
      exact settled
    · rw [BitsOf, attribMask_ofFamily]
      exact bitsOf libc u f d

/-! ### Only when the assignments agree -/

variable {a : RuleAttrib}

theorem port_foldl_zero {ops : List PortOp} (zero : ∀ n, .port n ∈ ops → UInt16.ofInt n = 0) {p : Ports}
    (start : p.port = 0) : (ops.foldl run p).port = 0 := by
  induction ops generalizing p with
  | nil => exact start
  | cons op ops ih =>
    refine ih (fun n member => zero n (List.mem_cons_of_mem op member)) ?_
    cases op with
    | port n => exact zero n List.mem_cons_self
    | range n => rfl

/-- When every order leads to the same attributes, every operation on a field leaves what they have. -/
theorem fields_steady (regular : f.Regular libc) (same : ∀ children, Rearranged f.children children →
      ofFamily f.ip ({ f with children := children }.attrib libc u) = a)
    {fld : Field} (own : fld.InFamily f.ip) :
    Steady (· &&& ·) ((f.assigns libc).filterMap (Assign.opOn fld)) := by
  refine steady_of_last (a := fld.get a) (fun c m => by rw [UInt32.and_assoc, UInt32.and_self]) fun op member => ?_
  obtain ⟨children, rearranged, earlier, last⟩ :=
    exists_last_op (fun b => rfl) (fun node op => leaf_ops_single libc) member
  have final := get_attrib_element (u := u) (Regular.rearranged regular rearranged) own
  rw [last, List.foldl_append, ← get_ofFamily own, same children rearranged] at final
  exact ⟨_, final.symm⟩

/-- The ports are then settled: a port that comes last is kept, and a range that comes last starts at a
port of zero. -/
theorem ports_settled (same : ∀ children, Rearranged f.children children →
      ofFamily f.ip ({ f with children := children }.attrib libc u) = a) (d : Direction) :
    PortsSettled (f.ports d) (f.ranges d) (d.ports a) := by
  have of := opsOf libc f d
  have last {op : PortOp} (member : op ∈ (f.assigns libc).filterMap (Assign.portOp d)) :
      ∃ earlier : List PortOp, (∀ n, .port n ∈ earlier → n ∈ f.ports d) ∧
        d.ports a = op.run (earlier.foldl run ⟨0, 0, 0⟩) := by
    obtain ⟨children, rearranged, earlier, last⟩ :=
      exists_last_op (fun b => rfl) (fun node op => leaf_portOps_single libc) member
    have of' := of.perm ((assigns_rearranged rearranged).filterMap (Assign.portOp d))
    have final := ports_attrib_element libc u { f with children := children } d
    rw [last] at of'
    rw [last, List.foldl_append, ← ports_ofFamily f.ip, same children rearranged] at final
    exact ⟨earlier, fun n member => (of'.1 n).mp (List.mem_append_left _ member), final⟩
  have port : ∀ n ∈ f.ports d, (d.ports a).port = .ofInt n := by
    intro n given
    obtain ⟨earlier, -, final⟩ := last ((of.1 n).mpr given)
    rw [final]
    rfl
  refine ⟨port, fun n given nonzero => ?_⟩
  obtain ⟨earlier, inside, final⟩ := last ((of.2 n).mpr ⟨given, nonzero⟩)
  -- the range clears the port, and a port that comes last would be kept: so all ports are zero
  have none_left : (d.ports a).port = 0 := by
    rw [final]
    rfl
  have start : (earlier.foldl run ⟨0, 0, 0⟩).port = 0 :=
    port_foldl_zero (fun n' member => (port n' (inside n' member)).symm.trans none_left) rfl
  rw [final, run, Ports.withRange, start]
  simp

/-- When the order does not matter, the assignments agree. -/
theorem agrees_of_orderIndependent (cleared : ∀ e ∈ config.extdFirewallEntries.push.last?, e = ⟨{}, 0⟩)
    (regular : f.Regular libc) (independent : f.OrderIndependent libc u config) :
    f.Agrees libc config := by
  obtain ⟨a, parsed, all⟩ := independent
  -- the entry after each order is that of the assignments in this order
  have reached (children : List FirewallChild) (rearranged : Rearranged f.children children) :=
    (parsed_iff cleared (Regular.rearranged regular rearranged).addresses a).mp (parsed children rearranged)
  have same (children : List FirewallChild) (rearranged : Rearranged f.children children) :
      ofFamily f.ip ({ f with children := children }.attrib libc u) = a := (reached children rearranged).2.2
  obtain ⟨counted, texts, here⟩ := reached f.children (.refl f.children)
  have bits (d : Direction) : BitsOf (f.ranges d) a d := by
    rw [BitsOf, ← here, attribMask_ofFamily]
    exact bitsOf libc u f d
  exact ⟨regular, counted, texts, fun fld own => fields_steady regular same own,
    fun d => (ports_settled same d).agree (bits d) (all d)⟩

end Attributes

/-! ### Elements of a file -/

/-- An element of the file leads to the same attributes in every order of its siblings, and to the ports it
gives, when its assignments agree; and only then, when its elements are those of its family. -/
theorem sibling_order_irrelevant_iff {libc : Libc} {u : UnionLayout} {n : Nat} {config : IpacmFirewallConf}
    (reached : Reached libc u n config) (few : n < 255) (f : FirewallElement) :
    (f.Agrees libc config → f.OrderIndependent libc u config) ∧
    (f.Regular libc → f.OrderIndependent libc u config → f.Agrees libc config) :=
  ⟨orderIndependent_of_agrees (reached.next_cleared few),
    agrees_of_orderIndependent (reached.next_cleared few)⟩

def sampleLibc : Libc := ⟨fun _ => 0, fun _ => none, .replicate 4 0⟩

def sampleUnion : UnionLayout := ⟨fun _ v6 => v6, fun _ v4 => v4⟩

/-- The names in the element below are those of tags. -/
theorem sample_tags :
    firewallTagOf (.element (text "Firewall")) = some .firewall ∧
    firewallTagOf (.element (text "IPFamily")) = some .ipFamily ∧
    firewallTagOf (.element (text "TCPSource")) = some .tcpSource ∧
    firewallTagOf (.element (text "TCPSourcePort")) = some .tcpSourcePort ∧
    firewallTagOf (.element (text "TCPSourceRange")) = some .tcpSourceRange := by
  decide +kernel

/-- `<Firewall>` with `<TCPSource>`. -/
def tcpSourceElement (leaves : List { node // IsLeaf node }) : FirewallElement where
  label := .element (text "Firewall")
  isFirewall := sample_tags.1
  family := leaf "IPFamily" "4"
  isFamily := sample_tags.2.1
  children := [.group (.element (text "TCPSource")) .tcpSource sample_tags.2.2.1 rfl leaves]

def tcpSourcePort : { node // IsLeaf node } :=
  ⟨leaf "TCPSourcePort" "80", isLeaf_of_tag sample_tags.2.2.2.1 rfl nofun⟩

def tcpSourceRange : { node // IsLeaf node } :=
  ⟨leaf "TCPSourceRange" "10", isLeaf_of_tag sample_tags.2.2.2.2 rfl nofun⟩

def noTcpSourceRange : { node // IsLeaf node } := ⟨leaf "TCPSourceRange" "0", tcpSourceRange.property⟩

theorem port_tag : firewallTagOf tcpSourcePort.val.1 = some .tcpSourcePort := sample_tags.2.2.2.1

theorem range_tag : firewallTagOf tcpSourceRange.val.1 = some .tcpSourceRange := sample_tags.2.2.2.2

theorem noRange_tag : firewallTagOf noTcpSourceRange.val.1 = some .tcpSourceRange := sample_tags.2.2.2.2

theorem leaves_tcpSourceElement (leaves : List { node // IsLeaf node }) :
    (tcpSourceElement leaves).leaves = leaves.map Subtype.val := List.flatMap_singleton ..

theorem assigns_tcpSourceElement (leaves : List { node // IsLeaf node }) :
    (tcpSourceElement leaves).assigns sampleLibc = leaves.flatMap fun node => leafAssigns sampleLibc node.val :=
  List.flatMap_singleton ..

theorem port_assigns : leafAssigns sampleLibc tcpSourcePort.val = [.port .src 80] := by
  rw [leafAssigns_of_tag _ port_tag rfl]
  decide

theorem range_assigns : leafAssigns sampleLibc tcpSourceRange.val = [.bit .srcPortRange, .range .src 10] := by
  rw [leafAssigns_of_tag _ range_tag rfl]
  decide

theorem noRange_assigns : leafAssigns sampleLibc noTcpSourceRange.val = [.bit .srcPort] := by
  rw [leafAssigns_of_tag _ noRange_tag rfl]
  decide

variable {leaves : List { node // IsLeaf node }}

/-- The leaves of a sample are read, whatever they are. -/
theorem sample_leaves (sample : leaves ⊆ [tcpSourcePort, tcpSourceRange, noTcpSourceRange]) :
    ∀ node ∈ (tcpSourceElement leaves).leaves, AddressText sampleLibc node ∧ TextFits node := by
  intro node member
  rw [leaves_tcpSourceElement] at member
  obtain ⟨node, inside, rfl⟩ := List.mem_map.mp member
  have known := sample inside
  simp only [List.mem_cons, List.not_mem_nil, or_false] at known
  rcases known with rfl | rfl | rfl
  · exact ⟨addressText_of_tag _ port_tag rfl, textFits_leaf (by decide)⟩
  · exact ⟨addressText_of_tag _ range_tag rfl, textFits_leaf (by decide)⟩
  · exact ⟨addressText_of_tag _ noRange_tag rfl, textFits_leaf (by decide)⟩

theorem sample_texts (sample : leaves ⊆ [tcpSourcePort, tcpSourceRange, noTcpSourceRange]) :
    ∀ node ∈ (tcpSourceElement leaves).family :: (tcpSourceElement leaves).leaves, TextFits node :=
  List.forall_mem_cons.mpr ⟨textFits_leaf (by decide), fun node member => (sample_leaves sample node member).2⟩

/-- A port with a range of zero agrees. -/
theorem single_port_order_irrelevant :
    (tcpSourceElement [tcpSourcePort, noTcpSourceRange]).OrderIndependent sampleLibc sampleUnion {} := by
  have assigns : (tcpSourceElement [tcpSourcePort, noTcpSourceRange]).assigns sampleLibc =
      [.port .src 80, .bit .srcPort] := by
    rw [assigns_tcpSourceElement, List.flatMap_cons, List.flatMap_singleton, port_assigns, noRange_assigns]
    rfl
  have numbers (gives : FirewallTag → Bool) :
      (tcpSourceElement [tcpSourcePort, noTcpSourceRange]).leaves.filterMap (numberOf gives) =
        (if gives .tcpSourcePort then some 80 else none).toList ++
          (if gives .tcpSourceRange then some 0 else none).toList := by
    have port : atoi (text "80") = 80 := by decide
    have range : atoi (text "0") = 0 := by decide
    rw [leaves_tcpSourceElement, List.map_cons, List.map_singleton, List.filterMap_eq_flatMap_toList,
      List.flatMap_cons, List.flatMap_singleton, numberOf_of_tag port_tag rfl, numberOf_of_tag noRange_tag rfl,
      port, range]
  have sample : [tcpSourcePort, noTcpSourceRange] ⊆ [tcpSourcePort, tcpSourceRange, noTcpSourceRange] := by simp
  refine (sibling_order_irrelevant_iff .start (by decide) _).1
    ⟨⟨?_, fun node member => (sample_leaves sample node member).1⟩, by decide, sample_texts sample,
      fun fld _ => ?_, fun d => ?_⟩
  · rw [assigns]
    decide
  · rw [assigns]
    exact ⟨by simp [Assign.opOn], by simp [Assign.opOn]⟩
  · rw [ports, ranges, numbers, numbers]
    cases d with
    | src => exact .inr (.inl ⟨80, by decide, by decide, by decide, by decide, by decide⟩)
    | dst => exact .inl ⟨by decide, by decide⟩

/-- The source ports of the last entry after an element. -/
def sourcePorts (f : FirewallElement) : Option Ports :=
  (ipacmFirewallXmlParseTree sampleLibc sampleUnion (chain [f.node]) {}).bind fun config =>
    config.extdFirewallEntries.last?.map fun e => Direction.src.ports e.attrib

theorem sourcePorts_parsed {f : FirewallElement} {a : RuleAttrib}
    (parsed : f.Parsed sampleLibc sampleUnion {} a) : sourcePorts f = some (Direction.src.ports a) := by
  obtain ⟨config, e, parsed, last, rfl⟩ := parsed
  rw [sourcePorts, parsed, Option.bind_some, last, Option.map_some, ports_ofFamily]

/-- The source ports are those that the leaves assign, one after the other. -/
theorem sourcePorts_sample (sample : leaves ⊆ [tcpSourcePort, tcpSourceRange, noTcpSourceRange]) :
    sourcePorts (tcpSourceElement leaves) =
      some (((leaves.flatMap fun node => leafAssigns sampleLibc node.val).filterMap
        (Assign.portOp .src)).foldl run ⟨0, 0, 0⟩) := by
  have cleared := (@Reached.start sampleLibc sampleUnion).next_cleared (by decide)
  have addresses := fun node member => (sample_leaves sample node member).1
  have parsed := (@parsed_iff sampleLibc sampleUnion _ _ cleared addresses _).mpr
    ⟨by decide, sample_texts sample, rfl⟩
  rw [sourcePorts_parsed parsed, ports_ofFamily, ports_attrib_element, assigns_tcpSourceElement]

/-- A range moves the port that it finds: in front of the port it finds none. -/
theorem range_before_port :
    sourcePorts (tcpSourceElement [tcpSourcePort, tcpSourceRange]) = some ⟨0, 80, 90⟩ ∧
    sourcePorts (tcpSourceElement [tcpSourceRange, tcpSourcePort]) = some ⟨80, 0, 10⟩ ∧
    ¬ (tcpSourceElement [tcpSourcePort, tcpSourceRange]).OrderIndependent sampleLibc sampleUnion {} := by
  have before : sourcePorts (tcpSourceElement [tcpSourcePort, tcpSourceRange]) = some ⟨0, 80, 90⟩ := by
    rw [sourcePorts_sample (by simp), List.flatMap_cons, List.flatMap_singleton, port_assigns, range_assigns]
    decide
  have behind : sourcePorts (tcpSourceElement [tcpSourceRange, tcpSourcePort]) = some ⟨80, 0, 10⟩ := by
    rw [sourcePorts_sample (by simp), List.flatMap_cons, List.flatMap_singleton, port_assigns, range_assigns]
    decide
  refine ⟨before, behind, ?_⟩
  rintro ⟨a, parsed, -⟩
  have given := sourcePorts_parsed (parsed _ (.refl _))
  have swapped := sourcePorts_parsed (parsed (tcpSourceElement [tcpSourceRange, tcpSourcePort]).children
    ⟨_, .cons (.group (List.Perm.swap _ _ [])) .nil, List.Perm.refl _⟩)
  cases (before.symm.trans given).trans (swapped.symm.trans behind)

end Hima.Xml
