import Hima.Lib.Register
import Hima.Xml.FirewallElement

/-!
# The fields of an entry under assignments

Assignments to different fields have nothing to do with each other, as long as they stay on the side of
the union that the family has. So each field, each direction's ports and the mask can be followed on
their own.
-/
namespace Hima.Xml

open Register Assign FirewallTag
open Wan (IpaIpType FltBit RuleAttrib AttribV4 AttribV6)

/-! ### Families -/

/-- The side of the union that a field is on. -/
def Field.side : Field → Option IpaIpType
  | .type | .code | .spi => none
  | .v4Tos | .v4Protocol | .v4SrcAddr | .v4SrcAddrMask | .v4DstAddr | .v4DstAddrMask => some .v4
  | .v6Tc | .v6NextHdr | .v6SrcAddr _ | .v6SrcAddrMask _ | .v6DstAddr _ | .v6DstAddrMask _ => some .v6

def Field.InFamily (ip : IpaIpType) (f : Field) : Prop := ∀ side ∈ f.side, side = ip

instance (ip : IpaIpType) (f : Field) : Decidable (f.InFamily ip) :=
  inferInstanceAs (Decidable (∀ side ∈ f.side, _))

def Assign.InFamily (ip : IpaIpType) : Assign → Prop
  | .set f _ => f.InFamily ip
  | .and f _ => f.InFamily ip
  | _ => True

instance (ip : IpaIpType) : ∀ x : Assign, Decidable (x.InFamily ip)
  | .set f _ | .and f _ => inferInstanceAs (Decidable (f.InFamily ip))
  | .ipVsn _ | .bit _ | .port _ _ | .range _ _ => inferInstanceAs (Decidable True)

/-- The attributes that a rule of the family has: the other side of the union is none of them. -/
def ofFamily (ip : IpaIpType) (a : RuleAttrib) : RuleAttrib :=
  match ip with
  | .v4 => { a with v6 := {} }
  | .v6 => { a with v4 := {} }

theorem toUInt32_injective {x y : UInt8} (same : x.toUInt32 = y.toUInt32) : x = y :=
  UInt8.toUInt32_inj.mp same

theorem attribV4_ext {a b : RuleAttrib} (fields : ∀ f : Field, f.side = some .v4 → f.get a = f.get b) :
    a.v4 = b.v4 := by
  have tos : a.v4.tos = b.v4.tos := toUInt32_injective (fields .v4Tos rfl)
  have protocol : a.v4.protocol = b.v4.protocol := toUInt32_injective (fields .v4Protocol rfl)
  have srcAddr : a.v4.srcAddr = b.v4.srcAddr := fields .v4SrcAddr rfl
  have srcAddrMask : a.v4.srcAddrMask = b.v4.srcAddrMask := fields .v4SrcAddrMask rfl
  have dstAddr : a.v4.dstAddr = b.v4.dstAddr := fields .v4DstAddr rfl
  have dstAddrMask : a.v4.dstAddrMask = b.v4.dstAddrMask := fields .v4DstAddrMask rfl
  calc a.v4 = ⟨a.v4.tos, a.v4.protocol, a.v4.srcAddr, a.v4.srcAddrMask, a.v4.dstAddr, a.v4.dstAddrMask⟩ := rfl
    _ = b.v4 := by rw [tos, protocol, srcAddr, srcAddrMask, dstAddr, dstAddrMask]

theorem attribV6_ext {a b : RuleAttrib} (fields : ∀ f : Field, f.side = some .v6 → f.get a = f.get b) :
    a.v6 = b.v6 := by
  have tc : a.v6.tc = b.v6.tc := toUInt32_injective (fields .v6Tc rfl)
  have nextHdr : a.v6.nextHdr = b.v6.nextHdr := toUInt32_injective (fields .v6NextHdr rfl)
  have srcAddr : a.v6.srcAddr = b.v6.srcAddr := Vector.ext fun i below => fields (.v6SrcAddr ⟨i, below⟩) rfl
  have srcAddrMask : a.v6.srcAddrMask = b.v6.srcAddrMask :=
    Vector.ext fun i below => fields (.v6SrcAddrMask ⟨i, below⟩) rfl
  have dstAddr : a.v6.dstAddr = b.v6.dstAddr := Vector.ext fun i below => fields (.v6DstAddr ⟨i, below⟩) rfl
  have dstAddrMask : a.v6.dstAddrMask = b.v6.dstAddrMask :=
    Vector.ext fun i below => fields (.v6DstAddrMask ⟨i, below⟩) rfl
  calc a.v6 = ⟨a.v6.tc, a.v6.nextHdr, a.v6.srcAddr, a.v6.srcAddrMask, a.v6.dstAddr, a.v6.dstAddrMask⟩ := rfl
    _ = b.v6 := by rw [tc, nextHdr, srcAddr, srcAddrMask, dstAddr, dstAddrMask]

/-- Attributes are equal when the mask, the ports and the fields of the family are. -/
theorem ofFamily_ext {ip : IpaIpType} {a b : RuleAttrib} (mask : a.attribMask = b.attribMask)
    (metaData : a.metaData = b.metaData ∧ a.metaDataMask = b.metaDataMask)
    (ports : ∀ d : Direction, d.ports a = d.ports b)
    (fields : ∀ f : Field, f.InFamily ip → f.get a = f.get b) : ofFamily ip a = ofFamily ip b := by
  have src := ports .src
  have dst := ports .dst
  simp only [Direction.ports, Ports.mk.injEq] at src dst
  have type : a.type = b.type := toUInt32_injective (fields .type (by simp [Field.InFamily, Field.side]))
  have code : a.code = b.code := toUInt32_injective (fields .code (by simp [Field.InFamily, Field.side]))
  have spi : a.spi = b.spi := fields .spi (by simp [Field.InFamily, Field.side])
  have own (f : Field) (side : f.side = some ip) : f.get a = f.get b :=
    fields f (by simp [Field.InFamily, side])
  cases ip with
  | v4 => simp [ofFamily, mask, metaData, src, dst, type, code, spi, attribV4_ext own]
  | v6 => simp [ofFamily, mask, metaData, src, dst, type, code, spi, attribV6_ext own]

/-! ### One field -/

/-- What an assignment does to a field, as an operation on a register. -/
def Assign.opOn (f : Field) : Assign → Option (Op UInt32)
  | .set g n => if g = f then some (.set (f.keep n)) else none
  | .and g n => if g = f then some (.and (f.keep n)) else none
  | _ => none

abbrev Op.apply (c : UInt32) (op : Op UInt32) : UInt32 := op.run (· &&& ·) c

/-- Only the word of an address that is written changes. -/
theorem get_word (v : Vector UInt32 4) (i j : Fin 4) (w : UInt32) :
    (v.setIfInBounds j w).get i = if j = i then w else v.get i :=
  (Vector.getElem_setIfInBounds i.isLt).trans (if_congr Fin.ext_iff.symm rfl rfl)

variable (u : UnionLayout) (a : RuleAttrib)

theorem get_put_keep (n : Int) (f : Field) :
    f.get (f.put u a (f.keep n)) = f.keep n := by
  cases f <;> simp [Field.get, Field.put, Field.keep, Field.isByte, UnionLayout.writeV4, UnionLayout.writeV6,
    get_word]

theorem get_put_and (n : Int) (f : Field) :
    f.get (f.put u a (f.get a &&& f.keep n)) = f.get a &&& f.keep n := by
  cases f <;> simp [Field.get, Field.put, Field.keep, Field.isByte, UnionLayout.writeV4, UnionLayout.writeV6,
    get_word]

/-- A field keeps its value when another one of its side, or of neither, is written. -/
theorem get_put_other (w : UInt32) {ip : IpaIpType} {f g : Field}
    (own : f.InFamily ip) (own' : g.InFamily ip) (other : g ≠ f) : f.get (g.put u a w) = f.get a := by
  have sides : (f.side.isNone || g.side.isNone || f.side == g.side) = true := by
    cases side : f.side with
    | none => rfl
    | some s =>
      cases side' : g.side with
      | none => rfl
      | some s' => simp [own s side, own' s' side']
  have words (v : Vector UInt32 4) {i j : Fin 4} (differ : j ≠ i) : (v.setIfInBounds j w).get i = v.get i :=
    (get_word v i j w).trans (if_neg differ)
  -- the same field, the other side, a field of its own, or another word of the same address
  cases g <;> cases f <;> first
    | exact absurd rfl other
    | exact Bool.noConfusion sides
    | rfl
    | exact words _ fun same => other (by rw [same])

theorem get_attrib {ip : IpaIpType} {f : Field} {x : Assign} (own : f.InFamily ip) (own' : x.InFamily ip) :
    f.get (x.attrib u a) = ((x.opOn f).map (Op.apply (f.get a))).getD (f.get a) := by
  cases x with
  | ipVsn n => rfl
  | bit b => cases f <;> rfl
  | port d n => cases d <;> cases f <;> rfl
  | range d n => cases d <;> cases f <;> rfl
  | set g n =>
    by_cases same : g = f
    · subst same
      simp [attrib, Assign.opOn, Op.apply, Op.run, get_put_keep]
    · simp [attrib, Assign.opOn, same, get_put_other u a _ own own' same]
  | and g n =>
    by_cases same : g = f
    · subst same
      simp [attrib, Assign.opOn, Op.apply, Op.run, get_put_and]
    · simp [attrib, Assign.opOn, same, get_put_other u a _ own own' same]

/-- A field after some assignments: the operations on it, one after the other. -/
theorem get_foldl {ip : IpaIpType} {f : Field} (own : f.InFamily ip) {xs : List Assign}
    (own' : ∀ x ∈ xs, x.InFamily ip) (a : RuleAttrib) :
    f.get (xs.foldl (attrib u) a) = (xs.filterMap (Assign.opOn f)).foldl (Op.run (· &&& ·)) (f.get a) := by
  -- the attributes change under every assignment, the field under those to itself
  induction xs generalizing a with
  | nil => rfl
  | cons x xs ih =>
    have first := get_attrib u a own (own' x List.mem_cons_self)
    rw [List.foldl_cons, ih (fun x' member => own' x' (List.mem_cons_of_mem x member)), first]
    cases op : x.opOn f with
    | none => rw [List.filterMap_cons_none op]; rfl
    | some op' => rw [List.filterMap_cons_some op, List.foldl_cons]; rfl

/-! ### Ports -/

inductive PortOp where
  | port (n : Int)
  | range (n : Int)
deriving DecidableEq

def PortOp.run (p : Ports) : PortOp → Ports
  | .port n => p.withPort n
  | .range n => p.withRange n

/-- What an assignment does to the ports of a direction. -/
def Assign.portOp (d : Direction) : Assign → Option PortOp
  | .port d' n => if d' = d then some (.port n) else none
  | .range d' n => if d' = d then some (.range n) else none
  | _ => none

theorem ports_put (w : UInt32) (d : Direction) (f : Field) :
    d.ports (f.put u a w) = d.ports a := by
  cases d <;> cases f <;> rfl

theorem ports_attrib (d : Direction) (x : Assign) :
    d.ports (x.attrib u a) = ((x.portOp d).map (PortOp.run (d.ports a))).getD (d.ports a) := by
  cases x with
  | ipVsn n => rfl
  | bit b => cases d <;> rfl
  | set f n => exact ports_put u a _ d f
  | and f n => exact ports_put u a _ d f
  | port d' n => cases d <;> cases d' <;> rfl
  | range d' n => cases d <;> cases d' <;> rfl

theorem ports_foldl (d : Direction) (xs : List Assign) (a : RuleAttrib) :
    d.ports (xs.foldl (attrib u) a) = (xs.filterMap (portOp d)).foldl PortOp.run (d.ports a) := by
  induction xs generalizing a with
  | nil => rfl
  | cons x xs ih =>
    rw [List.foldl_cons, ih, ports_attrib]
    cases op : x.portOp d with
    | none => rw [List.filterMap_cons_none op]; rfl
    | some op' => rw [List.filterMap_cons_some op, List.foldl_cons]; rfl

/-! ### The mask, and what is not assigned -/

theorem mem_attribMask_foldl (b : FltBit) (xs : List Assign) (a : RuleAttrib) :
    b ∈ (xs.foldl (attrib u) a).attribMask ↔ b ∈ a.attribMask ∨ .bit b ∈ xs := by
  have put (f : Field) (w : UInt32) (a : RuleAttrib) : (f.put u a w).attribMask = a.attribMask := by
    cases f <;> rfl
  have ports (d : Direction) (p : Ports) (a : RuleAttrib) : (d.setPorts a p).attribMask = a.attribMask := by
    cases d <;> rfl
  induction xs generalizing a with
  | nil => simp
  | cons x xs ih =>
    refine (ih (x.attrib u a)).trans ?_
    cases x with
    | bit b' => simp [attrib, or_assoc, or_left_comm]
    | _ => simp [attrib, put, ports]

theorem metaData_foldl (xs : List Assign) (a : RuleAttrib) :
    (xs.foldl (attrib u) a).metaData = a.metaData ∧ (xs.foldl (attrib u) a).metaDataMask = a.metaDataMask := by
  induction xs generalizing a with
  | nil => exact ⟨rfl, rfl⟩
  | cons x xs ih =>
    have same : (x.attrib u a).metaData = a.metaData ∧ (x.attrib u a).metaDataMask = a.metaDataMask := by
      cases x with
      | set f n => cases f <;> exact ⟨rfl, rfl⟩
      | and f n => cases f <;> exact ⟨rfl, rfl⟩
      | port d n => cases d <;> exact ⟨rfl, rfl⟩
      | range d n => cases d <;> exact ⟨rfl, rfl⟩
      | _ => exact ⟨rfl, rfl⟩
    rw [List.foldl_cons, (ih _).1, (ih _).2]
    exact same

/-!
## What a leaf assigns

A leaf does one thing to a field or to the ports of a direction, if it does anything. Ports and
ranges are those of the elements that give them, for either protocol or for both.
-/
open Wan (FltBit RuleAttrib)

/-! ### Words of an address -/

/-- Assignments to some of the words, each at most once. -/
inductive WordsOf (word : Fin 4 → Field) : List (Fin 4) → List Assign → Prop
  | nil : WordsOf word [] []
  | skip {i : Fin 4} {is : List (Fin 4)} {xs : List Assign} : WordsOf word is xs → WordsOf word (i :: is) xs
  | set {i : Fin 4} {is : List (Fin 4)} {xs : List Assign} (n : Int) :
      WordsOf word is xs → WordsOf word (i :: is) (.set (word i) n :: xs)

theorem prefixAssigns_words (word : Fin 4 → Field) (n : Int) (is : List (Fin 4)) :
    WordsOf word is (prefixAssigns word n is) := by
  have next {i : Fin 4} {is : List (Fin 4)} {xs : List Assign} (rest : WordsOf word is xs)
      (mask : Option UInt32) :
      WordsOf word (i :: is) ((mask.map fun w => Assign.set (word i) w.toNat).toList ++ xs) := by
    cases mask with
    | none => exact .skip rest
    | some w => exact .set _ rest
  induction is generalizing n with
  | nil => exact .nil
  | cons i is ih =>
    rw [prefixAssigns]
    split
    · exact next (ih (n - 32)) _
    · exact next (ih 0) _

theorem addressAssigns_words (word : Fin 4 → Field) (addr : Vector UInt32 4) :
    WordsOf word (List.finRange 4) (addressAssigns word addr) := by
  rw [addressAssigns]
  induction List.finRange 4 with
  | nil => exact .nil
  | cons i is ih => exact .set _ ih

variable {word : Fin 4 → Field} {is : List (Fin 4)} {xs : List Assign}

theorem WordsOf.ops_nil (words : WordsOf word is xs) {f : Field} (other : ∀ i ∈ is, word i ≠ f) :
    xs.filterMap (Assign.opOn f) = [] := by
  induction words with
  | nil => rfl
  | skip _ ih => exact ih fun i member => other i (List.mem_cons_of_mem _ member)
  | @set i is xs n _ ih =>
    have not_this : word i ≠ f := other i List.mem_cons_self
    rw [List.filterMap_cons_none (by simp [Assign.opOn, not_this])]
    exact ih fun i member => other i (List.mem_cons_of_mem _ member)

/-- A field is one of the words at most, so it is written once. -/
theorem WordsOf.ops_single (injective : ∀ i j, word i = word j → i = j)
    (distinct : is.Nodup) (words : WordsOf word is xs) {f : Field}
    {op : Op UInt32} (member : op ∈ xs.filterMap (Assign.opOn f)) :
    xs.filterMap (Assign.opOn f) = [op] := by
  induction words with
  | nil => cases member
  | skip _ ih => exact ih (List.nodup_cons.mp distinct).2 member
  | @set i is xs n words ih =>
    obtain ⟨fresh, distinct⟩ := List.nodup_cons.mp distinct
    by_cases this : word i = f
    · have here : (Assign.set (word i) n).opOn f = some (.set (f.keep n)) := by simp [Assign.opOn, this]
      have rest : xs.filterMap (Assign.opOn f) = [] := words.ops_nil fun j later same =>
        fresh (injective i j (this.trans same.symm) ▸ later)
      rw [List.filterMap_cons_some here, rest] at member ⊢
      rw [List.mem_singleton.mp member]
    · have there : (Assign.set (word i) n).opOn f = none := by simp [Assign.opOn, this]
      rw [List.filterMap_cons_none there] at member ⊢
      exact ih distinct member

theorem WordsOf.mem
    (words : WordsOf word is xs) {x : Assign} (member : x ∈ xs) : ∃ i n, x = .set (word i) n := by
  induction words with
  | nil => cases member
  | skip _ ih => exact ih member
  | @set i is xs n _ ih =>
    rcases List.mem_cons.mp member with rfl | later
    · exact ⟨i, n, rfl⟩
    · exact ih later

theorem WordsOf.portOps_nil (words : WordsOf word is xs) (d : Direction) : xs.filterMap (portOp d) = [] := by
  rw [List.filterMap_eq_nil_iff]
  intro x member
  obtain ⟨i, n, rfl⟩ := words.mem member
  rfl

theorem WordsOf.no_bit (words : WordsOf word is xs) (b : FltBit) : .bit b ∉ xs := by
  intro member
  obtain ⟨i, n, same⟩ := words.mem member
  cases same

/-! ### One operation for each leaf -/

section Leaf

variable {libc : Libc}

/-- What an assignment does is all that is done, when it is the only one. -/
theorem single_op {β : Type} {does : Assign → Option β} {x : Assign} {op : β}
    (member : op ∈ [x].filterMap does) : [x].filterMap does = [op] := by
  cases done : does x with
  | none => simp [done] at member
  | some op' =>
    have same : op = op' := by simpa [done] using member
    simp [done, same]

theorem range_ops_nil (d : Direction) (n : Int) (f : Field) :
    (rangeAssigns d n).filterMap (Assign.opOn f) = [] := by
  rw [rangeAssigns]
  split <;> rfl

/-- An element does one thing to a field at most. -/
theorem tag_ops_single (tag : FirewallTag) (content : Text) (addr : Vector UInt32 4) {f : Field}
    {op : Op UInt32} (member : op ∈ (tag.assigns libc content addr).filterMap (Assign.opOn f)) :
    (tag.assigns libc content addr).filterMap (Assign.opOn f) = [op] := by
  have distinct : (List.finRange 4).Nodup := List.nodup_finRange 4
  cases tag with
  | ipv6SourceIpAddress =>
    exact (addressAssigns_words _ _).ops_single (fun i j same => Field.v6SrcAddr.inj same) distinct member
  | ipv6DestinationIpAddress =>
    exact (addressAssigns_words _ _).ops_single (fun i j same => Field.v6DstAddr.inj same) distinct member
  | ipv6SourcePrefix =>
    exact (prefixAssigns_words _ _ _).ops_single (fun i j same => Field.v6SrcAddrMask.inj same) distinct member
  | ipv6DestinationPrefix =>
    exact (prefixAssigns_words _ _ _).ops_single (fun i j same => Field.v6DstAddrMask.inj same) distinct member
  | tcpSourceRange | udpSourceRange | tcpUdpSourceRange =>
    rw [assigns, range_ops_nil] at member
    cases member
  | tcpDestinationRange | udpDestinationRange | tcpUdpDestinationRange =>
    rw [assigns, range_ops_nil] at member
    cases member
  | _ => first
    | exact single_op member
    | cases member

/-! ### Ports and ranges -/

def FirewallTag.givesPort (d : Direction) : FirewallTag → Bool
  | .tcpSourcePort | .udpSourcePort | .tcpUdpSourcePort => d = .src
  | .tcpDestinationPort | .udpDestinationPort | .tcpUdpDestinationPort => d = .dst
  | _ => false

def FirewallTag.givesRange (d : Direction) : FirewallTag → Bool
  | .tcpSourceRange | .udpSourceRange | .tcpUdpSourceRange => d = .src
  | .tcpDestinationRange | .udpDestinationRange | .tcpUdpDestinationRange => d = .dst
  | _ => false

theorem range_portOps (d d' : Direction) (n : Int) :
    (rangeAssigns d' n).filterMap (portOp d) = if d' = d ∧ n ≠ 0 then [.range n] else [] := by
  by_cases zero : n = 0
  · simp [rangeAssigns, zero, portOp]
  · by_cases same : d' = d
    · rw [rangeAssigns, if_pos zero, if_pos ⟨same, zero⟩, same]
      cases d <;> rfl
    · simp [rangeAssigns, zero, same, portOp]

/-- What an element does to the ports of a direction. -/
theorem tag_portOps (tag : FirewallTag) (content : Text) (addr : Vector UInt32 4) (d : Direction) :
    (tag.assigns libc content addr).filterMap (portOp d) = if tag.givesPort d then [.port (atoi content)]
      else if tag.givesRange d ∧ atoi content ≠ 0 then [.range (atoi content)] else [] := by
  cases tag with
  | ipv6SourceIpAddress => exact (addressAssigns_words _ _).portOps_nil d
  | ipv6DestinationIpAddress => exact (addressAssigns_words _ _).portOps_nil d
  | ipv6SourcePrefix => exact (prefixAssigns_words _ _ _).portOps_nil d
  | ipv6DestinationPrefix => exact (prefixAssigns_words _ _ _).portOps_nil d
  | tcpSourceRange | udpSourceRange | tcpUdpSourceRange =>
    rw [assigns, range_portOps]
    cases d <;> simp [givesPort, givesRange]
  | tcpDestinationRange | udpDestinationRange | tcpUdpDestinationRange =>
    rw [assigns, range_portOps]
    cases d <;> simp [givesPort, givesRange]
  | _ => cases d <;> rfl

theorem range_bit (d d' : Direction) (n : Int) :
    (.bit d.portBit ∈ rangeAssigns d' n ↔ d' = d ∧ n = 0) ∧
    (.bit d.rangeBit ∈ rangeAssigns d' n ↔ d' = d ∧ n ≠ 0) := by
  by_cases zero : n = 0
  · cases d <;> cases d' <;> simp [rangeAssigns, zero, Direction.portBit, Direction.rangeBit]
  · cases d <;> cases d' <;> simp [rangeAssigns, zero, Direction.portBit, Direction.rangeBit]

/-- The bits for the ports of a direction are those that a range sets. -/
theorem tag_bit (tag : FirewallTag) (content : Text) (addr : Vector UInt32 4) (d : Direction) :
    (.bit d.portBit ∈ tag.assigns libc content addr ↔ tag.givesRange d ∧ atoi content = 0) ∧
    (.bit d.rangeBit ∈ tag.assigns libc content addr ↔ tag.givesRange d ∧ atoi content ≠ 0) := by
  have words {word : Fin 4 → Field} {is : List (Fin 4)} {xs : List Assign} (words : WordsOf word is xs) :
      (.bit d.portBit ∈ xs ↔ false = true ∧ atoi content = 0) ∧
      (.bit d.rangeBit ∈ xs ↔ false = true ∧ atoi content ≠ 0) := by
    simp [words.no_bit]
  cases tag with
  | ipv6SourceIpAddress => exact words (addressAssigns_words _ _)
  | ipv6DestinationIpAddress => exact words (addressAssigns_words _ _)
  | ipv6SourcePrefix => exact words (prefixAssigns_words _ _ _)
  | ipv6DestinationPrefix => exact words (prefixAssigns_words _ _ _)
  | tcpSourceRange | udpSourceRange | tcpUdpSourceRange =>
    rw [assigns]
    have bits := range_bit d .src (atoi content)
    simpa [givesRange, eq_comm] using bits
  | tcpDestinationRange | udpDestinationRange | tcpUdpDestinationRange =>
    rw [assigns]
    have bits := range_bit d .dst (atoi content)
    simpa [givesRange, eq_comm] using bits
  | _ => cases d <;> simp [assigns, givesRange, Direction.portBit, Direction.rangeBit]

/-- The number that a leaf gives, when it is one of those. -/
def numberOf (gives : FirewallTag → Bool) (node : XmlLabel × XmlNode) : Option Int :=
  match firewallTagOf node.1, readContentElement node.2 with
  | some tag, some content => if gives tag then some (atoi content) else none
  | _, _ => none

theorem numberOf_of_tag {gives : FirewallTag → Bool} {node : XmlLabel × XmlNode} {tag : FirewallTag} {content : Text}
    (known : firewallTagOf node.1 = some tag) (given : readContentElement node.2 = some content) :
    numberOf gives node = if gives tag then some (atoi content) else none := by
  rw [numberOf, known, given]

def FirewallElement.ports (f : FirewallElement) (d : Direction) : List Int :=
  f.leaves.filterMap (numberOf (givesPort d))

def FirewallElement.ranges (f : FirewallElement) (d : Direction) : List Int :=
  f.leaves.filterMap (numberOf (givesRange d))

variable (libc)

theorem leaf_ops_single {node : XmlLabel × XmlNode} {f : Field} {op : Op UInt32}
    (member : op ∈ (leafAssigns libc node).filterMap (Assign.opOn f)) :
    (leafAssigns libc node).filterMap (Assign.opOn f) = [op] := by
  rw [leafAssigns] at member ⊢
  split at member
  next tag content known given => exact tag_ops_single tag content _ member
  next => cases member

/-- What a leaf does to the ports of a direction: it sets the port or the range that it gives. -/
theorem leaf_portOps (node : XmlLabel × XmlNode) (d : Direction) :
    (leafAssigns libc node).filterMap (portOp d) = ((numberOf (givesPort d) node).map PortOp.port).toList ++
        (((numberOf (givesRange d) node).filter (· ≠ 0)).map PortOp.range).toList := by
  -- no element gives both, and a range of zero is no operation
  have exclusive (tag : FirewallTag) : tag.givesPort d = true → tag.givesRange d = false := by
    cases tag <;> cases d <;> simp [givesPort, givesRange]
  rw [leafAssigns, numberOf, numberOf]
  cases firewallTagOf node.1 with
  | none => rfl
  | some tag =>
    cases readContentElement node.2 with
    | none => rfl
    | some content =>
      simp only [tag_portOps]
      cases port : tag.givesPort d with
      | true => simp [exclusive tag port]
      | false =>
        by_cases zero : atoi content = 0
        · cases tag.givesRange d <;> simp [zero, Option.filter]
        · cases tag.givesRange d <;> simp [zero, Option.filter]

theorem leaf_portOps_single {node : XmlLabel × XmlNode} {d : Direction} {op : PortOp}
    (member : op ∈ (leafAssigns libc node).filterMap (portOp d)) :
    (leafAssigns libc node).filterMap (portOp d) = [op] := by
  rw [leafAssigns] at member ⊢
  split at member
  next tag content known given =>
    rw [tag_portOps] at member ⊢
    split at member
    next port => rw [if_pos port, List.mem_singleton.mp member]
    next port =>
      rw [if_neg port]
      split at member
      next range => rw [if_pos range, List.mem_singleton.mp member]
      next => cases member
  next => cases member

theorem leaf_bit (node : XmlLabel × XmlNode) (d : Direction) :
    (.bit d.portBit ∈ leafAssigns libc node ↔ numberOf (givesRange d) node = some 0) ∧
    (.bit d.rangeBit ∈ leafAssigns libc node ↔ ∃ n, numberOf (givesRange d) node = some n ∧ n ≠ 0) := by
  rw [leafAssigns, numberOf]
  cases firewallTagOf node.1 with
  | none => simp
  | some tag =>
    cases readContentElement node.2 with
    | none => simp
    | some content =>
      simp only [(tag_bit tag content _ d).1, (tag_bit tag content _ d).2]
      cases tag.givesRange d <;> simp

end Leaf

end Hima.Xml
