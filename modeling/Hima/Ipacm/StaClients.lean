import Hima.Ipacm.ConntrackListener
import Hima.Ipacm.ListDriver
import Hima.Lib.Runs
import Mathlib.Data.List.TakeWhile

/-!
# The client filter of STA mode

The listener keeps the addresses of the clients behind an STA uplink in ten slots, with their
number. A client that leaves makes a hole, and the next one that joins fills the first hole. The
filter of `ProcessTCPorUDPMsg` reads as many slots as there are clients, from the first one on.
-/
namespace Hima.Ipacm

open Slots Runs ConntrackListener

/-! ### The clients -/

/-- The clients after an event. -/
def joined (clnts : Finset UInt32) : CtEvent → Finset UInt32
  | .staClientAdd clntIpAddr => insert clntIpAddr clnts
  | .staClientDel clntIpAddr => clnts.erase clntIpAddr
  | _ => clnts

/-- The clients that joined and have not left since. -/
def clients (evs : List CtEvent) : Finset UInt32 := evs.foldl joined ∅

/-- The subnet of an address, under the mask of the filter. -/
def subnet (addr : UInt32) : UInt32 := addr &&& 0xFFFFFF00

/-- All clients are in one subnet. -/
def OneSubnet (clnts : Finset UInt32) : Prop := ∀ a ∈ clnts, ∀ b ∈ clnts, subnet a = subnet b

def occupied (slots : List UInt32) : List UInt32 := slots.filter fun addr => addr ≠ 0

/-- The slots hold the clients, each of them once, and the count is right. -/
structure SlotsOf {σ : Type} (l : ConntrackListener σ) (clnts : Finset UInt32) : Prop where
  nodup : (occupied l.staClntIpv4Addr).Nodup
  held : ∀ c, c ∈ occupied l.staClntIpv4Addr ↔ c ∈ clnts
  count : l.staClntCnt = clnts.card

/-- The filter lets the clients through and stops the other addresses of their subnets. -/
def Filters {σ : Type} (l : ConntrackListener σ) (clnts : Finset UInt32) : Prop :=
  ∀ rule : NatTableEntry,
    (rule.targetIp ∈ clnts → l.acceptsTarget rule = true) ∧
    (rule.targetIp ∉ clnts → (∃ c ∈ clnts, subnet c = subnet rule.targetIp) →
      l.acceptsTarget rule = false)

/-- The slot of the client is behind a hole. -/
def HoleBefore {σ : Type} (l : ConntrackListener σ) (clntIpAddr : UInt32) : Prop :=
  clntIpAddr ∈ l.staClntIpv4Addr.dropWhile fun addr => addr ≠ 0

instance {σ : Type} (l : ConntrackListener σ) (clntIpAddr : UInt32) :
    Decidable (HoleBefore l clntIpAddr) := inferInstanceAs (Decidable (_ ∈ _))

/-- The slots that the filter reads have no hole. -/
def NoHole {σ : Type} (l : ConntrackListener σ) : Prop :=
  ∀ addr ∈ l.staClntIpv4Addr.take l.staClntCnt, addr ≠ 0

instance {σ : Type} (l : ConntrackListener σ) : Decidable (NoHole l) := List.decidableBAll _ _

variable {σ : Type} {nat : NatDriver σ} {l l' : ConntrackListener σ} {clnts : Finset UInt32}
  {c : UInt32}

theorem mem_occupied {slots : List UInt32} : c ∈ occupied slots ↔ c ∈ slots ∧ c ≠ 0 := by
  simp [occupied]

theorem occupied_append (pre post : List UInt32) (addr : UInt32) :
    occupied (pre ++ addr :: post) = occupied pre ++ (if addr ≠ 0 then [addr] else []) ++ occupied post := by
  unfold occupied
  split <;> simp_all

namespace SlotsOf

theorem length_occupied (slots : SlotsOf l clnts) :
    (occupied l.staClntIpv4Addr).length = clnts.card := by
  have same : (occupied l.staClntIpv4Addr).toFinset = clnts := by
    ext c
    rw [List.mem_toFinset, slots.held]
  rw [← same, List.toFinset_card_of_nodup slots.nodup]

end SlotsOf

/-! ### The slots under an event -/

/-- Where the search of `HandleSTAClientAddEvt` ends: at a hole, at the client or nowhere. -/
theorem handleSTAClientAddEvt_cases (nonzero : c ≠ 0) (room : l.staClntCnt < maxStaClntIfaces) :
    (∃ pre post, l.staClntIpv4Addr = pre ++ 0 :: post ∧ (∀ addr ∈ pre, addr ≠ 0 ∧ addr ≠ c) ∧
      l.handleSTAClientAddEvt c =
        { l with staClntIpv4Addr := pre ++ c :: post, staClntCnt := l.staClntCnt + 1 }) ∨
    (∃ pre post, l.staClntIpv4Addr = pre ++ c :: post ∧ (∀ addr ∈ pre, addr ≠ 0 ∧ addr ≠ c) ∧
      l.handleSTAClientAddEvt c = l) ∨
    (∀ addr ∈ l.staClntIpv4Addr, addr ≠ 0 ∧ addr ≠ c) ∧ l.handleSTAClientAddEvt c = l := by
  have passed : ∀ addr : UInt32, decide (addr ≠ 0 ∧ addr = c ∨ addr = 0) = false → addr ≠ 0 ∧ addr ≠ c := by
    intro addr fails
    grind
  unfold handleSTAClientAddEvt
  rw [if_neg (by omega)]
  dsimp only
  cases found : l.staClntIpv4Addr.find? fun addr => decide (addr ≠ 0 ∧ addr = c ∨ addr = 0) with
  | none =>
    refine Or.inr (Or.inr ⟨fun addr member => ?_, rfl⟩)
    have := List.find?_eq_none.mp found addr member
    exact passed addr (Bool.eq_false_iff.mpr this)
  | some addr =>
    obtain ⟨pre, post, slots, stops, before, set⟩ := find?_split found
    by_cases hole : addr = 0
    · subst hole
      refine Or.inl ⟨pre, post, slots, fun x member => passed x (before x member), ?_⟩
      simp only [ne_eq, not_true_eq_false, if_false, set]
    · have client : addr = c := by simpa [hole] using stops
      subst client
      refine Or.inr (Or.inl ⟨pre, post, slots, fun x member => passed x (before x member), ?_⟩)
      simp only [ne_eq, hole, not_false_eq_true, if_true]

/-- Only the slots from the first hole on matter. -/
theorem holeBefore_iff {pre rest : List UInt32} (split : l.staClntIpv4Addr = pre ++ rest)
    (before : ∀ addr ∈ pre, addr ≠ 0) :
    HoleBefore l c ↔ c ∈ rest.dropWhile fun addr => addr ≠ 0 := by
  unfold HoleBefore
  rw [split, List.dropWhile_append_of_pos fun addr member => by simpa using before addr member]

theorem not_holeBefore (full : ∀ addr ∈ l.staClntIpv4Addr, addr ≠ 0) : ¬HoleBefore l c := by
  unfold HoleBefore
  rw [List.dropWhile_eq_nil_iff.mpr fun addr member => by simpa using full addr member]
  exact List.not_mem_nil

/-- A table with as many clients as slots has no hole. -/
theorem SlotsOf.full (slots : SlotsOf l clnts)
    (length : l.staClntIpv4Addr.length = maxStaClntIfaces) (all : maxStaClntIfaces ≤ clnts.card) :
    ∀ addr ∈ l.staClntIpv4Addr, addr ≠ 0 := by
  have kept : occupied l.staClntIpv4Addr = l.staClntIpv4Addr := by
    apply (List.filter_sublist (l := l.staClntIpv4Addr)).eq_of_length_le
    rw [← occupied, slots.length_occupied, length]
    exact all
  intro addr member
  rw [← kept] at member
  exact (mem_occupied.mp member).2

/-- The client goes into the first hole. -/
theorem slotsOf_hole_iff (slots : SlotsOf l clnts) (nonzero : c ≠ 0) {pre post : List UInt32}
    (split : l.staClntIpv4Addr = pre ++ 0 :: post) (before : ∀ addr ∈ pre, addr ≠ 0 ∧ addr ≠ c) :
    SlotsOf { l with staClntIpv4Addr := pre ++ c :: post, staClntCnt := l.staClntCnt + 1 }
      (insert c clnts) ↔ ¬HoleBefore l c := by
  have behind : HoleBefore l c ↔ c ∈ post := by
    rw [holeBefore_iff split fun addr member => (before addr member).1]
    simpa using fun zero : c = 0 => absurd zero nonzero
  have old : occupied l.staClntIpv4Addr = occupied pre ++ occupied post := by
    rw [split, occupied_append]
    simp
  have new : occupied (pre ++ c :: post) = occupied pre ++ c :: occupied post := by
    rw [occupied_append, if_pos nonzero]
    simp
  have known : c ∈ clnts ↔ c ∈ post := by
    rw [← slots.held, old, List.mem_append, mem_occupied, mem_occupied]
    have : c ∉ pre := fun member => (before c member).2 rfl
    simp [this, nonzero]
  rw [behind, ← known]
  constructor
  · intro after known
    -- the count goes up although no client is new
    have count := after.count
    rw [Finset.insert_eq_of_mem known, ← slots.count] at count
    simp at count
  · intro unknown
    refine ⟨?_, fun x => ?_, ?_⟩
    · rw [new, List.nodup_middle, List.nodup_cons, ← old, slots.held]
      exact ⟨unknown, slots.nodup⟩
    · rw [new, Finset.mem_insert, ← slots.held, old]
      simp only [List.mem_append, List.mem_cons]
      tauto
    · rw [Finset.card_insert_of_notMem unknown, ← slots.count]

/-- A client that joins, or is announced again, is entered as it should be exactly when it does not
have a slot behind a hole. -/
theorem handleSTAClientAddEvt_slotsOf_iff (slots : SlotsOf l clnts)
    (length : l.staClntIpv4Addr.length = maxStaClntIfaces) (nonzero : c ≠ 0)
    (few : (insert c clnts).card ≤ maxStaClntIfaces) :
    SlotsOf (l.handleSTAClientAddEvt c) (insert c clnts) ↔ ¬HoleBefore l c := by
  -- the client goes into the first hole, unless its own slot is met before
  by_cases room : l.staClntCnt < maxStaClntIfaces
  · rcases handleSTAClientAddEvt_cases nonzero room with
      ⟨pre, post, split, before, eq⟩ | ⟨pre, post, split, before, eq⟩ | ⟨all, eq⟩
    · rw [eq]
      exact slotsOf_hole_iff slots nonzero split before
    · have known : c ∈ clnts := by
        rw [← slots.held, mem_occupied, split]
        simp [nonzero]
      have once : c ∉ post := by
        have nodup := slots.nodup
        rw [split, occupied_append, if_pos nonzero, List.append_assoc, List.nodup_append] at nodup
        have once := (List.nodup_cons.mp nodup.2.1).1
        exact fun member => once (mem_occupied.mpr ⟨member, nonzero⟩)
      have first : ¬HoleBefore l c := by
        rw [holeBefore_iff split fun addr member => (before addr member).1,
          List.dropWhile_cons_of_pos (by simpa using nonzero)]
        exact fun member => once (List.dropWhile_subset _ member)
      rw [eq, Finset.insert_eq_of_mem known]
      exact iff_of_true slots first
    · -- there is a hole as long as there are fewer clients than slots
      have kept : occupied l.staClntIpv4Addr = l.staClntIpv4Addr :=
        List.filter_eq_self.mpr fun addr member => by simpa using (all addr member).1
      have := slots.length_occupied
      rw [kept, length, ← slots.count] at this
      omega
  -- all slots are taken, so the client is one of those
  · have all : maxStaClntIfaces ≤ clnts.card := by
      rw [← slots.count]
      omega
    have known : c ∈ clnts := by
      by_contra unknown
      rw [Finset.card_insert_of_notMem unknown] at few
      omega
    have eq : l.handleSTAClientAddEvt c = l := by
      unfold handleSTAClientAddEvt
      rw [if_pos (by omega)]
    rw [eq, Finset.insert_eq_of_mem known]
    exact iff_of_true slots (not_holeBefore (slots.full length all))

theorem handleSTAClientDelEvt_slotsOf (slots : SlotsOf l clnts) (nonzero : c ≠ 0) :
    SlotsOf (l.handleSTAClientDelEvt nat c) (clnts.erase c) := by
  unfold handleSTAClientDelEvt
  split
  next member =>
    obtain ⟨addr, found⟩ : ∃ addr, l.staClntIpv4Addr.find? (· == c) = some addr :=
      Option.isSome_iff_exists.mp (List.find?_isSome.mpr ⟨c, member.2, by simp⟩)
    obtain ⟨pre, post, split, same, -, set⟩ := find?_split found
    obtain rfl : addr = c := by simpa using same
    -- the slot of the client is the only one that is cleared
    have old : occupied l.staClntIpv4Addr = occupied pre ++ addr :: occupied post := by
      rw [split, occupied_append, if_pos nonzero]
      simp
    have new : occupied (setFirst (· == addr) 0 l.staClntIpv4Addr) = occupied pre ++ occupied post := by
      rw [set, occupied_append]
      simp
    have nodup := slots.nodup
    rw [old, List.nodup_middle, List.nodup_cons] at nodup
    have known : addr ∈ clnts := by
      rw [← slots.held, old]
      simp
    refine ⟨?_, fun x => ?_, ?_⟩
    · rw [new]
      exact nodup.2
    · rw [new, Finset.mem_erase, ← slots.held, old]
      have unheld := nodup.1
      simp only [List.mem_append, List.mem_cons] at unheld ⊢
      constructor
      · intro held
        refine ⟨?_, by tauto⟩
        rintro rfl
        exact unheld held
      · tauto
    · rw [Finset.card_erase_of_mem known, ← slots.count]
  next absent =>
    have unknown : c ∉ clnts := by
      rw [← slots.held, mem_occupied]
      tauto
    rw [Finset.erase_eq_of_notMem unknown]
    exact slots

/-! ### The filter -/

/-- The message gets past the first two parts of `ProcessTCPorUDPMsg`, with this rule. -/
def Matched (l : ConntrackListener σ) (m : CtMessage) (rule : NatTableEntry) (isTempEntry : Bool) :
    Prop :=
  (l.parseRule m).bind l.matchIface = some (rule, isTempEntry)

/-- The filter alone decides about such a message. -/
theorem classify_matched {m : CtMessage} {rule : NatTableEntry} {isTempEntry : Bool}
    (matched : Matched l m rule isTempEntry) :
    l.classify m = if l.acceptsTarget rule then some (rule, isTempEntry) else none := by
  obtain ⟨parsed, parse, face⟩ := Option.bind_eq_some_iff.mp matched
  unfold classify
  rw [parse]
  dsimp only
  rw [face]

theorem subnet_xor {i : UInt32} (low : i &&& 0xFFFFFF00 = 0) (addr : UInt32) :
    subnet (addr ^^^ i) = subnet addr := by
  unfold subnet
  rw [← UInt32.toNat_inj] at low ⊢
  simp only [UInt32.toNat_and, UInt32.toNat_xor, Nat.and_xor_distrib_right] at low ⊢
  rw [low]
  exact Nat.xor_zero _

/-- The last bytes that are tried for an address of a subnet that no client has. -/
def lastBytes : Finset UInt32 := (Finset.range 11).image UInt32.ofNat

/-- A subnet has more addresses than there are slots. -/
theorem exists_stranger (few : clnts.card ≤ maxStaClntIfaces) (addr : UInt32) :
    ∃ target, subnet target = subnet addr ∧ target ∉ clnts := by
  have distinct : Function.Injective fun i => addr ^^^ i :=
    fun i j same => by simpa [← UInt32.xor_assoc] using congrArg (addr ^^^ ·) same
  have more : clnts.card < (lastBytes.image fun i => addr ^^^ i).card := by
    rw [Finset.card_image_of_injective _ distinct]
    exact lt_of_le_of_lt few (by decide)
  obtain ⟨target, near, unknown⟩ := Finset.exists_mem_notMem_of_card_lt_card more
  obtain ⟨i, byte, rfl⟩ := Finset.mem_image.mp near
  obtain ⟨n, small, rfl⟩ := Finset.mem_image.mp byte
  have low : ∀ n < 11, UInt32.ofNat n &&& 0xFFFFFF00 = 0 := by decide
  exact ⟨_, subnet_xor (low n (Finset.mem_range.mp small)) addr, unknown⟩

/-- The slots that the filter reads are those of the clients when they have no hole. -/
theorem SlotsOf.take_eq (slots : SlotsOf l clnts)
    (length : l.staClntIpv4Addr.length = maxStaClntIfaces) (noHole : NoHole l) :
    l.staClntIpv4Addr.take l.staClntCnt = occupied l.staClntIpv4Addr := by
  have first : l.staClntIpv4Addr.take l.staClntCnt = occupied (l.staClntIpv4Addr.take l.staClntCnt) := by
    refine (List.filter_eq_self.mpr fun addr member => ?_).symm
    simpa using noHole addr member
  have few : clnts.card ≤ l.staClntIpv4Addr.length := by
    rw [← slots.length_occupied]
    exact List.length_filter_le _ _
  have sub : (l.staClntIpv4Addr.take l.staClntCnt).Sublist (occupied l.staClntIpv4Addr) := by
    rw [first]
    exact (List.take_sublist _ _).filter _
  refine sub.eq_of_length ?_
  rw [List.length_take, slots.length_occupied, slots.count]
  omega

/-- The filter is right exactly when the slots it reads have no hole and all clients are in one
subnet. -/
theorem filters_iff (slots : SlotsOf l clnts) (length : l.staClntIpv4Addr.length = maxStaClntIfaces)
    (sta : l.isStaMode = true) :
    Filters l clnts ↔ clnts = ∅ ∨ NoHole l ∧ OneSubnet clnts := by
  have few : clnts.card ≤ maxStaClntIfaces := by
    rw [← length, ← slots.length_occupied]
    exact List.length_filter_le _ _
  rcases Finset.eq_empty_or_nonempty clnts with rfl | some
  · refine iff_of_true (fun rule => ⟨?_, ?_⟩) (Or.inl rfl)
    · simp
    · simp
  have some_count : l.staClntCnt ≠ 0 := by
    rw [slots.count]
    exact Finset.card_ne_zero.mpr some
  have accepts : ∀ rule : NatTableEntry, l.acceptsTarget rule = true ↔
      subnet (l.staClntIpv4Addr.headD 0) ≠ subnet rule.targetIp ∨
        rule.targetIp ∈ l.staClntIpv4Addr.take l.staClntCnt := by
    intro rule
    unfold acceptsTarget subnet
    rw [if_neg (by simp [sta, some_count])]
    split <;> simp_all
  rw [or_iff_right some.ne_empty]
  constructor
  · intro filters
    have first : ∀ c ∈ clnts, subnet (l.staClntIpv4Addr.headD 0) = subnet c := by
      -- otherwise an address next to the client would get through
      intro c known
      by_contra differ
      obtain ⟨target, near, unknown⟩ := exists_stranger few c
      have stopped := (filters { targetIp := target }).2 unknown ⟨c, known, near.symm⟩
      rw [Bool.eq_false_iff, ne_eq, accepts] at stopped
      rw [← near] at differ
      exact stopped (Or.inl differ)
    have read : ∀ c ∈ clnts, c ∈ l.staClntIpv4Addr.take l.staClntCnt := by
      intro c known
      have passed := (accepts _).mp ((filters { targetIp := c }).1 known)
      exact passed.resolve_left (not_not.mpr (first c known))
    refine ⟨?_, fun a known b known' => (first a known).symm.trans (first b known')⟩
    have all : (occupied l.staClntIpv4Addr).Perm (l.staClntIpv4Addr.take l.staClntCnt) := by
      refine (slots.nodup.subperm fun c member => ?_).perm_of_length_le ?_
      · exact read c ((slots.held c).mp member)
      · rw [List.length_take, slots.length_occupied, slots.count]
        exact Nat.min_le_left _ _
    exact fun addr member => (mem_occupied.mp (all.mem_iff.mpr member)).2
  · rintro ⟨noHole, one⟩
    have take := slots.take_eq length noHole
    have head : l.staClntIpv4Addr.headD 0 ∈ clnts := by
      rw [← slots.held, ← take]
      cases cells : l.staClntIpv4Addr with
      | nil => simp [cells, maxStaClntIfaces] at length
      | cons addr rest =>
        obtain ⟨n, count⟩ := Nat.exists_eq_succ_of_ne_zero some_count
        simp [count]
    intro rule
    have := accepts rule
    rw [take, slots.held] at this
    constructor
    · exact fun known => this.mpr (Or.inr known)
    · rintro unknown ⟨c, known, near⟩
      rw [Bool.eq_false_iff, ne_eq, this, one _ head c known, near]
      simpa using unknown

/-! ### Runs -/

/-- Clients have an address, and none is announced again while its slot is behind a hole. -/
def AnnouncedOnce (l : ConntrackListener σ) : CtEvent → Prop
  | .staClientAdd clntIpAddr => clntIpAddr ≠ 0 ∧ ¬HoleBefore l clntIpAddr
  | .staClientDel clntIpAddr => clntIpAddr ≠ 0
  | _ => True

/-- Only the two events of the clients change the slots. -/
theorem ctStep_slots {ev : CtEvent} (stepped : ctStep nat l ev = some l')
    (add : ∀ c, ev ≠ .staClientAdd c) (del : ∀ c, ev ≠ .staClientDel c) :
    l'.staClntIpv4Addr = l.staClntIpv4Addr ∧ l'.staClntCnt = l.staClntCnt := by
  -- the other events read the slots at most
  cases ev with
  | message cnt m =>
    rcases ctStep_message_cases stepped with ⟨-, rfl⟩ | ⟨-, s, -, rfl⟩
    · exact ⟨rfl, rfl⟩
    · exact ⟨rfl, rfl⟩
  | neighIpAddrAdd ip ifName =>
    cases stepped
    unfold handleNeighIpAddrAddEvt addNatIfaceAddr addNonnatIfaceAddr
    grind
  | neighIpAddrDel ip =>
    cases stepped
    unfold handleNeighIpAddrDelEvt
    split <;> exact ⟨rfl, rfl⟩
  | wanUp ip isSta =>
    cases stepped
    unfold handleWanUp
    split
    · exact ⟨rfl, rfl⟩
    · split <;> exact ⟨rfl, rfl⟩
  | wanDown ip =>
    cases stepped
    unfold handleWanDown
    split <;> exact ⟨rfl, rfl⟩
  | staClientAdd ip => exact absurd rfl (add ip)
  | staClientDel ip => exact absurd rfl (del ip)
  | pwrSave ip =>
    cases stepped
    exact ⟨rfl, rfl⟩
  | pwrReset ip =>
    cases stepped
    exact ⟨rfl, rfl⟩
  | config config =>
    cases stepped
    exact ⟨rfl, rfl⟩

theorem ctStep_length {ev : CtEvent} (stepped : ctStep nat l ev = some l') :
    l'.staClntIpv4Addr.length = l.staClntIpv4Addr.length := by
  cases ev with
  | staClientAdd ip =>
    cases stepped
    unfold handleSTAClientAddEvt
    grind [length_setFirst]
  | staClientDel ip =>
    cases stepped
    unfold handleSTAClientDelEvt
    split
    · exact length_setFirst _ _ _
    · rfl
  | _ => rw [(ctStep_slots stepped (by simp) (by simp)).1]

theorem ctStep_slotsOf {ev : CtEvent} (slots : SlotsOf l clnts)
    (length : l.staClntIpv4Addr.length = maxStaClntIfaces) (allowed : AnnouncedOnce l ev)
    (few : (joined clnts ev).card ≤ maxStaClntIfaces) (stepped : ctStep nat l ev = some l') :
    SlotsOf l' (joined clnts ev) := by
  cases ev with
  | staClientAdd c =>
    cases stepped
    exact (handleSTAClientAddEvt_slotsOf_iff slots length allowed.1 few).mpr allowed.2
  | staClientDel c =>
    cases stepped
    exact handleSTAClientDelEvt_slotsOf slots allowed
  | _ =>
    obtain ⟨same, count⟩ := ctStep_slots stepped (by simp) (by simp)
    refine ⟨?_, ?_, ?_⟩
    · rw [same]
      exact slots.nodup
    · rw [same]
      exact slots.held
    · rw [count]
      exact slots.count

theorem run_slotsOf {evs : List CtEvent} (run : Run (ctStep nat) AnnouncedOnce l evs l')
    (slots : SlotsOf l clnts) (length : l.staClntIpv4Addr.length = maxStaClntIfaces)
    (few : ∀ pre, pre <+: evs → (pre.foldl joined clnts).card ≤ maxStaClntIfaces) :
    SlotsOf l' (evs.foldl joined clnts) ∧ l'.staClntIpv4Addr.length = maxStaClntIfaces := by
  induction run generalizing clnts with
  | nil => exact ⟨slots, length⟩
  | @cons l next _ ev evs allowed stepped rest ih =>
    have now : SlotsOf next (joined clnts ev) :=
      ctStep_slotsOf slots length allowed (few [ev] ⟨evs, rfl⟩) stepped
    refine ih now ((ctStep_length stepped).trans length) fun pre isPrefix => ?_
    exact few (ev :: pre) (List.cons_prefix_cons.mpr ⟨rfl, isPrefix⟩)

theorem init_slotsOf (isStaMode : Bool) (wanIpaddr : UInt32) (natInst : NatApp σ) (config : IpacmConfig) :
    SlotsOf (init isStaMode wanIpaddr natInst config) (clients []) := by
  have none : occupied (List.replicate maxStaClntIfaces 0) = [] := rfl
  refine ⟨?_, fun c => ?_, rfl⟩
  · exact List.nodup_nil
  · rw [init, none]
    simp [clients]

/-- In a run in which no client is announced again while its slot is behind a hole, the slots hold
the clients at any time. The filter is right in STA mode exactly when the slots it reads have no
hole and all clients are in one subnet. And the slots would become wrong with a client announced
otherwise. -/
theorem sta_clients_iff {isStaMode : Bool} {wanIpaddr : UInt32} {natInst : NatApp σ}
    {config : IpacmConfig} {evs : List CtEvent} (run : Run (ctStep nat) AnnouncedOnce
      (init isStaMode wanIpaddr natInst config) evs l)
    (few : ∀ pre, pre <+: evs → (clients pre).card ≤ maxStaClntIfaces) :
    SlotsOf l (clients evs) ∧ (∀ m rule isTempEntry, Matched l m rule isTempEntry →
        l.classify m = if l.acceptsTarget rule then some (rule, isTempEntry) else none) ∧ (l.isStaMode = true →
        (Filters l (clients evs) ↔ clients evs = ∅ ∨ NoHole l ∧ OneSubnet (clients evs))) ∧
      ∀ c, c ≠ 0 → (insert c (clients evs)).card ≤ maxStaClntIfaces →
        (SlotsOf (l.handleSTAClientAddEvt c) (insert c (clients evs)) ↔ ¬HoleBefore l c) := by
  obtain ⟨slots, length⟩ := run_slotsOf run (init_slotsOf _ _ _ _) rfl few
  refine ⟨slots, fun m rule isTempEntry => classify_matched, ?_, fun c nonzero few => ?_⟩
  · exact filters_iff slots length
  · exact handleSTAClientAddEvt_slotsOf_iff slots length nonzero few

/-- A listener in STA mode. -/
def staListener : ConntrackListener (Option LiveRules) :=
  init true 5 (NatApp.init 2 [] 0 [] none)
    { natIfaces := [], privateSubnetTable := [] }

theorem two_clients_sample : ∃ l, Run (ctStep listDriver) AnnouncedOnce staListener
      [.staClientAdd 0xC0A80102, .staClientAdd 0xC0A80103, .staClientDel 0xC0A80103] l ∧
      SlotsOf l {0xC0A80102} ∧ Filters l {0xC0A80102} ∧
      SlotsOf (l.handleSTAClientAddEvt 0xC0A80104) {0xC0A80104, 0xC0A80102} := by
  have run : Run (ctStep listDriver) AnnouncedOnce staListener
      [.staClientAdd 0xC0A80102, .staClientAdd 0xC0A80103, .staClientDel 0xC0A80103] _ :=
    .cons ⟨by decide, by decide⟩ rfl (.cons ⟨by decide, by decide⟩ rfl
      (.cons (show (0xC0A80103 : UInt32) ≠ 0 by decide) rfl (.nil _)))
  obtain ⟨slots, -, filter, next⟩ := sta_clients_iff run fun pre isPrefix => by
    rw [← List.mem_inits] at isPrefix
    revert pre
    decide +kernel
  have one : OneSubnet {0xC0A80102} := by simp [OneSubnet]
  refine ⟨_, run, slots, (filter rfl).mpr (.inr ⟨by decide, one⟩), ?_⟩
  exact (next 0xC0A80104 (by decide) (by decide)).mpr (by decide)

/-- The second of three clients leaves and the filter stops the third. Announced again, that one
gets a second slot. -/
theorem third_client_stopped : ∃ l, Run (ctStep listDriver) (fun _ _ => True) staListener
      [.staClientAdd 0xC0A80102, .staClientAdd 0xC0A80103, .staClientAdd 0xC0A80104,
        .staClientDel 0xC0A80103] l ∧ ¬Filters l {0xC0A80102, 0xC0A80104} ∧
      ¬SlotsOf (l.handleSTAClientAddEvt 0xC0A80104) {0xC0A80102, 0xC0A80104} := by
  refine ⟨_, .cons trivial rfl (.cons trivial rfl (.cons trivial rfl (.cons trivial rfl (.nil _)))),
    fun filters => ?_, fun slots => ?_⟩
  · exact absurd ((filters { targetIp := 0xC0A80104 }).1 (by decide)) (by decide)
  · exact absurd slots.nodup (by decide)

end Hima.Ipacm
