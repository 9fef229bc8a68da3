import Mathlib.Algebra.Group.Nat.Defs
import Mathlib.Data.List.AList
import Hima.Lib.FirstMatch

/-!
# LAN-to-LAN offload: clients, peers and links

The two client tables of `IPACM_LanToLan` (IPv4 and IPv6) are handled by the same code with
another address type, so one table with its counter and its cache is a `Family` over the address
`A` of a client, the key `K` of the hash table and the interfaces `I`.

A `client_info*` names a node of the hash table. Every insertion gets a new node number, so that
a pointer to an erased client never reads a later client of the same key: following it has no
outcome, and a function that may follow pointers returns an `Option`.

The operations of `IPACM_Lan` that install and remove headers, routing and filtering rules are
the hardware: what they answer is an input of each function, what they are asked is recorded.
-/
namespace Hima.LanToLan

open Slots FirstMatch

/-- `MAX_OFFLOAD_PAIR`. -/
def maxOffloadPair : UInt8 := 3

abbrev MacAddr := Vector UInt8 6

/-- A `client_info*`. -/
structure Ptr (K : Type) where
  key : K
  node : Nat
deriving DecidableEq, Repr

/-- `peer_info`. -/
structure PeerInfo (K : Type) where
  peerPointer : Ptr K
  numConnection : Int
deriving DecidableEq, Repr

/-- `offload_link_info`. The list holds the `num_rule` handles of the `lan_to_lan_rt_rule_hdl`. -/
structure OffloadLinkInfo (K : Type) where
  peerPointer : Ptr K
  fltRuleHdl : UInt32
  rtRuleHdl : List UInt32
  hdrHdl : UInt32
deriving DecidableEq, Repr

/-- `client_info`, with the number of the node that holds it. -/
structure ClientInfo (K A I : Type) where
  node : Nat
  ip : A
  macAddr : MacAddr
  isActive : Bool
  isPowersave : Bool
  pIface : I
  peer : List (PeerInfo K)
  link : List (OffloadLinkInfo K)
deriving DecidableEq

/-- The calls of `IPACM_Lan` that reach the hardware, with their answers: the handle of what was
added or `none`, and whether a deletion succeeded. -/
inductive LanCall (A I : Type)
  | addLan2lanHdr (iface : I) (srcMac dstMac : MacAddr) (hdl : Option UInt32)
  | addLan2lanRtRule (iface : I) (src dst : A) (hdrHdl : UInt32) (hdl : Option (List UInt32))
  | addLan2lanFltRule (iface : I) (src dst : A) (hdl : Option UInt32)
  | delLan2lanHdr (iface : I) (hdl : UInt32) (done : Bool)
  | delLan2lanRtRule (iface : I) (hdl : List UInt32) (done : Bool)
  | delLan2lanFltRule (iface : I) (hdl : UInt32) (done : Bool)
deriving DecidableEq

/-- What the hardware answers to the deletion of a link. -/
structure DelAnswer where
  flt : Bool := true
  rt : Bool := true
  hdr : Bool := true
deriving DecidableEq

/-- What the hardware answers to the creation of a link, and to the deletions that take back its
first half. -/
structure AddAnswer where
  hdr : Option UInt32
  rt : Option (List UInt32)
  flt : Option UInt32
  undo : DelAnswer := {}
deriving DecidableEq

/-- What the hardware answers while one event is handled. The loops over links and peers ask
about both directions of the `i`-th one at `2 * i` and `2 * i + 1`. -/
structure Answers where
  add : Nat → AddAnswer
  del : Nat → DelAnswer
  fltAdd : Nat → Option UInt32
  fltDel : Nat → Bool

/-- The events of one family. -/
inductive Event (A I : Type)
  | clientActive (ip : A) (mac : MacAddr) (iface : I)
  | clientInactive (ip : A)
  | clientDisconnect (ip : A)
  | clientPowerSave (ip : A)
  | clientPowerRecover (ip : A)
  | newConnection (src dst : A)
  | delConnection (src dst : A)
deriving DecidableEq

/-- What the code reads from outside: the key of an address in the hash table, the category of
an interface (`iface_table[ipa_if_num].if_cat`), whether the build defines `CT_OPT`, and the test
of `is_potential_lan2lan_connection` on the two ends of a connection. -/
structure Config (K A I : Type) where
  key : A → K
  ifCat : I → Nat
  ctOpt : Bool
  isPotentialLan2lanConnection : A → A → Bool

/-- The members of `IPACM_LanToLan` for one address family; `calls` is what the hardware was asked
and `posted` the events in the command queue, both oldest first. -/
structure Family (K A I : Type) where
  numOffloadPair : UInt8
  clientInfo : AList fun _ : K => ClientInfo K A I
  connection : List (A × A)
  nextNode : Nat
  calls : List (LanCall A I)
  posted : List (Event A I)

/-- The constructor. -/
def Family.init {K A I : Type} : Family K A I := ⟨0, ∅, [], 0, [], []⟩

/-- An `int` after an increment or a decrement. -/
def toInt32 (n : Int) : Int := n.bmod (2 ^ 32)

variable {K A I : Type} [DecidableEq K]

/-- The test of the loops that look for the entry of a client in a list of its peer. -/
abbrev linkTo (p : Ptr K) : OffloadLinkInfo K → Bool := hasKey OffloadLinkInfo.peerPointer p

abbrev peerTo (p : Ptr K) : PeerInfo K → Bool := hasKey PeerInfo.peerPointer p

namespace Family

/-- `&client_info_[key]`, for a client in the table. -/
def find (f : Family K A I) (key : K) : Option (Ptr K) :=
  (f.clientInfo.lookup key).map fun c => ⟨key, c.node⟩

/-- What a pointer refers to. -/
def deref (f : Family K A I) (p : Ptr K) : Option (ClientInfo K A I) :=
  (f.clientInfo.lookup p.key).filter fun c => c.node = p.node

/-- Write the client that a pointer refers to. -/
def set (f : Family K A I) (p : Ptr K) (c : ClientInfo K A I) : Family K A I :=
  { f with clientInfo := f.clientInfo.insert p.key c }

def call (f : Family K A I) (calls : List (LanCall A I)) : Family K A I :=
  { f with calls := f.calls ++ calls }

def post (f : Family K A I) (events : List (Event A I)) : Family K A I :=
  { f with posted := f.posted ++ events }

/-! ### Offload links -/

/-- `add_offload_link`. -/
def addOffloadLink (answer : AddAnswer) (client peer : Ptr K) (f : Family K A I) :
    Option (Bool × Family K A I) :=
  if maxOffloadPair ≤ f.numOffloadPair then some (false, f)
  else do
    let c ← f.deref client
    let p ← f.deref peer
    let addHdr := .addLan2lanHdr p.pIface c.macAddr p.macAddr answer.hdr
    match answer.hdr with
    | none => return (false, f.call [addHdr])
    | some hdrHdl =>
      let addRt := .addLan2lanRtRule p.pIface c.ip p.ip hdrHdl answer.rt
      let delHdr := .delLan2lanHdr p.pIface hdrHdl answer.undo.hdr
      match answer.rt with
      | none => return (false, f.call [addHdr, addRt, delHdr])
      | some rtRuleHdl =>
        let addFlt := .addLan2lanFltRule c.pIface c.ip p.ip answer.flt
        let delRt := .delLan2lanRtRule p.pIface rtRuleHdl answer.undo.rt
        match answer.flt with
        | none => return (false, f.call [addHdr, addRt, addFlt, delRt, delHdr])
        | some fltRuleHdl =>
          let link := ⟨peer, fltRuleHdl, rtRuleHdl, hdrHdl⟩
          return (true, (f.call [addHdr, addRt, addFlt]).set client { c with link := c.link ++ [link] })

/-- `del_offload_link`: every deletion is tried, the result says whether all succeeded. -/
def delOffloadLink (answer : DelAnswer) (client peer : I) (link : OffloadLinkInfo K)
    (f : Family K A I) : Bool × Family K A I :=
  (answer.flt && answer.rt && answer.hdr,
    f.call [.delLan2lanFltRule client link.fltRuleHdl answer.flt,
      .delLan2lanRtRule peer link.rtRuleHdl answer.rt,
      .delLan2lanHdr peer link.hdrHdl answer.hdr])

/-- The loop of `check_potential_link` from the `i`-th peer on. The result of the first
direction is overwritten by that of the second. -/
def checkPotentialLinkFrom (answers : Answers) (client : Ptr K) :
    Nat → List (PeerInfo K) → Family K A I → Option (Family K A I)
  | _, [], f => some f
  | i, entry :: rest, f => do
    let peer ← f.deref entry.peerPointer
    if peer.isActive ∧ 0 < entry.numConnection then
      let (_, f) ← f.addOffloadLink (answers.add (2 * i)) client entry.peerPointer
      let (res, f) ← f.addOffloadLink (answers.add (2 * i + 1)) entry.peerPointer client
      let f := if res then { f with numOffloadPair := f.numOffloadPair + 1 } else f
      checkPotentialLinkFrom answers client (i + 1) rest f
    else checkPotentialLinkFrom answers client (i + 1) rest f

/-- `check_potential_link`. -/
def checkPotentialLink (answers : Answers) (client : Ptr K) (f : Family K A I) :
    Option (Family K A I) := do
  let c ← f.deref client
  f.checkPotentialLinkFrom answers client 0 c.peer

/-- The loop of `turnoff_offload_links` from the `i`-th link of the client on. -/
def turnoffOffloadLinksFrom (answers : Answers) (client : Ptr K) :
    Nat → List (OffloadLinkInfo K) → Family K A I → Option (Bool × Family K A I)
  | _, [], f => some (true, f)
  | i, link :: rest, f => do
    let c ← f.deref client
    let peer ← f.deref link.peerPointer
    let (res, f) := f.delOffloadLink (answers.del (2 * i)) c.pIface peer.pIface link
    if !res then return (false, f)
    else match peer.link.find? (linkTo client) with
      | none => return (false, f)
      | some back =>
        let (res, f) := f.delOffloadLink (answers.del (2 * i + 1)) peer.pIface c.pIface back
        if !res then return (false, f)
        -- a link of a client to itself is the element the loop stands on
        else if link.peerPointer = client then none
        else
          let f := f.set link.peerPointer { peer with link := peer.link.eraseP (linkTo client) }
          turnoffOffloadLinksFrom answers client (i + 1) rest
            { f with numOffloadPair := f.numOffloadPair - 1 }

/-- `turnoff_offload_links`. -/
def turnoffOffloadLinks (answers : Answers) (client : Ptr K) (f : Family K A I) :
    Option (Family K A I) := do
  let c ← f.deref client
  let (res, f) ← f.turnoffOffloadLinksFrom answers client 0 c.link
  if res then
    let c ← f.deref client
    return f.set client { c with link := [] }
  else return f

/-- One half of `erase_offload_link`: the first link of `src` to `dst`, whether it was found and
its deletion succeeded. -/
def eraseLinkTo (answer : DelAnswer) (src dst : Ptr K) (f : Family K A I) :
    Option (Bool × Family K A I) := do
  let s ← f.deref src
  let d ← f.deref dst
  match s.link.find? (linkTo dst) with
  | none => return (false, f)
  | some link =>
    let (res, f) := f.delOffloadLink answer s.pIface d.pIface link
    return (res, f.set src { s with link := s.link.eraseP (linkTo dst) })

/-- `erase_offload_link`. -/
def eraseOffloadLink (answer answer' : DelAnswer) (src dst : Ptr K) (f : Family K A I) :
    Option (Family K A I) := do
  let (resSrc, f) ← f.eraseLinkTo answer src dst
  let (resDst, f) ← f.eraseLinkTo answer' dst src
  return if resSrc && resDst then { f with numOffloadPair := f.numOffloadPair - 1 } else f

/-! ### Filtering rules in power save -/

/-- The loop of `remove_flt_rules` from the `i`-th link of the client on. -/
def removeFltRulesFrom (answers : Answers) (client : Ptr K) :
    Nat → List (OffloadLinkInfo K) → Family K A I → Option (Bool × Family K A I)
  | _, [], f => some (true, f)
  | i, link :: rest, f => do
    let c ← f.deref client
    let f := f.call [.delLan2lanFltRule c.pIface link.fltRuleHdl (answers.fltDel (2 * i))]
    let peer ← f.deref link.peerPointer
    match peer.link.find? (linkTo client) with
    | none => return (false, f)
    | some back =>
      removeFltRulesFrom answers client (i + 1) rest
        (f.call [.delLan2lanFltRule peer.pIface back.fltRuleHdl (answers.fltDel (2 * i + 1))])

/-- `remove_flt_rules`. -/
def removeFltRules (answers : Answers) (client : Ptr K) (f : Family K A I) :
    Option (Bool × Family K A I) := do
  let c ← f.deref client
  f.removeFltRulesFrom answers client 0 c.link

/-- The loop of `add_flt_rules` over the last `n` links of the client, from the `i`-th on. The
new handles are written into the links where they stand. -/
def addFltRulesFrom (answers : Answers) (client : Ptr K) :
    Nat → Nat → Family K A I → Option (Bool × Family K A I)
  | 0, _, f => some (true, f)
  | n + 1, i, f => do
    let c ← f.deref client
    let link ← c.link[i]?
    let peer ← f.deref link.peerPointer
    let answer := answers.fltAdd (2 * i)
    let f := f.call [.addLan2lanFltRule c.pIface c.ip peer.ip answer]
    match answer with
    | none => return (false, f)
    | some hdl =>
      let f := f.set client { c with link := c.link.set i { link with fltRuleHdl := hdl } }
      let peer ← f.deref link.peerPointer
      match peer.link.find? (linkTo client) with
      | none => return (false, f)
      | some back =>
        let answer := answers.fltAdd (2 * i + 1)
        let f := f.call [.addLan2lanFltRule peer.pIface peer.ip c.ip answer]
        match answer with
        | none => return (false, f)
        | some hdl =>
          let link' := setFirst (linkTo client) { back with fltRuleHdl := hdl } peer.link
          addFltRulesFrom answers client n (i + 1) (f.set link.peerPointer { peer with link := link' })

/-- `add_flt_rules`. -/
def addFltRules (answers : Answers) (client : Ptr K) (f : Family K A I) :
    Option (Bool × Family K A I) := do
  let c ← f.deref client
  f.addFltRulesFrom answers client c.link.length 0

/-! ### Connections -/

/-- The loop of `clear_peer_list`. -/
def clearPeerListFrom (client : Ptr K) :
    List (PeerInfo K) → Family K A I → Option (Bool × Family K A I)
  | [], f => some (true, f)
  | entry :: rest, f => do
    let peer ← f.deref entry.peerPointer
    match peer.peer.find? (peerTo client) with
    | none => return (false, f)
    | some _ =>
      -- an entry of a client for itself is the element the loop stands on
      if entry.peerPointer = client then none
      else
        clearPeerListFrom client rest
          (f.set entry.peerPointer { peer with peer := peer.peer.eraseP (peerTo client) })

/-- `clear_peer_list`. -/
def clearPeerList (client : Ptr K) (f : Family K A I) : Option (Family K A I) := do
  let c ← f.deref client
  let (res, f) ← f.clearPeerListFrom client c.peer
  if res then
    let c ← f.deref client
    return f.set client { c with peer := [] }
  else return f

/-- One half of `add_connection`: count a connection to `other` at `owner`. The result says
whether an entry was inserted. -/
def addPeerTo (owner other : Ptr K) (f : Family K A I) : Option (Bool × Family K A I) := do
  let c ← f.deref owner
  match c.peer.find? (peerTo other) with
  | some entry =>
    let entry' := { entry with numConnection := toInt32 (entry.numConnection + 1) }
    return (false, f.set owner { c with peer := setFirst (peerTo other) entry' c.peer })
  | none => return (true, f.set owner { c with peer := c.peer ++ [⟨other, 1⟩] })

/-- `add_connection`. -/
def addConnection (src dst : Ptr K) (f : Family K A I) : Option (Bool × Family K A I) := do
  let (newSrc, f) ← f.addPeerTo src dst
  let (newDst, f) ← f.addPeerTo dst src
  return (newSrc || newDst, f)

/-- One half of `remove_connection`: uncount a connection to `other` at `owner`. The result says
whether its entry was erased. -/
def removePeerTo (owner other : Ptr K) (f : Family K A I) : Option (Bool × Family K A I) := do
  let c ← f.deref owner
  match c.peer.find? (peerTo other) with
  | none => return (false, f)
  | some entry =>
    let numConnection := toInt32 (entry.numConnection - 1)
    if numConnection = 0 then
      return (true, f.set owner { c with peer := c.peer.eraseP (peerTo other) })
    else
      let entry' := { entry with numConnection := numConnection }
      return (false, f.set owner { c with peer := setFirst (peerTo other) entry' c.peer })

/-- `remove_connection`. The result is that of the second half. -/
def removeConnection (src dst : Ptr K) (f : Family K A I) : Option (Bool × Family K A I) := do
  let (_, f) ← f.removePeerTo src dst
  f.removePeerTo dst src

end Family

end Hima.LanToLan
