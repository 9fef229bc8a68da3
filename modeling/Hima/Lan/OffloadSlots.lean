import Hima.Lib.Slots
import Hima.Lan.EthClients

/-!
# Slots for LAN-to-LAN traffic

`IPACM_Lan` keeps a few filtering rules and headers for traffic between two clients. The rules are
installed in advance, as dummies, and are changed in place; the headers come and go. Every call is
given what the environment answers to it.
-/
namespace Hima.Lan

open Function
open Wan (IpaIpType RuleAttrib)
open Wlan (MacAddr V6Addr TxProp HdrAdd)
open SlotArray

/-- `MAX_OFFLOAD_PAIR` -/
def maxOffloadPair : Nat := 3

/-- `lan2lan_flt_rule_hdl` -/
structure Lan2lanFltRuleHdl where
  ruleHdl : UInt32 := 0
  valid : Bool := false
deriving DecidableEq

/-- `lan2lan_hdr_hdl` -/
structure Lan2lanHdrHdl where
  hdrHdl : UInt32 := 0
  valid : Bool := false
deriving DecidableEq

/-- The tables and counters of an interface, as the constructor leaves them. -/
structure OffloadTables where
  lan2lanFltRuleHdl : IpaIpType → Fin maxOffloadPair → Lan2lanFltRuleHdl := fun _ _ => {}
  numLan2lanFltRule : IpaIpType → UInt8 := fun _ => 0
  lan2lanHdrHdl : IpaIpType → Fin maxOffloadPair → Lan2lanHdrHdl := fun _ _ => {}
  fltRuleCount : IpaIpType → Nat := fun _ => 0

inductive FltAction where
  | passToRouting (rtTblHdl : UInt32)
  | passToException

structure FltRule where
  action : FltAction
  attrib : RuleAttrib

/-- A header that was added through a slot and is not deleted. -/
structure Installed where
  ip : IpaIpType
  slot : Fin maxOffloadPair
  header : HdrAdd
  hdl : UInt32

/-- The interface and what the hardware has of it. -/
structure Offload extends OffloadTables where
  fltRule : IpaIpType → UInt32 → Option FltRule := fun _ _ => none
  installed : List Installed := []

/-- Why a call returns `IPACM_FAILURE`. -/
inductive Failure where
  | noProperty
  | nullArgument
  | noMemory
  | full
  | hardware
  | notFound
  | ipType
deriving DecidableEq

/-! ### Filtering rules -/

def v6AllOnes : V6Addr := .replicate 4 0xffffffff

/-- Source and destination added to the attributes of a rule. -/
def withPairV4 (attrib : RuleAttrib) (src dst : UInt32) : RuleAttrib :=
  { attrib with
    attribMask := insert .dstAddr (insert .srcAddr attrib.attribMask)
    v4 := { attrib.v4 with
      srcAddr := src, srcAddrMask := 0xffffffff, dstAddr := dst, dstAddrMask := 0xffffffff } }

def withPairV6 (attrib : RuleAttrib) (src dst : V6Addr) : RuleAttrib :=
  { attrib with
    attribMask := insert .dstAddr (insert .srcAddr attrib.attribMask)
    v6 := { attrib.v6 with
      srcAddr := src, srcAddrMask := v6AllOnes, dstAddr := dst, dstAddrMask := v6AllOnes } }

/-- The rule that matches no packet: only all ones as addresses. -/
def dummyRule (attrib : RuleAttrib) : IpaIpType → FltRule
  | .v4 =>
    { action := .passToException
      attrib := { withPairV4 attrib 0xffffffff 0xffffffff with attribMask := {.srcAddr, .dstAddr} } }
  | .v6 =>
    { action := .passToException
      attrib := { withPairV6 attrib v6AllOnes v6AllOnes with attribMask := {.srcAddr, .dstAddr} } }

structure DummyAnswers where
  malloc : Bool
  /-- `AddFilteringRule`, with the handle of each rule whose status is 0 -/
  added : Option (Fin maxOffloadPair → Option UInt32)

/-- Copies the handles up to the first rule that was not added. -/
def copyHdls (hdls : Fin maxOffloadPair → Option UInt32) : List (Fin maxOffloadPair) →
    (Fin maxOffloadPair → Lan2lanFltRuleHdl) → Bool × (Fin maxOffloadPair → Lan2lanFltRuleHdl)
  | [], slots => (true, slots)
  | i :: is, slots =>
    match hdls i with
    | none => (false, slots)
    | some hdl => copyHdls hdls is (update slots i { slots i with ruleHdl := hdl })

/-- `add_dummy_lan2lan_flt_rule`; without an IP type there is nothing to add, and no failure. -/
def addDummyLan2lanFltRule (cfg : Iface) (answers : DummyAnswers) (iptype : Option IpaIpType) (s : Offload) :
    Except Failure Unit × Offload :=
  match cfg.rxProp with
  | none => (.ok (), s)
  | some attrib =>
    if answers.malloc = false then (.error .noMemory, s)
    else match iptype with
    | none => (.ok (), s)
    | some ip =>
      match answers.added with
      | none => (.error .hardware, s)
      | some hdls =>
        let (done, slots) := copyHdls hdls (List.finRange maxOffloadPair) (s.lan2lanFltRuleHdl ip)
        let s := { s with
          lan2lanFltRuleHdl := update s.lan2lanFltRuleHdl ip slots
          fltRuleCount := update s.fltRuleCount ip (s.fltRuleCount ip + maxOffloadPair)
          fltRule := update s.fltRule ip fun hdl =>
            if ∃ i, hdls i = some hdl then some (dummyRule attrib ip) else s.fltRule ip hdl }
        (if done then .ok () else .error .hardware, s)

/-- The arguments of `add_lan2lan_flt_rule`; a pointer that is `NULL` is `none`, and `ruleHdl` says
whether there is a place for the handle. -/
structure FltArgs where
  iptype : Option IpaIpType
  srcV4Addr : UInt32
  dstV4Addr : UInt32
  srcV6Addr : Option V6Addr
  dstV6Addr : Option V6Addr
  ruleHdl : Bool

structure FltAnswers where
  malloc : Bool
  /-- the handle that `GetRoutingTable` fills in -/
  rtTblHdl : Option UInt32
  modified : Bool

/-- The attributes of the rule; `none` without the addresses. -/
def FltArgs.attrib (args : FltArgs) (attrib : RuleAttrib) : IpaIpType → Option RuleAttrib
  | .v4 => some (withPairV4 attrib args.srcV4Addr args.dstV4Addr)
  | .v6 =>
    match args.srcV6Addr, args.dstV6Addr with
    | some src, some dst => some (withPairV6 attrib src dst)
    | _, _ => none

/-- `ModifyFilteringRule` has taken a rule. -/
def Offload.modify (s : Offload) (ip : IpaIpType) (hdl : UInt32) (rule : FltRule) : Offload :=
  { s with fltRule := update s.fltRule ip (update (s.fltRule ip) hdl (some rule)) }

/-- Changes the valid flag of a slot and the counter beside it. -/
def Offload.setFlt (s : Offload) (ip : IpaIpType) (i : Fin maxOffloadPair) (valid : Bool) (num : UInt8) : Offload :=
  { s with
    lan2lanFltRuleHdl := update s.lan2lanFltRuleHdl ip
      (update (s.lan2lanFltRuleHdl ip) i { s.lan2lanFltRuleHdl ip i with valid := valid })
    numLan2lanFltRule := update s.numLan2lanFltRule ip num }

/-- `add_lan2lan_flt_rule` -/
def addLan2lanFltRule (cfg : Iface) (answers : FltAnswers) (args : FltArgs) (s : Offload) :
    Except Failure UInt32 × Offload :=
  match cfg.rxProp with
  | none => (.error .noProperty, s)
  | some rxAttrib =>
    if args.ruleHdl = false then (.error .nullArgument, s)
    else if answers.malloc = false then (.error .noMemory, s)
    else match args.iptype with
    | none => (.error .ipType, s)
    | some ip =>
      if maxOffloadPair ≤ (s.numLan2lanFltRule ip).toNat then (.error .full, s)
      else match args.attrib rxAttrib ip with
      | none => (.error .nullArgument, s)
      | some attrib =>
        match answers.rtTblHdl with
        | none => (.error .hardware, s)
        | some rtTblHdl =>
          match firstSlot (fun slot => !slot.valid) (s.lan2lanFltRuleHdl ip) with
          | none => (.error .notFound, s)
          | some i =>
            if answers.modified = false then (.error .hardware, s)
            else
              let hdl := (s.lan2lanFltRuleHdl ip i).ruleHdl
              (.ok hdl, (s.modify ip hdl { action := .passToRouting rtTblHdl, attrib := attrib }).setFlt
                ip i true (s.numLan2lanFltRule ip + 1))

structure ResetAnswers where
  malloc : Bool
  modified : Bool

/-- `reset_to_dummy_flt_rule` -/
def resetToDummyFltRule (answers : ResetAnswers) (ip : IpaIpType) (hdl : UInt32) (s : Offload) :
    Except Failure Unit × Offload :=
  if answers.malloc = false then (.error .noMemory, s)
  else if answers.modified = false then (.error .hardware, s)
  else (.ok (), s.modify ip hdl (dummyRule {} ip))

/-- `del_lan2lan_flt_rule` -/
def delLan2lanFltRule (answers : ResetAnswers) (iptype : Option IpaIpType) (ruleHdl : UInt32) (s : Offload) :
    Except Failure Unit × Offload :=
  match iptype with
  | none => (.error .ipType, s)
  | some ip =>
    match firstSlot (fun slot => slot.ruleHdl = ruleHdl) (s.lan2lanFltRuleHdl ip) with
    | none => (.error .notFound, s)
    | some i =>
      match resetToDummyFltRule answers ip ruleHdl s with
      | (.error why, s) => (.error why, s)
      | (.ok (), s) => (.ok (), s.setFlt ip i false (s.numLan2lanFltRule ip - 1))

/-! ### Headers -/

/-- `IPA_LAN_TO_LAN_USB_HDR_NAME_V4`, `IPA_LAN_TO_LAN_USB_HDR_NAME_V6` -/
def lan2lanHdrName : IpaIpType → String
  | .v4 => "Lan2Lan_USB_v4"
  | .v6 => "Lan2Lan_USB_v6"

/-- The copied header with the addresses of both clients in it. -/
def PartialHdr.paired (hdr : PartialHdr) (srcMac dstMac : MacAddr) : List UInt8 :=
  match hdr.eth2Ofst with
  | some ofst => Wlan.overlay (Wlan.overlay hdr.hdr ofst dstMac.toList) (ofst + 6) srcMac.toList
  | none => hdr.hdr

/-- The arguments of `add_lan2lan_hdr`. -/
structure HdrArgs where
  iptype : Option IpaIpType
  srcMac : Option MacAddr
  dstMac : Option MacAddr
  hdrHdl : Bool

structure HdrAnswers where
  malloc : Bool
  /-- `CopyHeader`; `none` when it fails or the header is longer than `IPA_HDR_MAX_SIZE`. -/
  copyHeader : String → Option PartialHdr
  /-- `AddHeader`, with the handle of a header whose status is 0 -/
  added : Option UInt32

def Offload.setHdr (s : Offload) (ip : IpaIpType) (i : Fin maxOffloadPair) (slot : Lan2lanHdrHdl) : Offload :=
  { s with
    lan2lanHdrHdl := update s.lan2lanHdrHdl ip (update (s.lan2lanHdrHdl ip) i slot) }

/-- `add_lan2lan_hdr`; without an IP type, or a property of it, there is no header, and no failure. -/
def addLan2lanHdr (cfg : Iface) (answers : HdrAnswers) (args : HdrArgs) (s : Offload) :
    Except Failure (Option UInt32) × Offload :=
  if cfg.txProp = [] then (.error .noProperty, s)
  else match args.srcMac, args.dstMac with
  | some srcMac, some dstMac =>
    if args.hdrHdl = false then (.error .nullArgument, s)
    else if answers.malloc = false then (.error .noMemory, s)
    else match args.iptype with
    | none => (.ok none, s)
    | some ip =>
      match cfg.txProp.find? (·.ip = ip) with
      | none => (.ok none, s)
      | some tx =>
        match answers.copyHeader tx.hdrName with
        | none => (.error .hardware, s)
        | some hdr =>
          match firstSlot (fun slot => !slot.valid) (s.lan2lanHdrHdl ip) with
          | none => (.error .full, s)
          | some i =>
            -- the slot is taken before the driver is asked
            let s := s.setHdr ip i { s.lan2lanHdrHdl ip i with valid := true }
            match answers.added with
            | none => (.error .hardware, s)
            | some hdl =>
              (.ok (some hdl), { s.setHdr ip i { hdrHdl := hdl, valid := true } with
                installed :=
                  { ip := ip, slot := i, hdl := hdl
                    header := { name := lan2lanHdrName ip ++ toString i.val, hdr := hdr.paired srcMac dstMac } } ::
                    s.installed })
  | _, _ => (.error .nullArgument, s)

/-- `IPACM_Header::DeleteHeaderHdl` -/
def Offload.deleteHeaderHdl (s : Offload) (answers : ResetAnswers) (hdl : UInt32) : Except Failure Unit × Offload :=
  if hdl = 0 then (.error .notFound, s)
  else if answers.malloc = false then (.error .noMemory, s)
  else if answers.modified = false then (.error .hardware, s)
  else (.ok (), { s with installed := s.installed.filter (·.hdl ≠ hdl) })

/-- `del_lan2lan_hdr` -/
def delLan2lanHdr (answers : ResetAnswers) (iptype : Option IpaIpType) (hdrHdl : UInt32) (s : Offload) :
    Except Failure Unit × Offload :=
  match s.deleteHeaderHdl answers hdrHdl with
  | (.error why, s) => (.error why, s)
  | (.ok (), s) =>
    match iptype with
    | none => (.error .ipType, s)
    | some ip =>
      match firstSlot (fun slot => slot.hdrHdl = hdrHdl) (s.lan2lanHdrHdl ip) with
      | none => (.error .notFound, s)
      | some i => (.ok (), s.setHdr ip i { s.lan2lanHdrHdl ip i with valid := false })

/-! ### Calls -/

inductive OffloadCall where
  | addFlt (answers : FltAnswers) (args : FltArgs)
  | delFlt (answers : ResetAnswers) (iptype : Option IpaIpType) (ruleHdl : UInt32)
  | addHdr (answers : HdrAnswers) (args : HdrArgs)
  | delHdr (answers : ResetAnswers) (iptype : Option IpaIpType) (hdrHdl : UInt32)

/-- Why the call fails, if it does, and the state after it. -/
def offload (cfg : Iface) (s : Offload) : OffloadCall → Option Failure × Offload
  | .addFlt answers args =>
    match addLan2lanFltRule cfg answers args s with
    | (.ok _, s) => (none, s)
    | (.error why, s) => (some why, s)
  | .delFlt answers iptype ruleHdl =>
    match delLan2lanFltRule answers iptype ruleHdl s with
    | (.ok _, s) => (none, s)
    | (.error why, s) => (some why, s)
  | .addHdr answers args =>
    match addLan2lanHdr cfg answers args s with
    | (.ok _, s) => (none, s)
    | (.error why, s) => (some why, s)
  | .delHdr answers iptype hdrHdl =>
    match delLan2lanHdr answers iptype hdrHdl s with
    | (.ok _, s) => (none, s)
    | (.error why, s) => (some why, s)

end Hima.Lan
