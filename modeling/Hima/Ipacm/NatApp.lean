import Hima.Ipanat.Table
import Hima.Lib.Slots

/-!
# The NAT application

`NatApp` of the connection manager: a cache of connections, most of them with a rule in the
table of the NAT driver, and a small table of connections that wait for their interface. The
driver is an argument of the model: what its four calls return and store, and how its own state
moves on, is up to it.
-/
namespace Hima.Ipacm

open Ipanat Slots

/-- The calls of the NAT driver. An `Option` is what the call stores through its handle
argument, `none` when it leaves it alone. -/
structure NatDriver (σ : Type) where
  addIpv4Tbl : σ → UInt32 → UInt16 → Int × Option UInt32 × σ
  delIpv4Tbl : σ → UInt32 → Int × σ
  addIpv4Rule : σ → UInt32 → IpaNatIpv4Rule → Int × Option UInt32 × σ
  delIpv4Rule : σ → UInt32 → UInt32 → Int × σ

/-- The five fields that tell connections apart. The default is what an empty slot holds. -/
structure Connection where
  privateIp : UInt32 := 0
  targetIp : UInt32 := 0
  privatePort : UInt16 := 0
  targetPort : UInt16 := 0
  protocol : UInt8 := 0
deriving DecidableEq, Repr

/-- No field is zero. -/
def Connection.Whole (c : Connection) : Prop :=
  c.privateIp ≠ 0 ∧ c.targetIp ≠ 0 ∧ c.privatePort ≠ 0 ∧ c.targetPort ≠ 0 ∧ c.protocol ≠ 0

instance (c : Connection) : Decidable c.Whole := inferInstanceAs (Decidable (_ ∧ _))

/-- `nat_table_entry`. The default is a slot after `memset(…, 0, …)`. -/
structure NatTableEntry where
  privateIp : UInt32 := 0
  privatePort : UInt16 := 0
  targetIp : UInt32 := 0
  targetPort : UInt16 := 0
  publicIp : UInt16 := 0
  publicPort : UInt16 := 0
  protocol : UInt8 := 0
  timestamp : UInt32 := 0
  dstNat : Bool := false
  enabled : Bool := false
  ruleHdl : UInt32 := 0
deriving DecidableEq, Repr

namespace NatTableEntry

def connection (e : NatTableEntry) : Connection :=
  ⟨e.privateIp, e.targetIp, e.privatePort, e.targetPort, e.protocol⟩

/-- The `nat_rule` that is filled in from an entry. -/
def natRule (e : NatTableEntry) : IpaNatIpv4Rule where
  privateIp := e.privateIp
  targetIp := e.targetIp
  targetPort := e.targetPort
  privatePort := e.privatePort
  publicPort := e.publicPort
  protocol := e.protocol

/-- The test for an empty slot in `AddEntry` and `CacheEntry`. -/
def isFree (e : NatTableEntry) : Bool := e.connection = {}

/-- The test of `ChkForDup` and of the two delete functions. -/
def matchesRule (rule e : NatTableEntry) : Bool := e.connection = rule.connection

@[simp] theorem connection_default : ({} : NatTableEntry).connection = {} := rfl

@[simp] theorem isFree_iff {e : NatTableEntry} : e.isFree = true ↔ e.connection = {} := by
  simp [isFree]

@[simp] theorem matchesRule_iff {rule e : NatTableEntry} :
    matchesRule rule e = true ↔ e.connection = rule.connection := by
  simp [matchesRule]

end NatTableEntry

/-- `ipacm_alg`. -/
structure IpacmAlg where
  protocol : UInt8
  port : UInt16
deriving DecidableEq, Repr

/-- `IPA_MAX_NUM_WIFI_CLIENTS` and `MAX_TEMP_ENTRIES`. -/
def ipaMaxNumWifiClients : Nat := 32
def maxTempEntries : Nat := 25

/-- The members of `NatApp`; `max_entries` is the length of the cache. -/
structure NatApp (σ : Type) where
  cache : List NatTableEntry
  temp : List NatTableEntry
  pubIpAddr : UInt32
  pubIpAddrPre : UInt32
  natTableHdl : UInt32
  curCnt : Int
  algPorts : List IpacmAlg
  pwrSaveIfs : List UInt32
  driver : σ
deriving DecidableEq

/-- `NatApp::NatApp` followed by `NatApp::Init`. The constructor sets neither `pub_ip_addr_pre`
nor `PwrSaveIfs`: they start with what the memory held. -/
def NatApp.init {σ : Type} (maxEntries : Nat) (algPorts : List IpacmAlg) (pubIpAddrPre : UInt32)
    (pwrSaveIfs : List UInt32) (driver : σ) : NatApp σ where
  cache := List.replicate maxEntries {}
  temp := List.replicate maxTempEntries {}
  pubIpAddr := 0
  pubIpAddrPre := pubIpAddrPre
  natTableHdl := 0
  curCnt := 0
  algPorts := algPorts
  pwrSaveIfs := pwrSaveIfs
  driver := driver

namespace NatApp

variable {σ : Type} (nat : NatDriver σ)

/-! ### Slots of the cache -/

/-- What the loops over the cache carry: the state of the driver and `curCnt`. -/
abbrev Carried (σ : Type) := σ × Int

/-- The part of `AddTable` and `ResetPwrSaveIf` that gives a cached entry its rule again: when
the driver refuses, the entry is dropped. -/
def restoreEntry (tableHdl : UInt32) (c : Carried σ) (e : NatTableEntry) :
    Carried σ × NatTableEntry :=
  match nat.addIpv4Rule c.1 tableHdl e.natRule with
  | (ret, stored, driver) =>
    if ret < 0 then ((driver, c.2 - 1), {})
    else ((driver, c.2), { e with ruleHdl := stored.getD e.ruleHdl, enabled := true })

/-- The loop body of `AddTable`. -/
def restoreSlot (tableHdl : UInt32) (c : Carried σ) (e : NatTableEntry) :
    Carried σ × NatTableEntry :=
  if e.privateIp ≠ 0 then restoreEntry nat tableHdl c e else (c, e)

/-- The loop body of `ResetPwrSaveIf`. -/
def wakeSlot (tableHdl clientLanIp : UInt32) (c : Carried σ) (e : NatTableEntry) :
    Carried σ × NatTableEntry :=
  if e.privateIp = clientLanIp ∧ e.enabled = false then restoreEntry nat tableHdl c e else (c, e)

/-- The deletion of the rule of an enabled entry: when the driver refuses, the entry stays as
it is. -/
def withdrawEntry (tableHdl : UInt32) (withdrawn : NatTableEntry → NatTableEntry)
    (c : Carried σ) (e : NatTableEntry) : Carried σ × NatTableEntry :=
  match nat.delIpv4Rule c.1 tableHdl e.ruleHdl with
  | (ret, driver) => if ret < 0 then ((driver, c.2), e) else ((driver, c.2), withdrawn e)

/-- The loop body of `UpdatePwrSaveIf`. -/
def sleepSlot (tableHdl clientLanIp : UInt32) (c : Carried σ) (e : NatTableEntry) :
    Carried σ × NatTableEntry :=
  if e.privateIp = clientLanIp ∧ e.enabled = true then
    withdrawEntry nat tableHdl (fun e => { e with enabled := false, ruleHdl := 0 }) c e
  else (c, e)

/-- The loop body of `DelEntriesOnClntDiscon`. The entry stays cached, with its old handle. -/
def clntDisconSlot (tableHdl ipAddr : UInt32) (c : Carried σ) (e : NatTableEntry) :
    Carried σ × NatTableEntry :=
  if e.privateIp = ipAddr ∧ e.enabled = true then
    withdrawEntry nat tableHdl (fun e => { e with enabled := false }) c e
  else (c, e)

/-- The loop body of `DelEntriesOnSTAClntDiscon`. -/
def staClntDisconSlot (tableHdl ipAddr : UInt32) (c : Carried σ) (e : NatTableEntry) :
    Carried σ × NatTableEntry :=
  if e.targetIp = ipAddr then
    if e.enabled = true then
      match nat.delIpv4Rule c.1 tableHdl e.ruleHdl with
      | (ret, driver) => if ret < 0 then ((driver, c.2), e) else ((driver, c.2 - 1), {})
    else ((c.1, c.2 - 1), {})
  else (c, e)

/-- A loop over the cache. -/
def forCache (s : NatApp σ) (body : Carried σ → NatTableEntry → Carried σ × NatTableEntry) :
    NatApp σ :=
  let r := forSlots body (s.driver, s.curCnt) s.cache
  { s with cache := r.2, driver := r.1.1, curCnt := r.1.2 }

/-! ### The table -/

/-- `NatApp::AddTable`. The entries are restored only under the address of the last table. -/
def addTable (s : NatApp σ) (pubIp : UInt32) : Int × NatApp σ :=
  match nat.addIpv4Tbl s.driver pubIp (UInt16.ofNat s.cache.length) with
  | (ret, stored, driver) =>
    let s := { s with driver := driver, natTableHdl := stored.getD s.natTableHdl }
    if ret ≠ 0 then (ret, s)
    else
      let s := if pubIp = s.pubIpAddrPre then s.forCache (restoreSlot nat s.natTableHdl) else s
      (0, { s with pubIpAddr := pubIp })

/-- `NatApp::Reset`. Its loop compares `cache[cnt].enabled` with false and throws the result
away: no entry changes. -/
def reset (s : NatApp σ) : NatApp σ := { s with natTableHdl := 0, pubIpAddr := 0 }

/-- `NatApp::DeleteTable`. -/
def deleteTable (s : NatApp σ) (pubIp : UInt32) : Int × NatApp σ :=
  if s.natTableHdl = 0 then (-1, s)
  else if s.pubIpAddr ≠ pubIp then (-1, s)
  else
    match nat.delIpv4Tbl s.driver s.natTableHdl with
    | (ret, driver) =>
      let s := { s with driver := driver }
      if ret ≠ 0 then (ret, s) else (0, reset { s with pubIpAddrPre := s.pubIpAddr })

/-! ### Entries -/

/-- `NatApp::ChkForDup`. -/
def chkForDup (s : NatApp σ) (rule : NatTableEntry) : Bool :=
  s.cache.any (NatTableEntry.matchesRule rule)

/-- `NatApp::isAlgPort`. -/
def isAlgPort (s : NatApp σ) (proto : UInt8) (port : UInt16) : Bool :=
  s.algPorts.any fun alg => proto = alg.protocol ∧ port = alg.port

/-- A connection from or to an ALG port. -/
def isAlg (s : NatApp σ) (c : Connection) : Bool :=
  s.isAlgPort c.protocol c.privatePort || s.isAlgPort c.protocol c.targetPort

/-- `NatApp::isPwrSaveIf`. -/
def isPwrSaveIf (s : NatApp σ) (ipAddr : UInt32) : Bool :=
  s.pwrSaveIfs.any fun ip => ip ≠ 0 ∧ ipAddr = ip

/-- One of the ends of a connection is in power save. -/
def asleep (s : NatApp σ) (c : Connection) : Bool :=
  s.isPwrSaveIf c.privateIp || s.isPwrSaveIf c.targetIp

/-- `NatApp::DeleteEntry`. What the driver answers only goes to the log. -/
def deleteEntry (s : NatApp σ) (rule : NatTableEntry) : Int × NatApp σ :=
  match s.cache.find? (NatTableEntry.matchesRule rule) with
  | none => (0, s)
  | some slot =>
    let driver :=
      if slot.enabled = true then (nat.delIpv4Rule s.driver s.natTableHdl slot.ruleHdl).2
      else s.driver
    (0, { s with
      driver := driver
      cache := setFirst (NatTableEntry.matchesRule rule) {} s.cache
      curCnt := s.curCnt - 1 })

/-- What `AddEntry` and `CacheEntry` write into the slot they found. The public address of the
rule is not copied. -/
def filledSlot (slot rule : NatTableEntry) (enabled : Bool) (ruleHdl : UInt32) : NatTableEntry :=
  { slot with
    enabled := enabled
    ruleHdl := ruleHdl
    privateIp := rule.privateIp
    targetIp := rule.targetIp
    targetPort := rule.targetPort
    privatePort := rule.privatePort
    protocol := rule.protocol
    timestamp := 0
    publicPort := rule.publicPort
    dstNat := rule.dstNat }

/-- `NatApp::AddEntry`. -/
def addEntry (s : NatApp σ) (rule : NatTableEntry) : Int × NatApp σ :=
  if s.natTableHdl = 0 then (-1, s)
  else if s.isAlg rule.connection then (-1, s)
  else if ¬rule.connection.Whole then (0, s)
  else if s.chkForDup rule then (-1, s)
  else
    match s.cache.find? NatTableEntry.isFree with
    | none => (-1, s)
    | some slot =>
      if s.asleep rule.connection then
        (0, { s with
          cache := setFirst NatTableEntry.isFree (filledSlot slot rule false 0) s.cache
          curCnt := s.curCnt + 1 })
      else
        match nat.addIpv4Rule s.driver s.natTableHdl rule.natRule with
        | (ret, stored, driver) =>
          -- the driver stores the handle into the slot itself
          let ruleHdl := stored.getD slot.ruleHdl
          if ret < 0 then
            (-1, { s with
              driver := driver
              cache := setFirst NatTableEntry.isFree { slot with ruleHdl := ruleHdl } s.cache })
          else
            (0, { s with
              driver := driver
              cache := setFirst NatTableEntry.isFree (filledSlot slot rule true ruleHdl) s.cache
              curCnt := s.curCnt + 1 })

/-- `NatApp::CacheEntry`. Its scan index is not initialised: it starts at the `cnt` that the
stack held. A start outside the table makes it access memory beside the cache, `none`. -/
def cacheEntry (s : NatApp σ) (cnt : Int) (rule : NatTableEntry) : Option (NatApp σ) :=
  if ¬rule.connection.Whole then some s
  else if s.chkForDup rule then some s
  else if cnt < 0 ∨ s.cache.length < cnt then none
  else
    let skipped := s.cache.take cnt.toNat
    let scanned := s.cache.drop cnt.toNat
    match scanned.find? NatTableEntry.isFree with
    | none => some s
    | some slot =>
      some { s with
        cache := skipped ++ setFirst NatTableEntry.isFree (filledSlot slot rule false 0) scanned
        curCnt := s.curCnt + 1 }

/-! ### Power save and clients that leave -/

/-- `NatApp::UpdatePwrSaveIf`. When the list is full the address is not recorded. -/
def updatePwrSaveIf (s : NatApp σ) (clientLanIp : UInt32) : Int × NatApp σ :=
  if clientLanIp = 0 then (-1, s)
  else if clientLanIp ∈ s.pwrSaveIfs then (0, s)
  else
    let s := { s with pwrSaveIfs := setFirst (· == 0) clientLanIp s.pwrSaveIfs }
    (0, s.forCache (sleepSlot nat s.natTableHdl clientLanIp))

/-- `NatApp::ResetPwrSaveIf`. It returns -1 in every case. -/
def resetPwrSaveIf (s : NatApp σ) (clientLanIp : UInt32) : Int × NatApp σ :=
  if clientLanIp = 0 then (-1, s)
  else
    let s := { s with pwrSaveIfs := setFirst (· == clientLanIp) 0 s.pwrSaveIfs }
    (-1, s.forCache (wakeSlot nat s.natTableHdl clientLanIp))

/-- `NatApp::DelEntriesOnClntDiscon`. -/
def delEntriesOnClntDiscon (s : NatApp σ) (ipAddr : UInt32) : Int × NatApp σ :=
  if ipAddr = 0 then (-1, s)
  else
    let s := { s with pwrSaveIfs := setFirst (· == ipAddr) 0 s.pwrSaveIfs }
    (0, s.forCache (clntDisconSlot nat s.natTableHdl ipAddr))

/-- `NatApp::DelEntriesOnSTAClntDiscon`. -/
def delEntriesOnSTAClntDiscon (s : NatApp σ) (ipAddr : UInt32) : Int × NatApp σ :=
  if ipAddr = 0 then (-1, s)
  else (0, s.forCache (staClntDisconSlot nat s.natTableHdl ipAddr))

/-! ### The temp table -/

/-- The test for an empty slot in `AddTempEntry`, which looks at the two addresses only. -/
def isFreeTemp (e : NatTableEntry) : Bool := e.privateIp = 0 ∧ e.targetIp = 0

/-- `NatApp::AddTempEntry`. -/
def addTempEntry (s : NatApp σ) (newEntry : NatTableEntry) : NatApp σ :=
  { s with temp := setFirst isFreeTemp newEntry s.temp }

/-- `NatApp::DeleteTempEntry`. -/
def deleteTempEntry (s : NatApp σ) (entry : NatTableEntry) : NatApp σ :=
  { s with temp := setFirst (NatTableEntry.matchesRule entry) {} s.temp }

/-- The loop body of `FlushTempEntries`. `public_ip` has 16 bits and is compared with all 32 of
the public address. -/
def flushSlot (ipAddr : UInt32) (isAdd : Bool) (s : NatApp σ) (e : NatTableEntry) :
    NatApp σ × NatTableEntry :=
  if e.privateIp = ipAddr ∨ e.targetIp = ipAddr then
    if isAdd = true ∧ e.publicIp.toUInt32 = s.pubIpAddr then
      match s.addEntry nat e with
      | (ret, s) => if ret ≠ 0 then (s, e) else (s, {})
    else (s, {})
  else (s, e)

/-- `NatApp::FlushTempEntries`. -/
def flushTempEntries (s : NatApp σ) (ipAddr : UInt32) (isAdd : Bool) : NatApp σ :=
  let r := forSlots (flushSlot nat ipAddr isAdd) s s.temp
  { r.1 with temp := r.2 }

end NatApp

/-! ### Runs -/

/-- A call of one of the operations of `NatApp`. -/
inductive NatAppOp
  | addTable (pubIp : UInt32)
  | deleteTable (pubIp : UInt32)
  | addEntry (rule : NatTableEntry)
  | deleteEntry (rule : NatTableEntry)
  | cacheEntry (cnt : Int) (rule : NatTableEntry)
  | updatePwrSaveIf (clientLanIp : UInt32)
  | resetPwrSaveIf (clientLanIp : UInt32)
  | delEntriesOnClntDiscon (ipAddr : UInt32)
  | delEntriesOnSTAClntDiscon (ipAddr : UInt32)
  | addTempEntry (newEntry : NatTableEntry)
  | deleteTempEntry (entry : NatTableEntry)
  | flushTempEntries (ipAddr : UInt32) (isAdd : Bool)
deriving DecidableEq

/-- The state after a call; what it returns is dropped. -/
def natAppStep {σ : Type} (nat : NatDriver σ) (s : NatApp σ) : NatAppOp → Option (NatApp σ)
  | .addTable pubIp => some (s.addTable nat pubIp).2
  | .deleteTable pubIp => some (s.deleteTable nat pubIp).2
  | .addEntry rule => some (s.addEntry nat rule).2
  | .deleteEntry rule => some (s.deleteEntry nat rule).2
  | .cacheEntry cnt rule => s.cacheEntry cnt rule
  | .updatePwrSaveIf clientLanIp => some (s.updatePwrSaveIf nat clientLanIp).2
  | .resetPwrSaveIf clientLanIp => some (s.resetPwrSaveIf nat clientLanIp).2
  | .delEntriesOnClntDiscon ipAddr => some (s.delEntriesOnClntDiscon nat ipAddr).2
  | .delEntriesOnSTAClntDiscon ipAddr => some (s.delEntriesOnSTAClntDiscon nat ipAddr).2
  | .addTempEntry newEntry => some (s.addTempEntry newEntry)
  | .deleteTempEntry entry => some (s.deleteTempEntry entry)
  | .flushTempEntries ipAddr isAdd => some (s.flushTempEntries nat ipAddr isAdd)

end Hima.Ipacm
