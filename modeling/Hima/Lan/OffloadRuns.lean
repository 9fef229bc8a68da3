import Hima.Lib.Prefixes
import Hima.Lan.EthRuns
import Hima.Lan.OffloadSlots

/-!
# Runs of LAN-to-LAN calls

When the counters and the valid flags of the slots agree with each other and with the headers that
the hardware has, over any sequence of calls with any answers.
-/
namespace Hima.Lan

open Function OffloadCall
open Wan (IpaIpType)
open SlotArray Prefixes

variable {cfg : Iface} {s : Offload} {ip : IpaIpType} {i : Fin maxOffloadPair}

/-! ### Agreement -/

/-- The counter of a family is the number of its valid slots, and a header slot is valid exactly
while the header added through it is installed, under the handle in the slot. -/
structure Agrees (s : Offload) : Prop where
  counted : ∀ ip, (s.numLan2lanFltRule ip).toNat = count (·.valid) (s.lan2lanFltRuleHdl ip)
  bounded : ∀ ip, (s.numLan2lanFltRule ip).toNat ≤ maxOffloadPair
  valid : ∀ ip i, (s.lan2lanHdrHdl ip i).valid = true ↔ ∃ h ∈ s.installed, h.ip = ip ∧ h.slot = i
  handle : ∀ h ∈ s.installed, (s.lan2lanHdrHdl h.ip h.slot).hdrHdl = h.hdl

/-- Besides, a search for the handle of a header that is installed stops at its own slot. -/
structure Consistent (s : Offload) : Prop extends Agrees s where
  distinct : ∀ h ∈ s.installed, ∀ h' ∈ s.installed, h.hdl = h'.hdl → h.ip = h'.ip ∧ h.slot = h'.slot
  first : ∀ h ∈ s.installed, ∀ j < h.slot, (s.lan2lanHdrHdl h.ip j).hdrHdl ≠ h.hdl

/-- The driver gives a header no handle that another one has. -/
def OffloadCall.Fresh (s : Offload) : OffloadCall → Prop
  | .addHdr answers _ => ∀ h ∈ s.installed, answers.added ≠ some h.hdl
  | .addFlt _ _ => True
  | .delFlt _ _ _ => True
  | .delHdr _ _ _ => True

instance (s : Offload) (call : OffloadCall) : Decidable (call.Fresh s) := by
  cases call <;> unfold Fresh <;> infer_instance

/-- The header call gets as far as to take a slot. -/
def TakesSlot (cfg : Iface) (s : Offload) (answers : HdrAnswers) (args : HdrArgs) : Prop :=
  args.srcMac.isSome ∧ args.dstMac.isSome ∧ args.hdrHdl = true ∧ answers.malloc = true ∧
    ∃ ip ∈ args.iptype, ∃ tx ∈ cfg.txProp.find? (·.ip = ip),
      (answers.copyHeader tx.hdrName).isSome ∧ ∃ i, (s.lan2lanHdrHdl ip i).valid = false

instance (cfg : Iface) (s : Offload) (answers : HdrAnswers) (args : HdrArgs) :
    Decidable (TakesSlot cfg s answers args) := by
  unfold TakesSlot
  infer_instance

/-- A rule that is reset has a valid slot; a header that takes a slot is added; and a header is
deleted under its own family. -/
def OffloadCall.Harmless (cfg : Iface) (s : Offload) : OffloadCall → Prop
  | .addFlt _ _ => True
  | .delFlt answers iptype ruleHdl => answers.malloc = true → answers.modified = true →
      ∀ ip ∈ iptype, ∀ i ∈ firstSlot (fun slot => slot.ruleHdl = ruleHdl) (s.lan2lanFltRuleHdl ip),
        (s.lan2lanFltRuleHdl ip i).valid = true
  | .addHdr answers args => TakesSlot cfg s answers args → answers.added.isSome
  | .delHdr answers iptype hdrHdl => hdrHdl ≠ 0 → answers.malloc = true → answers.modified = true →
      ∀ h ∈ s.installed, h.hdl = hdrHdl → iptype = some h.ip

instance (cfg : Iface) (s : Offload) (call : OffloadCall) : Decidable (call.Harmless cfg s) := by
  cases call <;> unfold Harmless <;> infer_instance

/-! ### What a call changes -/

theorem addFlt_cases (cfg : Iface) (answers : FltAnswers) (args : FltArgs) (s : Offload) :
    (∃ why, offload cfg s (.addFlt answers args) = (some why, s)) ∨
    ∃ ip i hdl rule, (s.lan2lanFltRuleHdl ip i).valid = false ∧
      (s.numLan2lanFltRule ip).toNat < maxOffloadPair ∧ offload cfg s (.addFlt answers args) =
        (none, (s.modify ip hdl rule).setFlt ip i true (s.numLan2lanFltRule ip + 1)) := by
  rw [offload, addLan2lanFltRule]
  cases cfg.rxProp with
  | none => exact .inl ⟨_, rfl⟩
  | some rxAttrib =>
    dsimp only
    by_cases place : args.ruleHdl = false
    · exact .inl ⟨_, by rw [if_pos place]⟩
    by_cases malloc : answers.malloc = false
    · exact .inl ⟨_, by rw [if_neg place, if_pos malloc]⟩
    rw [if_neg place, if_neg malloc]
    cases args.iptype with
    | none => exact .inl ⟨_, rfl⟩
    | some ip =>
      dsimp only
      by_cases full : maxOffloadPair ≤ (s.numLan2lanFltRule ip).toNat
      · exact .inl ⟨_, by rw [if_pos full]⟩
      rw [if_neg full]
      cases args.attrib rxAttrib ip with
      | none => exact .inl ⟨_, rfl⟩
      | some attrib =>
        cases answers.rtTblHdl with
        | none => exact .inl ⟨_, rfl⟩
        | some rtTblHdl =>
          cases found : firstSlot (fun slot => !slot.valid) (s.lan2lanFltRuleHdl ip) with
          | none => exact .inl ⟨_, rfl⟩
          | some i =>
            have free := (firstSlot_some found).1
            dsimp only
            by_cases modified : answers.modified = false
            · exact .inl ⟨_, by rw [if_pos modified]⟩
            · rw [if_neg modified]
              exact .inr ⟨ip, i, _, _, by simpa using free, by omega, rfl⟩

theorem delFlt_cases (cfg : Iface) (answers : ResetAnswers) (iptype : Option IpaIpType) (ruleHdl : UInt32) (s : Offload) :
    ((answers.malloc = true → answers.modified = true → ∀ ip ∈ iptype,
        firstSlot (fun slot => slot.ruleHdl = ruleHdl) (s.lan2lanFltRuleHdl ip) = none) ∧
      ∃ why, offload cfg s (.delFlt answers iptype ruleHdl) = (some why, s)) ∨
    ∃ ip ∈ iptype, ∃ i ∈ firstSlot (fun slot => slot.ruleHdl = ruleHdl) (s.lan2lanFltRuleHdl ip), ∃ rule,
      answers.malloc = true ∧ answers.modified = true ∧ offload cfg s (.delFlt answers iptype ruleHdl) =
        (none, (s.modify ip ruleHdl rule).setFlt ip i false (s.numLan2lanFltRule ip - 1)) := by
  rw [offload, delLan2lanFltRule.eq_def]
  cases iptype with
  | none => exact .inl ⟨by simp, _, rfl⟩
  | some ip =>
    dsimp only
    cases found : firstSlot (fun slot => slot.ruleHdl = ruleHdl) (s.lan2lanFltRuleHdl ip) with
    | none =>
      refine .inl ⟨fun _ _ ip' same => ?_, _, rfl⟩
      obtain rfl := Option.some.inj same
      exact found
    | some i =>
      dsimp only [resetToDummyFltRule]
      by_cases malloc : answers.malloc = false
      · rw [if_pos malloc]
        exact .inl ⟨by simp [malloc], _, rfl⟩
      by_cases modified : answers.modified = false
      · rw [if_neg malloc, if_pos modified]
        exact .inl ⟨by simp [modified], _, rfl⟩
      rw [if_neg malloc, if_neg modified]
      exact .inr ⟨ip, rfl, i, found, _, by simpa using malloc, by simpa using modified, rfl⟩

/-- The slot of a header that is about to be added. -/
def Offload.take (s : Offload) (ip : IpaIpType) (i : Fin maxOffloadPair) : Offload :=
  s.setHdr ip i { s.lan2lanHdrHdl ip i with valid := true }

def Offload.install (s : Offload) (h : Installed) : Offload :=
  { s.setHdr h.ip h.slot { hdrHdl := h.hdl, valid := true } with installed := h :: s.installed }

theorem addHdr_cases (cfg : Iface) (answers : HdrAnswers) (args : HdrArgs) (s : Offload) :
    (¬ TakesSlot cfg s answers args ∧ ∃ why, offload cfg s (.addHdr answers args) = (why, s)) ∨
    TakesSlot cfg s answers args ∧
    ∃ ip i, (s.lan2lanHdrHdl ip i).valid = false ∧ (∀ j < i, (s.lan2lanHdrHdl ip j).valid = true) ∧
      match answers.added with
      | none => offload cfg s (.addHdr answers args) = (some .hardware, s.take ip i)
      | some hdl => ∃ header, offload cfg s (.addHdr answers args) =
          (none, (s.take ip i).install { ip := ip, slot := i, header := header, hdl := hdl }) := by
  rw [offload, addLan2lanHdr]
  -- each check of the source in its order; a failed one refutes `TakesSlot`
  by_cases props : cfg.txProp = []
  · refine .inl ⟨?_, _, by rw [if_pos props]⟩
    rintro ⟨-, -, -, -, ip, -, tx, found, -⟩
    simp [props] at found
  rw [if_neg props]
  cases src : args.srcMac with
  | none => exact .inl ⟨fun takes => by simp [TakesSlot, src] at takes, _, rfl⟩
  | some srcMac =>
    cases dst : args.dstMac with
    | none => exact .inl ⟨fun takes => by simp [TakesSlot, dst] at takes, _, rfl⟩
    | some dstMac =>
      dsimp only
      by_cases place : args.hdrHdl = false
      · exact .inl ⟨fun takes => by simp [TakesSlot, place] at takes, _, by rw [if_pos place]⟩
      by_cases malloc : answers.malloc = false
      · exact .inl ⟨fun takes => by simp [TakesSlot, malloc] at takes, _, by rw [if_neg place, if_pos malloc]⟩
      rw [if_neg place, if_neg malloc]
      cases family : args.iptype with
      | none => exact .inl ⟨fun takes => by simp [TakesSlot, family] at takes, _, rfl⟩
      | some ip =>
        dsimp only
        cases prop : cfg.txProp.find? (·.ip = ip) with
        | none => exact .inl ⟨fun takes => by simp [TakesSlot, family, prop] at takes, _, rfl⟩
        | some tx =>
          dsimp only
          cases copied : answers.copyHeader tx.hdrName with
          | none => exact .inl ⟨fun takes => by simp [TakesSlot, family, prop, copied] at takes, _, rfl⟩
          | some hdr =>
            cases found : firstSlot (fun slot => !slot.valid) (s.lan2lanHdrHdl ip) with
            | none =>
              refine .inl ⟨fun takes => ?_, _, rfl⟩
              simp [firstSlot_none] at found
              simp [TakesSlot, family, prop, found] at takes
            | some i =>
              -- all checks passed: the first free slot is taken
              obtain ⟨free, before⟩ := firstSlot_some found
              have free : (s.lan2lanHdrHdl ip i).valid = false := by simpa using free
              refine .inr ⟨⟨by simp [src], by simp [dst], by simpa using place, by simpa using malloc, ip, family,
                tx, prop, by simp [copied], i, free⟩, ip, i, free, fun j earlier => by simpa using before j earlier, ?_⟩
              cases answers.added with
              | none => rfl
              | some hdl => exact ⟨_, rfl⟩

theorem delHdr_cases (cfg : Iface) (answers : ResetAnswers) (iptype : Option IpaIpType) (hdrHdl : UInt32) (s : Offload) :
    (¬ (hdrHdl ≠ 0 ∧ answers.malloc = true ∧ answers.modified = true) ∧
      ∃ why, offload cfg s (.delHdr answers iptype hdrHdl) = (some why, s)) ∨
    hdrHdl ≠ 0 ∧ answers.malloc = true ∧ answers.modified = true ∧
    ((∃ why, (∀ ip ∈ iptype, ∀ i, (s.lan2lanHdrHdl ip i).hdrHdl ≠ hdrHdl) ∧ why ≠ .hardware ∧
      offload cfg s (.delHdr answers iptype hdrHdl) =
        (some why, { s with installed := s.installed.filter (·.hdl ≠ hdrHdl) })) ∨
    ∃ ip ∈ iptype, ∃ i, (s.lan2lanHdrHdl ip i).hdrHdl = hdrHdl ∧
      (∀ j < i, (s.lan2lanHdrHdl ip j).hdrHdl ≠ hdrHdl) ∧
      offload cfg s (.delHdr answers iptype hdrHdl) =
        (none, Offload.setHdr { s with installed := s.installed.filter (·.hdl ≠ hdrHdl) } ip i
          { s.lan2lanHdrHdl ip i with valid := false })) := by
  rw [offload, delLan2lanHdr, Offload.deleteHeaderHdl]
  by_cases zero : hdrHdl = 0
  · exact .inl ⟨by simp [zero], _, by rw [if_pos zero]⟩
  by_cases malloc : answers.malloc = false
  · exact .inl ⟨by simp [malloc], _, by rw [if_neg zero, if_pos malloc]⟩
  by_cases modified : answers.modified = false
  · exact .inl ⟨by simp [modified], _, by rw [if_neg zero, if_neg malloc, if_pos modified]⟩
  rw [if_neg zero, if_neg malloc, if_neg modified]
  refine .inr ⟨zero, by simpa using malloc, by simpa using modified, ?_⟩
  cases iptype with
  | none => exact .inl ⟨_, by simp, by decide, rfl⟩
  | some ip =>
    dsimp only
    cases found : firstSlot (fun slot => slot.hdrHdl = hdrHdl) (s.lan2lanHdrHdl ip) with
    | none =>
      refine .inl ⟨_, fun ip' same i => ?_, by decide, rfl⟩
      obtain rfl := Option.some.inj same
      simpa using firstSlot_none.mp found i
    | some i =>
      obtain ⟨here, before⟩ := firstSlot_some found
      exact .inr ⟨ip, rfl, i, by simpa using here, fun j earlier => by simpa using before j earlier, rfl⟩

/-! ### What a call keeps -/

theorem setFlt_numLan2lanFltRule (s : Offload) (ip : IpaIpType) (i : Fin maxOffloadPair) (valid : Bool)
    (num : UInt8) : (s.setFlt ip i valid num).numLan2lanFltRule = update s.numLan2lanFltRule ip num := rfl

theorem setFlt_lan2lanFltRuleHdl (s : Offload) (ip : IpaIpType) (i : Fin maxOffloadPair) (valid : Bool)
    (num : UInt8) : (s.setFlt ip i valid num).lan2lanFltRuleHdl = update s.lan2lanFltRuleHdl ip
      (update (s.lan2lanFltRuleHdl ip) i { s.lan2lanFltRuleHdl ip i with valid := valid }) := rfl

theorem setHdr_lan2lanHdrHdl (s : Offload) (ip : IpaIpType) (i : Fin maxOffloadPair) (slot : Lan2lanHdrHdl) :
    (s.setHdr ip i slot).lan2lanHdrHdl = update s.lan2lanHdrHdl ip (update (s.lan2lanHdrHdl ip) i slot) := rfl

theorem count_setFlt (s : Offload) (ip : IpaIpType) (i : Fin maxOffloadPair) (valid : Bool) (num : UInt8) :
    count (·.valid) ((s.setFlt ip i valid num).lan2lanFltRuleHdl ip) +
        (if (s.lan2lanFltRuleHdl ip i).valid then 1 else 0) =
      count (·.valid) (s.lan2lanFltRuleHdl ip) + if valid then 1 else 0 := by
  have turned := count_update (·.valid) (s.lan2lanFltRuleHdl ip) i { s.lan2lanFltRuleHdl ip i with valid := valid }
  rw [setFlt_lan2lanFltRuleHdl, update_self]
  exact turned

theorem setFlt_other (s : Offload) {ip ip' : IpaIpType} (other : ip' ≠ ip) (i : Fin maxOffloadPair) (valid : Bool)
    (num : UInt8) : (s.setFlt ip i valid num).lan2lanFltRuleHdl ip' = s.lan2lanFltRuleHdl ip' :=
  update_of_ne other _ _

theorem Consistent.setFlt (here : Consistent s) {valid : Bool} {num : UInt8}
    (counted : num.toNat = count (·.valid) ((s.setFlt ip i valid num).lan2lanFltRuleHdl ip)) :
    Consistent (s.setFlt ip i valid num) where
  counted ip' := by
    by_cases same : ip' = ip
    · subst same
      rw [setFlt_numLan2lanFltRule, update_self]
      exact counted
    · rw [setFlt_numLan2lanFltRule, update_of_ne same, setFlt_other s same]
      exact here.counted ip'
  bounded ip' := by
    by_cases same : ip' = ip
    · subst same
      rw [setFlt_numLan2lanFltRule, update_self, counted]
      exact count_le _ _
    · rw [setFlt_numLan2lanFltRule, update_of_ne same]
      exact here.bounded ip'
  valid := here.valid
  handle := here.handle
  distinct := here.distinct
  first := here.first

theorem Consistent.modify (here : Consistent s) (hdl : UInt32) (rule : FltRule) :
    Consistent (s.modify ip hdl rule) :=
  ⟨⟨here.counted, here.bounded, here.valid, here.handle⟩, here.distinct, here.first⟩

theorem setHdr_self (s : Offload) (ip : IpaIpType) (i : Fin maxOffloadPair) (slot : Lan2lanHdrHdl) :
    (s.setHdr ip i slot).lan2lanHdrHdl ip i = slot := by
  rw [setHdr_lan2lanHdrHdl, update_self, update_self]

theorem setHdr_other (s : Offload) {ip ip' : IpaIpType} {i j : Fin maxOffloadPair} (slot : Lan2lanHdrHdl)
    (other : ¬ (ip' = ip ∧ j = i)) : (s.setHdr ip i slot).lan2lanHdrHdl ip' j = s.lan2lanHdrHdl ip' j := by
  rw [setHdr_lan2lanHdrHdl]
  by_cases family : ip' = ip
  · subst family
    rw [update_self, update_of_ne fun place => other ⟨rfl, place⟩]
  · rw [update_of_ne family]

theorem Consistent.install (here : Consistent s) {h : Installed} (free : (s.lan2lanHdrHdl h.ip h.slot).valid = false)
    (before : ∀ j < h.slot, (s.lan2lanHdrHdl h.ip j).valid = true)
    (fresh : ∀ h' ∈ s.installed, h'.hdl ≠ h.hdl) : Consistent ((s.take h.ip h.slot).install h) := by
  -- no header that is installed has the slot, since it is free
  have elsewhere : ∀ h' ∈ s.installed, ¬ (h'.ip = h.ip ∧ h'.slot = h.slot) := by
    rintro h' member ⟨family, place⟩
    have valid := (here.valid h.ip h.slot).mpr ⟨h', member, family, place⟩
    rw [free] at valid
    contradiction
  have self : ((s.take h.ip h.slot).install h).lan2lanHdrHdl h.ip h.slot = ⟨h.hdl, true⟩ := setHdr_self _ _ _ _
  have other : ∀ ip j, ¬ (ip = h.ip ∧ j = h.slot) →
      ((s.take h.ip h.slot).install h).lan2lanHdrHdl ip j = s.lan2lanHdrHdl ip j := fun ip j this =>
    (setHdr_other _ _ this).trans (setHdr_other _ _ this)
  refine ⟨⟨here.counted, here.bounded, fun ip j => ?_, fun h' member => ?_⟩, fun h₁ member₁ h₂ member₂ same => ?_,
    fun h' member j earlier => ?_⟩
  · by_cases this : ip = h.ip ∧ j = h.slot
    · obtain ⟨rfl, rfl⟩ := this
      rw [self]
      exact iff_of_true rfl ⟨h, List.mem_cons_self, rfl, rfl⟩
    · rw [other ip j this, here.valid]
      constructor
      · rintro ⟨h', member, place⟩
        exact ⟨h', List.mem_cons_of_mem _ member, place⟩
      · rintro ⟨h', member, place⟩
        rcases List.mem_cons.mp member with rfl | member
        · exact absurd ⟨place.1.symm, place.2.symm⟩ this
        · exact ⟨h', member, place⟩
  · rcases List.mem_cons.mp member with rfl | member
    · rw [self]
    · rw [other _ _ (elsewhere h' member)]
      exact here.handle h' member
  · rcases List.mem_cons.mp member₁ with rfl | member₁ <;> rcases List.mem_cons.mp member₂ with rfl | member₂
    · exact ⟨rfl, rfl⟩
    · exact absurd same.symm (fresh h₂ member₂)
    · exact absurd same (fresh h₁ member₁)
    · exact here.distinct h₁ member₁ h₂ member₂ same
  · rcases List.mem_cons.mp member with rfl | member
    · -- the slots before the new one belong to headers that are installed
      rw [other _ _ fun this => (Fin.ne_of_lt earlier) this.2]
      obtain ⟨h₁, old, family, place⟩ := (here.valid _ _).mp (before j earlier)
      rw [← family, ← place, here.handle h₁ old]
      exact fresh h₁ old
    · by_cases this : h'.ip = h.ip ∧ j = h.slot
      · rw [this.1, this.2, self]
        exact (fresh h' member).symm
      · rw [other _ _ this]
        exact here.first h' member j earlier

theorem Consistent.uninstall (here : Consistent s) {s' : Offload} {hdl : UInt32}
    (flt : s'.lan2lanFltRuleHdl = s.lan2lanFltRuleHdl) (num : s'.numLan2lanFltRule = s.numLan2lanFltRule)
    (installed : s'.installed = s.installed.filter (·.hdl ≠ hdl))
    (same : ∀ ip i, (s'.lan2lanHdrHdl ip i).hdrHdl = (s.lan2lanHdrHdl ip i).hdrHdl)
    (valid : ∀ ip i, (s'.lan2lanHdrHdl ip i).valid = true ↔
      (s.lan2lanHdrHdl ip i).valid = true ∧ ∀ h ∈ s.installed, h.ip = ip → h.slot = i → h.hdl ≠ hdl) :
    Consistent s' := by
  have kept : ∀ h ∈ s'.installed, h ∈ s.installed ∧ h.hdl ≠ hdl := by
    intro h member
    rw [installed] at member
    simpa using List.mem_filter.mp member
  refine ⟨⟨fun ip => ?_, fun ip => ?_, fun ip i => ?_, fun h member => ?_⟩, fun h₁ member₁ h₂ member₂ => ?_,
    fun h member j earlier => ?_⟩
  · rw [num, flt]
    exact here.counted ip
  · rw [num]
    exact here.bounded ip
  · rw [valid, here.valid]
    constructor
    · rintro ⟨⟨h, member, family, place⟩, stays⟩
      refine ⟨h, ?_, family, place⟩
      rw [installed]
      exact List.mem_filter.mpr ⟨member, by simpa using stays h member family place⟩
    · rintro ⟨h, member, rfl, rfl⟩
      obtain ⟨member, other⟩ := kept h member
      refine ⟨⟨h, member, rfl, rfl⟩, fun h' member' family place => ?_⟩
      have handle := here.handle h' member'
      rw [family, place, here.handle h member] at handle
      rwa [← handle]
  · rw [same]
    exact here.handle h (kept h member).1
  · exact here.distinct h₁ (kept h₁ member₁).1 h₂ (kept h₂ member₂).1
  · rw [same]
    exact here.first h (kept h member).1 j earlier

/-! ### One call -/

/-- A call that meets its condition keeps the agreement, and changes no table when it fails. -/
theorem harmless_step {call : OffloadCall} (here : Consistent s) (fresh : call.Fresh s)
    (harmless : call.Harmless cfg s) :
    Consistent (offload cfg s call).2 ∧
      ((offload cfg s call).1 ≠ none → (offload cfg s call).2.toOffloadTables = s.toOffloadTables) := by
  cases call with
  | addFlt answers args =>
    rcases addFlt_cases cfg answers args s with ⟨why, runs⟩ | ⟨ip, i, hdl, rule, free, room, runs⟩
    · rw [runs]
      exact ⟨here, fun _ => rfl⟩
    · rw [runs]
      refine ⟨(here.modify hdl rule).setFlt ?_, fun fails => absurd rfl fails⟩
      have turned := count_setFlt (s.modify ip hdl rule) ip i true (s.numLan2lanFltRule ip + 1)
      have counted : (s.numLan2lanFltRule ip).toNat = count (·.valid) ((s.modify ip hdl rule).lan2lanFltRuleHdl ip) :=
        here.counted ip
      have free : ((s.modify ip hdl rule).lan2lanFltRuleHdl ip i).valid = false := free
      have small : (s.numLan2lanFltRule ip).toNat + 1 < 256 := by
        have : maxOffloadPair = 3 := rfl
        omega
      rw [free] at turned
      rw [UInt8.toNat_add, UInt8.toNat_one, Nat.mod_eq_of_lt small]
      simpa [counted] using turned.symm
  | delFlt answers iptype ruleHdl =>
    rcases delFlt_cases cfg answers iptype ruleHdl s with
      ⟨-, why, runs⟩ | ⟨ip, family, i, found, rule, malloc, modified, runs⟩
    · rw [runs]
      exact ⟨here, fun _ => rfl⟩
    · rw [runs]
      refine ⟨(here.modify ruleHdl rule).setFlt ?_, fun fails => absurd rfl fails⟩
      have turned := count_setFlt (s.modify ip ruleHdl rule) ip i false (s.numLan2lanFltRule ip - 1)
      have counted : (s.numLan2lanFltRule ip).toNat =
          count (·.valid) ((s.modify ip ruleHdl rule).lan2lanFltRuleHdl ip) := here.counted ip
      have used : ((s.modify ip ruleHdl rule).lan2lanFltRuleHdl ip i).valid = true :=
        harmless malloc modified ip family i found
      rw [used] at turned
      simp only [if_true, Bool.false_eq_true, if_false, Nat.add_zero] at turned
      have positive : (1 : UInt8) ≤ s.numLan2lanFltRule ip := by
        rw [UInt8.le_iff_toNat_le, counted, ← turned]
        simp
      rw [UInt8.toNat_sub_of_le _ _ positive, counted, ← turned]
      simp
  | addHdr answers args =>
    rcases addHdr_cases cfg answers args s with
      ⟨-, why, runs⟩ | ⟨takes, ip, i, free, before, runs⟩
    · rw [runs]
      exact ⟨here, fun _ => rfl⟩
    · obtain ⟨hdl, added⟩ := Option.isSome_iff_exists.mp (harmless takes)
      rw [added] at runs
      obtain ⟨header, runs⟩ := runs
      rw [runs]
      have new : ∀ h ∈ s.installed, h.hdl ≠ hdl := fun h member same => by
        rw [← same] at added
        exact fresh h member added
      exact ⟨here.install free before new, fun fails => absurd rfl fails⟩
  | delHdr answers iptype hdrHdl =>
    rcases delHdr_cases cfg answers iptype hdrHdl s with
      ⟨-, why, runs⟩ | ⟨real, malloc, modified, ⟨why, absent, -, runs⟩ | ⟨ip, family, i, slot, before, runs⟩⟩
    · rw [runs]
      exact ⟨here, fun _ => rfl⟩
    · rw [runs]
      refine ⟨here.uninstall rfl rfl rfl (fun _ _ => rfl) fun ip i => ?_, fun _ => rfl⟩
      refine (and_iff_left fun h member _ _ this => ?_).symm
      -- the header would be found under its own family
      refine absent h.ip (harmless real malloc modified h member this) h.slot ?_
      rw [here.handle h member, this]
    · rw [runs]
      have own := harmless real malloc modified
      refine ⟨here.uninstall rfl rfl rfl (fun ip' j => ?_) fun ip' j => ?_, fun fails => absurd rfl fails⟩
      · by_cases this : ip' = ip ∧ j = i
        · obtain ⟨rfl, rfl⟩ := this
          rw [setHdr_self]
        · rw [setHdr_other _ _ this]
      · by_cases this : ip' = ip ∧ j = i
        · obtain ⟨rfl, rfl⟩ := this
          rw [setHdr_self]
          refine iff_of_false (by simp) fun ⟨valid, stays⟩ => ?_
          obtain ⟨h, member, rfl, rfl⟩ := (here.valid _ _).mp valid
          exact stays h member rfl rfl ((here.handle h member).symm.trans slot)
        · rw [setHdr_other _ _ this]
          refine (and_iff_left fun h member at_ip at_j same => this ?_).symm
          -- the search has stopped at the slot of the header
          have family' : ip = h.ip := Option.some.inj (family.symm.trans (own h member same))
          refine ⟨at_ip.symm.trans family'.symm, at_j.symm.trans ?_⟩
          have handle := here.handle h member
          rw [← family', same] at handle
          rcases Nat.lt_trichotomy h.slot.val i.val with earlier | equal | later
          · exact absurd handle (before h.slot earlier)
          · exact Fin.ext equal
          · have first := here.first h member i later
            rw [← family', same] at first
            exact absurd slot first

/-- A call that does not breaks the agreement. -/
theorem harmful_step {call : OffloadCall} (here : Consistent s) (harm : ¬ call.Harmless cfg s) :
    ¬ Agrees (offload cfg s call).2 := by
  intro after
  cases call with
  | addFlt answers args => exact harm trivial
  | delFlt answers iptype ruleHdl =>
    rw [Harmless] at harm
    push Not at harm
    obtain ⟨malloc, modified, ip, family, i, found, free⟩ := harm
    rcases delFlt_cases cfg answers iptype ruleHdl s with
      ⟨absent, -⟩ | ⟨ip', family', j, found', rule, -, -, runs⟩
    · rw [absent malloc modified ip family] at found
      contradiction
    · obtain rfl := Option.some.inj (family.symm.trans family')
      obtain rfl := Option.some.inj (found.symm.trans found')
      rw [runs] at after
      -- the counter goes down, the number of valid slots does not
      have turned := count_setFlt (s.modify ip ruleHdl rule) ip i false (s.numLan2lanFltRule ip - 1)
      have counted : (s.numLan2lanFltRule ip).toNat =
          count (·.valid) ((s.modify ip ruleHdl rule).lan2lanFltRuleHdl ip) := here.counted ip
      have free : (s.lan2lanFltRuleHdl ip i).valid = false := by simpa using free
      have free : ((s.modify ip ruleHdl rule).lan2lanFltRuleHdl ip i).valid = false := free
      have wrong := after.counted ip
      rw [setFlt_numLan2lanFltRule, update_self, UInt8.toNat_sub, UInt8.toNat_one] at wrong
      rw [free] at turned
      simp only [Bool.false_eq_true, if_false, Nat.add_zero] at turned
      rw [turned, ← counted] at wrong
      have small := (s.numLan2lanFltRule ip).toNat_lt
      omega
  | addHdr answers args =>
    rw [Harmless] at harm
    push Not at harm
    obtain ⟨takes, refused⟩ := harm
    rcases addHdr_cases cfg answers args s with
      ⟨none, -⟩ | ⟨-, ip, i, free, before, runs⟩
    · exact none takes
    · have refused : answers.added = none := by simpa using refused
      rw [refused] at runs
      rw [runs] at after
      have valid : ((s.take ip i).lan2lanHdrHdl ip i).valid = true := by
        rw [Offload.take, setHdr_self]
      obtain ⟨h, member, family, place⟩ := (after.valid ip i).mp valid
      have used := (here.valid ip i).mpr ⟨h, member, family, place⟩
      rw [free] at used
      contradiction
  | delHdr answers iptype hdrHdl =>
    rw [Harmless] at harm
    push Not at harm
    obtain ⟨real, malloc, modified, h, member, same, family⟩ := harm
    have handle := here.handle h member
    have used := (here.valid h.ip h.slot).mpr ⟨h, member, rfl, rfl⟩
    -- the header goes, and the search does not see its slot
    have after_cases : (offload cfg s (.delHdr answers iptype hdrHdl)).2.lan2lanHdrHdl h.ip h.slot =
        s.lan2lanHdrHdl h.ip h.slot ∧
        (offload cfg s (.delHdr answers iptype hdrHdl)).2.installed = s.installed.filter (·.hdl ≠ hdrHdl) := by
      rcases delHdr_cases cfg answers iptype hdrHdl s with
        ⟨not, -⟩ | ⟨-, -, -, ⟨why, -, -, runs⟩ | ⟨ip, named, i, -, -, runs⟩⟩
      · exact absurd ⟨real, malloc, modified⟩ not
      · rw [runs]
        exact ⟨rfl, rfl⟩
      · rw [runs]
        refine ⟨setHdr_other _ _ fun this => family ?_, rfl⟩
        exact named.trans (congrArg some this.1.symm)
    obtain ⟨left, gone⟩ := after_cases
    rw [← left] at used handle
    obtain ⟨h', member', family', place⟩ := (after.valid h.ip h.slot).mp used
    have handle' := after.handle h' member'
    rw [family', place, handle, same] at handle'
    rw [gone, List.mem_filter] at member'
    simpa [handle'] using member'.2

/-! ### The start -/

/-- No slot was used yet. -/
structure Unused (s : Offload) : Prop where
  flt : ∀ ip i, (s.lan2lanFltRuleHdl ip i).valid = false
  num : ∀ ip, s.numLan2lanFltRule ip = 0
  hdr : ∀ ip i, (s.lan2lanHdrHdl ip i).valid = false
  installed : s.installed = []

theorem copyHdls_valid (hdls : Fin maxOffloadPair → Option UInt32) (is : List (Fin maxOffloadPair))
    (slots : Fin maxOffloadPair → Lan2lanFltRuleHdl) (i : Fin maxOffloadPair) :
    ((copyHdls hdls is slots).2 i).valid = (slots i).valid := by
  induction is generalizing slots with
  | nil => rfl
  | cons j is ih =>
    rw [copyHdls]
    cases hdls j with
    | none => rfl
    | some hdl =>
      rw [ih]
      by_cases here : i = j
      · subst here
        rw [update_self]
      · rw [update_of_ne here]

/-- The dummies fill in handles only. -/
theorem Unused.addDummy (unused : Unused s) (cfg : Iface) (answers : DummyAnswers) (iptype : Option IpaIpType) :
    Unused (addDummyLan2lanFltRule cfg answers iptype s).2 := by
  rw [addDummyLan2lanFltRule]
  cases cfg.rxProp with
  | none => exact unused
  | some attrib =>
    dsimp only
    by_cases malloc : answers.malloc = false
    · rw [if_pos malloc]
      exact unused
    rw [if_neg malloc]
    cases iptype with
    | none => exact unused
    | some ip =>
      cases answers.added with
      | none => exact unused
      | some hdls =>
        refine ⟨fun ip' i => ?_, unused.num, unused.hdr, unused.installed⟩
        dsimp only
        by_cases same : ip' = ip
        · subst same
          rw [update_self, copyHdls_valid]
          exact unused.flt ip' i
        · rw [update_of_ne same]
          exact unused.flt ip' i

theorem Unused.consistent (unused : Unused s) : Consistent s := by
  have none : ∀ h, h ∉ s.installed := fun h => by simp [unused.installed]
  refine ⟨⟨fun ip => ?_, fun ip => ?_, fun ip i => ?_, fun h member => absurd member (none h)⟩,
    fun h member => absurd member (none h), fun h member => absurd member (none h)⟩
  · rw [unused.num, count]
    simp [unused.flt]
  · rw [unused.num]
    exact Nat.zero_le _
  · rw [unused.hdr]
    refine iff_of_false (by simp) ?_
    rintro ⟨h, member, -⟩
    exact none h member

/-- An interface after any calls of `add_dummy_lan2lan_flt_rule`. -/
def afterDummies (cfg : Iface) (dummies : List (DummyAnswers × Option IpaIpType)) : Offload :=
  dummies.foldl (fun s dummy => (addDummyLan2lanFltRule cfg dummy.1 dummy.2 s).2) {}

theorem unused_afterDummies (cfg : Iface) (dummies : List (DummyAnswers × Option IpaIpType)) :
    Unused (afterDummies cfg dummies) := by
  have start : Unused {} := ⟨fun _ _ => rfl, fun _ => rfl, fun _ _ => rfl, rfl⟩
  have each : ∀ s, Unused s → Unused (dummies.foldl
      (fun s dummy => (addDummyLan2lanFltRule cfg dummy.1 dummy.2 s).2) s) := by
    induction dummies with
    | nil => exact fun _ => id
    | cons dummy dummies ih => exact fun s unused => ih _ (unused.addDummy cfg dummy.1 dummy.2)
  exact each _ start

/-! ### Runs -/

/-- After any calls. -/
def afterCalls (cfg : Iface) (s : Offload) (calls : List OffloadCall) : Offload :=
  calls.foldl (fun s call => (offload cfg s call).2) s

/-- In every state of the run the slots agree, and a call that fails on the hardware changes no table. -/
def SlotsHold (cfg : Iface) (s : Offload) (calls : List OffloadCall) : Prop :=
  (∀ pre, pre <+: calls → Agrees (afterCalls cfg s pre)) ∧
  ∀ pre call, pre ++ [call] <+: calls → (offload cfg (afterCalls cfg s pre) call).1 = some .hardware →
    (offload cfg (afterCalls cfg s pre) call).2.toOffloadTables = (afterCalls cfg s pre).toOffloadTables

/-- The slots agree all along exactly when no rule is reset whose slot is not valid, no header is
refused once it has taken its slot, and no header is deleted under another family. -/
theorem slots_hold_iff (cfg : Iface) (dummies : List (DummyAnswers × Option IpaIpType))
    (calls : List OffloadCall)
    (fresh : ∀ pre call, pre ++ [call] <+: calls → call.Fresh (afterCalls cfg (afterDummies cfg dummies) pre)) :
    SlotsHold cfg (afterDummies cfg dummies) calls ↔
      ∀ pre call, pre ++ [call] <+: calls → call.Harmless cfg (afterCalls cfg (afterDummies cfg dummies) pre) := by
  have start := (unused_afterDummies cfg dummies).consistent
  have agrees : (∀ pre, pre <+: calls → Agrees (afterCalls cfg (afterDummies cfg dummies) pre)) ↔
      ∀ pre call, pre ++ [call] <+: calls →
        call.Harmless cfg (afterCalls cfg (afterDummies cfg dummies) pre) :=
    holds_iff_steps Consistent Fresh (Harmless cfg) start
      (fun s here => here.toAgrees) (fun s call here fresh harmless => (harmless_step here fresh harmless).1)
      (fun s call here _ harm => harmful_step here harm) fresh
  constructor
  · exact fun hold => agrees.mp hold.1
  · intro harmless
    refine ⟨agrees.mpr harmless, fun pre call before fails => ?_⟩
    have here : Consistent (afterCalls cfg (afterDummies cfg dummies) pre) :=
      invariant_of_steps Consistent (fun s call => Fresh s call ∧ call.Harmless cfg s) start
        (fun s call here both => (harmless_step here both.1 both.2).1)
        (fun pre call before => ⟨fresh pre call before, harmless pre call before⟩)
        pre ((List.prefix_append _ _).trans before)
    refine (harmless_step here (fresh pre call before) (harmless pre call before)).2 ?_
    rw [fails]
    simp

/-! ### Samples -/

def offloadIface : Iface := { sampleIface with rxProp := some {} }

/-- Three rules for each family. -/
def sampleDummies : List (DummyAnswers × Option IpaIpType) :=
  [({ malloc := true, added := some fun i => some (.ofNat (10 + i.val)) }, some .v4),
    ({ malloc := true, added := some fun i => some (.ofNat (20 + i.val)) }, some .v6)]

def granted : ResetAnswers := { malloc := true, modified := true }

def addRule : OffloadCall := .addFlt { malloc := true, rtTblHdl := some 5, modified := true }
  { iptype := some .v4, srcV4Addr := 1, dstV4Addr := 2, srcV6Addr := none, dstV6Addr := none, ruleHdl := true }

def addHdr (added : Option UInt32) : OffloadCall :=
  .addHdr { malloc := true, copyHeader := fun _ => some ⟨.replicate 14 0, some 0⟩, added := added }
    { iptype := some .v4, srcMac := some (sampleMac 1), dstMac := some (sampleMac 2), hdrHdl := true }

/-- A rule and a header come and go. -/
def sampleCalls : List OffloadCall :=
  [addRule, addHdr (some 7), .delFlt granted (some .v4) 10, .delHdr granted (some .v4) 7]

theorem sample_fresh : ∀ pre call, pre ++ [call] <+: sampleCalls →
    call.Fresh (afterCalls offloadIface (afterDummies offloadIface sampleDummies) pre) := by
  rw [forall_prefix_iff]
  decide +kernel

theorem slots_hold_sample : SlotsHold offloadIface (afterDummies offloadIface sampleDummies) sampleCalls := by
  refine (slots_hold_iff offloadIface sampleDummies sampleCalls sample_fresh).mpr ?_
  rw [forall_prefix_iff]
  decide +kernel

def deletedTwice : List OffloadCall := [addRule, .delFlt granted (some .v4) 10, .delFlt granted (some .v4) 10]

/-- A rule that is deleted twice takes the counter below zero. -/
theorem rule_deleted_twice :
    ¬ ∀ (cfg : Iface) (dummies : List (DummyAnswers × Option IpaIpType)) (calls : List OffloadCall),
      (∀ ip, Injective fun i => ((afterDummies cfg dummies).lan2lanFltRuleHdl ip i).ruleHdl) →
      (∀ pre call, pre ++ [call] <+: calls → call.Fresh (afterCalls cfg (afterDummies cfg dummies) pre)) →
      SlotsHold cfg (afterDummies cfg dummies) calls := by
  intro always
  have distinct : ∀ ip, Injective fun i =>
      ((afterDummies offloadIface sampleDummies).lan2lanFltRuleHdl ip i).ruleHdl := by
    intro ip
    cases ip <;> decide +kernel
  have fresh : ∀ pre call, pre ++ [call] <+: deletedTwice →
      call.Fresh (afterCalls offloadIface (afterDummies offloadIface sampleDummies) pre) := by
    rw [forall_prefix_iff]
    decide +kernel
  have agrees := (always offloadIface sampleDummies deletedTwice distinct fresh).1 deletedTwice List.prefix_rfl
  have num : (afterCalls offloadIface (afterDummies offloadIface sampleDummies)
      deletedTwice).numLan2lanFltRule .v4 = 255 := by
    decide +kernel
  have bounded := agrees.bounded .v4
  contradiction

-- a header that the driver refuses leaves its slot taken
example : ((afterCalls offloadIface (afterDummies offloadIface sampleDummies) [addHdr none]).lan2lanHdrHdl
    .v4 ⟨0, by decide⟩).valid = true := by decide +kernel

-- and so does one that is deleted under the other family
example : ((afterCalls offloadIface (afterDummies offloadIface sampleDummies)
    [addHdr (some 7), .delHdr granted (some .v6) 7]).lan2lanHdrHdl .v4 ⟨0, by decide⟩).valid = true := by
  decide +kernel

end Hima.Lan
