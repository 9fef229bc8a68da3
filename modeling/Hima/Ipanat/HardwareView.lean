import Hima.Lib.Prefixes
import Hima.Ipanat.TableInvariant

/-!
# What the hardware sees during an update

The hardware walks the tables while the driver writes them. Here an operation is taken apart
into its single writes, the commands in the order they are posted, and the tables are looked
at after each of them.
-/
namespace Hima.Ipanat

open Chains Prefixes

variable {t u : IpaNatIp4TableCache} {N : Nat} {home : IpaNatIpv4Rule → Nat}
  {rules rules' : Nat → IpaNatRule} {index index' : Nat → IpaNatIndxTblRule}
  {chain ichain : Nat → List Nat} {has : Nat → IpaNatIpv4Rule → Prop} {may : Nat → Prop}

/-! ### The two guarantees -/

/-- In table `u`, on the way from table `t`, all walks end, and every live rule of `t` but the
ones in `but` is found from its bucket and named by an index row found from its bucket. -/
structure Intact (t u : IpaNatIp4TableCache) (but : Nat → Prop) : Prop where
  ruleWalk : ∀ b < t.tableEntries, ∃ l, Path (ruleNext u.rules) b l
  indexWalk : ∀ b < t.tableEntries, ∃ l, Path (indexNext u.index) b l
  found : ∀ r, Live t.rules r → ¬but r →
    Live u.rules r ∧ (u.rules r).client = (t.rules r).client ∧
    ∃ l, Path (ruleNext u.rules) (t.dstSlot (t.rules r).client) l ∧
      r ∈ t.dstSlot (t.rules r).client :: l
  named : ∀ r, Live t.rules r → ¬but r →
    ∃ l, Path (indexNext u.index) (t.srcSlot (t.rules r).client) l ∧
      ∃ x ∈ t.srcSlot (t.rules r).client :: l, (u.index x).tblEntry = r

theorem Intact.congr {but but' : Nat → Prop} (h : Intact t u but)
    (same : ∀ r, Live t.rules r → (but r ↔ but' r)) : Intact t u but' where
  ruleWalk := h.ruleWalk
  indexWalk := h.indexWalk
  found r live other := h.found r live (fun it => other ((same r live).mp it))
  named r live other := h.named r live (fun it => other ((same r live).mp it))

/-- No index row that a walk reaches names a rule row that is off, dead or off its chain. -/
def NothingStale (t u : IpaNatIp4TableCache) : Prop :=
  ∀ b < t.tableEntries, ∀ l, Path (indexNext u.index) b l → ∀ x ∈ b :: l,
    (u.index x).tblEntry ≠ 0 → Live u.rules (u.index x).tblEntry ∧
    ∃ l', Path (ruleNext u.rules) (t.dstSlot (u.rules (u.index x).tblEntry).client) l' ∧
      (u.index x).tblEntry ∈ t.dstSlot (u.rules (u.index x).tblEntry).client :: l'

/-- What the walks over the rule table see: the rules in `has`. -/
structure RuleView (N : Nat) (home : IpaNatIpv4Rule → Nat) (rules : Nat → IpaNatRule)
    (chain : Nat → List Nat) (has : Nat → IpaNatIpv4Rule → Prop) : Prop where
  path : ∀ b < N, Path (ruleNext rules) b (chain b)
  found : ∀ r c, has r c → Live rules r ∧ (rules r).client = c ∧ home c < N ∧
    r ∈ home c :: chain (home c)

/-- What the walks over the index table see: names of all rules in `has`, and of none outside
`may`. -/
structure IndexView (N : Nat) (home : IpaNatIpv4Rule → Nat) (index : Nat → IpaNatIndxTblRule)
    (chain : Nat → List Nat) (has : Nat → IpaNatIpv4Rule → Prop) (may : Nat → Prop) : Prop where
  path : ∀ b < N, Path (indexNext index) b (chain b)
  named : ∀ r c, has r c → home c < N ∧ ∃ x ∈ home c :: chain (home c), (index x).tblEntry = r
  inside : ∀ b < N, ∀ x ∈ b :: chain b, (index x).tblEntry ≠ 0 → may (index x).tblEntry

theorem intact_of_views {but : Nat → Prop} (rows : RuleView t.tableEntries t.dstSlot u.rules chain has)
    (irows : IndexView t.tableEntries t.srcSlot u.index ichain has may)
    (covers : ∀ r, Live t.rules r → ¬but r → has r (t.rules r).client) : Intact t u but where
  ruleWalk b hb := ⟨_, rows.path b hb⟩
  indexWalk b hb := ⟨_, irows.path b hb⟩
  found r live other := by
    obtain ⟨still, client, home, member⟩ := rows.found r _ (covers r live other)
    exact ⟨still, client, _, rows.path _ home, member⟩
  named r live other := by
    obtain ⟨home, x, member, names⟩ := irows.named r _ (covers r live other)
    exact ⟨_, irows.path _ home, x, member, names⟩

theorem nothingStale_of_views {has' : Nat → IpaNatIpv4Rule → Prop}
    (rows : RuleView t.tableEntries t.dstSlot u.rules chain has)
    (irows : IndexView t.tableEntries t.srcSlot u.index ichain has' may)
    (covers : ∀ r, may r → ∃ c, has r c) : NothingStale t u := by
  intro b hb l path x member used
  rw [path_unique _ b _ _ path (irows.path b hb)] at member
  obtain ⟨c, holds⟩ := covers _ (irows.inside b hb x member used)
  obtain ⟨live, client, home, found⟩ := rows.found _ c holds
  rw [client]
  exact ⟨live, _, rows.path _ home, found⟩

/-! ### Writes that the walks do not see -/

theorem RuleView.congr (h : RuleView N home rules chain has)
    (next : ∀ r, Used (BaseSlot N) chain r → (rules' r).nextIndex = (rules r).nextIndex)
    (live : ∀ r c, has r c → Live rules' r ∧ (rules' r).client = c) :
    RuleView N home rules' chain has where
  path b hb := by
    refine path_congr _ _ b _ (fun r member => ?_) (h.path b hb)
    simp only [ruleNext, next r (used_of_mem hb member)]
  found r c holds := by
    obtain ⟨_, _, home, member⟩ := h.found r c holds
    exact ⟨(live r c holds).1, (live r c holds).2, home, member⟩

theorem IndexView.congr (h : IndexView N home index chain has may)
    (same : ∀ x, Used (BaseSlot N) chain x → index' x = index x) :
    IndexView N home index' chain has may where
  path b hb := by
    refine path_congr _ _ b _ (fun x member => ?_) (h.path b hb)
    simp only [indexNext, same x (used_of_mem hb member)]
  named r c holds := by
    obtain ⟨home, x, member, names⟩ := h.named r c holds
    exact ⟨home, x, member, by rw [same x (used_of_mem home member), names]⟩
  inside b hb x member used := by
    rw [same x (used_of_mem hb member)] at used ⊢
    exact h.inside b hb x member used

/-- A table whose walks see what they see in rows `rules` and `index`. -/
structure SameView (N : Nat) (rules : Nat → IpaNatRule) (index : Nat → IpaNatIndxTblRule)
    (chain ichain : Nat → List Nat) (has : Nat → IpaNatIpv4Rule → Prop) (u : IpaNatIp4TableCache) : Prop where
  next : ∀ r, Used (BaseSlot N) chain r → (u.rules r).nextIndex = (rules r).nextIndex
  live : ∀ r c, has r c → Live u.rules r ∧ (u.rules r).client = c
  index : ∀ x, Used (BaseSlot N) ichain x → u.index x = index x

/-- A write of the CPU that changes nothing the walks see. -/
def Quiet (N : Nat) (rules : Nat → IpaNatRule) (index : Nat → IpaNatIndxTblRule)
    (chain ichain : Nat → List Nat) (has : Nat → IpaNatIpv4Rule → Prop) : Write → Prop
  | .rule r row => (Used (BaseSlot N) chain r → row.nextIndex = (rules r).nextIndex) ∧
      ∀ c, has r c → row.enable = true ∧ row.protocol ≠ ipaNatInvalidProtoFieldCmp ∧
        row.client = c
  | .index x row => Used (BaseSlot N) ichain x → row = index x
  | .prevMeta _ _ | .ruleId _ _ => True
  | .dma _ => False

theorem SameView.write (h : SameView N rules index chain ichain has u) {w : Write}
    (quiet : Quiet N rules index chain ichain has w) :
    SameView N rules index chain ichain has (u.write w) := by
  cases w with
  | rule r row =>
    have rows : (u.write (.rule r row)).rules = Function.update u.rules r row := rfl
    refine ⟨fun r' used => ?_, fun r' c holds => ?_, h.index⟩
    · by_cases eq : r' = r
      · rw [eq] at used ⊢
        rw [rows, Function.update_self]
        exact quiet.1 used
      · rw [rows, Function.update_of_ne eq]
        exact h.next r' used
    · by_cases eq : r' = r
      · rw [eq] at holds ⊢
        rw [Live, rows, Function.update_self]
        obtain ⟨on, proto, client⟩ := quiet.2 c holds
        exact ⟨⟨on, proto⟩, client⟩
      · rw [Live, rows, Function.update_of_ne eq]
        exact h.live r' c holds
  | index x row =>
    have rows : (u.write (.index x row)).index = Function.update u.index x row := rfl
    refine ⟨h.next, h.live, fun y used => ?_⟩
    by_cases eq : y = x
    · rw [eq] at used ⊢
      rw [rows, Function.update_self]
      exact quiet used
    · rw [rows, Function.update_of_ne eq]
      exact h.index y used
  | prevMeta => exact ⟨h.next, h.live, h.index⟩
  | ruleId => exact ⟨h.next, h.live, h.index⟩
  | dma => exact absurd quiet id

theorem SameView.refl (ichain : Nat → List Nat) (rows : RuleView N home u.rules chain has) :
    SameView N u.rules u.index chain ichain has u :=
  ⟨fun _ _ => rfl, fun r c holds => ⟨(rows.found r c holds).1, (rows.found r c holds).2.1⟩,
    fun _ _ => rfl⟩

/-- A store that keeps link, state and rule of the row it rewrites. -/
theorem SameView.rewrite (h : SameView N rules index chain ichain has u) {r : Nat}
    {row : IpaNatRule} (next : row.nextIndex = (u.rules r).nextIndex)
    (enable : row.enable = (u.rules r).enable) (protocol : row.protocol = (u.rules r).protocol)
    (client : row.client = (u.rules r).client) :
    Quiet N rules index chain ichain has (.rule r row) := by
  refine ⟨fun used => next.trans (h.next r used), fun c holds => ?_⟩
  obtain ⟨live, same⟩ := h.live r c holds
  exact ⟨enable.trans live.1, protocol ▸ live.2, client.trans same⟩

theorem SameView.updatePrevIndex (h : SameView N rules index chain ichain has u) (r value : Nat) :
    Quiet N rules index chain ichain has (.rule r ((u.rules r).updatePrevIndex value)) :=
  h.rewrite rfl rfl rfl rfl

/-- Clearing a row that holds no rule and leads nowhere. -/
theorem quiet_clear {r : Nat} (last : Used (BaseSlot N) chain r → (rules r).nextIndex = 0)
    (free : ∀ c, ¬has r c) : Quiet N rules index chain ichain has (.rule r {}) :=
  ⟨fun used => (last used).symm, fun c holds => absurd holds (free c)⟩

theorem SameView.quiet (h : SameView N rules index chain ichain has u) {ws : List Write}
    (quiet : ∀ w ∈ ws, Quiet N rules index chain ichain has w) :
    EveryPrefix IpaNatIp4TableCache.write (SameView N rules index chain ichain has) u ws ∧
      SameView N rules index chain ichain has (u.writes ws) :=
  EveryPrefix.of_kept (fun _ _ same quiet => same.write quiet) h quiet

/-!
## An add, as the hardware sees it

A new row is written before it is linked, so that a walk meets it only when it is complete, and
the walks that were there before go on as they did.
-/
variable {chain ichain : Nat → List Nat} {c : IpaNatIpv4Rule} {e p x q : Nat} {rules : Nat → IpaNatRule} {index : Nat → IpaNatIndxTblRule}

/-- The live rules of `t` are found in the rows `rules`. -/
def RulesSeen (t : IpaNatIp4TableCache) (rules : Nat → IpaNatRule) : Prop :=
  ∃ chain, RuleView t.tableEntries t.dstSlot rules chain
    (fun r c => Live t.rules r ∧ (t.rules r).client = c)

/-- The live rules of `t` are named in the rows `index`. -/
def RulesNamed (t : IpaNatIp4TableCache) (index : Nat → IpaNatIndxTblRule) : Prop :=
  ∃ chain, IndexView t.tableEntries t.srcSlot index chain
    (fun r c => Live t.rules r ∧ (t.rules r).client = c) (fun _ => True)

theorem intact_of_seen (seen : RulesSeen t u.rules) (named : RulesNamed t u.index) :
    Intact t u (fun _ => False) := by
  obtain ⟨_, rows⟩ := seen
  obtain ⟨_, irows⟩ := named
  exact intact_of_views rows irows (fun r live _ => ⟨live, rfl⟩)

/-! ### The rule table -/

theorem RulesOk.seen (ok : RulesOk t chain) : RulesSeen t t.rules :=
  ⟨chain, ok.rows.table.forward.path, fun _ _ holds =>
    have home := ok.rows.live_in_home holds.1
    ⟨holds.1, holds.2, holds.2 ▸ home.1, holds.2 ▸ home.2⟩⟩

/-- A row of a rule that is not live is rewritten with its link as it was. -/
theorem RulesSeen.rewrite (seen : RulesSeen t rules) (row : IpaNatRule)
    (free : ¬Live t.rules e) (next : row.nextIndex = (rules e).nextIndex) :
    RulesSeen t (Function.update rules e row) := by
  obtain ⟨chain, rows⟩ := seen
  refine ⟨chain, rows.congr (fun r _ => ?_) (fun r c holds => ?_)⟩
  · by_cases eq : r = e
    · rw [eq, Function.update_self, next]
    · rw [Function.update_of_ne eq]
  · have ne : r ≠ e := by
      rintro rfl
      exact free holds.1
    rw [Live, Function.update_of_ne ne]
    exact ⟨(rows.found r c holds).1, (rows.found r c holds).2.1⟩

/-- The new row is linked behind the last row of its bucket. -/
theorem RulesOk.seen_linked (ok : RulesOk t chain) {row : IpaNatRule} (last : row.nextIndex = 0)
    (place : RulePlace t.tableEntries t.expnTableEntries t.rules chain (t.dstSlot c) e p)
    (added : RuleAdded t.rules rules row e p) : RulesSeen t rules := by
  refine ⟨_, ok.rows.path_grow (ok.sized.dstSlot_bounds c).2 place added last, fun r c' holds => ?_⟩
  obtain ⟨live, rfl⟩ := holds
  have ne : r ≠ e := by
    rintro rfl
    exact Bool.true_eq_false_eq_False (live.1.symm.trans place.free)
  obtain ⟨enable, protocol, client, _⟩ := added.kept ne
  obtain ⟨home, member⟩ := ok.rows.live_in_home live
  exact ⟨(live_congr enable protocol).mpr live, client, home, mem_grow_of_mem member⟩

/-! ### The index table -/

theorem TableOk.named (ok : TableOk t chain ichain) : RulesNamed t t.index := by
  refine ⟨ichain, ok.index.table.forward.path, fun r c holds => ?_, fun _ _ _ _ _ => trivial⟩
  obtain ⟨live, rfl⟩ := holds
  have named := ok.cross.named r live
  exact ⟨(ok.sized.srcSlot_bounds _).2, _, named.2, named.1⟩

/-- The new row is written over a free one that leads nowhere. -/
theorem TableOk.named_written (ok : TableOk t chain ichain)
    (place : IndexPlace t.tableEntries t.expnTableEntries t.index ichain (t.srcSlot c) x q) :
    RulesNamed t (Function.update t.index x { tblEntry := e }) := by
  have alone : (t.index x).nextIndex = 0 := by
    by_contra linked
    exact ok.index.used_of_next linked place.free
  refine ⟨ichain, fun b hb => ?_, fun r c' holds => ?_, fun _ _ _ _ _ => trivial⟩
  · refine path_congr _ _ b _ (fun y _ => ?_) (ok.index.table.forward.path b hb)
    by_cases eq : y = x
    · rw [eq, indexNext, Function.update_self, indexNext, alone]
    · rw [indexNext, Function.update_of_ne eq, indexNext]
  · obtain ⟨live, rfl⟩ := holds
    have named := ok.cross.named r live
    have ne : (t.rules r).indxTblEntry ≠ x := by
      intro eq
      rw [eq, place.free] at named
      exact (ok.live_slot live).1 named.1.symm
    refine ⟨(ok.sized.srcSlot_bounds _).2, _, named.2, ?_⟩
    rw [Function.update_of_ne ne, named.1]

theorem TableOk.named_linked (ok : TableOk t chain ichain) (he : e ≠ 0)
    (place : IndexPlace t.tableEntries t.expnTableEntries t.index ichain (t.srcSlot c) x q)
    (added : IndexAdded t.index index { tblEntry := e } x q) : RulesNamed t index := by
  have grown := ok.index.add (ok.sized.srcSlot_bounds c) place added he
  refine ⟨_, grown.table.forward.path, fun r c' holds => ?_, fun _ _ _ _ _ => trivial⟩
  obtain ⟨live, rfl⟩ := holds
  obtain ⟨named, member⟩ := ok.cross.named r live
  have ne : (t.rules r).indxTblEntry ≠ x := by
    intro eq
    rw [eq, place.free] at named
    exact (ok.live_slot live).1 named.symm
  exact ⟨(ok.sized.srcSlot_bounds _).2, _, mem_grow_of_mem member, (added.kept ne).trans named⟩

/-! ### The whole add -/

/-- Every table on the way of an add is safe to walk. -/
theorem TableOk.add_intact (ok : TableOk t chain ichain) (fits : IndexLinkFits t c)
    (place : RulePlace t.tableEntries t.expnTableEntries t.rules chain (t.dstSlot c) e p)
    (iplace : IndexPlace t.tableEntries t.expnTableEntries t.index ichain (t.srcSlot c) x q) (i : Nat) :
    EveryPrefix IpaNatIp4TableCache.write (fun u => Intact t u (fun _ => False)) t (addStores {} t c e p x q ++
        [.dma (enableCmd t e), .ruleId i (idOfSlot t.tableEntries e)]) := by
  have free : ¬Live t.rules e := fun live =>
    Bool.true_eq_false_eq_False (live.1.symm.trans place.free)
  have offset := ok.sized.offset
  have written := ok.seen.rewrite (newRow t c p x) free (ok.rows.clear_fields place.free).1.symm
  -- the rows of both tables when their links have been posted
  have stored := ruleStored_of_posted (o := {}) (x := x) (q := q) ok.sized (fun _ => rfl) c (ok.pred_ne place)
  have istored := indexAdded_of_posted (o := {}) (e := e) (p := p) ok.sized (fun _ => rfl) c
    (ok.ipred_lt iplace) (fits.slot ok.sized ok.index iplace) (ok.ipred_ne iplace)
  have rules_eq := addStores_rules offset {} c e p x q
  have index_eq := addStores_index (e := e) (p := p) (x := x) ok.sized {} c (ok.ipred_lt iplace)
  rw [fits.slot ok.sized ok.index iplace] at index_eq
  generalize (t.writes (addStores {} t c e p x q)).rules = rules at stored rules_eq
  generalize (t.writes (addStores {} t c e p x q)).index = index at istored index_eq
  have linked : RulesSeen t rules := ok.seen_linked rfl place stored
  have named := ok.named_linked (place.ne_zero ok.sized) iplace istored
  have safe : ∀ u : IpaNatIp4TableCache, RulesSeen t u.rules → RulesNamed t u.index →
      Intact t u (fun _ => False) := fun u => intact_of_seen
  -- from the last store back to the first
  have last : ∀ u : IpaNatIp4TableCache, u.tableEntries = t.tableEntries → u.rules = rules →
      u.index = index → EveryPrefix IpaNatIp4TableCache.write (fun u => Intact t u (fun _ => False))
        u [.dma (enableCmd t e), .ruleId i (idOfSlot t.tableEntries e)] := by
    intro u entries at_rules at_index
    have enabled : RulesSeen t (Function.update rules e ((rules e).setFlags true)) :=
      linked.rewrite _ free rfl
    have effect := dma_enableCmd (t := u) entries offset e
    rw [at_rules] at effect
    rw [EveryPrefix, EveryPrefix, EveryPrefix, effect, write_ruleId]
    refine ⟨safe u (at_rules ▸ linked) (at_index ▸ named), safe _ enabled ?_, safe _ enabled ?_⟩
    · rwa [at_index]
    · rwa [at_index]
  have index_row : ∀ u : IpaNatIp4TableCache, u.tableEntries = t.tableEntries → u.rules = rules →
      u.index = t.index → EveryPrefix IpaNatIp4TableCache.write
        (fun u => Intact t u (fun _ => False)) u (.index x { tblEntry := e } ::
          ((if q = 0 then [] else [.dma (indexLinkCmd t q x)]) ++
            [.dma (enableCmd t e), .ruleId i (idOfSlot t.tableEntries e)])) := by
    intro u entries at_rules at_index
    have seen : RulesSeen t u.rules := by rwa [at_rules]
    refine ⟨safe u seen (by rw [at_index]; exact ok.named), ?_⟩
    rw [write_index, at_index]
    by_cases first : q = 0
    · rw [if_pos (Or.inl first)] at index_eq
      rw [if_pos first]
      exact last _ entries at_rules index_eq.symm
    · rw [if_neg (fun h => h.elim first (fun h => h rfl))] at index_eq
      rw [if_neg first]
      refine ⟨safe _ seen (ok.named_written iplace), ?_⟩
      have link := dma_indexLinkCmd (u := t)
        (t := { u with index := Function.update t.index x { tblEntry := e } }) entries ok.sized
        (ok.ipred_lt iplace) x
      rw [fits.slot ok.sized ok.index iplace] at link
      rw [link]
      exact last _ entries at_rules index_eq.symm
  have rule_row : ∀ u : IpaNatIp4TableCache, u.tableEntries = t.tableEntries →
      u.rules = t.rules → u.index = t.index → EveryPrefix IpaNatIp4TableCache.write
        (fun u => Intact t u (fun _ => False)) u (.rule e (newRow t c p x) ::
          ((if p = 0 then [] else [.dma (ruleNextCmd t p e)]) ++ .index x { tblEntry := e } ::
            ((if q = 0 then [] else [.dma (indexLinkCmd t q x)]) ++
              [.dma (enableCmd t e), .ruleId i (idOfSlot t.tableEntries e)]))) := by
    intro u entries at_rules at_index
    have named : RulesNamed t u.index := by
      rw [at_index]
      exact ok.named
    refine ⟨safe u (by rw [at_rules]; exact ok.seen) named, ?_⟩
    rw [write_rule, at_rules]
    by_cases first : p = 0
    · rw [if_pos (Or.inl first)] at rules_eq
      rw [if_pos first]
      exact index_row _ entries rules_eq.symm at_index
    · rw [if_neg (fun h => h.elim first (fun h => h rfl))] at rules_eq
      rw [if_neg first]
      refine ⟨safe _ written named, ?_⟩
      have link := dma_ruleNextCmd (u := t)
        (t := { u with rules := Function.update t.rules e (newRow t c p x) }) entries offset p e
      rw [link]
      exact index_row _ entries rules_eq.symm at_index
  have stores : addStores {} t c e p x q ++ [.dma (enableCmd t e), .ruleId i (idOfSlot t.tableEntries e)] =
      (if t.tableEntries ≤ x then [Write.prevMeta (x - t.tableEntries) q] else []) ++
      Write.rule e (newRow t c p x) :: ((if p = 0 then [] else [Write.dma (ruleNextCmd t p e)]) ++
        Write.index x { tblEntry := e } :: ((if q = 0 then [] else [Write.dma (indexLinkCmd t q x)]) ++
          [Write.dma (enableCmd t e), Write.ruleId i (idOfSlot t.tableEntries e)])) := by
    simp only [addStores, ne_eq, not_true_eq_false, or_false, List.append_assoc, List.cons_append]
  rw [stores]
  split
  next => exact ⟨safe t ok.seen ok.named, rule_row _ rfl rfl rfl⟩
  next => exact rule_row t rfl rfl rfl

end Hima.Ipanat
