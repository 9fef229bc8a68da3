import Hima.Agps.Resubscribe
import Mathlib.Data.List.Nodup

/-!
# notifySubscribers with postNotifyDelete

The walk searches the list from the head for a subscriber that takes the notification, deletes it and
searches again, until a search finds nothing. The receiver of the notification may be an entry of the
same list: after it was deleted every entry that is still there is compared with freed memory.
-/
namespace Hima.Agps

/-- Whom a `Notification` is for: a group, or a receiver, an entry of the list or another object. -/
inductive Target
  | group (groupID : Group)
  | entry (rcver : Entry)
  | object (rcver : Subscriber)

/-- The statuses for which `notifyRsrcStatus` tells a subscriber something, in all classes the same. -/
def AgpsRsrcStatus.notifies : AgpsRsrcStatus → Bool
  | .subscribe => false
  | _ => true

namespace Target

/-- `forMe` of an entry of the list `live`; `none` when it reads a receiver that has been deleted. -/
def forMe (live : List Entry) (e : Entry) : Target → Option Bool
  | .group groupID => some (groupID.has e)
  | .entry rcver => if rcver ∈ live then some (e.s.equals rcver.s) else none
  | .object rcver => some (e.s.equals rcver)

/-- Whether a notification is for an entry, with the receiver as it was at first. -/
def isFor (e : Entry) : Target → Bool
  | .group groupID => groupID.has e
  | .entry rcver => e.s.equals rcver.s
  | .object rcver => e.s.equals rcver

def takes (target : Target) (status : AgpsRsrcStatus) (e : Entry) : Bool :=
  target.isFor e && status.notifies

end Target

/-- `linked_list_search` with `notifySubscriber`: the entry that is notified, the first one. -/
def searchNotified (target : Target) (status : AgpsRsrcStatus) (live : List Entry) :
    List Entry → Option (Option Entry)
  | [] => some none
  | e :: rest =>
    (target.forMe live e).bind fun forMe =>
      if forMe && status.notifies then some (some e) else searchNotified target status live rest

theorem mem_of_searchNotified {target : Target} {status : AgpsRsrcStatus} {live l : List Entry}
    {e : Entry} (found : searchNotified target status live l = some (some e)) : e ∈ l := by
  induction l with
  | nil => cases found
  | cons a l ih =>
    obtain ⟨forMe, -, rest⟩ := Option.bind_eq_some_iff.mp found
    by_cases yes : forMe && status.notifies
    · rw [if_pos yes] at rest
      cases rest
      exact List.mem_cons_self
    · rw [if_neg yes] at rest
      exact List.mem_cons_of_mem a (ih rest)

/-- What a walk does to a subscriber. -/
inductive WalkStep
  | notify (e : Entry)
  | delete (e : Entry)
  deriving DecidableEq

/-- `notifySubscribers` with `postNotifyDelete`: the list that is left, and what was done. `none` when
freed memory is read. -/
def notifySubscribers (target : Target) (status : AgpsRsrcStatus) (l : List Entry) :
    Option (List Entry × List WalkStep) :=
  match _ : searchNotified target status l l with
  | none => none
  | some none => some (l, [])
  | some (some e) =>
    (notifySubscribers target status (l.erase e)).map fun (left, steps) =>
      (left, .notify e :: .delete e :: steps)
  termination_by l.length
  decreasing_by
    rename_i found
    rw [List.length_erase_of_mem (mem_of_searchNotified found)]
    exact Nat.sub_lt (List.length_pos_of_mem (mem_of_searchNotified found)) Nat.one_pos

/-! ### One search -/

variable {target : Target} {status : AgpsRsrcStatus} {l live : List Entry} {r : Entry}

/-- Where every comparison can be made the search finds the first that takes the notification. -/
theorem searchNotified_eq (readable : ∀ e ∈ l, target.forMe live e = some (target.isFor e)) :
    searchNotified target status live l = some (l.find? (target.takes status)) := by
  induction l with
  | nil => rfl
  | cons a l ih =>
    obtain ⟨here, later⟩ := List.forall_mem_cons.mp readable
    rw [searchNotified, here, Option.bind_some, List.find?_cons]
    cases takes : target.takes status a with
    | true => exact if_pos takes
    | false => rw [← ih later]; exact if_neg (Bool.eq_false_iff.mp takes)

/-- A receiver that is not on the list can be compared with nothing. -/
theorem searchNotified_stale (status : AgpsRsrcStatus) (gone : r ∉ l) :
    searchNotified (.entry r) status l l = if l = [] then some none else none := by
  cases l with
  | nil => rfl
  | cons a l => simp [searchNotified, Target.forMe, gone]

/-- As long as the receiver is on the list, if it is an entry, comparisons can be made. -/
theorem Target.forMe_eq (listed : ∀ r, target = .entry r → r ∈ live) (e : Entry) :
    target.forMe live e = some (target.isFor e) := by
  cases target with
  | group groupID => rfl
  | entry rcver => exact if_pos (listed rcver rfl)
  | object rcver => rfl

/-! ### The walk -/

theorem notifySubscribers_none (found : searchNotified target status l l = some none) :
    notifySubscribers target status l = some (l, []) := by
  rw [notifySubscribers]
  split <;> simp_all

theorem notifySubscribers_some {e : Entry} (found : searchNotified target status l l = some (some e)) :
    notifySubscribers target status l = (notifySubscribers target status (l.erase e)).map fun (left, steps) =>
        (left, .notify e :: .delete e :: steps) := by
  rw [notifySubscribers]
  split <;> simp_all

theorem notifySubscribers_stale (found : searchNotified target status l l = none) :
    notifySubscribers target status l = none := by
  rw [notifySubscribers]
  split <;> simp_all

/-- The steps of a walk that notifies these, in turn. -/
def told (gone : List Entry) : List WalkStep := gone.flatMap fun e => [.notify e, .delete e]

/-- A receiver on the list that is deleted is the last of it, and equal to all before it. -/
def Target.Lasts (target : Target) (status : AgpsRsrcStatus) (l : List Entry) : Prop :=
  ∀ r, target = .entry r → l = [] ∨ r ∈ l ∧
    (status.notifies = true → l.getLast? = some r ∧ ∀ e ∈ l, e.s.equals r.s = true)

theorem nothing_refused {p : Entry → Bool} {front : List Entry} (refused : ∀ a ∈ front, (!p a) = true)
    (taken : ∀ a ∈ front, p a = true) : front = [] := by
  apply List.eq_nil_iff_forall_not_mem.mpr
  intro a member
  simpa [taken a member] using refused a member

/-- The search of a receiver that lasts finds what comes first, and the receiver lasts. -/
theorem Target.Lasts.erase {e : Entry} (lasts : target.Lasts status l)
    (found : l.find? (target.takes status) = some e) : target.Lasts status (l.erase e) := by
  obtain ⟨taken, front, back, rfl, before⟩ := List.find?_eq_some_iff_append.mp found
  rintro r rfl
  obtain ⟨-, notifies⟩ := Bool.and_eq_true_iff.mp taken
  rcases lasts r rfl with none | ⟨-, last⟩
  · simp at none
  · obtain ⟨last, equal⟩ := last notifies
    -- all are equal to the receiver, so the first is taken first
    obtain rfl : front = [] := nothing_refused before fun a member => by
      simp [takes, isFor, notifies, equal a (List.mem_append_left _ member)]
    rw [List.nil_append, List.erase_cons_head]
    cases back with
    | nil => exact .inl rfl
    | cons b back =>
      exact .inr ⟨List.mem_of_getLast? last,
        fun _ => ⟨last, fun a member => equal a (List.mem_cons_of_mem _ member)⟩⟩

theorem Target.Lasts.searched (lasts : target.Lasts status l) :
    searchNotified target status l l = some (l.find? (target.takes status)) := by
  by_cases none : l = []
  · rw [none]
    rfl
  · exact searchNotified_eq fun e _ =>
      target.forMe_eq (fun r here => (lasts r here).resolve_left none |>.1) e

/-- A walk of which the receiver lasts notifies and deletes whom the notification is for, and leaves the
others in order. -/
theorem Target.Lasts.walk (lasts : target.Lasts status l) :
    notifySubscribers target status l =
      some (l.filter (!target.takes status ·), told (l.filter (target.takes status))) := by
  induction l using notifySubscribers.induct target status with
  | case1 l stale =>
    rw [lasts.searched] at stale
    cases stale
  | case2 l found =>
    rw [notifySubscribers_none found]
    rw [lasts.searched, Option.some_inj] at found
    have refused := List.find?_eq_none.mp found
    rw [List.filter_eq_self.mpr (by simpa using refused), List.filter_eq_nil_iff.mpr refused]
    rfl
  | case3 l e found ih =>
    rw [notifySubscribers_some found]
    rw [lasts.searched, Option.some_inj] at found
    rw [ih (lasts.erase found)]
    obtain ⟨taken, front, back, rfl, before⟩ := List.find?_eq_some_iff_append.mp found
    have apart : e ∉ front := fun member => by simpa [taken] using before e member
    rw [List.erase_append_right _ apart, List.erase_cons_head]
    simp [taken, told, List.filter_eq_nil_iff.mpr (by simpa using before)]

/-- A walk that reads no freed memory is one of which the receiver lasts. -/
theorem Target.Lasts.of_walk (nodup : l.Nodup) (listed : ∀ r, target = .entry r → r ∈ l)
    {left : List Entry} {steps : List WalkStep}
    (walked : notifySubscribers target status l = some (left, steps)) : target.Lasts status l := by
  rintro r rfl
  refine .inr ⟨listed r rfl, fun notifies => ?_⟩
  have takes : ∀ e, (Target.entry r).takes status e = e.s.equals r.s := fun e => by
    rw [Target.takes, notifies, Bool.and_true, Target.isFor]
  induction l using notifySubscribers.induct (.entry r) status generalizing left steps with
  | case1 l stale =>
    rw [notifySubscribers_stale stale] at walked
    cases walked
  | case2 l found =>
    rw [searchNotified_eq fun e _ => Target.forMe_eq listed e, Option.some_inj] at found
    have refused := List.find?_eq_none.mp found r (listed r rfl)
    rw [takes, r.s.equals_self] at refused
    exact absurd rfl refused
  | case3 l e found ih =>
    rw [notifySubscribers_some found] at walked
    obtain ⟨⟨left', steps'⟩, later, -⟩ := Option.map_eq_some_iff.mp walked
    rw [searchNotified_eq fun e _ => Target.forMe_eq listed e, Option.some_inj] at found
    obtain ⟨taken, front, back, rfl, before⟩ := List.find?_eq_some_iff_append.mp found
    have apart : e ∉ front := fun member => by simpa [taken] using before e member
    rw [List.erase_append_right _ apart, List.erase_cons_head] at later ih
    obtain ⟨gone, nodup⟩ := List.nodup_cons.mp (List.nodup_middle.mp nodup)
    by_cases same : e = r
    · -- the receiver is deleted, so that no entry may be left
      subst same
      cases stale : front ++ back with
      | cons a rest =>
        have read := searchNotified_stale status gone
        rw [if_neg (by simp [stale])] at read
        rw [notifySubscribers_stale read] at later
        cases later
      | nil =>
        obtain ⟨rfl, rfl⟩ := List.append_eq_nil_iff.mp stale
        exact ⟨rfl, by simpa using e.s.equals_self⟩
    · -- the receiver is still there, so it is the last of what is left
      have here : r ∈ front ++ back := by simpa [Ne.symm same] using listed r rfl
      obtain ⟨last, equal⟩ := ih nodup (fun r' same' => by cases same'; exact here) later
      obtain rfl : front = [] := nothing_refused before fun a member => by
        rw [takes, equal a (List.mem_append_left _ member)]
      rw [takes] at taken
      refine ⟨?_, List.forall_mem_cons.mpr ⟨taken, equal⟩⟩
      rw [List.nil_append] at last ⊢
      rw [List.getLast?_cons, last]
      rfl

/-! ### In the machine -/

/-- The comparison of `notifyDelete`, with an answer also where the receiver has been deleted. -/
def Target.among (env : Environment) : Target → List Entry → Entry → Bool
  | .group groupID => fun _ => groupID.has
  | .entry rcver => AgpsStateMachine.forReceiver env rcver
  | .object rcver => fun _ e => e.s.equals rcver

theorem Target.among_eq {env : Environment} {e : Entry} {yes : Bool}
    (read : target.forMe live e = some yes) : target.among env live e = yes := by
  cases target with
  | group groupID => exact Option.some_inj.mp read
  | object rcver => exact Option.some_inj.mp read
  | entry rcver =>
    rw [forMe] at read
    split at read
    · rename_i here
      rw [among, AgpsStateMachine.forReceiver, if_pos (List.any_eq_true.mpr ⟨rcver, here, decide_eq_true rfl⟩)]
      exact Option.some_inj.mp read
    · cases read

theorem find_of_searchNotified (env : Environment) (notifies : status.notifies = true)
    {found : Option Entry} (searched : searchNotified target status live l = some found) :
    l.find? (target.among env live) = found := by
  induction l with
  | nil => exact Option.some_inj.mp searched
  | cons a l ih =>
    obtain ⟨yes, read, rest⟩ := Option.bind_eq_some_iff.mp searched
    rw [notifies, Bool.and_true] at rest
    rw [List.find?_cons, Target.among_eq read]
    cases yes with
    | true => exact Option.some_inj.mp rest
    | false => exact ih rest

/-- Where no freed memory is read the machine does what the walk does, whatever is there. -/
theorem deleteEach_of_walk (env : Environment) (notifies : status.notifies = true) {left : List Entry}
    {steps : List WalkStep} (walked : notifySubscribers target status l = some (left, steps)) :
    left = (deleteEach (target.among env) l).1 ∧ steps = told (deleteEach (target.among env) l).2 := by
  induction l using notifySubscribers.induct target status generalizing left steps with
  | case1 l stale =>
    rw [notifySubscribers_stale stale] at walked
    cases walked
  | case2 l searched =>
    rw [notifySubscribers_none searched] at walked
    cases walked
    rw [deleteEach_none (find_of_searchNotified env notifies searched)]
    exact ⟨rfl, rfl⟩
  | case3 l e searched ih =>
    rw [notifySubscribers_some searched] at walked
    obtain ⟨⟨left', steps'⟩, later, same⟩ := Option.map_eq_some_iff.mp walked
    cases same
    have found := find_of_searchNotified env notifies searched
    have erased : l.eraseP (target.among env l) = l.erase e := by
      obtain ⟨taken, front, back, rfl, before⟩ := List.find?_eq_some_iff_append.mp found
      have apart : e ∉ front := fun member => by simpa [taken] using before e member
      rw [List.erase_append_right _ apart, List.erase_cons_head,
        List.eraseP_append_right _ (by simpa using before), List.eraseP_cons_of_pos taken]
    obtain ⟨rfl, rfl⟩ := ih later
    rw [deleteEach_some found, erased]
    exact ⟨rfl, rfl⟩

/-! ### When the walk is as it should be -/

/-- Those that the notification is for are told and deleted, each once; the others stay, in order; and who
unsubscribes is the only one to go. -/
def Target.Settles (target : Target) (status : AgpsRsrcStatus) (l : List Entry) : Prop :=
  notifySubscribers target status l =
      some (l.filter (!target.takes status ·), told (l.filter (target.takes status))) ∧
    (l.filter (target.takes status)).Nodup ∧
    ∀ r, target = .entry r → status = .unsubscribe → l.filter (target.takes status) = [r]

/-- The walk goes wrong when the receiver is an entry, is told something, and leaves an entry behind, or
for an unsubscription another entry goes with it. -/
theorem notifySubscribers_settles_iff (target : Target) (status : AgpsRsrcStatus) {l : List Entry}
    (apart : (l.map (·.addr)).Nodup) (listed : ∀ r, target = .entry r → r ∈ l) :
    target.Settles status l ↔ ∀ r, target = .entry r → status.notifies = true →
        (l.getLast? = some r ∧ ∀ e ∈ l, e.s.equals r.s = true) ∧ (status = .unsubscribe → l = [r]) := by
  have nodup : l.Nodup := List.Nodup.of_map _ apart
  constructor
  · rintro ⟨walked, -, only⟩ r rfl notifies
    obtain ⟨here, last⟩ := (Target.Lasts.of_walk nodup listed walked r rfl).resolve_left
      (List.ne_nil_of_mem (listed r rfl))
    refine ⟨last notifies, fun unsubscribe => ?_⟩
    have all := only r rfl unsubscribe
    rwa [List.filter_eq_self.mpr] at all
    intro e member
    rw [Target.takes, notifies, Bool.and_true]
    exact (last notifies).2 e member
  · intro good
    refine ⟨Target.Lasts.walk fun r same => .inr ⟨listed r same, fun notifies => (good r same notifies).1⟩,
      nodup.filter _, ?_⟩
    rintro r rfl rfl
    obtain ⟨-, alone⟩ := good r rfl rfl
    rw [alone rfl]
    simp [Target.takes, Target.isFor, AgpsRsrcStatus.notifies, r.s.equals_self]

/-- A grant is for the last client and for one like it in front, and both are deleted. -/
theorem notifySubscribers_settles_alike :
    (Target.entry ⟨1, { type := .ATL, ID := 1 }⟩).Settles .granted
      [⟨0, { type := .ATL, ID := 1 }⟩, ⟨1, { type := .ATL, ID := 1 }⟩] := by
  refine (notifySubscribers_settles_iff _ _ (by decide) ?_).mpr ?_
  · rintro r ⟨⟩
    decide
  · rintro r ⟨⟩ -
    exact ⟨⟨rfl, by decide⟩, nofun⟩

/-- Of two clients one unsubscribes: when it has been deleted the other one is compared with it. -/
theorem notifySubscribers_reads_deleted :
    ¬ ∀ (target : Target) (status : AgpsRsrcStatus) (l : List Entry), (l.map (·.addr)).Nodup →
      (∀ r, target = .entry r → r ∈ l) → target.Settles status l := by
  intro all
  let r : Entry := ⟨0, { type := .ATL, ID := 1 }⟩
  let other : Entry := ⟨1, { type := .ATL, ID := 2 }⟩
  have settles := (all (.entry r) .unsubscribe [other, r] (by decide) (by rintro _ ⟨⟩; decide)).1
  have found : searchNotified (.entry r) .unsubscribe [other, r] [other, r] = some (some r) := by decide
  have stale : searchNotified (.entry r) .unsubscribe ([other, r].erase r) ([other, r].erase r) = none := by
    decide
  rw [notifySubscribers_some found, notifySubscribers_stale stale] at settles
  cases settles

end Hima.Agps
