import Hima.Lib.KeyedVector
import Mathlib.Data.Char
import Mathlib.Data.List.Lex

/-!
# CameraParameters

A map of string keys to string values and its text form `key=value;key=value`. A string is the list
of the characters before its terminator.
-/
namespace Hima.Camera

open KeyedVector

abbrev String8 := List Char

/-- `strchr`: what stands before the first `c` and what follows it; `none` is `NULL`. -/
def strchr (c : Char) : String8 → Option (String8 × String8)
  | [] => none
  | d :: a => if d = c then some ([], a) else (strchr c a).map fun found => (d :: found.1, found.2)

theorem strchr_eq_none {c : Char} {a : String8} : strchr c a = none ↔ c ∉ a := by
  induction a with
  | nil => simp [strchr]
  | cons d a ih =>
    rw [strchr, List.mem_cons]
    by_cases here : d = c
    · simp [here]
    · rw [if_neg here, Option.map_eq_none_iff, ih]
      simp [Ne.symm here]

theorem strchr_eq_some {c : Char} {a before after : String8} :
    strchr c a = some (before, after) ↔ a = before ++ c :: after ∧ c ∉ before := by
  induction a generalizing before with
  | nil => simp [strchr]
  | cons d a ih =>
    rw [strchr]
    by_cases here : d = c
    · subst here
      cases before with
      | nil => simp [eq_comm]
      | cons e before => simp +contextual
    · rw [if_neg here]
      cases before with
      | nil => simp [here]
      | cons e before =>
        simp only [Option.map_eq_some_iff, Prod.mk.injEq, List.cons.injEq, Prod.exists,
          List.cons_append, List.mem_cons, not_or]
        constructor
        · rintro ⟨b, f, found, ⟨rfl, rfl⟩, rfl⟩
          obtain ⟨rfl, absent⟩ := ih.mp found
          exact ⟨⟨rfl, rfl⟩, Ne.symm here, absent⟩
        · rintro ⟨⟨rfl, rfl⟩, _, absent⟩
          exact ⟨before, after, ih.mpr ⟨rfl, absent⟩, ⟨rfl, rfl⟩, rfl⟩

/-- Some values do not depend on what was asked for. -/
def getForcedValue (key value : String8) : String8 :=
  if key = "face-detection-values".toList then "off".toList
  else if key = "face-detection".toList then "off".toList
  else value

structure CameraParameters where
  mMap : KeyedVector String8 String8 := .empty

def add (map : KeyedVector String8 String8) (key value : String8) : KeyedVector String8 String8 :=
  map.add key (getForcedValue key value)

def replaceValueFor (map : KeyedVector String8 String8) (key value : String8) :
    KeyedVector String8 String8 :=
  map.replaceValueFor key (getForcedValue key value)

namespace CameraParameters

/-- The loop of `flatten`, over the pairs from index `i` on. -/
def flattenItems : List (String8 × String8) → String8
  | [] => []
  | (k, v) :: later =>
    (if v ≠ [] then k ++ '=' :: v ++ (if later = [] then [] else [';']) else []) ++
      flattenItems later

def flatten (params : CameraParameters) : String8 :=
  flattenItems params.mMap.items

/-- The loop of `unflatten`, from the cursor `a` on. -/
def unflattenItems (mMap : KeyedVector String8 String8) (a : String8) :
    KeyedVector String8 String8 :=
  match _ : strchr '=' a with
  | none => mMap
  | some (k, a') =>
    match _ : strchr ';' a' with
    | none => add mMap k a'
    | some (v, a'') => unflattenItems (add mMap k v) a''
  termination_by a.length
  decreasing_by
    rename_i key value
    rw [(strchr_eq_some.mp key).1, (strchr_eq_some.mp value).1]
    simp only [List.length_append, List.length_cons]
    omega

def unflatten (params : String8) : CameraParameters :=
  ⟨unflattenItems .empty params⟩

/-- `get`: an empty value is `NULL`. -/
def get (params : CameraParameters) (key : String8) : Option String8 :=
  let v := params.mMap.valueFor [] key
  if v.length = 0 then none else some v

/-- `set(key, value)`; `none` is `NULL`. `qcom` tells whether `QCOM_HARDWARE` is defined. -/
def set (qcom : Bool) (params : CameraParameters) (key value : Option String8) : CameraParameters :=
  match key, value with
  | some key, some value =>
    if (strchr '=' key).isSome || (strchr ';' key).isSome then params
    else if (strchr '=' value).isSome || (strchr ';' value).isSome then params
    else
      let mMap :=
        if qcom && (params.get "hdr-need-1x".toList).isNone then
          replaceValueFor params.mMap "hdr-need-1x".toList "false".toList
        else params.mMap
      ⟨replaceValueFor mMap key value⟩
  | _, _ => params

def remove (params : CameraParameters) (key : String8) : CameraParameters :=
  ⟨params.mMap.removeItem key⟩

end CameraParameters

/-- A call that changes the map. -/
inductive Op
  | set (key value : Option String8)
  | remove (key : String8)
  | unflatten (params : String8)

def step (qcom : Bool) (params : CameraParameters) : Op → CameraParameters
  | .set key value => params.set qcom key value
  | .remove key => params.remove key
  | .unflatten text => .unflatten text

/-!
## Reading back what was written

The text of a map is read back to the map without its empty values, which `get` does not tell from
absent ones. A text that no map wrote is read segment by segment, unless a segment without `=`
stands before one that has it: then the two become one key.
-/
open CameraParameters

/-! ### The loop of `unflatten` -/

namespace CameraParameters

variable {m : KeyedVector String8 String8} {k v a : String8}

theorem unflattenItems_none (absent : '=' ∉ a) : unflattenItems m a = m := by
  rw [unflattenItems]
  split
  · rfl
  next found => exact absurd (strchr_eq_none.mpr absent) (by simp [found])

theorem unflattenItems_last (key : '=' ∉ k) (value : ';' ∉ v) :
    unflattenItems m (k ++ '=' :: v) = add m k v := by
  have found : strchr '=' (k ++ '=' :: v) = some (k, v) := strchr_eq_some.mpr ⟨rfl, key⟩
  have last := strchr_eq_none.mpr value
  rw [unflattenItems]
  split
  next none => cases none.symm.trans found
  next k' v' some =>
    cases some.symm.trans found
    split
    · rfl
    next some => cases some.symm.trans last

theorem unflattenItems_cons (key : '=' ∉ k) (value : ';' ∉ v) (later : String8) :
    unflattenItems m (k ++ '=' :: (v ++ ';' :: later)) = unflattenItems (add m k v) later := by
  have found : strchr '=' (k ++ '=' :: (v ++ ';' :: later)) = some (k, v ++ ';' :: later) :=
    strchr_eq_some.mpr ⟨rfl, key⟩
  have next' : strchr ';' (v ++ ';' :: later) = some (v, later) := strchr_eq_some.mpr ⟨rfl, value⟩
  rw [unflattenItems]
  split
  next none => cases none.symm.trans found
  next k' v' some =>
    cases some.symm.trans found
    split
    next none => cases none.symm.trans next'
    next v'' later' some =>
      cases some.symm.trans next'
      rfl

/-- A text has no `=` left, or one assignment up to its end, or one up to a `;`. -/
theorem text_induction {motive : String8 → Prop} (none : ∀ a, '=' ∉ a → motive a)
    (last : ∀ k v, '=' ∉ k → ';' ∉ v → motive (k ++ '=' :: v))
    (cons : ∀ k v later, '=' ∉ k → ';' ∉ v → motive later → motive (k ++ '=' :: (v ++ ';' :: later)))
    (a : String8) : motive a := by
  induction size : a.length using Nat.strong_induction_on generalizing a with
  | _ n ih =>
    cases key : strchr '=' a with
    | none => exact none a (strchr_eq_none.mp key)
    | some found =>
      obtain ⟨rfl, noKey⟩ := strchr_eq_some.mp key
      cases value : strchr ';' found.2 with
      | none => exact last _ _ noKey (strchr_eq_none.mp value)
      | some found' =>
        obtain ⟨rest, noValue⟩ := strchr_eq_some.mp value
        rw [rest]
        refine cons _ _ _ noKey noValue (ih _ ?_ _ rfl)
        rw [← size, rest]
        simp only [List.length_append, List.length_cons]
        omega

end CameraParameters

/-! ### What the maps hold -/

/-- What every pair of a map meets that calls have built. -/
structure Readable (item : String8 × String8) : Prop where
  key : '=' ∉ item.1
  value : ';' ∉ item.2
  forced : getForcedValue item.1 item.2 = item.2

theorem getForcedValue_idem (k v : String8) :
    getForcedValue k (getForcedValue k v) = getForcedValue k v := by
  unfold getForcedValue
  split
  · rfl
  · split <;> rfl

theorem not_mem_getForcedValue {k v : String8} (value : ';' ∉ v) : ';' ∉ getForcedValue k v := by
  unfold getForcedValue
  split
  · decide
  · split
    · decide
    · exact value

theorem readable_forced {k v : String8} (key : '=' ∉ k) (value : ';' ∉ v) :
    Readable (k, getForcedValue k v) :=
  ⟨key, not_mem_getForcedValue value, getForcedValue_idem k v⟩

/-- Every pair of the map can be read back. -/
def CameraParameters.Valid (params : CameraParameters) : Prop :=
  ∀ item ∈ params.mMap.items, Readable item

variable {m : KeyedVector String8 String8}

theorem valid_add (valid : ∀ item ∈ m.items, Readable item) {k v : String8} (key : '=' ∉ k) (value : ';' ∉ v) :
    ∀ item ∈ (add m k v).items, Readable item := by
  intro item member
  rcases mem_add member with rfl | old
  · exact readable_forced key value
  · exact valid item old

theorem valid_replaceValueFor
    (valid : ∀ item ∈ m.items, Readable item) {k v : String8} (key : '=' ∉ k) (value : ';' ∉ v) :
    ∀ item ∈ (replaceValueFor m k v).items, Readable item := by
  intro item member
  rcases mem_replaceValueFor member with rfl | old
  · exact readable_forced key value
  · exact valid item old

theorem valid_unflattenItems (a : String8) (valid : ∀ item ∈ m.items, Readable item) :
    ∀ item ∈ (unflattenItems m a).items, Readable item := by
  induction a using text_induction generalizing m with
  | none a absent =>
    rw [unflattenItems_none absent]
    exact valid
  | last k v key value =>
    rw [unflattenItems_last key value]
    exact valid_add valid key value
  | cons k v later key value ih =>
    rw [unflattenItems_cons key value]
    exact ih (valid_add valid key value)

variable {params : CameraParameters}

theorem valid_set (qcom : Bool) (valid : params.Valid)
    (key value : Option String8) : (params.set qcom key value).Valid := by
  cases key with
  | none => exact valid
  | some key =>
    cases value with
    | none => exact valid
    | some value =>
      rw [CameraParameters.set]
      split
      · exact valid
      next keyClean =>
        split
        · exact valid
        next valueClean =>
          simp only [Bool.or_eq_true, Option.isSome_iff_ne_none, ne_eq, strchr_eq_none, not_or,
            not_not] at keyClean valueClean
          refine valid_replaceValueFor ?_ keyClean.1 valueClean.2
          split
          · exact valid_replaceValueFor valid (by decide) (by decide)
          · exact valid

theorem valid_step (qcom : Bool) (valid : params.Valid) (op : Op) :
    (step qcom params op).Valid := by
  cases op with
  | set key value => exact valid_set qcom valid key value
  | remove key => exact fun item member => valid item (mem_removeItem member)
  | unflatten text => exact valid_unflattenItems text fun item member => absurd member (List.not_mem_nil)

/-- The map after some calls. -/
def run (qcom : Bool) (ops : List Op) : CameraParameters := ops.foldl (step qcom) {}

theorem valid_run (qcom : Bool) (ops : List Op) : (run qcom ops).Valid := by
  have start : (({} : CameraParameters)).Valid := fun item member => absurd member List.not_mem_nil
  rw [run]
  generalize ({} : CameraParameters) = params at start
  induction ops generalizing params with
  | nil => exact start
  | cons op ops ih => exact ih _ (valid_step qcom start op)

/-! ### The round trip -/

/-- Reading the text of some pairs adds those that have a value, in their order. -/
theorem unflattenItems_flattenItems (items : List (String8 × String8))
    (readable : ∀ item ∈ items, Readable item) (m : KeyedVector String8 String8) :
    unflattenItems m (flattenItems items) =
      (items.filter (·.2 ≠ [])).foldl (fun m item => m.add item.1 item.2) m := by
  induction items generalizing m with
  | nil => exact unflattenItems_none List.not_mem_nil
  | cons item later ih =>
    obtain ⟨k, v⟩ := item
    obtain ⟨key, value, forced⟩ := readable _ List.mem_cons_self
    have rest := ih fun item member => readable item (List.mem_cons_of_mem _ member)
    rw [flattenItems]
    by_cases empty : v = []
    · rw [if_neg (not_not_intro empty), List.nil_append, rest, List.filter_cons_of_neg (by simpa using empty)]
    · have added : add m k v = m.add k v := by rw [add, forced]
      rw [if_pos empty, List.filter_cons_of_pos (by simpa using empty), List.foldl_cons]
      by_cases last : later = []
      · subst last
        rw [if_pos rfl, flattenItems, List.append_nil, List.append_nil, unflattenItems_last key value, added]
        rfl
      · rw [if_neg last, ← rest, ← added, ← unflattenItems_cons key value]
        simp only [List.append_assoc, List.cons_append, List.nil_append]

/-- A map that was written and read back has lost its empty values and nothing else. -/
theorem items_unflatten_flatten (valid : params.Valid) :
    (unflatten params.flatten).mMap.items = params.mMap.items.filter (·.2 ≠ []) := by
  rw [unflatten, flatten]
  rw [unflattenItems_flattenItems _ valid, foldl_add_sorted]
  · rfl
  · exact params.mMap.sorted.filter _

theorem get_unflatten_flatten (valid : params.Valid) (k : String8) :
    (unflatten params.flatten).get k = params.get k := by
  have same : (unflatten params.flatten).mMap =
      ⟨params.mMap.items.filter (·.2 ≠ []), params.mMap.sorted.filter _⟩ :=
    KeyedVector.ext (items_unflatten_flatten valid)
  rw [CameraParameters.get, CameraParameters.get, same, KeyedVector.valueFor_filter]
  intro item _ dropped
  simpa using dropped

/-! ### Segments -/

/-- What stands between the `;` of a text. -/
def segments (a : String8) : List String8 := a.splitOn ';'

/-- The map that takes every segment with a `=` for an assignment and ignores the others. -/
def readSegments (m : KeyedVector String8 String8) (segments : List String8) :
    KeyedVector String8 String8 :=
  (segments.filterMap (strchr '=')).foldl (fun m item => add m item.1 item.2) m

/-- No segment without `=` stands before one that has it. -/
def WellSegmented (a : String8) : Prop :=
  (segments a).Pairwise fun s t => '=' ∈ t → '=' ∈ s

instance (a : String8) : Decidable (WellSegmented a) :=
  inferInstanceAs (Decidable (List.Pairwise _ _))

theorem mem_segments {c : Char} {a : String8} (other : c ≠ ';') :
    c ∈ a ↔ ∃ s ∈ segments a, c ∈ s := by
  have whole : [';'].intercalate (a.splitOn ';') = a := List.intercalate_splitOn ';'
  conv_lhs => rw [← whole]
  change c ∈ [';'].intercalate (segments a) ↔ _
  generalize segments a = l
  induction l with
  | nil => simp
  | cons s l ih =>
    cases l with
    | nil => simp
    | cons t l =>
      rw [List.intercalate_cons_cons, List.append_assoc, List.mem_append, List.mem_append, ih]
      simp [other]

theorem not_mem_of_mem_segments {a s : String8} (member : s ∈ segments a) : ';' ∉ s := by
  induction a generalizing s with
  | nil =>
    rw [segments, List.splitOn_nil, List.mem_singleton] at member
    rw [member]
    exact List.not_mem_nil
  | cons c a ih =>
    rw [segments, List.splitOn_cons_eq_if_modifyHead] at member
    change s ∈ if _ then [] :: segments a else (segments a).modifyHead _ at member
    split at member
    · rcases List.mem_cons.mp member with rfl | later
      · exact List.not_mem_nil
      · exact ih later
    next other =>
      generalize segments a = l at member ih
      cases l with
      | nil => simp at member
      | cons t l =>
        rcases List.mem_cons.mp member with rfl | later
        · rw [List.mem_cons, not_or]
          exact ⟨fun same => other (beq_iff_eq.mpr same.symm), ih List.mem_cons_self⟩
        · exact ih (List.mem_cons_of_mem _ later)

theorem readSegments_none {l : List String8} (absent : ∀ s ∈ l, '=' ∉ s) : readSegments m l = m := by
  have none : l.filterMap (strchr '=') = [] :=
    List.filterMap_eq_nil_iff.mpr fun s member => strchr_eq_none.mpr (absent s member)
  rw [readSegments, none]
  rfl

theorem readSegments_cons {k : String8} (v : String8) (l : List String8) (key : '=' ∉ k) :
    readSegments m ((k ++ '=' :: v) :: l) = readSegments (add m k v) l := by
  have found : strchr '=' (k ++ '=' :: v) = some (k, v) := strchr_eq_some.mpr ⟨rfl, key⟩
  rw [readSegments, List.filterMap_cons_some found, List.foldl_cons]
  rfl

theorem key_readSegments {l : List String8} (clean : ∀ s ∈ l, ';' ∉ s) (keys : ∀ item ∈ m.items, ';' ∉ item.1) :
    ∀ item ∈ (readSegments m l).items, ';' ∉ item.1 := by
  induction l generalizing m with
  | nil => exact keys
  | cons s l ih =>
    have later := fun t member => clean t (List.mem_cons_of_mem s member)
    cases found : strchr '=' s with
    | none =>
      rw [readSegments, List.filterMap_cons_none found]
      exact ih later keys
    | some item =>
      obtain ⟨rfl, key⟩ := strchr_eq_some.mp found
      rw [readSegments_cons _ _ key]
      refine ih later fun item' member => ?_
      rcases mem_add member with rfl | old
      · exact fun inside => clean _ List.mem_cons_self (List.mem_append_left _ inside)
      · exact keys item' old

theorem key_unflattenItems {k : String8} (a : String8)
    (present : k ∈ m.items.map Prod.fst) : k ∈ (unflattenItems m a).items.map Prod.fst := by
  induction a using text_induction generalizing m with
  | none a absent =>
    rw [unflattenItems_none absent]
    exact present
  | last k' v key value =>
    rw [unflattenItems_last key value]
    exact key_mem_add_of_mem _ _ present
  | cons k' v later key value ih =>
    rw [unflattenItems_cons key value]
    exact ih (key_mem_add_of_mem _ _ present)

theorem key_add_mem (m : KeyedVector String8 String8) (k v : String8) :
    k ∈ (add m k v).items.map Prod.fst :=
  List.mem_map.mpr ⟨_, key_mem_add m k _, rfl⟩

/-- A key with a `;` is the tail end of a segment without `=` and the key of a later one. -/
theorem not_wellSegmented {k : String8} (rest : String8) (key : '=' ∉ k) (glued : ';' ∈ k) :
    ¬ WellSegmented (k ++ '=' :: rest) := by
  obtain ⟨first, second, rfl, clean⟩ := List.eq_append_cons_of_mem glued
  have split : segments (first ++ ';' :: second ++ '=' :: rest) =
      first :: segments (second ++ '=' :: rest) := by
    have parts := List.splitOn_append_cons_self_of_not_mem clean (second ++ '=' :: rest)
    rw [segments, List.append_assoc]
    exact parts
  obtain ⟨later, member, assigned⟩ : ∃ s ∈ segments (second ++ '=' :: rest), '=' ∈ s :=
    (mem_segments (by decide)).mp (List.mem_append_right _ List.mem_cons_self)
  intro ordered
  rw [WellSegmented, split] at ordered
  have inFirst := (List.pairwise_cons.mp ordered).1 later member assigned
  exact key (List.mem_append_left _ inFirst)

/-- `unflatten` reads the segments, or it makes a key with a `;`. -/
theorem unflattenItems_segments (a : String8) (m : KeyedVector String8 String8) :
    (WellSegmented a ∧ unflattenItems m a = readSegments m (segments a)) ∨
      (¬ WellSegmented a ∧ ∃ k ∈ (unflattenItems m a).items.map Prod.fst, ';' ∈ k) := by
  induction a using text_induction generalizing m with
  | none a absent =>
    have none : ∀ s ∈ segments a, '=' ∉ s := fun s member inside =>
      absent ((mem_segments (by decide)).mpr ⟨s, member, inside⟩)
    refine .inl ⟨?_, ?_⟩
    · exact List.pairwise_of_forall_mem_list fun s _ t member inside => absurd inside (none t member)
    · rw [unflattenItems_none absent, readSegments_none none]
  | last k v key value =>
    rw [unflattenItems_last key value]
    by_cases glued : ';' ∈ k
    · exact .inr ⟨not_wellSegmented v key glued, k, key_add_mem m k v, glued⟩
    · have one : segments (k ++ '=' :: v) = [k ++ '=' :: v] :=
        List.splitOn_eq_singleton (by simp [glued, value])
      refine .inl ⟨?_, ?_⟩
      · rw [WellSegmented, one]
        exact List.pairwise_singleton _ _
      · rw [one, readSegments_cons v [] key]
        rfl
  | cons k v later key value ih =>
    rw [unflattenItems_cons key value]
    by_cases glued : ';' ∈ k
    · exact .inr ⟨not_wellSegmented _ key glued, k, key_unflattenItems later (key_add_mem m k v), glued⟩
    · have more : segments (k ++ '=' :: (v ++ ';' :: later)) = (k ++ '=' :: v) :: segments later := by
        have clean : ';' ∉ k ++ '=' :: v := by simp [glued, value]
        have split := List.splitOn_append_cons_self_of_not_mem clean later
        rw [List.append_assoc, List.cons_append] at split
        exact split
      have same : WellSegmented (k ++ '=' :: (v ++ ';' :: later)) ↔ WellSegmented later := by
        rw [WellSegmented, more, List.pairwise_cons]
        exact and_iff_right fun t _ _ => List.mem_append_right _ List.mem_cons_self
      rw [same, more, readSegments_cons v _ key]
      exact ih (add m k v)

/-- What any calls have built is read back from its text, as far as `get` can tell. A text is read
segment by segment exactly when no segment without `=` stands before one that has it. -/
theorem unflatten_round_trip (qcom : Bool) (ops : List Op) (text : String8) :
    (∀ k, (unflatten (run qcom ops).flatten).get k = (run qcom ops).get k) ∧
      ((unflatten text).mMap = readSegments .empty (segments text) ↔ WellSegmented text) := by
  refine ⟨get_unflatten_flatten (valid_run qcom ops), ?_⟩
  rcases unflattenItems_segments text .empty with ⟨ordered, read⟩ | ⟨unordered, k, present, glued⟩
  · exact iff_of_true read ordered
  · refine iff_of_false (fun read => ?_) unordered
    rw [unflatten] at read
    dsimp only at read
    rw [read] at present
    obtain ⟨item, member, rfl⟩ := List.mem_map.mp present
    exact key_readSegments (fun s member => not_mem_of_mem_segments member)
      (fun item member => absurd member List.not_mem_nil) item member glued

/-- The assignment of `k` is lost in a key `x;k`. -/
theorem unflatten_glues_segments :
    (unflatten "x;k=v".toList).get "k".toList = none ∧
      (unflatten "x;k=v".toList).get "x;k".toList = some "v".toList ∧
      (CameraParameters.mk (readSegments .empty (segments "x;k=v".toList))).get "k".toList =
        some "v".toList := by
  decide +kernel

end Hima.Camera
