import Hima.Camera.Parameters
import Hima.Lib.LongestPrefix
import Hima.Lib.Strtol

/-!
# Lists of sizes

`parseSizesList` reads `640x480,320x240` pair by pair. What it accepts is compared with the items that are two
numbers around an `x`.
-/
namespace Hima.Camera

open LongestPrefix Strtol

structure Size where
  width : Int32
  height : Int32
  deriving DecidableEq

/-- The width of a `long`. -/
structure Long where
  bits : Nat
  wide : 32 ≤ bits

variable (long : Long)

/-- `parse_pair`: the two numbers and what follows them; `none` is -1. -/
def parsePair (str : String8) (delim : Char) : Option (Int32 × Int32 × String8) :=
  let first := strtol long.bits str
  match first.2 with
  | [] => none
  | c :: rest =>
    if c = delim then
      let second := strtol long.bits rest
      some (.ofInt first.1, .ofInt second.1, second.2)
    else none

/-- The loop of `parseSizesList`; `none` where it has not come to its end after `fuel` rounds. -/
def parseSizesLoop : Nat → String8 → List Size → Option (List Size)
  | 0, _, _ => none
  | fuel + 1, sizeStartPtr, sizes =>
    match parsePair long sizeStartPtr 'x' with
    | none => some sizes
    | some (width, height, []) => some (sizes ++ [⟨width, height⟩])
    | some (width, height, c :: rest) =>
      if c = ',' then parseSizesLoop fuel rest (sizes ++ [⟨width, height⟩]) else some sizes

def parseSizesList (fuel : Nat) (sizesStr : Option String8) (sizes : List Size) : Option (List Size) :=
  match sizesStr with
  | none => some sizes
  | some sizesStr => parseSizesLoop long fuel sizesStr sizes

/-! ### Items -/

/-- Two numbers of 32 bits around an `x`. -/
inductive Item : String8 → Size → Prop
  | intro {a b : String8} {size : Size} : Numeral a size.width.toInt → Numeral b size.height.toInt →
      Item (a ++ 'x' :: b) size

/-- A number, or none where 0 is read. -/
def Loose (text : String8) (n : Int) : Prop := Numeral text n ∨ text = [] ∧ n = 0

/-- Two numbers around an `x`, of which both may be missing or too large. -/
def Lenient (item : String8) : Prop := ∃ a b w h, item = a ++ 'x' :: b ∧ Loose a w ∧ Loose b h

/-- What the code takes for an item, with the size that it makes of it. -/
inductive Accepted : String8 → Size → Prop
  | intro {a b : String8} {w h : Int} : Loose a w → Loose b h →
      Accepted (a ++ 'x' :: b) ⟨.ofInt (clamp long.bits w), .ofInt (clamp long.bits h)⟩

variable {long} {a b s item tail : String8} {w h : Int} {size : Size}

theorem foreign_x : Foreign 'x' := by decide

theorem foreign_comma : Foreign ',' := by decide

theorem Loose.not_mem (loose : Loose a w) {c : Char} (foreign : Foreign c) : c ∉ a := by
  rcases loose with numeral | ⟨rfl, -⟩
  · exact numeral.not_mem foreign
  · nofun

theorem Accepted.no_comma (accepted : Accepted long item size) : ',' ∉ item := by
  obtain ⟨first, second⟩ := accepted
  have comma_ne_x : ',' ≠ 'x' := by decide
  simp [first.not_mem foreign_comma, second.not_mem foreign_comma, comma_ne_x]

theorem clamp_zero (bits : Nat) : clamp bits 0 = 0 := by
  have one_le : (1 : Int) ≤ 2 ^ (bits - 1) := by exact_mod_cast Nat.one_le_two_pow
  rw [clamp]
  omega

theorem strtol_loose {bits : Nat} (loose : Loose a w) (stops : Stops tail) :
    strtol bits (a ++ tail) = (clamp bits w, tail) := by
  rcases loose with numeral | ⟨rfl, rfl⟩
  · exact strtol_numeral numeral fun c head => (stops c head).2.2.2
  · rw [clamp_zero]
    exact strtol_stops stops

theorem loose_of_strtol (bits : Nat) (s : String8) : ∃ text n, Loose text n ∧ s = text ++ (strtol bits s).2 ∧
    (strtol bits s).1 = clamp bits n := by
  rcases strtol_cases bits s with ⟨text, n, rest, rfl, numeral, read⟩ | read
  · exact ⟨text, n, .inl numeral, by rw [read], by rw [read]⟩
  · exact ⟨[], 0, .inr ⟨rfl, rfl⟩, by rw [read]; rfl, by rw [read, clamp_zero]⟩

/-- An accepted item is read as a whole. -/
theorem parsePair_accepted (accepted : Accepted long item size) (stops : Stops tail) :
    parsePair long (item ++ tail) 'x' = some (size.width, size.height, tail) := by
  obtain @⟨a, b, w, h, first, second⟩ := accepted
  have at_x : Stops ('x' :: (b ++ tail)) := by
    rintro c ⟨⟩
    exact foreign_x
  rw [List.append_assoc, List.cons_append]
  simp only [parsePair, strtol_loose first at_x, strtol_loose second stops, if_pos]

/-- What is read is an accepted item. -/
theorem accepted_of_parsePair {width height : Int32}
    (read : parsePair long s 'x' = some (width, height, tail)) :
    ∃ item, s = item ++ tail ∧ Accepted long item ⟨width, height⟩ := by
  obtain ⟨a, w, first, split, value⟩ := loose_of_strtol long.bits s
  rw [parsePair] at read
  split at read
  next => cases read
  next c rest after =>
    split at read
    next is_x =>
      obtain ⟨b, h, second, split', value'⟩ := loose_of_strtol long.bits rest
      obtain ⟨rfl, rfl, rfl⟩ := read
      refine ⟨a ++ 'x' :: b, ?_, ?_⟩
      · rw [after, is_x] at split
        rw [List.append_assoc, List.cons_append, ← split', ← split]
      · rw [value, value']
        exact .intro first second
    next => cases read

theorem stops_nil : Stops [] := nofun

theorem stops_comma (rest : String8) : Stops (',' :: rest) := by
  rintro c ⟨⟩
  exact foreign_comma

theorem accepted_unique (long : Long) (item : String8) (size size' : Size) (first : Accepted long item size)
    (second : Accepted long item size') : size = size' := by
  have read := (parsePair_accepted first stops_nil).symm.trans (parsePair_accepted second stops_nil)
  simp only [Option.some.injEq, Prod.mk.injEq, and_true] at read
  obtain ⟨width, height⟩ := read
  cases size
  cases size'
  subst width height
  rfl

theorem clamp_toInt (long : Long) (n : Int32) : clamp long.bits n.toInt = n.toInt := by
  have wide := long.wide
  have room : 31 ≤ long.bits - 1 := by omega
  exact clamp_eq room n.le_toInt n.toInt_lt

theorem Item.accepted (is : Item item size) : Accepted long item size := by
  obtain ⟨first, second⟩ := is
  have accepted : Accepted long _ _ := .intro (.inl first) (.inl second)
  rwa [clamp_toInt, clamp_toInt, Int32.ofInt_toInt, Int32.ofInt_toInt] at accepted

theorem lenient_iff (long : Long) : Lenient item ↔ ∃ size, Accepted long item size := by
  constructor
  · rintro ⟨a, b, w, h, rfl, first, second⟩
    exact ⟨_, .intro first second⟩
  · rintro ⟨_, @⟨a, b, w, h, first, second⟩⟩
    exact ⟨a, b, w, h, rfl, first, second⟩

/-! ### The loop -/

/-- A list ends after its first item, or goes on behind a comma. -/
theorem first_item (s : String8) : ∃ item tail, s = item ++ tail ∧ ',' ∉ item ∧
    (tail = [] ∧ s.splitOn ',' = [item] ∨ ∃ rest, tail = ',' :: rest ∧ s.splitOn ',' = item :: rest.splitOn ',') := by
  cases found : strchr ',' s with
  | none =>
    have absent := strchr_eq_none.mp found
    exact ⟨s, [], (List.append_nil s).symm, absent, .inl ⟨rfl, List.splitOn_eq_singleton absent⟩⟩
  | some parts =>
    obtain ⟨item, rest⟩ := parts
    obtain ⟨rfl, absent⟩ := strchr_eq_some.mp found
    exact ⟨item, ',' :: rest, rfl, absent, .inr ⟨rest, rfl, List.splitOn_append_cons_self_of_not_mem absent _⟩⟩

/-- The code stops where the first item is not accepted. -/
theorem not_accepted (stopped : ∀ width height tail, parsePair long s 'x' = some (width, height, tail) →
      tail ≠ [] ∧ ∀ rest, tail ≠ ',' :: rest) : Longest (Accepted long) (s.splitOn ',') [] := by
  obtain ⟨item, tail, split, -, ⟨rfl, items⟩ | ⟨rest, rfl, items⟩⟩ := first_item s
  · rw [items]
    apply Longest.stop
    intro size accepted
    exact (stopped _ _ _ (split ▸ parsePair_accepted accepted stops_nil)).1 rfl
  · rw [items]
    apply Longest.stop
    intro size accepted
    exact (stopped _ _ _ (split ▸ parsePair_accepted accepted (stops_comma rest))).2 rest rfl

/-- By induction on the rounds that are left; each one takes at least a comma off the text. -/
theorem parseSizesLoop_longest (long : Long) (fuel : Nat) : ∀ s : String8, s.length < fuel → ∃ found,
    Longest (Accepted long) (s.splitOn ',') found ∧
      ∀ sizes, parseSizesLoop long fuel s sizes = some (sizes ++ found) := by
  induction fuel with
  | zero => exact fun s shorter => absurd shorter (Nat.not_lt_zero _)
  | succ fuel ih =>
    intro s shorter
    cases read : parsePair long s 'x' with
    | none =>
      -- no pair, and nothing is appended
      refine ⟨[], not_accepted fun _ _ _ found => absurd (read.symm.trans found) nofun, fun sizes => ?_⟩
      rw [parseSizesLoop, read, List.append_nil]
    | some found =>
      obtain ⟨width, height, tail⟩ := found
      obtain ⟨item, rfl, accepted⟩ := accepted_of_parsePair read
      cases tail with
      | nil =>
        -- the last item
        refine ⟨[⟨width, height⟩], ?_, fun sizes => by rw [parseSizesLoop, read]⟩
        rw [List.append_nil, List.splitOn_eq_singleton accepted.no_comma]
        exact .more accepted .nil
      | cons c rest =>
        by_cases comma : c = ','
        · subst comma
          have less : rest.length < fuel := by
            rw [List.length_append, List.length_cons] at shorter
            omega
          obtain ⟨found, longest, result⟩ := ih rest less
          refine ⟨⟨width, height⟩ :: found, ?_, fun sizes => ?_⟩
          · rw [List.splitOn_append_cons_self_of_not_mem accepted.no_comma]
            exact .more accepted longest
          · rw [parseSizesLoop, read]
            simp only [if_pos, result, List.append_assoc, List.cons_append, List.nil_append]
        · -- a pair was read, but something else follows it
          refine ⟨[], not_accepted ?_, fun sizes => ?_⟩
          · intro width' height' tail' found
            rw [read, Option.some.injEq, Prod.mk.injEq, Prod.mk.injEq] at found
            obtain ⟨-, -, rfl⟩ := found
            refine ⟨nofun, fun rest' same => ?_⟩
            exact comma (List.cons.inj same).1
          · rw [parseSizesLoop, read]
            simp only [if_neg comma, List.append_nil]

/-- What the loop finds does not depend on how many rounds it may take. -/
theorem parseSizesList_longest (long : Long) (s : String8) : ∃ found,
    Longest (Accepted long) (s.splitOn ',') found ∧
      ∀ fuel sizes, s.length < fuel → parseSizesList long fuel (some s) sizes = some (sizes ++ found) := by
  obtain ⟨found, longest, -⟩ := parseSizesLoop_longest long _ s (Nat.lt_succ_self _)
  refine ⟨found, longest, fun fuel sizes enough => ?_⟩
  obtain ⟨found', longest', result⟩ := parseSizesLoop_longest long fuel s enough
  obtain rfl := longest.unique (accepted_unique long) longest'
  exact result sizes

/-! ### Exactness -/

/-- The sizes of the longest prefix of items are appended, and no others. -/
def ParsesExactly (long : Long) (s : String8) : Prop :=
  ∃ found, Longest Item (s.splitOn ',') found ∧
    ∀ fuel sizes, s.length < fuel → parseSizesList long fuel (some s) sizes = some (sizes ++ found)

/-- The first that is no item is not one whose numbers are missing or too large. -/
def NoneLacking (s : String8) : Prop :=
  ∀ before item after, s.splitOn ',' = before ++ item :: after → (∀ text ∈ before, ∃ size, Item text size) →
    Lenient item → ∃ size, Item item size

theorem parsesExactly_iff (long : Long) (s : String8) : ParsesExactly long s ↔ NoneLacking s := by
  obtain ⟨found, longest, result⟩ := parseSizesList_longest long s
  have narrow := longest.narrow_iff (fun _ _ => Item.accepted) (accepted_unique long)
  have agree : Agree Item (Accepted long) (s.splitOn ',') ↔ NoneLacking s := by
    simp only [Agree, NoneLacking, lenient_iff long]
  rw [← agree, ← narrow]
  constructor
  · rintro ⟨found', longest', result'⟩
    have same := (result _ [] (Nat.lt_succ_self _)).symm.trans (result' _ [] (Nat.lt_succ_self _))
    rw [List.nil_append, List.nil_append] at same
    exact Option.some.inj same ▸ longest'
  · exact fun items => ⟨found, items, result⟩

/-- `%dx%d` -/
def Size.text (size : Size) : String8 := decimal size.width.toInt ++ 'x' :: decimal size.height.toInt

theorem item_text (size : Size) : Item size.text size := .intro (numeral_decimal _) (numeral_decimal _)

theorem longest_texts (long : Long) (list : List Size) :
    Longest (Accepted long) (([','].intercalate (list.map Size.text)).splitOn ',') list := by
  cases list with
  | nil =>
    apply Longest.stop
    rintro size accepted
    obtain ⟨a, b, w, h, empty, -⟩ := (lenient_iff long).mpr ⟨size, accepted⟩
    exact absurd empty (by simp)
  | cons size list =>
    rw [List.splitOn_intercalate]
    · apply Longest.of_forall₂
      rw [List.forall₂_map_left_iff]
      exact List.forall₂_same.mpr fun size _ => (item_text size).accepted
    · intro text member
      obtain ⟨size, -, rfl⟩ := List.mem_map.mp member
      have accepted : Accepted long size.text size := (item_text size).accepted
      exact accepted.no_comma
    · exact List.cons_ne_nil _ _

/-- For every string the parser comes to its end, and it parses exactly when the first item that it should not
accept is refused; a list of sizes written out is read back. -/
theorem parseSizesList_spec (long : Long) :
    (∀ s : String8, (∀ fuel sizes, s.length < fuel → (parseSizesList long fuel (some s) sizes).isSome) ∧
      (ParsesExactly long s ↔ NoneLacking s)) ∧
    ∀ (list sizes : List Size) (fuel : Nat), ([','].intercalate (list.map Size.text)).length < fuel →
      parseSizesList long fuel (some ([','].intercalate (list.map Size.text))) sizes = some (sizes ++ list) := by
  constructor
  · intro s
    obtain ⟨found, -, result⟩ := parseSizesList_longest long s
    refine ⟨fun fuel sizes enough => ?_, parsesExactly_iff long s⟩
    rw [result fuel sizes enough]
    rfl
  · intro list sizes fuel enough
    obtain ⟨found, longest, result⟩ := parseSizesList_longest long ([','].intercalate (list.map Size.text))
    obtain rfl := longest.unique (accepted_unique long) (longest_texts long list)
    exact result fuel sizes enough

/-- No item lacks its first number. -/
theorem not_item_x (b : String8) (size : Size) : ¬ Item ('x' :: b) size := by
  intro is
  generalize text : 'x' :: b = item at is
  obtain ⟨first, -⟩ := is
  obtain ⟨c, a, rfl⟩ := List.exists_cons_of_ne_nil first.ne_nil
  obtain ⟨rfl, -⟩ := List.cons.inj text
  exact first.not_mem foreign_x List.mem_cons_self

def lp64 : Long := ⟨64, by decide⟩

/-- A size is made up where a number is missing, and one that does not fit is cut. -/
theorem size_made_up :
    parseSizesList lp64 14 (some "x480,640x,1x1".toList) [] = some [⟨0, 480⟩, ⟨640, 0⟩, ⟨1, 1⟩] ∧
      parseSizesList lp64 14 (some "4294967297x1".toList) [] = some [⟨1, 1⟩] ∧
      ¬ ParsesExactly lp64 "x480,640x,1x1".toList := by
  refine ⟨by decide, by decide, ?_⟩
  rintro ⟨found, longest, result⟩
  have appended := result 14 [] (by decide)
  have empty : found = [] := by
    cases longest with
    | stop => rfl
    | more is => exact absurd is (not_item_x _ _)
  rw [empty] at appended
  revert appended
  decide

end Hima.Camera
