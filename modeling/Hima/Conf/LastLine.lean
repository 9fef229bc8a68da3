import Hima.Conf.ConfReader
import Hima.Lib.Last

/-!
# The last line of a name

What both readers leave in a table: every entry has the value of the last line `NAME = value` for it,
among the lines that the reader gets to.
-/
namespace Hima.Conf

open Tokens LastValue LocParam

variable {F : Type} {libc : Libc F} {e : LocParam F} {table : List (LocParam F)} {l b : Text} {lines : List Text}

/-- The name and the value in a line: what is in front of a first `=` and behind it. -/
def assignment (l : Text) : Option (Text × Text) :=
  match tokens '=' l with
  | name :: value :: _ => if trim name = [] ∨ trim value = [] then none else some (trim name, trim value)
  | _ => none

/-- Whether an entry can get a value. -/
def LocParam.settable (e : LocParam F) : Bool :=
  e.paramPtr.isSome && (e.paramType == 's' || e.paramType == 'n' || e.paramType == 'f')

/-- Whether a line gives a value to an entry. -/
def sets (table : List (LocParam F)) (l : Text) : Bool :=
  match assignment l with
  | some (name, _) => name ∈ (table.filter LocParam.settable).map LocParam.paramName
  | none => false

/-- An entry with a value, marked as set. -/
def LocParam.holding (libc : Libc F) (e : LocParam F) (value : Text) : LocParam F :=
  match e.paramPtr, (configValue libc e.paramName value).byType e.paramType with
  | some _, some value => { e with paramPtr := some value, paramSet := e.paramSet.map fun _ => 1 }
  | _, _ => e

/-- An entry after some lines. -/
def LocParam.after (libc : Libc F) (lines : List Text) (e : LocParam F) : LocParam F :=
  match lastValue assignment e.paramName lines with
  | some value => e.holding libc value
  | none => e

/-- A line that names an entry has a name and a value that are not blank. -/
def Complete (table : List (LocParam F)) (b : Text) : Prop :=
  ∀ operand ∈ operands b, locUtilTrimSpace operand.1 ∈ table.map LocParam.paramName →
    trim operand.1 ≠ [] ∧ trim operand.2 ≠ []

instance (table : List (LocParam F)) (b : Text) : Decidable (Complete table b) :=
  inferInstanceAs (Decidable (∀ operand ∈ operands b, _))

/-- A line of a configuration text. -/
structure IsLine (l : Text) : Prop where
  newline : '\n' ∉ l
  null : '\x00' ∉ l
  short : l.length < maxParamLine

instance (l : Text) : Decidable (IsLine l) :=
  decidable_of_iff ('\n' ∉ l ∧ '\x00' ∉ l ∧ l.length < maxParamLine)
    ⟨fun both => ⟨both.1, both.2.1, both.2.2⟩, fun line => ⟨line.newline, line.null, line.short⟩⟩

/-! ### Operands -/

theorem operands_eq (b : Text) :
    operands b = match tokens '=' b with
      | name :: value :: _ => some (name, value)
      | _ => none := by
  cases first : strtok '=' b with
  | none => simp [operands, first, tokens_of_strtok_none first]
  | some found =>
    obtain ⟨name, lasts⟩ := found
    rw [tokens_of_strtok first]
    cases second : strtok '=' lasts with
    | none => simp [operands, first, second, tokens_of_strtok_none second]
    | some found => simp [operands, first, second, tokens_of_strtok second]

theorem assignment_of_operands {name value : Text} (two : operands b = some (name, value)) :
    assignment b = if trim name = [] ∨ trim value = [] then none else some (trim name, trim value) := by
  rw [operands_eq] at two
  rw [assignment]
  split at two
  · cases two
    rfl
  · cases two

theorem assignment_of_no_operands (no_value : operands b = none) : assignment b = none := by
  rw [operands_eq] at no_value
  rw [assignment]
  split at no_value
  · cases no_value
  · rfl

theorem trim_concat {c : Char} (space : isspace c) (s : Text) : trim (s ++ [c]) = trim s := by
  rw [trim, trim, List.dropWhile_append]
  split
  · next started => rw [List.isEmpty_iff.mp started]; simp [space]
  · rw [List.rdropWhile_concat_pos _ _ _ space]

/-- The newline behind a line is no part of what it says. -/
theorem assignment_concat (l : Text) : assignment (l ++ ['\n']) = assignment l := by
  rw [assignment, assignment]
  rcases tokens_concat (d := '=') (c := '\n') (by decide) l with added | ⟨ts, t, before, after⟩
  · -- behind a last = the newline is an operand of its own, a blank one
    rw [added]
    rcases tokens '=' l with - | ⟨name, - | ⟨value, ts⟩⟩
    · rfl
    · exact if_pos (Or.inr (by decide))
    · rfl
  · -- otherwise it belongs to the last operand and is trimmed off
    rw [before, after]
    rcases ts with - | ⟨name, - | ⟨value, ts⟩⟩
    · rfl
    · simp only [List.cons_append, List.nil_append, trim_concat (show isspace '\n' by decide)]
    · rfl

/-- A line that is complete as a file has it is complete as a buffer has it. -/
theorem Complete.of_concat (complete : Complete table (l ++ ['\n'])) : Complete table l := by
  rw [Complete, operands_eq] at complete ⊢
  rcases tokens_concat (d := '=') (c := '\n') (by decide) l with added | ⟨ts, t, before, after⟩
  · rw [added] at complete
    revert complete
    rcases tokens '=' l with - | ⟨name, - | ⟨value, ts⟩⟩
    · simp
    · simp
    · exact id
  · rw [after] at complete
    rw [before]
    rcases ts with - | ⟨name, - | ⟨value, ts⟩⟩
    · simp
    · intro operand member named
      obtain rfl := Option.some.inj member
      rw [← trim_concat (show isspace '\n' by decide) t]
      exact complete (name, t ++ ['\n']) rfl named
    · exact complete

/-! ### Entries after a line -/

theorem byType_isSome (v : LocParamV F) (paramType : Char) :
    (v.byType paramType).isSome = (paramType == 's' || paramType == 'n' || paramType == 'f') := by
  rw [LocParamV.byType.eq_def]
  split <;> simp_all

@[simp] theorem paramName_holding (value : Text) : (e.holding libc value).paramName = e.paramName := by
  rw [holding]
  split <;> rfl

@[simp] theorem settable_holding (value : Text) : (e.holding libc value).settable = e.settable := by
  rw [holding]
  split
  · next ptr _ => simp [LocParam.settable, ptr]
  · rfl

theorem holding_of_not_settable (fixed : e.settable = false) (value : Text) : e.holding libc value = e := by
  rw [holding]
  split
  · next ptr of_type =>
    have known := byType_isSome (configValue libc e.paramName value) e.paramType
    rw [of_type] at known
    simp [LocParam.settable, ptr, ← known] at fixed
  · rfl

/-- What an entry that can get a value gets. -/
theorem holding_of_settable (libc : Libc F) (settable : e.settable) (value : Text) :
    ∃ v, (configValue libc e.paramName value).byType e.paramType = some v ∧
      e.holding libc value = { e with paramPtr := some v, paramSet := e.paramSet.map fun _ => 1 } := by
  rw [LocParam.settable, Bool.and_eq_true, ← byType_isSome (configValue libc e.paramName value)] at settable
  obtain ⟨old, ptr⟩ := Option.isSome_iff_exists.mp settable.1
  obtain ⟨v, of_type⟩ := Option.isSome_iff_exists.mp settable.2
  exact ⟨v, of_type, by rw [holding, ptr, of_type]⟩

/-- The last value counts. -/
theorem holding_holding (value value' : Text) :
    (e.holding libc value).holding libc value' = e.holding libc value' := by
  by_cases settable : e.settable
  · obtain ⟨v, -, first⟩ := holding_of_settable libc settable value
    obtain ⟨v', of_type, last⟩ := holding_of_settable libc settable value'
    rw [first, last, holding]
    simp [of_type, Function.comp_def]
  · have fixed := Bool.eq_false_iff.mpr settable
    rw [holding_of_not_settable fixed value]

@[simp] theorem paramName_after : (e.after libc lines).paramName = e.paramName := by
  rw [after]
  split
  · exact paramName_holding _
  · rfl

@[simp] theorem settable_after : (e.after libc lines).settable = e.settable := by
  rw [after]
  split
  · exact settable_holding _
  · rfl

theorem after_of_not_settable (fixed : e.settable = false) : e.after libc lines = e := by
  rw [after]
  split
  · exact holding_of_not_settable fixed _
  · rfl

theorem after_of_no_assignment (nothing : assignment b = none) : e.after libc [b] = e := by
  rw [after, lastValue_cons, valueFor, nothing]
  rfl

theorem after_of_assignment {name value : Text} (assigns : assignment b = some (name, value)) :
    e.after libc [b] = if e.paramName = name then e.holding libc value else e := by
  rw [after, lastValue_cons, valueFor, assigns]
  by_cases named : name = e.paramName
  · simp [named]
  · simp [named, Ne.symm named]

theorem after_cons : e.after libc (l :: lines) = (e.after libc [l]).after libc lines := by
  simp only [after, lastValue_cons, lastValue_nil, Option.none_or]
  cases valueFor assignment e.paramName l with
  | none => rw [Option.or_none]
  | some value =>
    rw [paramName_holding]
    cases lastValue assignment e.paramName lines with
    | none => rfl
    | some value' => exact (holding_holding value value').symm

theorem map_paramName_after :
    (table.map (after libc lines)).map LocParam.paramName = table.map LocParam.paramName := by
  simp [Function.comp_def]

theorem sets_map {change : LocParam F → LocParam F} (named : ∀ e, (change e).paramName = e.paramName)
    (settable : ∀ e, (change e).settable = e.settable) : sets (table.map change) = sets table := by
  have names : ((table.map change).filter LocParam.settable).map LocParam.paramName =
      (table.filter LocParam.settable).map LocParam.paramName := by
    simp [List.filter_map, Function.comp_def, named, settable]
  funext b
  rw [sets, sets, names]

theorem sets_after : sets (table.map (after libc lines)) = sets table :=
  sets_map (fun _ => paramName_after) fun _ => settable_after

/-! ### A line -/

@[simp] theorem paramName_configValue (name value : Text) : (configValue libc name value).paramName = name := by
  rw [configValue]
  split <;> rfl

theorem locSetConfigEntry_configValue (libc : Libc F) (e : LocParam F) (name value : Text) :
    locSetConfigEntry e (configValue libc name value) =
      if e.paramName = name ∧ e.settable then (0, e.holding libc value) else (-1, e) := by
  rw [locSetConfigEntry, paramName_configValue]
  by_cases named : e.paramName = name
  · subst named
    by_cases settable : e.settable
    · obtain ⟨v, of_type, holding⟩ := holding_of_settable libc settable value
      rw [LocParam.settable, Bool.and_eq_true] at settable
      rw [if_pos ⟨rfl, settable.1⟩, of_type, holding, if_pos ⟨rfl, by simpa [LocParam.settable] using settable⟩]
    · rw [if_neg (c := e.paramName = e.paramName ∧ e.settable) fun both => settable both.2]
      split
      · next both =>
        have no_type : (configValue libc e.paramName value).byType e.paramType = none := by
          rw [← Option.not_isSome_iff_eq_none, byType_isSome]
          exact fun known => settable (Bool.and_eq_true_iff.mpr ⟨both.2, known⟩)
        rw [no_type]
      · rfl
  · rw [if_neg fun both => named both.1, if_neg fun both => named both.1]

/-- Entries with distinct names: a line fills one record at most. -/
theorem countP_named (distinct : (table.map LocParam.paramName).Nodup) (name : Text) :
    table.countP (fun e => e.paramName = name ∧ e.settable) =
      if name ∈ (table.filter LocParam.settable).map LocParam.paramName then 1 else 0 := by
  have settable_distinct : ((table.filter LocParam.settable).map LocParam.paramName).Nodup :=
    distinct.sublist (List.filter_sublist.map LocParam.paramName)
  rw [← settable_distinct.count, List.count, List.countP_map, List.countP_filter]
  congr 1
  funext e
  simp [Bool.beq_eq_decide_eq]

theorem locFillConfItem_of_operands {name value : Text} (two : operands b = some (name, value)) :
    locFillConfItem libc b table = (table.map fun e =>
          if e.paramName = locUtilTrimSpace name ∧ e.settable then e.holding libc (locUtilTrimSpace value) else e,
        table.countP fun e => e.paramName = locUtilTrimSpace name ∧ e.settable) := by
  rw [locFillConfItem, two]
  simp only [List.map_map, List.countP_map, Function.comp_def, locSetConfigEntry_configValue]
  congr 2
  · funext e
    split <;> rfl
  · funext e
    split <;> simp_all

/-- What a line does to a table, when it is complete if it names an entry. -/
theorem locFillConfItem_eq (distinct : (table.map LocParam.paramName).Nodup) (complete : Complete table b) :
    locFillConfItem libc b table = (table.map (after libc [b]), if sets table b then 1 else 0) := by
  cases two : operands b with
  | none =>
    have nothing := assignment_of_no_operands two
    have unchanged : after libc [b] = id := funext fun e => after_of_no_assignment nothing
    rw [locFillConfItem, two, sets, nothing, unchanged, List.map_id, if_neg Bool.false_ne_true]
  | some operand =>
    obtain ⟨name, value⟩ := operand
    rw [locFillConfItem_of_operands two]
    by_cases blank : trim name = [] ∨ trim value = []
    · -- such a line gives no value, and being complete it names no entry
      have nothing : assignment b = none := by rw [assignment_of_operands two, if_pos blank]
      have unnamed : ∀ e ∈ table, ¬(e.paramName = locUtilTrimSpace name ∧ e.settable) := by
        intro e member both
        have whole := complete (name, value) (by rw [two]; rfl) (both.1 ▸ List.mem_map_of_mem member)
        exact blank.elim whole.1 whole.2
      rw [sets, nothing, if_neg Bool.false_ne_true]
      congr 1
      · refine List.map_congr_left fun e member => ?_
        rw [if_neg (unnamed e member), after_of_no_assignment nothing]
      · exact List.countP_eq_zero.mpr fun e member => by simpa using unnamed e member
    · obtain ⟨some_name, some_value⟩ := not_or.mp blank
      have assigns : assignment b = some (trim name, trim value) := by
        rw [assignment_of_operands two, if_neg blank]
      rw [locUtilTrimSpace_eq, locUtilTrimSpace_eq, if_neg some_name, if_neg some_value, sets, assigns,
        countP_named distinct]
      congr 1
      · refine List.map_congr_left fun e _ => ?_
        rw [after_of_assignment assigns]
        split
        · next both => rw [if_pos both.1]
        · next other =>
          split
          · next named =>
            exact (holding_of_not_settable (Bool.eq_false_iff.mpr fun settable => other ⟨named, settable⟩) _).symm
          · rfl
      · simp only [decide_eq_true_eq]

theorem Complete.fills (libc : Libc F) (distinct : (table.map LocParam.paramName).Nodup)
    (complete : Complete table (l ++ ['\n'])) :
    locFillConfItem libc l table = (table.map (after libc [l]), if sets table l then 1 else 0) :=
  locFillConfItem_eq distinct complete.of_concat

theorem Complete.fills_concat (libc : Libc F) (distinct : (table.map LocParam.paramName).Nodup)
    (complete : Complete table (l ++ ['\n'])) :
    locFillConfItem libc (l ++ ['\n']) table = (table.map (after libc [l]), if sets table l then 1 else 0) := by
  rw [locFillConfItem_eq distinct complete, sets, sets, assignment_concat]
  congr 2
  funext e
  simp only [after, lastValue_cons, valueFor, assignment_concat]

theorem locFillConfItem_newline : locFillConfItem libc ['\n'] table = (table, 0) := by
  have no_value : operands ['\n'] = none := by decide
  rw [locFillConfItem, no_value]

variable {numParams : UInt32}

theorem toNat_sub_one (some_left : numParams ≠ 0) :
    (numParams - 1).toNat = numParams.toNat - 1 := by
  have one_left : (1 : UInt32) ≤ numParams := by
    exact Nat.one_le_iff_ne_zero.mpr fun zero => some_left (UInt32.toNat_inj.mp zero)
  exact UInt32.toNat_sub_of_le _ _ one_left

/-- The records that a line fills, off the number of them that is left. -/
theorem toNat_sub_filled (some_left : numParams ≠ 0) (filled : Bool) :
    (numParams - .ofNat (if filled then 1 else 0)).toNat = numParams.toNat - if filled then 1 else 0 := by
  cases filled with
  | false => simp
  | true => exact toNat_sub_one some_left

/-- A line, and then the lines behind it. -/
theorem map_after_upTo_cons {n : Nat} (some_left : n ≠ 0) :
    (table.map (after libc [l])).map (after libc
          (upTo (sets (table.map (after libc [l]))) (n - if sets table l then 1 else 0) lines)) =
      table.map (after libc (upTo (sets table) n (l :: lines))) := by
  rw [sets_after, upTo_cons some_left, List.map_map]
  refine List.map_congr_left fun e _ => ?_
  exact after_cons.symm

theorem map_after_nil : table.map (after libc []) = table :=
  (List.map_congr_left fun _ _ => rfl).trans (List.map_id table)

theorem Complete.after (complete : Complete table b) : Complete (table.map (after libc lines)) b := by
  rw [Complete, map_paramName_after]
  exact complete

/-! ### Both readers -/

theorem updateLines_eq (distinct : (table.map LocParam.paramName).Nodup)
    (complete : ∀ l ∈ lines, Complete table (l ++ ['\n'])) (numParams : UInt32) (ret : Int) :
    (updateLines libc lines numParams ret table).2 =
      table.map (after libc (upTo (sets table) numParams.toNat lines)) := by
  induction lines generalizing table numParams ret with
  | nil => rw [updateLines, upTo_nil, map_after_nil]
  | cons l lines ih =>
    rw [updateLines]
    split
    · next zero => rw [zero, UInt32.toNat_zero, upTo_zero, map_after_nil]
    · next some_left =>
      rw [(complete l List.mem_cons_self).fills libc distinct]
      rw [ih (by rwa [map_paramName_after]) fun b member => (complete b (List.mem_cons_of_mem l member)).after,
        toNat_sub_filled some_left]
      exact map_after_upTo_cons fun zero => some_left (UInt32.toNat_inj.mp zero)

/-! ### Lines of a file -/

theorem cstr_of_no_null (plain : '\x00' ∉ b) : cstr b = b := takeWhile_of_not_mem plain

theorem takeWhile_newline {rest : Text} (newline : '\n' ∉ l) {room : Nat} (fits : l.length ≤ room) :
    ((l ++ '\n' :: rest).take room).takeWhile (· != '\n') = l := by
  rw [List.take_append, List.take_of_length_le fits, List.takeWhile_append, takeWhile_of_not_mem newline, if_pos rfl]
  cases room - l.length with
  | zero => simp
  | succ left => simp

theorem fgets_eq {size : Nat} {file : Text} (some_char : file ≠ [])
    (line : (file.take (size - 1)).takeWhile (· != '\n') = l) :
    fgets size file =
      some (file.take (min (l.length + 1) (size - 1)), file.drop (min (l.length + 1) (size - 1))) := by
  rw [fgets, if_neg some_char, line]

theorem fgets_line {size : Nat} {rest : Text} (newline : '\n' ∉ l) (fits : l.length + 1 < size) :
    fgets size (l ++ '\n' :: rest) = some (l ++ ['\n'], rest) := by
  have split_at : l ++ '\n' :: rest = (l ++ ['\n']) ++ rest := by simp
  have n : min (l.length + 1) (size - 1) = (l ++ ['\n']).length := by
    rw [List.length_append, List.length_singleton]
    omega
  rw [fgets_eq (by simp) (takeWhile_newline newline (by omega)), n, split_at, List.take_left, List.drop_left]

/-- A line that fills the buffer leaves its newline to the next call. -/
theorem fgets_full {size : Nat} {rest : Text} (newline : '\n' ∉ l) (full : l.length + 1 = size) :
    fgets size (l ++ '\n' :: rest) = some (l, '\n' :: rest) := by
  have n : min (l.length + 1) (size - 1) = l.length := by omega
  rw [fgets_eq (by simp) (takeWhile_newline newline (by omega)), n, List.take_left, List.drop_left]

theorem fgets_last {size : Nat} (newline : '\n' ∉ l) (some_char : l ≠ []) (fits : l.length < size) :
    fgets size l = some (l, []) := by
  have n : l.length ≤ min (l.length + 1) (size - 1) := by omega
  have line : (l.take (size - 1)).takeWhile (· != '\n') = l := by
    rw [List.take_of_length_le (by omega), takeWhile_of_not_mem newline]
  rw [fgets_eq some_char line, List.take_of_length_le n, List.drop_of_length_le n]

theorem readLines_zero (fuel : Nat) (file : Text) : (readLines libc fuel 0 file table).1 = table := by
  cases fuel <;> rfl

theorem readLines_round {fuel : Nat} {file rest : Text} {table' : List (LocParam F)} {n : Nat}
    (some_left : numParams ≠ 0) (reads : fgets maxParamLine file = some (b, rest)) (plain : '\x00' ∉ b)
    (fills : locFillConfItem libc b table = (table', n)) :
    readLines libc (fuel + 1) numParams file table = readLines libc fuel (numParams - .ofNat n) rest table' := by
  rw [readLines, if_neg some_left, reads]
  simp only [cstr_of_no_null plain, fills]

theorem readLines_end (libc : Libc F) (fuel : Nat) (numParams : UInt32) :
    (readLines libc fuel numParams [] table).1 = table := by
  cases fuel with
  | zero => rfl
  | succ fuel =>
    rw [readLines]
    split
    · rfl
    · rfl

/-- A newline that was left over does nothing. -/
theorem readLines_newline (libc : Libc F) (table : List (LocParam F)) (fuel : Nat) (numParams : UInt32)
    (rest : Text) :
    (readLines libc (fuel + 1) numParams ('\n' :: rest) table).1 =
      (readLines libc fuel numParams rest table).1 := by
  by_cases some_left : numParams = 0
  · rw [some_left, readLines_zero, readLines_zero]
  · have reads : fgets maxParamLine ('\n' :: rest) = some (['\n'], rest) :=
      fgets_line (l := []) (by simp) (by decide)
    have unchanged : numParams - .ofNat 0 = numParams := UInt32.sub_zero _
    rw [readLines_round some_left reads (by decide) locFillConfItem_newline, unchanged]

/-- The rounds of the loop for a line that is not the last. -/
theorem readLines_line {fuel : Nat} {rest : Text} (isLine : IsLine l)
    (distinct : (table.map LocParam.paramName).Nodup) (complete : Complete table (l ++ ['\n']))
    (some_left : numParams ≠ 0) (enough : (l ++ '\n' :: rest).length < fuel) :
    ∃ fuel', rest.length < fuel' ∧ (readLines libc fuel numParams (l ++ '\n' :: rest) table).1 =
        (readLines libc fuel' (numParams - .ofNat (if sets table l then 1 else 0)) rest
          (table.map (after libc [l]))).1 := by
  rw [List.length_append, List.length_cons] at enough
  -- a line of 159 characters fills the buffer, and its newline takes a round of its own
  by_cases fits : l.length + 1 < maxParamLine
  · obtain ⟨fuel, rfl⟩ := Nat.exists_eq_add_of_le' (Nat.one_le_of_lt enough)
    have plain : '\x00' ∉ l ++ ['\n'] := by simp [isLine.null]
    refine ⟨fuel, by omega, ?_⟩
    rw [readLines_round some_left (fgets_line isLine.newline fits) plain (complete.fills_concat libc distinct)]
  · have full : l.length + 1 = maxParamLine := Nat.le_antisymm isLine.short (Nat.not_lt.mp fits)
    have more : l.length = 159 := by simpa [maxParamLine] using full
    obtain ⟨fuel, rfl⟩ : ∃ n, fuel = n + 2 := Nat.exists_eq_add_of_le' (by omega)
    refine ⟨fuel, by omega, ?_⟩
    rw [readLines_round some_left (fgets_full isLine.newline full) isLine.null (complete.fills libc distinct),
      readLines_newline]

theorem readLines_last {fuel : Nat} (isLine : IsLine l)
    (distinct : (table.map LocParam.paramName).Nodup) (complete : Complete table (l ++ ['\n']))
    (some_left : numParams ≠ 0) (enough : l.length < fuel) :
    (readLines libc fuel numParams l table).1 = table.map (after libc [l]) := by
  obtain ⟨fuel, rfl⟩ := Nat.exists_eq_add_of_le' (Nat.one_le_of_lt enough)
  by_cases empty : l = []
  · have nothing : assignment l = none := by rw [empty]; rfl
    have unchanged : table.map (after libc [l]) = table :=
      (List.map_congr_left fun _ _ => after_of_no_assignment nothing).trans (List.map_id table)
    rw [unchanged, empty, readLines_end]
  · rw [readLines_round some_left (fgets_last isLine.newline empty isLine.short) isLine.null
      (complete.fills libc distinct), readLines_end]

theorem readLines_eq (libc : Libc F) (isLine : ∀ l ∈ lines, IsLine l)
    (distinct : (table.map LocParam.paramName).Nodup)
    (complete : ∀ l ∈ lines, Complete table (l ++ ['\n'])) (numParams : UInt32) {fuel : Nat}
    (enough : (['\n'].intercalate lines).length < fuel) :
    (readLines libc fuel numParams (['\n'].intercalate lines) table).1 =
      table.map (after libc (upTo (sets table) numParams.toNat lines)) := by
  -- the entries change from line to line, but neither their names nor which of them can get a value
  induction lines generalizing table numParams fuel with
  | nil => rw [upTo_nil, map_after_nil, List.intercalate_nil, readLines_end]
  | cons l lines ih =>
    by_cases some_left : numParams = 0
    · rw [some_left, readLines_zero, UInt32.toNat_zero, upTo_zero, map_after_nil]
    · have line := isLine l List.mem_cons_self
      have whole := complete l List.mem_cons_self
      have left : numParams.toNat ≠ 0 := fun zero => some_left (UInt32.toNat_inj.mp zero)
      cases lines with
      | nil =>
        rw [List.intercalate_singleton] at enough ⊢
        rw [readLines_last line distinct whole some_left enough, upTo_cons left, upTo_nil]
      | cons l' lines =>
        rw [List.intercalate_cons_cons, List.append_assoc, List.singleton_append] at enough ⊢
        obtain ⟨fuel', enough', round⟩ := readLines_line line distinct whole some_left enough
        rw [round, ih (fun b member => isLine b (List.mem_cons_of_mem l member)) (by rwa [map_paramName_after])
          (fun b member => (complete b (List.mem_cons_of_mem l member)).after) _ enough',
          toNat_sub_filled some_left]
        exact map_after_upTo_cons left

/-! ### Texts -/

theorem not_mem_intercalate (plain : ∀ l ∈ lines, '\x00' ∉ l) : '\x00' ∉ ['\n'].intercalate lines := by
  induction lines with
  | nil => simp
  | cons l lines ih =>
    have here := plain l List.mem_cons_self
    cases lines with
    | nil => rwa [List.intercalate_singleton]
    | cons l' lines =>
      rw [List.intercalate_cons_cons, List.mem_append, List.mem_append, List.mem_singleton]
      have behind := ih fun l member => plain l (List.mem_cons_of_mem _ member)
      exact fun member => member.elim (fun first => first.elim here (by decide)) behind

/-- Empty lines say nothing. -/
theorem after_filter (libc : Libc F) (e : LocParam F) (lines : List Text) :
    e.after libc (lines.filter (· ≠ [])) = e.after libc lines := by
  have silent : ∀ l : Text, decide (l ≠ []) = false → valueFor assignment e.paramName l = none := by
    intro l empty
    rw [show l = [] by simpa using empty]
    rfl
  rw [after, after, lastValue_filter silent]

/-- Lines that are not too many are all seen. -/
theorem after_upTo (member : e ∈ table) {n : Nat} (few : lines.countP (sets table) ≤ n) :
    e.after libc (upTo (sets table) n lines) = e.after libc lines := by
  by_cases settable : e.settable
  · have counted : ∀ l, (valueFor assignment e.paramName l).isSome → sets table l := by
      intro l gives
      rw [valueFor] at gives
      rw [sets]
      cases assigns : assignment l with
      | none => simp [assigns] at gives
      | some pair =>
        obtain ⟨name, value⟩ := pair
        by_cases named : name = e.paramName
        · subst named
          exact decide_eq_true (List.mem_map_of_mem (List.mem_filter.mpr ⟨member, settable⟩))
        · simp [assigns, named] at gives
    rw [after, after, lastValue_upTo counted few]
  · have fixed := Bool.eq_false_iff.mpr settable
    rw [after_of_not_settable fixed, after_of_not_settable fixed]

theorem map_paramName_cleared :
    (table.map cleared).map LocParam.paramName = table.map LocParam.paramName := by
  simp [cleared, Function.comp_def]

theorem sets_cleared : sets (table.map LocParam.cleared) = sets table :=
  sets_map (fun _ => rfl) fun _ => rfl

/-- What is read from a file: the lines up to the one that fills as many records as there are. -/
theorem locReadConf_eq (isLine : ∀ l ∈ lines, IsLine l) (distinct : (table.map LocParam.paramName).Nodup)
    (size : table.length < UInt32.size) (complete : ∀ l ∈ lines, Complete table (l ++ ['\n']))
    (own : List (LocParam F)) :
    (locReadConf libc (some (['\n'].intercalate lines)) table own).1 =
      (table.map cleared).map (after libc (upTo (sets table) table.length lines)) := by
  have complete' : ∀ l ∈ lines, Complete (table.map cleared) (l ++ ['\n']) := by
    intro l member
    rw [Complete, map_paramName_cleared]
    exact complete l member
  have left := readLines_eq libc isLine (by rwa [map_paramName_cleared]) complete' (.ofNat table.length)
    (Nat.lt_succ_self _)
  rw [sets_cleared, UInt32.toNat_ofNat_of_lt' size] at left
  rw [locReadConf]
  split
  · next empty => rw [List.isEmpty_iff.mp empty]; rfl
  · exact left

/-- What is read from a buffer, when the lines do not fill all the records. -/
theorem locUpdateConf_eq (isLine : ∀ l ∈ lines, IsLine l) (distinct : (table.map LocParam.paramName).Nodup)
    (size : table.length < UInt32.size) (complete : ∀ l ∈ lines, Complete table (l ++ ['\n']))
    (few : lines.countP (sets table) < table.length) :
    (locUpdateConf libc (some (['\n'].intercalate lines)) (['\n'].intercalate lines).length table).2 =
      table.map (after libc lines) := by
  have null : '\x00' ∉ ['\n'].intercalate lines := not_mem_intercalate fun l member => (isLine l member).null
  have found : tokens '\n' (['\n'].intercalate lines) = lines.filter (· ≠ []) :=
    tokens_intercalate fun l member => (isLine l member).newline
  rw [← List.map_congr_left fun e _ => after_filter libc e lines]
  rw [locUpdateConf]
  split
  · next nothing =>
    -- an empty text has no lines but empty ones
    have no_lines : table.map (after libc (lines.filter (· ≠ []))) = table := by
      rcases nothing with empty | empty
      · rw [← found, List.length_eq_zero_iff.mp empty, tokens_nil, map_after_nil]
      · rw [empty, List.map_nil]
    exact no_lines.symm
  · next some_text =>
    have records : table.length ≠ 0 := fun empty => some_text (Or.inr (List.length_eq_zero_iff.mp empty))
    have all : (UInt32.ofNat table.length).toNat = table.length := UInt32.toNat_ofNat_of_lt' size
    have some_left : UInt32.ofNat table.length ≠ 0 := fun zero => records (by rw [← all, zero, UInt32.toNat_zero])
    have numParams : (UInt32.ofNat table.length - 1).toNat = table.length - 1 := by
      rw [toNat_sub_one some_left, all]
    have still_few : (lines.filter (· ≠ [])).countP (sets table) ≤ table.length - 1 := by
      have fewer := (List.filter_sublist (p := (· ≠ [])) (l := lines)).countP_le (p := sets table)
      omega
    simp only [List.take_length, cstr_of_no_null null, found]
    rw [updateLines_eq distinct (fun l member => complete l (List.mem_of_mem_filter member)), numParams]
    exact List.map_congr_left fun e member => after_upTo member still_few

/-! ### The two readers -/

/-- A file is read up to the line that fills as many records as the table has, and the marks are
cleared first. When the lines fill no more records than that, every entry has the value of the last
line for it; when they fill fewer, a buffer leads to the same values and keeps the other marks. -/
theorem readers_lastLine (libc : Libc F) (lines : List Text) (isLine : ∀ l ∈ lines, IsLine l)
    (table own : List (LocParam F)) (distinct : (table.map LocParam.paramName).Nodup)
    (size : table.length < UInt32.size) (complete : ∀ l ∈ lines, Complete table (l ++ ['\n'])) :
    let text := ['\n'].intercalate lines
    let fromFile := (locReadConf libc (some text) table own).1
    let fromBuffer := (locUpdateConf libc (some text) text.length table).2
    fromFile =
        (table.map cleared).map (after libc (upTo (sets table) table.length lines)) ∧
      (lines.countP (sets table) ≤ table.length →
        fromFile = (table.map cleared).map (after libc lines)) ∧
      (lines.countP (sets table) < table.length → fromBuffer = table.map (after libc lines)) ∧
      (lines.countP (sets table) < table.length → table.map cleared = table → fromFile = fromBuffer) := by
  intro text fromFile fromBuffer
  have file : fromFile = _ := locReadConf_eq isLine distinct size complete own
  have whole_file (few : lines.countP (sets table) ≤ table.length) :
      fromFile = (table.map cleared).map (after libc lines) := by
    rw [file, ← sets_cleared]
    exact List.map_congr_left fun e member => after_upTo member (by rwa [sets_cleared])
  have buffer (few : lines.countP (sets table) < table.length) : fromBuffer = table.map (after libc lines) :=
    locUpdateConf_eq isLine distinct size complete few
  refine ⟨file, whole_file, buffer, fun few unmarked => ?_⟩
  rw [whole_file few.le, buffer few, unmarked]

/-- The value of a digit; 36 for what is no digit. -/
def digitValue (c : Char) : Nat :=
  if '0' ≤ c ∧ c ≤ '9' then c.toNat - '0'.toNat
  else if 'a' ≤ c ∧ c ≤ 'z' then c.toNat - 'a'.toNat + 10
  else if 'A' ≤ c ∧ c ≤ 'Z' then c.toNat - 'A'.toNat + 10
  else 36

/-- Numbers without a sign or a fraction, as the C library reads them. -/
def wholeNumbers : Libc Int :=
  let number (s : Text) (base : Nat) : Int :=
    (s.takeWhile fun c => digitValue c < base).foldl (fun n c => n * base + digitValue c) 0
  { atoi := fun s => .ofInt (number s 10), strtol := number, atof := fun s => number s 10, zero := 0 }

def sampleLines : List Text :=
  ["# NAME = comment", "", "NAME = first", "MASK=0x1F", "OTHER = 2", "\tNAME =  last one "].map String.toList

def sampleTable : List (LocParam Int) :=
  [⟨"NAME".toList, some (.string []), none, 's'⟩, ⟨"MASK".toList, some (.int 0), some 0, 'n'⟩,
    ⟨"SCALE".toList, some (.double 5), some 0, 'f'⟩, ⟨"NOWHERE".toList, none, some 0, 'n'⟩]

theorem readers_lastLine_sample :
    let text := ['\n'].intercalate sampleLines
    let read : List (LocParam Int) :=
      [⟨"NAME".toList, some (.string "last one".toList), none, 's'⟩,
        ⟨"MASK".toList, some (.int 31), some 1, 'n'⟩,
        ⟨"SCALE".toList, some (.double 5), some 0, 'f'⟩, ⟨"NOWHERE".toList, none, some 0, 'n'⟩]
    (locReadConf wholeNumbers (some text) sampleTable []).1 = read ∧
      (locUpdateConf wholeNumbers (some text) text.length sampleTable).2 = read := by
  have ⟨_, whole_file, buffer, _⟩ :=
    readers_lastLine wholeNumbers sampleLines (by decide) sampleTable [] (by decide) (by decide) (by decide)
  exact ⟨(whole_file (by decide)).trans (by decide), (buffer (by decide)).trans (by decide)⟩

/-- A file takes the mark off an entry that it does not name. Once a name has come twice it is not read
to its end, and a line without a value leaves its newline in an entry. -/
theorem readers_leave_lastLine :
    let entry (name : String) (paramType : Char) (value : ParamValue Int) (mark : UInt8) : LocParam Int :=
      ⟨name.toList, some value, some mark, paramType⟩
    (locReadConf wholeNumbers (some "B = 1".toList) [entry "A" 'n' (.int 7) 1, entry "B" 'n' (.int 0) 0] []).1 =
        [entry "A" 'n' (.int 7) 0, entry "B" 'n' (.int 1) 1] ∧
      (locReadConf wholeNumbers (some "A = 1\nA = 2\nB = 3".toList)
          [entry "A" 'n' (.int 0) 0, entry "B" 'n' (.int 0) 0] []).1 =
        [entry "A" 'n' (.int 2) 1, entry "B" 'n' (.int 0) 0] ∧
      (locReadConf wholeNumbers (some "A =\n".toList) [entry "A" 's' (.string []) 0] []).1 =
        [entry "A" 's' (.string "\n".toList) 1] := by
  decide

end Hima.Conf
