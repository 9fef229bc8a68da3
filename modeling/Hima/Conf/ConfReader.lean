import Mathlib.Data.List.DropRight
import Hima.Lib.Tokens

/-!
# Configuration files

`loc_cfg.cpp` reads lines `NAME = value` into the variables of a table, from a file or from a buffer.
-/
namespace Hima.Conf

open Tokens

/-- The characters of a string, without the null behind them. -/
abbrev Text := List Char

/-- The string in a buffer. -/
def cstr (buffer : List Char) : Text := buffer.takeWhile (· != '\x00')

/-- `isspace`, in the C locale. -/
def isspace (c : Char) : Bool := c == ' ' || ('\t' ≤ c && c ≤ '\r')

/-- What `fgets` reads: at most `size - 1` characters, and none behind a newline. -/
def fgets (size : Nat) (file : Text) : Option (Text × Text) :=
  if file = [] then none
  else
    let line := (file.take (size - 1)).takeWhile (· != '\n')
    let n := min (line.length + 1) (size - 1)
    some (file.take n, file.drop n)

/-- The numbers that the C library reads at the start of a string, and the `double` of zero bytes. -/
structure Libc (F : Type) where
  atoi : Text → Int32
  strtol : Text → Nat → Int
  atof : Text → F
  zero : F

/-! ### Spaces -/

/-- One round of the loop of `loc_util_trim_space`: what was written, and the place behind the last
character that is no space. -/
def trimStep (state : Text × Option Nat) (c : Char) : Text × Option Nat :=
  let (written, lastNonspace) := state
  -- first_nonspace is NULL as long as nothing was written
  if isspace c ∧ written = [] then state
  else (written ++ [c], if isspace c then lastNonspace else some (written.length + 1))

/-- `loc_util_trim_space`. A string of spaces only is not written to. -/
def locUtilTrimSpace (orgString : Text) : Text :=
  match orgString.foldl trimStep ([], none) with
  | (written, some lastNonspace) => written.take lastNonspace
  | (_, none) => orgString

/-- A string without the spaces at its ends. -/
def trim (s : Text) : Text := (s.dropWhile isspace).rdropWhile isspace

theorem foldl_trimStep (s : Text) :
    s.foldl trimStep ([], none) =
      (s.dropWhile isspace, if trim s = [] then none else some (trim s).length) := by
  induction s using List.reverseRecOn with
  | nil => rfl
  | append_singleton s c ih =>
    rw [List.foldl_append, ih, List.foldl_cons, List.foldl_nil, trimStep, trim, trim, List.dropWhile_append]
    -- as long as nothing was written a space is skipped, and anything else is the first to be written
    by_cases started : s.dropWhile isspace = []
    · by_cases space : isspace c
      · simp [started, space]
      · simp [started, space, List.rdropWhile_singleton]
    · have going : ¬(s.dropWhile isspace).isEmpty := mt List.isEmpty_iff.mp started
      rw [if_neg going, if_neg (fun both => started both.2), List.rdropWhile_concat]
      by_cases space : isspace c
      · rw [if_pos space, if_pos space]
      · rw [if_neg space, if_neg space, if_neg (List.append_ne_nil_of_right_ne_nil _ (List.cons_ne_nil _ _)),
          List.length_append, List.length_singleton]

theorem locUtilTrimSpace_eq (s : Text) : locUtilTrimSpace s = if trim s = [] then s else trim s := by
  rw [locUtilTrimSpace, foldl_trimStep]
  split
  · next result =>
    split at result
    · cases result
    · next some_char =>
      obtain rfl := (Prod.mk.inj result).1
      obtain rfl := Option.some.inj (Prod.mk.inj result).2
      rw [if_neg some_char]
      exact (List.prefix_iff_eq_take.mp (List.rdropWhile_prefix _ _)).symm
  · next result =>
    split at result
    · next empty => rw [if_pos empty]
    · cases result

/-! ### Entries -/

/-- `LOC_MAX_PARAM_STRING` -/
def maxParamString : Nat := 80

/-- `LOC_MAX_PARAM_LINE` -/
def maxParamLine : Nat := 160

/-- What is in the variable behind `param_ptr`. -/
inductive ParamValue (F : Type) where
  | string (value : Text)
  | int (value : Int32)
  | double (value : F)
deriving DecidableEq

/-- `loc_param_s_type`: `param_ptr` and `param_set` by what they point to, `none` for `NULL`. -/
structure LocParam (F : Type) where
  paramName : Text
  paramPtr : Option (ParamValue F)
  paramSet : Option UInt8
  paramType : Char
deriving DecidableEq

/-- `loc_param_v_type` -/
structure LocParamV (F : Type) where
  paramName : Text
  paramStrValue : Text
  paramIntValue : Int32
  paramDoubleValue : F

variable {F : Type}

/-- The value that the `switch` of `loc_set_config_entry` writes; `none` in its default. -/
def LocParamV.byType (configValue : LocParamV F) (paramType : Char) : Option (ParamValue F) :=
  match paramType with
  | 's' =>
    some (.string (if configValue.paramStrValue = "NULL".toList then []
      else configValue.paramStrValue.take maxParamString))
  | 'n' => some (.int configValue.paramIntValue)
  | 'f' => some (.double configValue.paramDoubleValue)
  | _ => none

/-- `loc_set_config_entry`: the result and the entry. -/
def locSetConfigEntry (configEntry : LocParam F) (configValue : LocParamV F) : Int × LocParam F :=
  if configEntry.paramName = configValue.paramName ∧ configEntry.paramPtr.isSome then
    match configValue.byType configEntry.paramType with
    | some value =>
      (0, { configEntry with paramPtr := some value, paramSet := configEntry.paramSet.map fun _ => 1 })
    | none => (-1, configEntry)
  else (-1, configEntry)

/-- Whether a value is read as hexadecimal. -/
def isHex (value : Text) : Bool :=
  3 ≤ value.length && value.head? == some '0' && (value[1]? == some 'x' || value[1]? == some 'X')

/-- The `config_value` for a name and a value. -/
def configValue (libc : Libc F) (name value : Text) : LocParamV F :=
  if isHex value then ⟨name, value, .ofInt (libc.strtol (value.drop 2) 16), libc.zero⟩
  else ⟨name, value, libc.atoi value, libc.atof value⟩

/-- The operands that two calls of `strtok_r` take from a line. -/
def operands (inputBuf : Text) : Option (Text × Text) := do
  let (name, lasts) ← strtok '=' inputBuf
  let (value, _) ← strtok '=' lasts
  return (name, value)

/-- `loc_fill_conf_item`: the table, and how many records of it were filled. -/
def locFillConfItem (libc : Libc F) (inputBuf : Text) (configTable : List (LocParam F)) :
    List (LocParam F) × Nat :=
  match operands inputBuf with
  | some (name, value) =>
    let configValue := configValue libc (locUtilTrimSpace name) (locUtilTrimSpace value)
    let tried := configTable.map (locSetConfigEntry · configValue)
    (tried.map Prod.snd, tried.countP fun result => result.1 = 0)
  | none => (configTable, 0)

/-! ### Files -/

/-- The loop over the lines of a file, with what is left of the file. -/
def readLines (libc : Libc F) : Nat → UInt32 → Text → List (LocParam F) → List (LocParam F) × Text
  | 0, _, confFp, configTable => (configTable, confFp)
  | fuel + 1, numParams, confFp, configTable =>
    if numParams = 0 then (configTable, confFp)
    else
      match fgets maxParamLine confFp with
      | none => (configTable, confFp)
      | some (inputBuf, confFp) =>
        let (configTable, filled) := locFillConfItem libc (cstr inputBuf) configTable
        readLines libc fuel (numParams - .ofNat filled) confFp configTable

/-- The validity bit of an entry, cleared. -/
def LocParam.cleared (e : LocParam F) : LocParam F := { e with paramSet := e.paramSet.map fun _ => 0 }

/-- `loc_read_conf_r`: the result, the table and what is left of the file. Every round of the loop
takes a character at least. -/
def locReadConfR (libc : Libc F) (confFp : Option Text) (configTable : List (LocParam F)) :
    Int × List (LocParam F) × Option Text :=
  match confFp with
  | none => (-1, configTable, none)
  | some file =>
    let (configTable, left) :=
      readLines libc (file.length + 1) (.ofNat configTable.length) file (configTable.map LocParam.cleared)
    (0, configTable, some left)

/-- `loc_read_conf`, with what `fopen` opens: the table of the caller, and the `loc_param_table` that
is read behind it. -/
def locReadConf (libc : Libc F) (confFile : Option Text) (configTable locParamTable : List (LocParam F)) :
    List (LocParam F) × List (LocParam F) :=
  match confFile with
  | none => (configTable, locParamTable)
  | some file =>
    (if configTable.isEmpty then configTable else (locReadConfR libc (some file) configTable).2.1,
      (locReadConfR libc (some file) locParamTable).2.1)

/-! ### Buffers -/

/-- The loop over the lines of a buffer; `ret` counts them. -/
def updateLines (libc : Libc F) : List Text → UInt32 → Int → List (LocParam F) → Int × List (LocParam F)
  | [], _, ret, configTable => (ret, configTable)
  | inputBuf :: inputBufs, numParams, ret, configTable =>
    if numParams = 0 then (ret, configTable)
    else
      let (configTable, filled) := locFillConfItem libc inputBuf configTable
      updateLines libc inputBufs (numParams - .ofNat filled) (ret + 1) configTable

/-- `loc_update_conf`. The lines are what `strtok_r` finds in the copy one after the other. -/
def locUpdateConf (libc : Libc F) (confData : Option Text) (length : Nat) (configTable : List (LocParam F)) :
    Int × List (LocParam F) :=
  match confData with
  | none => (-1, configTable)
  | some data =>
    if length = 0 ∨ configTable = [] then (-1, configTable)
    else
      let confCopy := cstr (data.take length)
      updateLines libc (tokens '\n' confCopy) (.ofNat configTable.length - 1) 0 configTable

end Hima.Conf
