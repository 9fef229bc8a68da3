import Mathlib.Algebra.Group.Int.Defs
import Mathlib.Data.List.TakeWhile
import Mathlib.Order.MinMax

/-!
# Decimal numbers in a text

`strtol` with base 10 takes white space, a sign and digits from the front of a text, and nothing at all where
there is no digit. Values that do not fit are brought to the nearest one that does.
-/
namespace Hima.Strtol

/-- `isspace` in the C locale. -/
def isSpace (c : Char) : Bool := c = ' ' || (9 ≤ c.toNat && c.toNat ≤ 13)

/-- Takes a sign, if there is one, and says whether it is a minus. -/
def readSign : List Char → Bool × List Char
  | '-' :: s => (true, s)
  | '+' :: s => (false, s)
  | s => (false, s)

def signed (negative : Bool) (n : Nat) : Int := if negative then -n else n

/-- What fits in a signed type. -/
def clamp (bits : Nat) (n : Int) : Int := max (-2 ^ (bits - 1)) (min n (2 ^ (bits - 1) - 1))

/-- The value, and what follows it. -/
def strtol (bits : Nat) (s : List Char) : Int × List Char :=
  let read := readSign (s.dropWhile isSpace)
  let digits := read.2.takeWhile Char.isDigit
  if digits = [] then (0, s)
  else (clamp bits (signed read.1 (Nat.ofDigitChars 10 digits 0)), read.2.dropWhile Char.isDigit)

example : strtol 32 " -99999999999x1".toList = (-2147483648, "x1".toList) := by decide

/-- `%d` -/
def decimal (n : Int) : List Char := (if n < 0 then ['-'] else []) ++ Nat.toDigits 10 n.natAbs

/-! ### Syntax -/

inductive Sign : List Char → Bool → Prop
  | none : Sign [] false
  | plus : Sign ['+'] false
  | minus : Sign ['-'] true

/-- White space, an optional sign, and at least one digit. -/
inductive Numeral : List Char → Int → Prop
  | intro {space sign digits : List Char} {negative : Bool} : (∀ c ∈ space, isSpace c) → Sign sign negative →
      digits ≠ [] → (∀ c ∈ digits, c.isDigit) →
      Numeral (space ++ sign ++ digits) (signed negative (Nat.ofDigitChars 10 digits 0))

/-- A character that no number contains. -/
def Foreign (c : Char) : Prop := isSpace c = false ∧ c ≠ '+' ∧ c ≠ '-' ∧ c.isDigit = false

instance : DecidablePred Foreign := fun _ => inferInstanceAs (Decidable (_ ∧ _))

/-- No number begins or goes on here. -/
def Stops (rest : List Char) : Prop := ∀ c ∈ rest.head?, Foreign c

variable {bits : Nat} {text rest s : List Char} {n : Int}

theorem isSpace_of_isDigit {c : Char} (digit : c.isDigit = true) : isSpace c = false := by
  rw [Char.isDigit, Bool.and_eq_true, decide_eq_true_eq, decide_eq_true_eq] at digit
  have low : 48 ≤ c.toNat := digit.1
  have not_blank : c ≠ ' ' := by
    rintro rfl
    exact absurd low (by decide)
  have not_control : ¬ c.toNat ≤ 13 := by omega
  simp [isSpace, not_blank, not_control]

theorem Numeral.ne_nil (numeral : Numeral text n) : text ≠ [] := by
  obtain ⟨-, -, some_digit, -⟩ := numeral
  exact List.append_ne_nil_of_right_ne_nil _ some_digit

theorem Numeral.not_foreign (numeral : Numeral text n) : ∀ c ∈ text, ¬ Foreign c := by
  obtain ⟨spaces, sign, -, digits⟩ := numeral
  intro c member foreign
  obtain ⟨not_space, not_plus, not_minus, not_digit⟩ := foreign
  simp only [List.mem_append] at member
  rcases member with (space | here) | digit
  · exact absurd (spaces c space) (by simp [not_space])
  · cases sign with
    | none => cases here
    | plus => exact not_plus (List.mem_singleton.mp here)
    | minus => exact not_minus (List.mem_singleton.mp here)
  · exact absurd (digits c digit) (by simp [not_digit])

theorem Numeral.not_mem (numeral : Numeral text n) {c : Char} (foreign : Foreign c) : c ∉ text :=
  fun member => numeral.not_foreign c member foreign

theorem numeral_decimal (n : Int) : Numeral (decimal n) n := by
  have digits : ∀ c ∈ Nat.toDigits 10 n.natAbs, c.isDigit = true :=
    fun c member => Nat.isDigit_of_mem_toDigits (by decide) (by decide) member
  have numeral {sign : List Char} {negative : Bool} (is : Sign sign negative)
      (value : signed negative n.natAbs = n) : Numeral ([] ++ sign ++ Nat.toDigits 10 n.natAbs) n := by
    have read := Numeral.intro (List.forall_mem_nil _) is Nat.toDigits_ne_nil digits
    rwa [Nat.ofDigitChars_ten_toDigits, value] at read
  rw [decimal]
  split
  next neg =>
    apply numeral .minus
    rw [signed, if_pos rfl]
    omega
  next nonneg =>
    apply numeral .none
    rw [signed, if_neg nofun]
    omega

/-! ### What is read -/

theorem takeWhile_whole {p : Char → Bool} (inside : ∀ c ∈ text, p c = true)
    (outside : ∀ c ∈ rest.head?, p c = false) :
    (text ++ rest).takeWhile p = text ∧ (text ++ rest).dropWhile p = rest := by
  rw [List.takeWhile_append_of_pos inside, List.dropWhile_append_of_pos inside]
  cases rest with
  | nil => simp
  | cons c rest => simp [outside c rfl]

theorem readSign_cases (t : List Char) : ∃ sign, Sign sign (readSign t).1 ∧ t = sign ++ (readSign t).2 := by
  unfold readSign
  split
  · exact ⟨_, .minus, rfl⟩
  · exact ⟨_, .plus, rfl⟩
  · exact ⟨_, .none, rfl⟩

theorem readSign_none (absent : ∀ c ∈ rest.head?, c ≠ '+' ∧ c ≠ '-') : readSign rest = (false, rest) := by
  unfold readSign
  split
  · exact absurd rfl (absent _ rfl).2
  · exact absurd rfl (absent _ rfl).1
  · rfl

/-- A number is read as a whole where none goes on. -/
theorem strtol_numeral (numeral : Numeral text n) (stops : ∀ c ∈ rest.head?, c.isDigit = false) :
    strtol bits (text ++ rest) = (clamp bits n, rest) := by
  obtain @⟨space, sign, digits, negative, spaces, is, some_digit, all⟩ := numeral
  obtain ⟨d, ds, rfl⟩ := List.exists_cons_of_ne_nil some_digit
  have first := all d List.mem_cons_self
  have begins : ∀ c ∈ (sign ++ (d :: ds) ++ rest).head?, isSpace c = false := by
    cases is with
    | none =>
      rintro c ⟨⟩
      exact isSpace_of_isDigit first
    | plus | minus =>
      rintro c ⟨⟩
      decide
  -- the white space ends at the sign or at the first digit, and the digits end where the rest begins
  have after_space : (space ++ sign ++ (d :: ds) ++ rest).dropWhile isSpace = sign ++ ((d :: ds) ++ rest) := by
    rw [List.append_assoc space, List.append_assoc space, (takeWhile_whole spaces begins).2, List.append_assoc]
  have after_sign : readSign (sign ++ ((d :: ds) ++ rest)) = (negative, (d :: ds) ++ rest) := by
    cases is with
    | none =>
      apply readSign_none
      rintro c ⟨⟩
      constructor
      · rintro rfl
        exact absurd first (by decide)
      · rintro rfl
        exact absurd first (by decide)
    | plus | minus => rfl
  obtain ⟨taken, left⟩ := takeWhile_whole all stops
  simp only [strtol, after_space, after_sign, taken, left, if_neg some_digit]

/-- Nothing is read where no number begins. -/
theorem strtol_stops (stops : Stops rest) : strtol bits rest = (0, rest) := by
  have after_space : ([] ++ rest).dropWhile isSpace = rest :=
    (takeWhile_whole (List.forall_mem_nil _) fun c head => (stops c head).1).2
  have after_sign := readSign_none fun c head => ⟨(stops c head).2.1, (stops c head).2.2.1⟩
  have no_digit : ([] ++ rest).takeWhile Char.isDigit = [] :=
    (takeWhile_whole (List.forall_mem_nil _) fun c head => (stops c head).2.2.2).1
  rw [List.nil_append] at after_space no_digit
  simp only [strtol, after_space, after_sign, no_digit, if_pos]

/-- What is read is a number, or there is none and the text is left as it was. -/
theorem strtol_cases (bits : Nat) (s : List Char) :
    (∃ text n rest, s = text ++ rest ∧ Numeral text n ∧ strtol bits s = (clamp bits n, rest)) ∨
      strtol bits s = (0, s) := by
  obtain ⟨sign, is, split⟩ := readSign_cases (s.dropWhile isSpace)
  by_cases no_digit : (readSign (s.dropWhile isSpace)).2.takeWhile Char.isDigit = []
  · exact .inr (if_pos no_digit)
  · refine .inl ⟨s.takeWhile isSpace ++ sign ++ (readSign (s.dropWhile isSpace)).2.takeWhile Char.isDigit, _, _, ?_,
      .intro ?_ is no_digit ?_, if_neg no_digit⟩
    · rw [List.append_assoc, List.takeWhile_append_dropWhile, List.append_assoc, ← split,
        List.takeWhile_append_dropWhile]
    · exact fun c member => List.mem_takeWhile_imp member
    · exact fun c member => List.mem_takeWhile_imp member

/-- A value that fits in a narrower type stays as it is. -/
theorem clamp_eq {k : Nat} (narrower : k ≤ bits - 1) (low : -2 ^ k ≤ n) (high : n < 2 ^ k) : clamp bits n = n := by
  have wider : (2 : Int) ^ k ≤ 2 ^ (bits - 1) := by exact_mod_cast Nat.pow_le_pow_right (by decide) narrower
  rw [clamp]
  omega

end Hima.Strtol
