import StonksPaper.Base.Numeral
import StonksPaper.Domain.Common

/-!
# Decimals on the wire

`_parse_decimal`, `_serialize_decimal` and `DECIMAL_SCHEMA` of `common.py`. The bounds count the
digits of the notation that was read; the positional notation that is written can have one more.
-/

namespace StonksPaper

/-- A value of `decimal.Decimal`. -/
inductive PyDecimal where
  | finite (number : Numeral)
  | infinite
  | nan
deriving DecidableEq, Repr

/-- An input of `_parse_decimal`. -/
inductive WireValue where
  | text (value : String)
  | decimal (value : PyDecimal)
  | other
deriving DecidableEq, Repr

/-- The bounds of `_parse_decimal`. -/
def WithinBounds (number : Numeral) : Prop :=
  number.digitCount ≤ 64 ∧ |number.exponent| ≤ 64 ∧ |number.adjusted| ≤ 64

instance (number : Numeral) : Decidable (WithinBounds number) := inferInstanceAs (Decidable (_ ∧ _))

/-- A decimal that `_parse_decimal` has accepted. -/
structure DecimalString where
  number : Numeral
  bounded : WithinBounds number
deriving DecidableEq

def DecimalString.value (self : DecimalString) : Decimal := self.number.value

/-- `str.isspace` of a character. -/
def isSpace (c : Char) : Bool :=
  let n := c.toNat
  (9 ≤ n && n ≤ 13) || (28 ≤ n && n ≤ 32) || n == 133 || n == 160 || n == 5760 ||
    (8192 ≤ n && n ≤ 8202) || n == 8232 || n == 8233 || n == 8239 || n == 8287 || n == 12288

/-- Whether `strip` changes a text. -/
def isSurrounded (text : List Char) : Bool :=
  text.head?.any isSpace || text.getLast?.any isSpace

/-- The names of infinity and of the values that are no number, without their sign. -/
def special (text : List Char) : Option PyDecimal :=
  let name := text.map Char.toLower
  let payload := name.dropWhile fun c => !c.isDigit
  if name = "inf".toList ∨ name = "infinity".toList then some .infinite
  else if payload.all Char.isDigit ∧
      (name = "nan".toList ++ payload ∨ name = "snan".toList ++ payload) then some .nan
  else none

/-- `Decimal(text)`; the digits are those of ASCII. -/
def decimalOf (text : String) : Option PyDecimal :=
  let text := text.toList.filter (· ≠ '_')
  ((Numeral.parse text).map .finite).or (special (Numeral.splitSign text).2)

/-- `parsed` of `_parse_decimal`. -/
def constructDecimal : WireValue → Call PyDecimal
  | .other => .raised (.valueError "Decimal input must be a string or Decimal")
  | .decimal value => .success value
  | .text value => do
      raiseUnless (value ≠ "" ∧ isSurrounded value.toList = false)
        "Decimal string must be non-empty and contain no surrounding whitespace"
      match decimalOf value with
      | none => .raised (.valueError "Decimal input is invalid")
      | some parsed => return parsed

/-- The checks of `_parse_decimal` on what it has parsed. -/
def requireWithinBounds : PyDecimal → Call DecimalString
  | .infinite => .raised (.valueError "Decimal input must be finite")
  | .nan => .raised (.valueError "Decimal input must be finite")
  | .finite number =>
      if h : WithinBounds number then .success ⟨number, h⟩
      else .raised (.valueError "Decimal input exceeds supported bounds")

def parseDecimal (value : WireValue) : Call DecimalString :=
  constructDecimal value >>= requireWithinBounds

/-- `format(value, "f")`. -/
def serializeDecimal (value : DecimalString) : String := String.ofList value.number.positional

/-- `(?:[eE][+-]?[0-9]+)?$`. -/
def matchesExponent : List Char → Bool
  | [] => true
  | e :: rest =>
      let digits := (Numeral.splitSign rest).2
      (e = 'e' ∨ e = 'E') && !digits.isEmpty && digits.all Char.isDigit

/-- `(?:\\.[0-9]+)?`, and then the exponent. -/
def matchesFraction : List Char → Bool
  | '.' :: rest =>
      let (digits, rest) := Numeral.splitDigits rest
      !digits.isEmpty && matchesExponent rest
  | rest => matchesExponent rest

/-- The pattern of `DECIMAL_SCHEMA`. -/
def matchesSchema (text : String) : Bool :=
  let unsigned := if text.toList.head? = some '-' then text.toList.tail else text.toList
  let (int, rest) := Numeral.splitDigits unsigned
  (int = ['0'] || int.head?.any (· ≠ '0')) && matchesFraction rest

/-! ## The round trip -/

section

variable {number : Numeral} {value : DecimalString}

theorem requireWithinBounds_eq_success :
    requireWithinBounds (.finite number) = .success value ↔ value.number = number := by
  simp only [requireWithinBounds]
  split
  · rw [Attempt.success.injEq]
    constructor
    · rintro rfl
      rfl
    · rintro rfl
      rfl
  · rename_i hnot
    constructor
    · intro h
      cases h
    · rintro rfl
      exact absurd value.bounded hnot

theorem parseDecimal_finite_iff :
    parseDecimal (.decimal (.finite number)) = .success value ↔ value.number = number :=
  requireWithinBounds_eq_success

theorem not_isSpace_of_isDigit {c : Char} (h : c.isDigit = true) : isSpace c = false := by
  simp only [Char.isDigit, Bool.and_eq_true, decide_eq_true_eq, ge_iff_le, UInt32.le_iff_toNat_le]
    at h
  have hlow : 48 ≤ c.toNat := h.1
  have hhigh : c.toNat ≤ 57 := h.2
  have hcases : ∀ n : ℕ, 48 ≤ n → n ≤ 57 → ((9 ≤ n && n ≤ 13) || (28 ≤ n && n ≤ 32) || n == 133 ||
      n == 160 || n == 5760 || (8192 ≤ n && n ≤ 8202) || n == 8232 || n == 8233 || n == 8239 ||
      n == 8287 || n == 12288) = false := by
    intro n h48 h57
    interval_cases n <;> rfl
  exact hcases c.toNat hlow hhigh

theorem not_underscore_of_isDigit {c : Char} (h : c.isDigit = true) : c ≠ '_' := by
  rintro rfl
  exact absurd h (by decide)

/-- The characters of a positional text, and those at its ends. -/
theorem mem_positional {c : Char} (h : c ∈ number.positional) :
    c = '-' ∨ c = '.' ∨ c.isDigit = true := by
  have hint := List.all_eq_true.mp (Numeral.isDigit_intDigits (d := number))
  have hfrac := List.all_eq_true.mp (Numeral.isDigit_fracDigits (d := number))
  simp only [Numeral.positional, Numeral.textOf, List.mem_append] at h
  rcases h with (h | h) | h
  · split at h
    · exact Or.inl (List.mem_singleton.mp h)
    · cases h
  · exact Or.inr (Or.inr (hint c h))
  · split at h
    · cases h
    · rcases List.mem_cons.mp h with rfl | h
      · exact Or.inr (Or.inl rfl)
      · exact Or.inr (Or.inr (hfrac c h))

theorem not_isSpace_of_mem {c : Char} (h : c ∈ number.positional) : isSpace c = false := by
  rcases mem_positional h with rfl | rfl | h
  · decide
  · decide
  · exact not_isSpace_of_isDigit h

theorem positional_ne_nil : number.positional ≠ [] := by
  have hint := Numeral.intDigits_ne_nil (d := number)
  simp [Numeral.positional, Numeral.textOf, hint]

theorem decimalOf_serialize :
    decimalOf (serializeDecimal value) = some (.finite value.number.expanded) := by
  have hfilter : value.number.positional.filter (· ≠ '_') = value.number.positional := by
    refine List.filter_eq_self.mpr fun c hc => ?_
    rcases mem_positional hc with rfl | rfl | h
    · decide
    · decide
    · simpa using not_underscore_of_isDigit h
  rw [decimalOf, serializeDecimal, String.toList_ofList]
  simp only [hfilter, Numeral.parse_positional]
  rfl

theorem constructDecimal_serialize : constructDecimal (.text (serializeDecimal value)) =
    .success (.finite value.number.expanded) := by
  have hne : serializeDecimal value ≠ "" := by
    intro h
    have hlist := congrArg String.toList h
    rw [serializeDecimal, String.toList_ofList] at hlist
    exact positional_ne_nil hlist
  have hends : isSurrounded (serializeDecimal value).toList = false := by
    rw [serializeDecimal, String.toList_ofList, isSurrounded, Bool.or_eq_false_iff]
    constructor
    · cases hhead : value.number.positional.head? with
      | none => rfl
      | some c => exact not_isSpace_of_mem (List.mem_of_head? hhead)
    · cases hlast : value.number.positional.getLast? with
      | none => rfl
      | some c => exact not_isSpace_of_mem (List.mem_of_getLast? hlast)
  rw [constructDecimal, raiseUnless_of ⟨hne, hends⟩, Attempt.success_bind, decimalOf_serialize]
  rfl

/-- The text that is written matches the published pattern. -/
theorem matchesSchema_serialize : matchesSchema (serializeDecimal value) = true := by
  have hint := Numeral.isDigit_intDigits (d := value.number)
  have hfrac := Numeral.isDigit_fracDigits (d := value.number)
  have hunsigned : (if value.number.positional.head? = some '-' then value.number.positional.tail
      else value.number.positional) =
      value.number.intDigits ++
        if value.number.fracDigits = [] then [] else '.' :: value.number.fracDigits := by
    unfold Numeral.positional Numeral.textOf
    cases hsign : value.number.negative with
    | true => rfl
    | false =>
        obtain ⟨c, rest, hc⟩ := List.exists_cons_of_ne_nil
          (Numeral.intDigits_ne_nil (d := value.number))
        have hdigit := List.all_eq_true.mp hint c (by rw [hc]; exact List.mem_cons_self)
        have hne : c ≠ '-' := by
          rintro rfl
          exact absurd hdigit (by decide)
        simp [hc, hne]
  have hsplit : Numeral.splitDigits (value.number.intDigits ++
      if value.number.fracDigits = [] then [] else '.' :: value.number.fracDigits) =
      (value.number.intDigits,
        if value.number.fracDigits = [] then [] else '.' :: value.number.fracDigits) := by
    refine Numeral.splitDigits_append hint fun c hc => ?_
    split at hc
    · cases hc
    · obtain rfl := Option.some.inj hc
      decide
  have hleading : (value.number.intDigits = ['0'] ||
      value.number.intDigits.head?.any (· ≠ '0')) = true := by
    rcases Numeral.intDigits_leading (d := value.number) with h | ⟨c, hc, hne⟩
    · simp [h]
    · rw [Option.mem_def.mp hc]
      simp [hne]
  have hfraction : matchesFraction
      (if value.number.fracDigits = [] then [] else '.' :: value.number.fracDigits) = true := by
    split
    · rfl
    · rename_i hne
      have hall := @Numeral.splitDigits_append _ [] hfrac (by simp)
      rw [List.append_nil] at hall
      simp [matchesFraction, hall, hne, matchesExponent]
  rw [matchesSchema, serializeDecimal, String.toList_ofList]
  simp only [hunsigned, hsplit, hfraction, hleading, Bool.and_self]

/-- The bounds hold of the positional notation exactly when it has at most 64 digits. -/
theorem withinBounds_expanded_iff (h : WithinBounds number) :
    WithinBounds number.expanded ↔ |number.value| < 10 ^ 64 := by
  have hpow : (10 : ℚ) ^ 64 = 10 ^ (64 : ℤ) := rfl
  obtain ⟨hcount, hexponent, hadjusted⟩ := h
  rw [hpow]
  by_cases hzero : number.coefficient = 0
  · have hvalue : |number.value| = 0 := by rw [Numeral.abs_value, hzero]; simp
    have hpositive : (0 : ℚ) < 10 ^ (64 : ℤ) := by positivity
    rw [hvalue]
    refine iff_of_true ?_ hpositive
    have hcoefficient : number.expanded.coefficient = 0 := by
      simp [Numeral.expanded, hzero]
    have hdigits : number.expanded.digitCount = 1 := by
      rw [Numeral.digitCount, hcoefficient]
      rfl
    rw [abs_le] at hexponent
    have hexp : number.expanded.exponent = min number.exponent 0 := rfl
    unfold WithinBounds Numeral.adjusted
    rw [hdigits, hexp, abs_le, abs_le]
    omega
  · have hpositive : 1 ≤ number.digitCount :=
      List.length_pos_iff.mpr (Numeral.digitsOf_ne_nil _)
    rw [abs_le] at hexponent hadjusted
    by_cases hexp : 0 ≤ number.exponent
    · have hcoefficient : number.expanded.coefficient ≠ 0 := by
        simp [Numeral.expanded, hexp, hzero]
      have hzero' : number.expanded.exponent = 0 := min_eq_right hexp
      have hcount' : 1 ≤ number.expanded.digitCount :=
        List.length_pos_iff.mpr (Numeral.digitsOf_ne_nil _)
      rw [← Numeral.value_expanded, Numeral.abs_value_lt_iff hcoefficient]
      unfold WithinBounds Numeral.adjusted
      rw [hzero', abs_le, abs_le]
      omega
    · have hsame : number.expanded = number := by
        simp [Numeral.expanded, hexp, min_eq_left (not_le.mp hexp).le]
      rw [hsame, Numeral.abs_value_lt_iff hzero]
      unfold WithinBounds
      rw [abs_le, abs_le]
      have hadjust : number.adjusted = number.exponent + number.digitCount - 1 := rfl
      omega

/-- A decimal that was accepted survives its own text exactly below the 64th power of ten; its text
always matches the pattern. -/
theorem roundTrip_iff (h : parseDecimal (.decimal (.finite number)) = .success value) :
    ((∃ back, parseDecimal (.text (serializeDecimal value)) = .success back ∧
        back.value = number.value) ∧ matchesSchema (serializeDecimal value) = true) ↔
      |number.value| < 10 ^ 64 := by
  obtain rfl := parseDecimal_finite_iff.mp h
  rw [← withinBounds_expanded_iff value.bounded, parseDecimal, constructDecimal_serialize,
    Attempt.success_bind]
  constructor
  · rintro ⟨⟨back, hback, -⟩, -⟩
    rw [← requireWithinBounds_eq_success.mp hback]
    exact back.bounded
  · intro hbounds
    refine ⟨⟨⟨value.number.expanded, hbounds⟩, requireWithinBounds_eq_success.mpr rfl, ?_⟩,
      matchesSchema_serialize⟩
    exact Numeral.value_expanded

end

/-! ## A decimal of 65 digits -/

theorem roundTrip_iff_one : ((∃ back, parseDecimal (.text "1") = .success back ∧
    back.value = (⟨false, 1, 0⟩ : Numeral).value) ∧ matchesSchema "1" = true) ↔
      |(⟨false, 1, 0⟩ : Numeral).value| < 10 ^ 64 :=
  roundTrip_iff (show parseDecimal (.decimal (.finite ⟨false, 1, 0⟩)) =
    .success ⟨⟨false, 1, 0⟩, by decide +kernel⟩ by decide +kernel)

/-- `Decimal("1E+64")` is accepted, and the text that is written for it is refused. -/
theorem not_roundTrip : ∃ value, parseDecimal (.text "1E+64") = .success value ∧
    parseDecimal (.text (serializeDecimal value)) =
      .raised (.valueError "Decimal input exceeds supported bounds") :=
  ⟨⟨⟨false, 1, 64⟩, by decide +kernel⟩, by decide +kernel, by decide +kernel⟩

end StonksPaper
