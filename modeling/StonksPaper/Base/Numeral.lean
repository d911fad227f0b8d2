import Mathlib.Algebra.Order.Field.Power
import Mathlib.Data.Nat.Digits.Lemmas
import Mathlib.Data.Rat.Cast.Order
import Mathlib.Tactic.FieldSimp
import Mathlib.Tactic.Linarith
import Mathlib.Tactic.Ring

/-!
# Decimal numerals

A finite decimal is a sign, a coefficient and an exponent of ten. It is read from a numeric text and
written in positional notation, which shows no exponent. Writing keeps the value, but a positive
exponent turns into digits of the coefficient.
-/

/-- A finite decimal. -/
structure Numeral where
  negative : Bool
  coefficient : ℕ
  exponent : ℤ
deriving DecidableEq, Repr

namespace Numeral

/-! ## Digits -/

/-- The number that digits stand for, the most significant first. -/
def valueOf (digits : List Char) : ℕ := digits.foldl (fun n c => 10 * n + (c.toNat - 48)) 0

/-- The digits of a number, the most significant first. -/
def digitsOf (n : ℕ) : List Char :=
  if n = 0 then ['0'] else ((Nat.digits 10 n).map Nat.digitChar).reverse

theorem foldl_value (digits : List Char) (n : ℕ) :
    digits.foldl (fun n c => 10 * n + (c.toNat - 48)) n =
      n * 10 ^ digits.length + valueOf digits := by
  induction digits generalizing n with
  | nil => simp [valueOf]
  | cons c digits ih =>
      have hvalue : valueOf (c :: digits) =
          (c.toNat - 48) * 10 ^ digits.length + valueOf digits := by
        rw [valueOf, List.foldl_cons, ih]
        simp
      rw [List.foldl_cons, ih, hvalue, List.length_cons, pow_succ]
      ring

theorem valueOf_append (xs ys : List Char) :
    valueOf (xs ++ ys) = valueOf xs * 10 ^ ys.length + valueOf ys := by
  rw [valueOf, List.foldl_append, foldl_value, ← valueOf]

@[simp] theorem valueOf_replicate_zero (n : ℕ) : valueOf (List.replicate n '0') = 0 := by
  induction n with
  | zero => rfl
  | succ n ih =>
      rw [List.replicate_succ', valueOf_append, ih]
      rfl

theorem toNat_digitChar {d : ℕ} (h : d < 10) : (Nat.digitChar d).toNat = 48 + d := by
  interval_cases d <;> rfl

theorem isDigit_digitChar {d : ℕ} (h : d < 10) : (Nat.digitChar d).isDigit = true := by
  interval_cases d <;> rfl

theorem valueOf_reverse_map {digits : List ℕ} (h : ∀ d ∈ digits, d < 10) :
    valueOf (digits.map Nat.digitChar).reverse = Nat.ofDigits 10 digits := by
  induction digits with
  | nil => rfl
  | cons d digits ih =>
      have hd := toNat_digitChar (h d List.mem_cons_self)
      have hone : valueOf [Nat.digitChar d] = d := by
        simp only [valueOf, List.foldl_cons, List.foldl_nil, hd]
        omega
      rw [List.map_cons, List.reverse_cons, valueOf_append, hone, Nat.ofDigits_cons,
        ih fun e he => h e (List.mem_cons_of_mem _ he), List.length_singleton, pow_one]
      ring

@[simp] theorem valueOf_digitsOf (n : ℕ) : valueOf (digitsOf n) = n := by
  unfold digitsOf
  split
  · subst_vars
    rfl
  · rw [valueOf_reverse_map fun d hd => Nat.digits_lt_base (by norm_num) hd, Nat.ofDigits_digits]

theorem isDigit_of_mem_digitsOf {n : ℕ} {c : Char} (h : c ∈ digitsOf n) : c.isDigit = true := by
  unfold digitsOf at h
  split at h
  · obtain rfl := List.mem_singleton.mp h
    rfl
  · obtain ⟨d, hd, rfl⟩ := List.mem_map.mp (List.mem_reverse.mp h)
    exact isDigit_digitChar (Nat.digits_lt_base (by norm_num) hd)

theorem digitsOf_ne_nil (n : ℕ) : digitsOf n ≠ [] := by
  unfold digitsOf
  split
  · simp
  · simpa [Nat.digits_ne_nil_iff_ne_zero] using ‹n ≠ 0›

/-- The digits of a positive number do not begin with zero. -/
theorem head?_digitsOf {n : ℕ} (hn : n ≠ 0) {c : Char} (h : (digitsOf n).head? = some c) :
    c ≠ '0' := by
  rw [digitsOf, if_neg hn, List.head?_reverse, List.getLast?_map] at h
  obtain ⟨d, hd, rfl⟩ := Option.map_eq_some_iff.mp h
  have hmem := List.mem_of_getLast? hd
  have hlt : d < 10 := Nat.digits_lt_base (by norm_num) hmem
  have hne : d ≠ 0 := by
    have hlast := Nat.getLast_digit_ne_zero 10 hn
    rw [List.getLast?_eq_some_getLast (Nat.digits_ne_nil_iff_ne_zero.mpr hn)] at hd
    rwa [Option.some.inj hd] at hlast
  intro hzero
  have htoNat := congrArg Char.toNat hzero
  rw [toNat_digitChar hlt] at htoNat
  have h48 : Char.toNat '0' = 48 := rfl
  omega

theorem length_digitsOf_le {n k : ℕ} (hk : 1 ≤ k) : (digitsOf n).length ≤ k ↔ n < 10 ^ k := by
  unfold digitsOf
  split
  · subst_vars
    simpa using hk
  · rw [List.length_reverse, List.length_map, Nat.digits_length_le_iff (by norm_num)]

/-! ## Values -/

def value (d : Numeral) : ℚ :=
  (if d.negative then -1 else 1) * (d.coefficient * (10 : ℚ) ^ d.exponent)

/-- `len(d.as_tuple().digits)`. -/
def digitCount (d : Numeral) : ℕ := (digitsOf d.coefficient).length

/-- The exponent of the first digit. -/
def adjusted (d : Numeral) : ℤ := d.exponent + d.digitCount - 1

theorem abs_value (d : Numeral) : |d.value| = d.coefficient * (10 : ℚ) ^ d.exponent := by
  have hpow : (0 : ℚ) ≤ d.coefficient * (10 : ℚ) ^ d.exponent := by positivity
  unfold value
  split
  · rw [neg_one_mul, abs_neg, abs_of_nonneg hpow]
  · rw [one_mul, abs_of_nonneg hpow]

/-- The exponent of the first digit tells the power of ten that the value is below. -/
theorem abs_value_lt_iff {d : Numeral} (hd : d.coefficient ≠ 0) {k : ℤ} :
    |d.value| < 10 ^ k ↔ d.adjusted < k := by
  have hten : (1 : ℚ) < 10 := by norm_num
  have hsplit : (10 : ℚ) ^ k = 10 ^ (k - d.exponent) * 10 ^ d.exponent := by
    rw [← zpow_add₀ (by norm_num), sub_add_cancel]
  have hpos : (0 : ℚ) < 10 ^ d.exponent := zpow_pos (by norm_num) _
  rw [abs_value, hsplit, mul_lt_mul_iff_left₀ hpos]
  unfold adjusted digitCount
  have hlength : 1 ≤ (digitsOf d.coefficient).length :=
    List.length_pos_iff.mpr (digitsOf_ne_nil _)
  rcases lt_or_ge 0 (k - d.exponent) with hk | hk
  · obtain ⟨n, hn⟩ := Int.eq_ofNat_of_zero_le hk.le
    have hiff := length_digitsOf_le (n := d.coefficient) (k := n) (by omega)
    rw [hn, zpow_natCast, ← Nat.cast_ofNat, ← Nat.cast_pow, Nat.cast_lt, ← hiff]
    omega
  · have hle : (10 : ℚ) ^ (k - d.exponent) ≤ 1 := zpow_le_one_of_nonpos₀ hten.le hk
    have hone : (1 : ℚ) ≤ d.coefficient := by exact_mod_cast Nat.one_le_iff_ne_zero.mpr hd
    constructor
    · intro h
      linarith
    · intro h
      omega

/-! ## Texts -/

/-- Takes a sign off. -/
def splitSign : List Char → Bool × List Char
  | '-' :: rest => (true, rest)
  | '+' :: rest => (false, rest)
  | rest => (false, rest)

/-- The digits at the start, and what follows them. -/
def splitDigits (text : List Char) : List Char × List Char :=
  (text.takeWhile Char.isDigit, text.dropWhile Char.isDigit)

/-- The digits after a point, if there is one, and what follows them. -/
def splitFraction : List Char → List Char × List Char
  | '.' :: rest => splitDigits rest
  | rest => ([], rest)

/-- The exponent of the remaining text: none at its end. -/
def exponentOf : List Char → Option ℤ
  | [] => some 0
  | e :: rest =>
      let (negative, digits) := splitSign rest
      if (e = 'e' ∨ e = 'E') ∧ digits ≠ [] ∧ digits.all Char.isDigit then
        some ((if negative then -1 else 1) * valueOf digits)
      else none

/-- A numeric text. -/
def parse (text : List Char) : Option Numeral :=
  let (negative, unsigned) := splitSign text
  let (int, rest) := splitDigits unsigned
  let (frac, rest) := splitFraction rest
  if int = [] ∧ frac = [] then none
  else (exponentOf rest).map fun exponent =>
    ⟨negative, valueOf (int ++ frac), exponent - frac.length⟩

/-- The text of a sign, of digits and of a fraction, which is left out when it has none. -/
def textOf (negative : Bool) (int frac : List Char) : List Char :=
  (if negative then ['-'] else []) ++ int ++ (if frac = [] then [] else '.' :: frac)

/-- The digits before and after the point in positional notation. -/
def intDigits (d : Numeral) : List Char :=
  if 0 ≤ d.exponent then
    if d.coefficient = 0 then ['0']
    else digitsOf d.coefficient ++ List.replicate d.exponent.toNat '0'
  else
    let digits := digitsOf d.coefficient
    let places := (-d.exponent).toNat
    if places < digits.length then digits.take (digits.length - places) else ['0']

def fracDigits (d : Numeral) : List Char :=
  if 0 ≤ d.exponent then []
  else
    let digits := digitsOf d.coefficient
    let places := (-d.exponent).toNat
    if places < digits.length then digits.drop (digits.length - places)
    else List.replicate (places - digits.length) '0' ++ digits

/-- Positional notation. -/
def positional (d : Numeral) : List Char := textOf d.negative d.intDigits d.fracDigits

/-- What the positional text is read as. -/
def expanded (d : Numeral) : Numeral where
  negative := d.negative
  coefficient := if 0 ≤ d.exponent then d.coefficient * 10 ^ d.exponent.toNat else d.coefficient
  exponent := min d.exponent 0

section

variable {d : Numeral}

theorem splitSign_textOf {negative : Bool} {int frac : List Char} (hint : int ≠ [])
    (hdigits : int.all Char.isDigit = true) :
    splitSign (textOf negative int frac) = (negative, textOf false int frac) := by
  cases negative with
  | true => rfl
  | false =>
      obtain ⟨c, rest, rfl⟩ := List.exists_cons_of_ne_nil hint
      have hc : c.isDigit = true := (List.all_eq_true.mp hdigits) c List.mem_cons_self
      show splitSign (c :: _) = _
      unfold splitSign
      split
      · rename_i heq
        obtain rfl := (List.cons.inj heq).1
        exact absurd hc (by decide)
      · rename_i heq
        obtain rfl := (List.cons.inj heq).1
        exact absurd hc (by decide)
      · rfl

theorem splitDigits_append {digits rest : List Char} (hdigits : digits.all Char.isDigit = true)
    (hrest : ∀ c, rest.head? = some c → c.isDigit = false) :
    splitDigits (digits ++ rest) = (digits, rest) := by
  have hall : ∀ c ∈ digits, c.isDigit = true := List.all_eq_true.mp hdigits
  have htake : rest.takeWhile Char.isDigit = [] ∧ rest.dropWhile Char.isDigit = rest := by
    cases rest with
    | nil => exact ⟨rfl, rfl⟩
    | cons c rest =>
        have hc := hrest c rfl
        exact ⟨List.takeWhile_cons_of_neg (by simp [hc]), List.dropWhile_cons_of_neg (by simp [hc])⟩
  rw [splitDigits, List.takeWhile_append_of_pos hall, List.dropWhile_append_of_pos hall, htake.1,
    htake.2, List.append_nil]

/-- A text of a sign, digits and a fraction is read back. -/
theorem parse_textOf {negative : Bool} {int frac : List Char} (hint : int ≠ [])
    (hdigits : int.all Char.isDigit = true) (hfrac : frac.all Char.isDigit = true) :
    parse (textOf negative int frac) =
      some ⟨negative, valueOf (int ++ frac), -(frac.length : ℤ)⟩ := by
  have hint' : splitDigits (textOf false int frac) =
      (int, if frac = [] then [] else '.' :: frac) := by
    refine splitDigits_append hdigits fun c hc => ?_
    split at hc
    · cases hc
    · obtain rfl := Option.some.inj hc
      decide
  have hfrac' : splitFraction (if frac = [] then [] else '.' :: frac) = (frac, []) := by
    split
    · subst_vars
      rfl
    · have hsplit := @splitDigits_append _ [] hfrac (by simp)
      rwa [List.append_nil] at hsplit
  simp [parse, splitSign_textOf hint hdigits, hint', hfrac', hint, exponentOf]

theorem all_isDigit_digitsOf (n : ℕ) : (digitsOf n).all Char.isDigit = true :=
  List.all_eq_true.mpr fun _ h => isDigit_of_mem_digitsOf h

theorem all_isDigit_replicate (n : ℕ) : (List.replicate n '0').all Char.isDigit = true :=
  List.all_eq_true.mpr fun _ h => by
    rw [List.eq_of_mem_replicate h]
    decide

theorem isDigit_intDigits : d.intDigits.all Char.isDigit = true := by
  have hdigits := all_isDigit_digitsOf d.coefficient
  unfold intDigits
  split
  · split
    · rfl
    · rw [List.all_append, hdigits, all_isDigit_replicate]
      rfl
  · dsimp only
    split
    · exact List.all_eq_true.mpr fun c hc =>
        List.all_eq_true.mp hdigits c (List.mem_of_mem_take hc)
    · rfl

theorem isDigit_fracDigits : d.fracDigits.all Char.isDigit = true := by
  have hdigits := all_isDigit_digitsOf d.coefficient
  unfold fracDigits
  split
  · rfl
  · dsimp only
    split
    · exact List.all_eq_true.mpr fun c hc =>
        List.all_eq_true.mp hdigits c (List.mem_of_mem_drop hc)
    · rw [List.all_append, hdigits, all_isDigit_replicate]
      rfl

/-- The digits before the point are a zero alone or do not begin with one. -/
theorem intDigits_leading : d.intDigits = ['0'] ∨ ∃ c, d.intDigits.head? = some c ∧ c ≠ '0' := by
  unfold intDigits
  split
  · split
    · exact Or.inl rfl
    · rename_i hne
      obtain ⟨c, rest, hc⟩ := List.exists_cons_of_ne_nil (digitsOf_ne_nil d.coefficient)
      have hhead : (digitsOf d.coefficient).head? = some c := by rw [hc]; rfl
      exact Or.inr ⟨c, by rw [hc]; rfl, head?_digitsOf hne hhead⟩
  · dsimp only
    split
    · rename_i hexp hlong
      obtain ⟨c, rest, hc⟩ := List.exists_cons_of_ne_nil (digitsOf_ne_nil d.coefficient)
      have hhead : (digitsOf d.coefficient).head? = some c := by rw [hc]; rfl
      by_cases hzero : d.coefficient = 0
      · rw [hzero] at hlong
        have hone : (digitsOf 0).length = 1 := rfl
        omega
      · refine Or.inr ⟨c, ?_, head?_digitsOf hzero hhead⟩
        rw [List.head?_take, if_neg (by omega), hhead]
    · exact Or.inl rfl

theorem intDigits_ne_nil : d.intDigits ≠ [] := by
  rcases intDigits_leading (d := d) with h | ⟨c, h, -⟩
  · simp [h]
  · intro hnil
    rw [hnil] at h
    cases h

theorem length_fracDigits : (d.fracDigits.length : ℤ) = -min d.exponent 0 := by
  unfold fracDigits
  split
  · simp
    omega
  · dsimp only
    split
    · rw [List.length_drop]
      omega
    · rw [List.length_append, List.length_replicate]
      omega

theorem valueOf_digits : valueOf (d.intDigits ++ d.fracDigits) = d.expanded.coefficient := by
  unfold intDigits fracDigits expanded
  by_cases hexp : 0 ≤ d.exponent
  · simp only [if_pos hexp, List.append_nil]
    split
    · rename_i hzero
      rw [hzero, zero_mul]
      rfl
    · rw [valueOf_append, valueOf_digitsOf, valueOf_replicate_zero, List.length_replicate, add_zero]
  · simp only [if_neg hexp]
    split
    · rw [List.take_append_drop, valueOf_digitsOf]
    · rw [valueOf_append, valueOf_append, valueOf_digitsOf, valueOf_replicate_zero]
      simp [valueOf]

theorem parse_positional : parse d.positional = some d.expanded := by
  rw [positional, parse_textOf intDigits_ne_nil isDigit_intDigits isDigit_fracDigits,
    length_fracDigits, valueOf_digits, neg_neg]
  rfl

theorem value_expanded : d.expanded.value = d.value := by
  have hterm : (d.expanded.coefficient : ℚ) * 10 ^ d.expanded.exponent =
      d.coefficient * 10 ^ d.exponent := by
    by_cases hexp : 0 ≤ d.exponent
    · obtain ⟨n, hn⟩ := Int.eq_ofNat_of_zero_le hexp
      simp [expanded, hn]
    · simp [expanded, hexp, min_eq_left (not_le.mp hexp).le]
  rw [value, value, hterm]
  rfl

end

end Numeral
