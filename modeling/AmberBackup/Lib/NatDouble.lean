import Mathlib.Data.Nat.Digits.Lemmas
import Mathlib.Tactic.Common

/-! # Natural numbers as doubles

A double stands for a natural number exactly up to 53 bits; a larger number is rounded to the
nearest one with 53 significant bits, and beyond the range there is only infinity. The text of a
double has as few digits as read back to it: zeros take the place of the others, and from
`10 ^ 21` on there is an exponent. Below `2 ^ 53` a double and its text are those of the number
(`NatDouble.ofNat_of_lt`, `NatDouble.text_of_lt`).
-/

/-- A double without sign and fraction. -/
inductive NatDouble where
  | finite (number : Nat)
  | infinity
  deriving DecidableEq, Repr

namespace NatDouble

/-- The multiples of a unit next to the number; at equal distances the even multiple. -/
def nearest (number unit : Nat) : Nat :=
  let quotient := number / unit
  let rest := number % unit
  if unit < 2 * rest || (unit = 2 * rest && quotient % 2 = 1) then (quotient + 1) * unit
  else quotient * unit

/-- The double next to a number. -/
def ofNat (number : Nat) : NatDouble :=
  if number < 2 ^ 53 then .finite number
  else
    let rounded := nearest number (2 ^ (number.log2 - 52))
    if rounded < 2 ^ 1024 then .finite rounded else .infinity

/-- `Math.max`. -/
def max : NatDouble → NatDouble → NatDouble
  | .finite number, .finite other => .finite (Nat.max number other)
  | _, _ => .infinity

/-- The greatest of the doubles next to the numbers, and of one to begin with. -/
def greatest (start : NatDouble) (numbers : List Nat) : NatDouble :=
  numbers.foldl (fun greatest number => NatDouble.max greatest (ofNat number)) start

/-- `x + y`. -/
def add : NatDouble → NatDouble → NatDouble
  | .finite number, .finite other => ofNat (number + other)
  | _, _ => .infinity

/-- The doubles added up one after the other. -/
def sum (doubles : List NatDouble) : NatDouble := doubles.foldl add (.finite 0)

/-- `x + 1`. -/
def succ : NatDouble → NatDouble
  | .finite number => ofNat (number + 1)
  | .infinity => .infinity

/-- The number nearest to a double that is a multiple of the unit, if it reads back to the
double. -/
def rounded (number unit : Nat) : Option Nat :=
  let lower := number / unit * unit
  let candidates := [nearest number unit, lower, lower + unit]
  candidates.find? fun candidate => ofNat candidate = .finite number

/-- The number with the fewest digits that reads back to the double, if its unit is at most the
given power of ten. -/
def shortest (number : Nat) : Nat → Nat
  | 0 => number
  | places + 1 => (rounded number (10 ^ (places + 1))).getD (shortest number places)

/-- The digits of a number with an exponent. -/
def exponentText (digits : List Char) : List Char :=
  let fraction := (digits.tail.reverse.dropWhile (· = '0')).reverse
  digits.take 1 ++ (if fraction = [] then [] else '.' :: fraction) ++
    ['e', '+'] ++ Nat.toDigits 10 (digits.length - 1)

/-- `String(x)`. -/
def text : NatDouble → List Char
  | .finite number =>
      let digits := Nat.toDigits 10 (shortest number (Nat.toDigits 10 number).length)
      if digits.length ≤ 21 then digits else exponentText digits
  | .infinity => "Infinity".toList

example : [2 ^ 53 - 1, 2 ^ 53 + 1, 2 ^ 60, 10 ^ 21 - 1, 123 * 10 ^ 21].map (fun number =>
      String.ofList (ofNat number).text) =
    ["9007199254740991", "9007199254740992", "1152921504606847000", "1e+21", "1.23e+23"] := by
  decide +kernel

variable {number result unit : Nat}

theorem ofNat_of_lt (small : number < 2 ^ 53) : ofNat number = .finite number := if_pos small

theorem ofNat_of_le (small : number ≤ 2 ^ 53) : ofNat number = .finite number := by
  rcases Nat.lt_or_eq_of_le small with less | rfl
  · exact ofNat_of_lt less
  · decide +kernel

/-- A sum is exact as long as it is. -/
theorem sum_of_le {numbers : List Nat} (small : numbers.sum ≤ 2 ^ 53) :
    sum (numbers.map ofNat) = .finite numbers.sum := by
  have steps : ∀ (numbers : List Nat) (start : Nat), start + numbers.sum ≤ 2 ^ 53 →
      (numbers.map ofNat).foldl add (.finite start) = .finite (start + numbers.sum) := by
    intro numbers
    induction numbers with
    | nil => exact fun _ _ => rfl
    | cons number rest ih =>
        intro start fits
        rw [List.sum_cons] at fits ⊢
        rw [List.map_cons, List.foldl_cons, ofNat_of_le (by omega), add, ofNat_of_le (by omega),
          ih (start + number) (by omega), Nat.add_assoc]
  have whole := steps numbers 0 (by omega)
  rwa [Nat.zero_add] at whole

theorem le_nearest (number unit : Nat) : number / unit * unit ≤ nearest number unit := by
  unfold nearest
  dsimp only
  split
  · exact Nat.mul_le_mul_right unit (Nat.le_succ _)
  · exact Nat.le_refl _

/-- Rounding does not lead below the exact numbers. -/
theorem le_of_ofNat (large : 2 ^ 53 ≤ number) (read : ofNat number = .finite result) :
    2 ^ 53 ≤ result := by
  have bits : 53 ≤ number.log2 := (Nat.le_log2 (by omega)).mpr large
  unfold ofNat at read
  rw [if_neg (Nat.not_lt.mpr large)] at read
  dsimp only at read
  split at read
  case isFalse => cases read
  case isTrue =>
    obtain rfl := NatDouble.finite.inj read
    refine le_trans ?_ (le_nearest number _)
    have leading : 2 ^ 52 * 2 ^ (number.log2 - 52) ≤ number := by
      rw [← Nat.pow_add, show 52 + (number.log2 - 52) = number.log2 by omega]
      exact Nat.log2_self_le (by omega)
    have quotient : 2 ^ 52 ≤ number / 2 ^ (number.log2 - 52) :=
      (Nat.le_div_iff_mul_le (Nat.two_pow_pos _)).mpr leading
    calc 2 ^ 53 = 2 ^ 52 * 2 ^ 1 := by decide
      _ ≤ number / 2 ^ (number.log2 - 52) * 2 ^ (number.log2 - 52) :=
          Nat.mul_le_mul quotient (Nat.pow_le_pow_right (by decide) (by omega))

/-- Only the number itself reads back to a double that is exact. -/
theorem eq_of_ofNat (small : result < 2 ^ 53) (read : ofNat number = .finite result) :
    number = result := by
  rcases Nat.lt_or_ge number (2 ^ 53) with exact' | large
  · rw [ofNat_of_lt exact'] at read
    exact NatDouble.finite.inj read
  · exact absurd small (Nat.not_lt.mpr (le_of_ofNat large read))

theorem shortest_of_lt (small : number < 2 ^ 53) (places : Nat) :
    shortest number places = number := by
  induction places with
  | zero => rfl
  | succ places ih =>
      rw [shortest]
      cases found : rounded number (10 ^ (places + 1)) with
      | none => exact ih
      | some candidate =>
          have reads := List.find?_some found
          exact eq_of_ofNat small (of_decide_eq_true reads)

theorem text_of_lt (small : number < 2 ^ 53) :
    text (.finite number) = Nat.toDigits 10 number := by
  have short : (Nat.toDigits 10 number).length ≤ 21 :=
    (Nat.length_toDigits_le_iff (by decide) (by decide)).mpr (by omega)
  unfold text
  dsimp only
  rw [shortest_of_lt small, if_pos short]

/-- A text is made of digits, or it has a character that no number without exponent has. -/
theorem text_cases (double : NatDouble) :
    (∀ char ∈ double.text, char.isDigit = true) ∨ '+' ∈ double.text ∨ 'I' ∈ double.text := by
  cases double with
  | infinity => exact .inr (.inr (by decide))
  | finite number =>
      unfold text
      dsimp only
      split
      · exact .inl fun char listed =>
          Nat.isDigit_of_mem_toDigits (by decide) (by decide) listed
      · refine .inr (.inl ?_)
        unfold exponentText
        simp

theorem text_ne_nil (double : NatDouble) : double.text ≠ [] := by
  cases double with
  | infinity => decide
  | finite number =>
      unfold text
      dsimp only
      split
      · exact Nat.toDigits_ne_nil
      · unfold exponentText
        simp

/-- The greatest of doubles that are exact is the one of the greatest number. -/
theorem exists_greatest {numbers : List Nat} {start : Nat}
    (small : ∀ number ∈ numbers, number < 2 ^ 53) :
    ∃ most, greatest (.finite start) numbers = .finite most ∧ start ≤ most ∧
      (∀ number ∈ numbers, number ≤ most) ∧ (most = start ∨ most ∈ numbers) := by
  induction numbers generalizing start with
  | nil => exact ⟨start, rfl, Nat.le_refl _, fun _ listed => absurd listed List.not_mem_nil, .inl rfl⟩
  | cons number rest ih =>
      obtain ⟨most, found, above, bound, attained⟩ :=
        @ih (Nat.max start number) fun other listed => small other (List.mem_cons_of_mem _ listed)
      refine ⟨most, ?_, (Nat.le_max_left _ _).trans above, ?_, ?_⟩
      · rw [← found]
        unfold greatest
        rw [List.foldl_cons, ofNat_of_lt (small number List.mem_cons_self)]
        rfl
      · intro other listed
        rcases List.mem_cons.mp listed with rfl | later
        · exact (Nat.le_max_right _ _).trans above
        · exact bound other later
      · rcases attained with same | later
        · rcases Nat.le_total start number with less | more
          · exact .inr (List.mem_cons.mpr (.inl (same.trans (Nat.max_eq_right less))))
          · exact .inl (same.trans (Nat.max_eq_left more))
        · exact .inr (List.mem_cons_of_mem _ later)

end NatDouble
