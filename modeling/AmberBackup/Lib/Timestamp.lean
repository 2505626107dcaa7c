import Mathlib.Algebra.Order.Field.Basic
import Mathlib.Algebra.Order.Field.Rat
import Mathlib.Data.List.Lex
import Mathlib.Tactic.IntervalCases
import Mathlib.Tactic.Linarith
import Mathlib.Tactic.Positivity

/-! # Timestamps as texts

A timestamp of RFC 3339 shows a local clock, a fraction of a second of any number of digits and
the offset of the clock. The texts are ordered as the local clocks are, and behind equal clocks
as the rests of the texts (`Timestamp.text_lt_iff`), while the instants are ordered by what the
clocks show at offset zero. The two orders agree if the offsets and the numbers of digits do
(`Timestamp.instant_le_of_uniform`).
-/

/-! ## Numbers of a fixed width -/

/-- The digits of a number, filled up with zeros to the width. -/
def padded : Nat → Nat → List Char
  | 0, _ => []
  | width + 1, number => Nat.digitChar (number / 10 ^ width) :: padded width (number % 10 ^ width)

section Padded

variable {width first second : Nat} {start rest : List Char}

theorem digitChar_lt_iff (one : first < 10) (other : second < 10) :
    Nat.digitChar first < Nat.digitChar second ↔ first < second := by
  interval_cases first <;> interval_cases second <;> decide

theorem digitChar_inj_iff (one : first < 10) (other : second < 10) :
    Nat.digitChar first = Nat.digitChar second ↔ first = second := by
  interval_cases first <;> interval_cases second <;> decide

theorem isDigit_digitChar (one : first < 10) : (Nat.digitChar first).isDigit = true := by
  interval_cases first <;> decide

@[simp] theorem length_padded (width number : Nat) : (padded width number).length = width := by
  induction width generalizing number with
  | zero => rfl
  | succ width ih => rw [padded, List.length_cons, ih]

theorem isDigit_of_mem_padded {char : Char} (fits : first < 10 ^ width)
    (listed : char ∈ padded width first) : char.isDigit = true := by
  induction width generalizing first with
  | zero => cases listed
  | succ width ih =>
      have positive : 0 < 10 ^ width := Nat.pow_pos (by decide)
      rcases List.mem_cons.mp listed with rfl | later
      · apply isDigit_digitChar
        rwa [Nat.div_lt_iff_lt_mul positive, Nat.mul_comm, ← Nat.pow_succ]
      · exact ih (Nat.mod_lt _ positive) later

theorem lt_iff_div_mod (first second unit : Nat) :
    first < second ↔ first / unit < second / unit ∨
      first / unit = second / unit ∧ first % unit < second % unit := by
  have split := Nat.div_add_mod first unit
  have parted := Nat.div_add_mod second unit
  constructor
  · intro less
    rcases Nat.lt_or_eq_of_le (Nat.div_le_div_right (c := unit) less.le) with smaller | same
    · exact .inl smaller
    · rw [same] at split
      exact .inr ⟨same, by omega⟩
  · rintro (smaller | ⟨same, less⟩)
    · exact Nat.lt_of_div_lt_div smaller
    · rw [same] at split
      omega

/-- Texts that begin with numbers of one width are ordered by these first. -/
theorem padded_append_lt_iff (one : first < 10 ^ width) (other : second < 10 ^ width) :
    padded width first ++ start < padded width second ++ rest ↔
      first < second ∨ first = second ∧ start < rest := by
  induction width generalizing first second with
  | zero =>
      have zeros : first = 0 ∧ second = 0 := by omega
      simp [padded, zeros]
  | succ width ih =>
      have positive : 0 < 10 ^ width := Nat.pow_pos (by decide)
      have high : ∀ {number : Nat}, number < 10 ^ (width + 1) → number / 10 ^ width < 10 := by
        intro number fits
        rwa [Nat.div_lt_iff_lt_mul positive, Nat.mul_comm, ← Nat.pow_succ]
      rw [padded, padded, List.cons_append, List.cons_append, List.cons_lt_cons_iff,
        digitChar_lt_iff (high one) (high other), digitChar_inj_iff (high one) (high other),
        ih (Nat.mod_lt _ positive) (Nat.mod_lt _ positive)]
      have same : first = second ↔ first / 10 ^ width = second / 10 ^ width ∧
          first % 10 ^ width = second % 10 ^ width := by
        constructor
        · rintro rfl
          exact ⟨rfl, rfl⟩
        · rintro ⟨quotients, remainders⟩
          rw [← Nat.div_add_mod first (10 ^ width), quotients, remainders, Nat.div_add_mod]
      rw [lt_iff_div_mod first second (10 ^ width), same]
      tauto

theorem padded_inj (one : first < 10 ^ width) (other : second < 10 ^ width)
    (same : padded width first = padded width second) : first = second := by
  have never : ∀ {less more : Nat}, less < 10 ^ width → more < 10 ^ width →
      padded width less = padded width more → ¬ less < more := by
    intro less more fits bounded equal smaller
    have ordered := (@padded_append_lt_iff _ _ _ [] [] fits bounded).mpr (.inl smaller)
    rw [List.append_nil, List.append_nil, equal] at ordered
    exact List.lt_irrefl _ ordered
  exact Nat.le_antisymm (Nat.not_lt.mp (never other one same.symm))
    (Nat.not_lt.mp (never one other same))

end Padded

/-! ## Dates -/

/-- A leap year. -/
def leap (year : Nat) : Bool := year % 4 = 0 && (year % 100 ≠ 0 || year % 400 = 0)

def monthLengths (leap : Bool) : List Nat :=
  [31, if leap then 29 else 28, 31, 30, 31, 30, 31, 31, 30, 31, 30, 31]

/-- The days of a month, counted from 1. -/
def monthLength (leap : Bool) (month : Nat) : Nat := (monthLengths leap).getD (month - 1) 0

/-- The days of a year before a month. -/
def daysBefore (leap : Bool) (month : Nat) : Nat := ((monthLengths leap).take (month - 1)).sum

def yearLength (leap : Bool) : Nat := if leap then 366 else 365

/-- The days before a year, from the year 0 on. -/
def yearStart : Nat → Nat
  | 0 => 0
  | year + 1 => yearStart year + yearLength (leap year)

/-- The number of a day. -/
def dayNumber (year month day : Nat) : Nat := yearStart year + daysBefore (leap year) month + day

/-- A day of the calendar. -/
structure IsDate (year month day : Nat) : Prop where
  year_lt : year < 10000
  month_mem : 1 ≤ month ∧ month ≤ 12
  day_mem : 1 ≤ day ∧ day ≤ monthLength (leap year) month

section Dates

variable {year month day otherYear otherMonth otherDay : Nat}

theorem yearStart_mono (less : year < otherYear) :
    yearStart year + yearLength (leap year) ≤ yearStart otherYear := by
  induction otherYear, less using Nat.le_induction with
  | base => exact Nat.le_refl _
  | succ later _ ih => exact Nat.le_add_right_of_le ih

theorem daysBefore_next (common : Bool) :
    ∀ month ≤ 12, ∀ otherMonth ≤ 12, month < otherMonth → 1 ≤ month →
      daysBefore common month + monthLength common month ≤ daysBefore common otherMonth := by
  cases common <;> decide

theorem daysBefore_year (common : Bool) :
    ∀ month ≤ 12, 1 ≤ month → daysBefore common month + monthLength common month ≤
      yearLength common := by
  cases common <;> decide

/-- Days are numbered in the order of their dates. -/
theorem dayNumber_lt (date : IsDate year month day) (other : IsDate otherYear otherMonth otherDay)
    (less : year < otherYear ∨ year = otherYear ∧
      (month < otherMonth ∨ month = otherMonth ∧ day < otherDay)) :
    dayNumber year month day < dayNumber otherYear otherMonth otherDay := by
  unfold dayNumber
  rcases less with earlier | ⟨rfl, earlier | ⟨rfl, earlier⟩⟩
  · have within := daysBefore_year (leap year) month date.month_mem.2 date.month_mem.1
    have start := yearStart_mono earlier
    have last := date.day_mem.2
    have first := other.day_mem.1
    omega
  · have within := daysBefore_next (leap year) month date.month_mem.2 otherMonth other.month_mem.2
      earlier date.month_mem.1
    have last := date.day_mem.2
    have first := other.day_mem.1
    omega
  · omega

theorem dayNumber_lt_iff (date : IsDate year month day)
    (other : IsDate otherYear otherMonth otherDay) :
    dayNumber year month day < dayNumber otherYear otherMonth otherDay ↔
      year < otherYear ∨ year = otherYear ∧
        (month < otherMonth ∨ month = otherMonth ∧ day < otherDay) := by
  refine ⟨fun less => ?_, dayNumber_lt date other⟩
  by_contra notLess
  rcases lt_trichotomy year otherYear with earlier | rfl | later
  · exact notLess (.inl earlier)
  · rcases lt_trichotomy month otherMonth with earlier | rfl | later
    · exact notLess (.inr ⟨rfl, .inl earlier⟩)
    · unfold dayNumber at less
      exact notLess (.inr ⟨rfl, .inr ⟨rfl, by omega⟩⟩)
    · exact lt_asymm less (dayNumber_lt other date (.inr ⟨rfl, .inl later⟩))
  · exact lt_asymm less (dayNumber_lt other date (.inl later))

theorem dayNumber_inj (date : IsDate year month day)
    (other : IsDate otherYear otherMonth otherDay)
    (same : dayNumber year month day = dayNumber otherYear otherMonth otherDay) :
    year = otherYear ∧ month = otherMonth ∧ day = otherDay := by
  have before := (dayNumber_lt_iff date other).not.mp same.not_lt
  have after := (dayNumber_lt_iff other date).not.mp same.symm.not_lt
  omega

end Dates

/-! ## Timestamps -/

/-- The offset of a local clock. -/
inductive Zone where
  | utc
  | ahead (minutes : Nat)
  | behind (minutes : Nat)
  deriving DecidableEq

namespace Zone

def minutes : Zone → Int
  | utc => 0
  | ahead minutes => minutes
  | behind minutes => -minutes

/-- An offset is less than a day. -/
def Fits : Zone → Prop
  | utc => True
  | ahead minutes | behind minutes => minutes < 1440

instance (zone : Zone) : Decidable zone.Fits := by
  cases zone <;> unfold Fits <;> infer_instance

def offsetText (minutes : Nat) : List Char :=
  padded 2 (minutes / 60) ++ ':' :: padded 2 (minutes % 60)

def text : Zone → List Char
  | utc => ['Z']
  | ahead minutes => '+' :: offsetText minutes
  | behind minutes => '-' :: offsetText minutes

end Zone

structure Timestamp where
  year : Nat
  month : Nat
  day : Nat
  hour : Nat
  minute : Nat
  second : Nat
  /-- The fraction of a second, in units of the last of its digits. -/
  fraction : Nat := 0
  digits : Nat := 0
  zone : Zone := .utc
  isDate : IsDate year month day
  hour_lt : hour < 24
  minute_lt : minute < 60
  second_lt : second < 60
  fraction_lt : fraction < 10 ^ digits
  fits : zone.Fits

namespace Timestamp

variable (time other : Timestamp)

/-- What the local clock shows, in seconds. -/
def clock : Nat :=
  ((dayNumber time.year time.month time.day * 24 + time.hour) * 60 + time.minute) * 60 +
    time.second

/-- The instant, in seconds. -/
def instant : Rat :=
  time.clock - time.zone.minutes * 60 + (time.fraction : Rat) / (10 ^ time.digits : Nat)

/-- The text behind the seconds. -/
def rest : List Char :=
  (if time.digits = 0 then [] else '.' :: padded time.digits time.fraction) ++ time.zone.text

def text : List Char :=
  padded 4 time.year ++ '-' :: (padded 2 time.month ++ '-' :: (padded 2 time.day ++
    'T' :: (padded 2 time.hour ++ ':' :: (padded 2 time.minute ++
      ':' :: (padded 2 time.second ++ time.rest)))))

variable {time other}

theorem monthLength_le (common : Bool) : ∀ month ≤ 12, monthLength common month ≤ 31 := by
  cases common <;> decide

theorem day_lt (time : Timestamp) : time.day < 10 ^ 2 := by
  have length := monthLength_le (leap time.year) time.month time.isDate.month_mem.2
  have within := time.isDate.day_mem.2
  omega

theorem month_lt (time : Timestamp) : time.month < 10 ^ 2 := by
  have within := time.isDate.month_mem.2
  omega

theorem dayNumber_eq_iff :
    dayNumber time.year time.month time.day = dayNumber other.year other.month other.day ↔
      time.year = other.year ∧ time.month = other.month ∧ time.day = other.day := by
  refine ⟨dayNumber_inj time.isDate other.isDate, ?_⟩
  rintro ⟨year, month, day⟩
  rw [year, month, day]

/-- Clocks are ordered field by field. -/
theorem clock_lt_iff :
    time.clock < other.clock ↔
      time.year < other.year ∨ time.year = other.year ∧
        (time.month < other.month ∨ time.month = other.month ∧
          (time.day < other.day ∨ time.day = other.day ∧
            (time.hour < other.hour ∨ time.hour = other.hour ∧
              (time.minute < other.minute ∨ time.minute = other.minute ∧
                time.second < other.second)))) := by
  have hours := time.hour_lt
  have otherHours := other.hour_lt
  have minutes := time.minute_lt
  have otherMinutes := other.minute_lt
  have seconds := time.second_lt
  have otherSeconds := other.second_lt
  have byDay : time.clock < other.clock ↔
      dayNumber time.year time.month time.day < dayNumber other.year other.month other.day ∨
        dayNumber time.year time.month time.day = dayNumber other.year other.month other.day ∧
          (time.hour < other.hour ∨ time.hour = other.hour ∧
            (time.minute < other.minute ∨ time.minute = other.minute ∧
              time.second < other.second)) := by
    unfold clock
    omega
  rw [byDay, dayNumber_lt_iff time.isDate other.isDate, dayNumber_eq_iff]
  tauto

theorem clock_eq_iff :
    time.clock = other.clock ↔
      time.year = other.year ∧ time.month = other.month ∧ time.day = other.day ∧
        time.hour = other.hour ∧ time.minute = other.minute ∧ time.second = other.second := by
  have before := @clock_lt_iff time other
  have after := @clock_lt_iff other time
  omega

/-- Two texts are ordered by the local clocks, and behind equal clocks by the rests. -/
theorem text_lt_iff :
    time.text < other.text ↔
      time.clock < other.clock ∨ time.clock = other.clock ∧ time.rest < other.rest := by
  have hours := time.hour_lt
  have otherHours := other.hour_lt
  have minutes := time.minute_lt
  have otherMinutes := other.minute_lt
  have seconds := time.second_lt
  have otherSeconds := other.second_lt
  unfold text
  rw [padded_append_lt_iff time.isDate.year_lt other.isDate.year_lt, List.cons_lt_cons_self,
    padded_append_lt_iff time.month_lt other.month_lt, List.cons_lt_cons_self,
    padded_append_lt_iff time.day_lt other.day_lt, List.cons_lt_cons_self,
    padded_append_lt_iff (by omega) (by omega), List.cons_lt_cons_self,
    padded_append_lt_iff (by omega) (by omega), List.cons_lt_cons_self,
    padded_append_lt_iff (by omega) (by omega), clock_lt_iff, clock_eq_iff]
  tauto

end Timestamp

/-! ## Equal texts -/

namespace Zone

theorem text_head (zone : Zone) :
    ∃ first later, zone.text = first :: later ∧ first.isDigit = false ∧ first ≠ '.' := by
  cases zone with
  | utc => exact ⟨'Z', [], rfl, by decide, by decide⟩
  | ahead minutes => exact ⟨'+', offsetText minutes, rfl, by decide, by decide⟩
  | behind minutes => exact ⟨'-', offsetText minutes, rfl, by decide, by decide⟩

theorem offsetText_inj {minutes other : Nat} (fits : minutes < 1440) (bounded : other < 1440)
    (same : offsetText minutes = offsetText other) : minutes = other := by
  obtain ⟨hours, rest⟩ := List.append_inj same (by rw [length_padded, length_padded])
  have quotients := padded_inj (by omega) (by omega) hours
  have remainders := padded_inj (by omega) (by omega) (List.cons.inj rest).2
  omega

theorem text_inj {zone other : Zone} (fits : zone.Fits) (bounded : other.Fits)
    (same : zone.text = other.text) : zone = other := by
  cases zone <;> cases other <;> obtain ⟨first, rest⟩ := List.cons.inj same
  case utc.utc => rfl
  case ahead.ahead => exact congrArg ahead (offsetText_inj fits bounded rest)
  case behind.behind => exact congrArg behind (offsetText_inj fits bounded rest)
  all_goals exact absurd first (by decide)

end Zone

namespace Timestamp

variable {time other : Timestamp}

/-- The digits of a fraction end where the offset begins. -/
theorem takeWhile_fraction (time : Timestamp) :
    (padded time.digits time.fraction ++ time.zone.text).takeWhile Char.isDigit =
      padded time.digits time.fraction := by
  obtain ⟨first, later, shown, stops, -⟩ := time.zone.text_head
  rw [List.takeWhile_append_of_pos fun char => isDigit_of_mem_padded time.fraction_lt, shown,
    List.takeWhile_cons_of_neg (by rw [stops]; decide), List.append_nil]

theorem rest_inj (same : time.rest = other.rest) :
    time.digits = other.digits ∧ time.fraction = other.fraction ∧ time.zone = other.zone := by
  have never : ∀ first second : Timestamp, first.digits = 0 → second.digits ≠ 0 →
      first.rest ≠ second.rest := by
    intro first second whole parted equal
    obtain ⟨head, later, shown, -, noPoint⟩ := first.zone.text_head
    rw [rest, rest, if_pos whole, if_neg parted, shown] at equal
    exact noPoint (List.cons.inj equal).1
  by_cases whole : time.digits = 0
  · by_cases otherWhole : other.digits = 0
    · have none := time.fraction_lt
      have otherNone := other.fraction_lt
      rw [whole] at none
      rw [otherWhole] at otherNone
      rw [rest, rest, if_pos whole, if_pos otherWhole] at same
      exact ⟨by omega, by omega, Zone.text_inj time.fits other.fits same⟩
    · exact absurd same (never time other whole otherWhole)
  · by_cases otherWhole : other.digits = 0
    · exact absurd same.symm (never other time otherWhole whole)
    · rw [rest, rest, if_neg whole, if_neg otherWhole] at same
      have behind := (List.cons.inj same).2
      have fractions := congrArg (List.takeWhile Char.isDigit) behind
      rw [List.append_eq, List.append_eq, takeWhile_fraction, takeWhile_fraction] at fractions
      have digits : time.digits = other.digits := by
        rw [← length_padded time.digits time.fraction, fractions, length_padded]
      rw [List.append_eq, List.append_eq, fractions] at behind
      rw [← digits] at fractions
      exact ⟨digits, padded_inj time.fraction_lt (digits ▸ other.fraction_lt) fractions,
        Zone.text_inj time.fits other.fits (List.append_cancel_left behind)⟩

/-- A text denotes one instant. -/
theorem instant_eq_of_text (same : time.text = other.text) : time.instant = other.instant := by
  have before : ¬ time.text < other.text := by
    rw [same]
    exact List.lt_irrefl _
  have after : ¬ other.text < time.text := by
    rw [same]
    exact List.lt_irrefl _
  rw [text_lt_iff] at before after
  have clocks : time.clock = other.clock := by omega
  have rests : time.rest = other.rest := by
    apply List.le_antisymm
    · exact List.not_lt.mp fun greater => after (.inr ⟨clocks.symm, greater⟩)
    · exact List.not_lt.mp fun less => before (.inr ⟨clocks, less⟩)
  obtain ⟨digits, fraction, zone⟩ := rest_inj rests
  rw [instant, instant, clocks, digits, fraction, zone]

/-! ## Agreement of the two orders -/

/-- A fraction is less than a second. -/
theorem fraction_mem (time : Timestamp) :
    0 ≤ (time.fraction : Rat) / (10 ^ time.digits : Nat) ∧
      (time.fraction : Rat) / (10 ^ time.digits : Nat) < 1 := by
  have positive : (0 : Rat) < (10 ^ time.digits : Nat) := by
    exact_mod_cast Nat.pow_pos (by decide)
  constructor
  · positivity
  · rw [div_lt_one positive]
    exact_mod_cast time.fraction_lt

/-- Texts with the same offset and the same number of digits are in the order of the instants. -/
theorem instant_le_of_uniform (zones : time.zone = other.zone) (digits : time.digits = other.digits)
    (ordered : time.text < other.text) : time.instant ≤ other.instant := by
  unfold instant
  rw [zones, digits]
  rcases text_lt_iff.mp ordered with earlier | ⟨same, rests⟩
  · have seconds : (time.clock : Rat) + 1 ≤ other.clock := by exact_mod_cast earlier
    have below := time.fraction_mem.2
    have above := other.fraction_mem.1
    rw [digits] at below
    linarith
  · rw [same]
    have fractions : time.fraction ≤ other.fraction := by
      rw [rest, rest, zones, digits] at rests
      by_cases whole : other.digits = 0
      · rw [if_pos whole, if_pos whole] at rests
        exact absurd rests (List.lt_irrefl _)
      · rw [if_neg whole, if_neg whole, List.cons_append, List.cons_append,
          List.cons_lt_cons_self,
          padded_append_lt_iff (digits ▸ time.fraction_lt) other.fraction_lt] at rests
        omega
    gcongr

end Timestamp
