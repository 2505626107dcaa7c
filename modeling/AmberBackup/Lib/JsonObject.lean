import Mathlib.Tactic.Common

/-! # Objects of texts

An object whose values are texts, written as JSON writes it: the names and the values are
quoted, with a backslash before a quote or a backslash. The reader takes back what the writer
has written (`parse_stringify`).
-/

namespace JsonObject

def quote : Char := '\x22'

def backslash : Char := '\x5c'

/-- The inside of a quoted text. -/
def escape : List Char → List Char
  | [] => []
  | char :: rest =>
      if char = quote ∨ char = backslash then backslash :: char :: escape rest
      else char :: escape rest

def writeText (text : String) : List Char := quote :: (escape text.toList ++ [quote])

def writeEntry (entry : String × String) : List Char :=
  writeText entry.1 ++ (':' :: writeText entry.2)

/-- The entries after the first one. -/
def writeMore : List (String × String) → List Char
  | [] => ['\x7d']
  | entry :: rest => ',' :: (writeEntry entry ++ writeMore rest)

def write : List (String × String) → List Char
  | [] => ['\x7b', '\x7d']
  | entry :: rest => '\x7b' :: (writeEntry entry ++ writeMore rest)

def stringify (entries : List (String × String)) : String := String.ofList (write entries)

/-- A text up to its closing quote, and what follows it; the flag tells that the character
before was the backslash of an escape. -/
def readInside : Bool → List Char → Option (List Char × List Char)
  | _, [] => none
  | true, char :: rest =>
      (readInside false rest).map fun found => (char :: found.1, found.2)
  | false, char :: rest =>
      if char = quote then some ([], rest)
      else if char = backslash then readInside true rest
      else (readInside false rest).map fun found => (char :: found.1, found.2)

/-- What follows a character. -/
def expect (char : Char) : List Char → Option (List Char)
  | [] => none
  | first :: rest => if first = char then some rest else none

def readText (text : List Char) : Option (String × List Char) := do
  let inside ← expect quote text
  let (found, rest) ← readInside false inside
  return (String.ofList found, rest)

def readEntry (text : List Char) : Option ((String × String) × List Char) := do
  let (name, rest) ← readText text
  let rest ← expect ':' rest
  let (value, rest) ← readText rest
  return ((name, value), rest)

/-- At most as many entries as there is fuel. -/
def readMore : Nat → List Char → Option (List (String × String))
  | 0, _ => none
  | fuel + 1, text =>
      if text = ['\x7d'] then some []
      else do
        let rest ← expect ',' text
        let (entry, rest) ← readEntry rest
        let more ← readMore fuel rest
        return entry :: more

def read (text : List Char) : Option (List (String × String)) := do
  let rest ← expect '\x7b' text
  if rest = ['\x7d'] then return []
  let (entry, rest) ← readEntry rest
  let more ← readMore text.length rest
  return entry :: more

def parse (text : String) : Option (List (String × String)) := read text.toList

/-! ## The round trip -/

theorem readInside_escape (text rest : List Char) :
    readInside false (escape text ++ quote :: rest) = some (text, rest) := by
  induction text with
  | nil => exact if_pos rfl
  | cons char text ih =>
      unfold escape
      split
      case isTrue special =>
        have other : backslash ≠ quote := by decide
        simp [readInside, other, ih]
      case isFalse plain =>
        rw [not_or] at plain
        simp [readInside, plain.1, plain.2, ih]

theorem readText_writeText (text : String) (rest : List Char) :
    readText (writeText text ++ rest) = some (text, rest) := by
  have inside := readInside_escape text.toList rest
  simp [readText, writeText, expect, inside]

theorem readEntry_writeEntry (entry : String × String) (rest : List Char) :
    readEntry (writeEntry entry ++ rest) = some (entry, rest) := by
  simp [readEntry, writeEntry, readText_writeText, expect]

theorem readMore_writeMore {entries : List (String × String)} {fuel : Nat}
    (enough : entries.length < fuel) : readMore fuel (writeMore entries) = some entries := by
  induction entries generalizing fuel with
  | nil =>
      cases fuel with
      | zero => cases enough
      | succ fuel => rfl
  | cons entry rest ih =>
      cases fuel with
      | zero => cases enough
      | succ fuel =>
          have fewer : rest.length < fuel := Nat.lt_of_succ_lt_succ enough
          simp [readMore, writeMore, expect, readEntry_writeEntry, ih fewer]

theorem length_lt_writeMore (entries : List (String × String)) :
    entries.length < (writeMore entries).length := by
  induction entries with
  | nil => exact Nat.zero_lt_one
  | cons entry rest ih =>
      simp only [writeMore, List.length_cons, List.length_append]
      omega

/-- What is written is read back. -/
theorem parse_stringify (entries : List (String × String)) :
    parse (stringify entries) = some entries := by
  rw [parse, stringify, String.toList_ofList]
  cases entries with
  | nil => rfl
  | cons entry rest =>
      have enough : rest.length < (write (entry :: rest)).length := by
        have := length_lt_writeMore rest
        simp only [write, List.length_cons, List.length_append]
        omega
      have first : writeEntry entry ++ writeMore rest ≠ ['\x7d'] := by
        intro same
        have := congrArg List.length same
        simp [writeEntry, writeText] at this
      have more := readMore_writeMore enough
      rw [write] at more ⊢
      simp only [read, expect, ↓reduceIte, Option.bind_eq_bind, Option.bind_some, if_neg first,
        readEntry_writeEntry, more]
      rfl

end JsonObject
