import Mathlib.Algebra.GroupWithZero.Nat
import Mathlib.Data.List.Basic
import Mathlib.Tactic.Common

/-! # Double-quoted scalars of YAML

A double-quoted scalar has escapes, and its line breaks are folded: one is read as a space, and
more of them as one less. What has no quotation mark, no backslash, no line break and no control
character is read as it is written, and nothing else is (`scan_iff`): with a line break weighing
more than another character, an escape and a folded line weigh less than what they are written as.
-/

namespace Yaml

inductive Mode where
  /-- In a line, after blanks that are dropped if the line ends there. -/
  | text (blanks : List Char)
  | escape
  | hex (left value : Nat)
  /-- Between lines, after a number of empty ones. -/
  | folding (joined carriage : Bool) (breaks : Nat)
  | closed (rest : List Char)
  deriving DecidableEq, Repr

structure Scan where
  mode : Mode := .text []
  value : List Char := []
  deriving DecidableEq, Repr

def isBreak (char : Char) : Bool := char = '\n' || char = '\r'

def isWhite (char : Char) : Bool := char = ' ' || char = '\t'

/-- A character that stands for itself. -/
def isVerbatim (char : Char) : Bool :=
  char ≠ '"' && char ≠ '\\' && (char = '\t' || 0x20 ≤ char.toNat)

/-- What stands for one character after a backslash. -/
def escapes : List (Char × Char) :=
  [('0', '\x00'), ('a', '\x07'), ('b', '\x08'), ('t', '\t'), ('\t', '\t'), ('n', '\n'),
    ('v', '\x0b'), ('f', '\x0c'), ('r', '\r'), ('e', '\x1b'), (' ', ' '), ('"', '"'), ('/', '/'),
    ('\\', '\\'), ('N', '\u0085'), ('_', '\u00a0'), ('L', '\u2028'), ('P', '\u2029')]

/-- How many digits follow. -/
def hexEscapes : List (Char × Nat) := [('x', 2), ('u', 4), ('U', 8)]

def hexDigit (char : Char) : Option Nat :=
  if '0' ≤ char ∧ char ≤ '9' then some (char.toNat - '0'.toNat)
  else if 'a' ≤ char ∧ char ≤ 'f' then some (char.toNat - 'a'.toNat + 10)
  else if 'A' ≤ char ∧ char ≤ 'F' then some (char.toNat - 'A'.toNat + 10)
  else none

/-- The line breaks between two lines of text. -/
def folded (joined : Bool) : Nat → List Char
  | 0 => if joined then [] else [' ']
  | breaks + 1 => List.replicate (breaks + 1) '\n'

/-- A character of a line of text. -/
def inLine (value blanks : List Char) (char : Char) : Option Scan :=
  if char = '"' then some ⟨.closed [], value ++ blanks⟩
  else if char = '\\' then some ⟨.escape, value ++ blanks⟩
  else if isBreak char then some ⟨.folding false (char = '\r') 0, value⟩
  else if isWhite char then some ⟨.text (blanks ++ [char]), value⟩
  else if char.toNat < 0x20 then none
  else some ⟨.text [], value ++ blanks ++ [char]⟩

/-- One character. How far a line is indented is not looked at. -/
def Scan.step (scan : Scan) (char : Char) : Option Scan :=
  match scan.mode with
  | .text blanks => inLine scan.value blanks char
  | .escape =>
      match escapes.lookup char, hexEscapes.lookup char with
      | some meant, _ => some ⟨.text [], scan.value ++ [meant]⟩
      | none, some digits => some ⟨.hex digits 0, scan.value⟩
      | none, none =>
          if isBreak char then some ⟨.folding true (char = '\r') 0, scan.value⟩ else none
  | .hex left value =>
      match hexDigit char with
      | none => none
      | some digit =>
          if 1 < left then some ⟨.hex (left - 1) (value * 16 + digit), scan.value⟩
          else if (value * 16 + digit).isValidChar then
            some ⟨.text [], scan.value ++ [Char.ofNat (value * 16 + digit)]⟩
          else none
  | .folding joined carriage breaks =>
      if char = '\n' ∧ carriage = true then some ⟨.folding joined false breaks, scan.value⟩
      else if isBreak char then some ⟨.folding joined (char = '\r') (breaks + 1), scan.value⟩
      else if isWhite char then some ⟨.folding joined false breaks, scan.value⟩
      else inLine (scan.value ++ folded joined breaks) [] char
  | .closed rest => some ⟨.closed (rest ++ [char]), scan.value⟩

def Scan.run (scan : Scan) (text : List Char) : Option Scan := text.foldlM Scan.step scan

/-- The scalar after its first quotation mark, and what follows the last one. -/
def scan (text : List Char) : Option (List Char × List Char) :=
  (Scan.run {} text).bind fun last =>
    match last.mode with
    | .closed rest => some (last.value, rest)
    | .text _ | .escape | .hex _ _ | .folding _ _ _ => none

section Runs

variable {scanned next last : Scan} {char : Char} {text rest value blanks : List Char}

@[simp] theorem run_nil (scanned : Scan) : scanned.run [] = some scanned := rfl

@[simp] theorem run_cons (scanned : Scan) (char : Char) (text : List Char) :
    scanned.run (char :: text) = (scanned.step char).bind fun next => next.run text := rfl

theorem run_append (scanned : Scan) (text rest : List Char) :
    scanned.run (text ++ rest) = (scanned.run text).bind fun next => next.run rest :=
  List.foldlM_append

theorem run_closed (text : List Char) :
    Scan.run ⟨.closed rest, value⟩ text = some ⟨.closed (rest ++ text), value⟩ := by
  induction text generalizing rest with
  | nil => rw [List.append_nil, run_nil]
  | cons char text ih =>
      rw [run_cons]
      change Scan.run ⟨.closed (rest ++ [char]), value⟩ text = _
      rw [ih, List.append_assoc]
      rfl

/-! ## Text that stands for itself -/

theorem inLine_verbatim (value blanks : List Char) (verbatim : isVerbatim char = true) :
    ∃ after left, inLine value blanks char = some ⟨.text after, left⟩ ∧
      left ++ after = value ++ blanks ++ [char] := by
  simp only [isVerbatim, Bool.and_eq_true, Bool.or_eq_true, decide_eq_true_eq] at verbatim
  obtain ⟨⟨quote, backslash⟩, printed⟩ := verbatim
  have line : isBreak char = false := by
    rcases printed with rfl | shown
    · rfl
    · refine Bool.or_eq_false_iff.mpr ⟨decide_eq_false ?_, decide_eq_false ?_⟩
      · rintro rfl
        exact absurd shown (by decide)
      · rintro rfl
        exact absurd shown (by decide)
  unfold inLine
  rw [if_neg quote, if_neg backslash, line, if_neg Bool.false_ne_true]
  by_cases white : isWhite char = true
  · rw [if_pos white]
    exact ⟨_, _, rfl, (List.append_assoc _ _ _).symm⟩
  · rw [if_neg white, if_neg]
    · exact ⟨_, _, rfl, List.append_nil _⟩
    · rcases printed with rfl | shown
      · exact absurd rfl white
      · exact Nat.not_lt.mpr shown

theorem run_verbatim (blanks value : List Char)
    (verbatim : ∀ char ∈ text, isVerbatim char = true) :
    ∃ after left, Scan.run ⟨.text blanks, value⟩ text = some ⟨.text after, left⟩ ∧
      left ++ after = value ++ blanks ++ text := by
  induction text generalizing blanks value with
  | nil => exact ⟨blanks, value, rfl, (List.append_nil _).symm⟩
  | cons char text ih =>
      obtain ⟨after, left, moved, same⟩ :=
        inLine_verbatim value blanks (verbatim char List.mem_cons_self)
      obtain ⟨later, read, ran, whole⟩ := ih after left
        fun other member => verbatim other (List.mem_cons_of_mem _ member)
      refine ⟨later, read, ?_, ?_⟩
      · rw [run_cons]
        change (inLine value blanks char).bind _ = _
        rw [moved, Option.bind_some, ran]
      · rw [whole, same, List.append_assoc _ [char]]
        rfl

/-! ## What a character adds -/

/-- A line break weighs more than another character. -/
def weight (char : Char) : Nat := if isBreak char then 3 else 2

def weights (text : List Char) : Nat := (text.map weight).sum

@[simp] theorem weights_nil : weights [] = 0 := rfl

@[simp] theorem weights_cons : weights (char :: text) = weight char + weights text := rfl

@[simp] theorem weights_append : weights (text ++ rest) = weights text + weights rest := by
  unfold weights
  rw [List.map_append, List.sum_append]

theorem weight_bounds (char : Char) : 2 ≤ weight char ∧ weight char ≤ 3 := by
  unfold weight
  split <;> omega

theorem weight_break (line : isBreak char = true) : weight char = 3 := if_pos line

def Mode.pending : Mode → Nat
  | .text blanks => weights blanks
  | .escape | .hex _ _ => 1
  | .folding joined _ breaks => weights (folded joined breaks)
  | .closed rest => weights rest

/-- What was read weighs at most what it was read from. -/
def Scan.credit (scanned : Scan) : Nat := weights scanned.value + scanned.mode.pending

theorem weights_folded (joined : Bool) (breaks : Nat) :
    weights (folded joined (breaks + 1)) = 3 * (breaks + 1) := by
  unfold weights folded
  rw [List.map_replicate, List.sum_replicate_nat, Nat.mul_comm]
  rfl

theorem folded_break (joined : Bool) (breaks : Nat) :
    weights (folded joined (breaks + 1)) ≤ weights (folded joined breaks) + 3 := by
  rw [weights_folded]
  cases breaks with
  | zero => exact Nat.le_add_left _ _
  | succ breaks =>
      rw [weights_folded]
      omega

theorem inLine_credit (moved : inLine value blanks char = some next) :
    next.credit ≤ weights value + weights blanks + weight char := by
  have least := (weight_bounds char).1
  unfold inLine at moved
  split_ifs at moved with quote backslash line white <;> cases moved <;>
    simp only [Scan.credit, Mode.pending, weights_append, weights_cons, weights_nil] <;>
    try omega
  rw [weight_break line]
  change weights value + 2 ≤ _
  omega

theorem step_credit (moved : scanned.step char = some next) :
    next.credit ≤ scanned.credit + weight char := by
  have least := (weight_bounds char).1
  obtain ⟨mode, value⟩ := scanned
  unfold Scan.step at moved
  cases mode with
  | text blanks => exact inLine_credit moved
  | escape =>
      change _ ≤ weights value + 1 + weight char
      simp only at moved
      split at moved
      next meant _ =>
        cases moved
        have most := (weight_bounds meant).2
        simp only [Scan.credit, Mode.pending, weights_append, weights_cons, weights_nil]
        omega
      · cases moved
        simp only [Scan.credit, Mode.pending]
        omega
      · split_ifs at moved with line
        cases moved
        change weights value + 0 ≤ _
        omega
  | hex left digits =>
      change _ ≤ weights value + 1 + weight char
      simp only at moved
      split at moved
      · cases moved
      next digit _ =>
        have most := (weight_bounds (Char.ofNat (digits * 16 + digit))).2
        split_ifs at moved <;> cases moved <;>
          simp only [Scan.credit, Mode.pending, weights_append, weights_cons, weights_nil] <;>
          omega
  | folding joined carriage breaks =>
      change _ ≤ weights value + weights (folded joined breaks) + weight char
      simp only at moved
      split_ifs at moved with feed line white
      · cases moved
        exact Nat.le_add_right _ _
      · cases moved
        have more := folded_break joined breaks
        rw [weight_break line]
        simp only [Scan.credit, Mode.pending]
        omega
      · cases moved
        exact Nat.le_add_right _ _
      · have read := inLine_credit moved
        rw [weights_append, weights_nil] at read
        omega
  | closed rest =>
      cases moved
      simp only [Scan.credit, Mode.pending, weights_append, weights_cons, weights_nil]
      omega

theorem run_credit (ran : scanned.run text = some last) :
    last.credit ≤ scanned.credit + weights text := by
  induction text generalizing scanned with
  | nil =>
      cases ran
      exact Nat.le_refl _
  | cons char text ih =>
      obtain ⟨next, moved, later⟩ := Option.bind_eq_some_iff.mp ran
      have first := step_credit moved
      have others := ih later
      rw [weights_cons]
      omega

/-- In a line of text only a character that stands for itself adds all of its weight. -/
theorem inLine_exact (moved : inLine value blanks char = some next)
    (exact : next.credit = weights value + weights blanks + weight char) :
    isVerbatim char = true ∧ ∃ after, next.mode = .text after := by
  have least := (weight_bounds char).1
  unfold inLine at moved
  split_ifs at moved with quote backslash line white control
  · cases moved
    simp only [Scan.credit, Mode.pending, weights_append, weights_nil] at exact
    omega
  · cases moved
    simp only [Scan.credit, Mode.pending, weights_append] at exact
    omega
  · cases moved
    rw [weight_break line] at exact
    change weights value + 2 = _ at exact
    omega
  · cases moved
    refine ⟨?_, _, rfl⟩
    rcases Bool.or_eq_true_iff.mp white with space | tab
    · rw [of_decide_eq_true space]
      rfl
    · rw [of_decide_eq_true tab]
      rfl
  · cases moved
    refine ⟨?_, _, rfl⟩
    simp only [isVerbatim, quote, backslash, Nat.not_lt.mp control, ne_eq, not_false_eq_true,
      decide_true, Bool.and_self, Bool.or_true]

/-- A text that adds all of its weight in lines of text stands for itself. -/
theorem verbatim_of_exact (ran : Scan.run ⟨.text blanks, value⟩ text = some last)
    (exact : last.credit = weights value + weights blanks + weights text) :
    (∀ char ∈ text, isVerbatim char = true) ∧ ∃ after, last.mode = .text after := by
  induction text generalizing blanks value with
  | nil =>
      cases ran
      exact ⟨List.forall_mem_nil _, blanks, rfl⟩
  | cons char text ih =>
      obtain ⟨next, moved, later⟩ := Option.bind_eq_some_iff.mp ran
      change inLine value blanks char = some next at moved
      have first := inLine_credit moved
      have others := run_credit later
      rw [weights_cons] at exact
      have full : next.credit = weights value + weights blanks + weight char := by omega
      obtain ⟨verbatim, after, mode⟩ := inLine_exact moved full
      obtain ⟨nextMode, nextValue⟩ := next
      cases mode
      change weights nextValue + weights after = _ at full
      obtain ⟨all, ends⟩ := ih later (by omega)
      refine ⟨?_, ends⟩
      intro other member
      rcases List.mem_cons.mp member with rfl | listed
      · exact verbatim
      · exact all other listed

/-! ## A scalar in a document -/

/-- Without a quotation mark after it a scalar that is open stays open. -/
theorem run_open (free : '"' ∉ text) (inside : ∀ rest, scanned.mode ≠ .closed rest)
    (ran : scanned.run text = some last) : ∀ rest, last.mode ≠ .closed rest := by
  induction text generalizing scanned with
  | nil =>
      cases ran
      exact inside
  | cons char text ih =>
      obtain ⟨next, moved, later⟩ := Option.bind_eq_some_iff.mp ran
      rw [List.mem_cons, not_or] at free
      refine ih free.2 ?_ later
      have stays : ∀ value blanks, inLine value blanks char = some next →
          ∀ rest, next.mode ≠ .closed rest := by
        intro value blanks moved rest
        unfold inLine at moved
        rw [if_neg (Ne.symm free.1)] at moved
        split_ifs at moved <;> cases moved <;> exact Mode.noConfusion
      intro rest
      obtain ⟨mode, value⟩ := scanned
      unfold Scan.step at moved
      cases mode with
      | text blanks => exact stays _ _ moved rest
      | escape =>
          simp only at moved
          split at moved
          · cases moved
            exact Mode.noConfusion
          · cases moved
            exact Mode.noConfusion
          · split_ifs at moved
            cases moved
            exact Mode.noConfusion
      | hex left digits =>
          simp only at moved
          split at moved
          · cases moved
          · split_ifs at moved <;> cases moved <;> exact Mode.noConfusion
      | folding joined carriage breaks =>
          simp only at moved
          split_ifs at moved with feed line white
          · cases moved
            exact Mode.noConfusion
          · cases moved
            exact Mode.noConfusion
          · cases moved
            exact Mode.noConfusion
          · exact stays _ _ moved rest
      | closed rest => exact absurd rfl (inside rest)

variable {name tail : List Char}

theorem scan_verbatim (verbatim : ∀ char ∈ name, isVerbatim char = true) :
    scan (name ++ '"' :: tail) = some (name, tail) := by
  obtain ⟨after, left, ran, same⟩ := run_verbatim [] [] verbatim
  unfold scan
  rw [run_append, show Scan.run {} name = _ from ran, Option.bind_some, run_cons]
  change ((Scan.run ⟨.closed [], left ++ after⟩ tail).bind _) = _
  rw [run_closed, same]
  rfl

/-- **What a double-quoted scalar keeps.** A text is read as it is, up to the quotation mark after
it, exactly if each of its characters stands for itself. -/
theorem scan_iff (name : List Char) (free : '"' ∉ tail) :
    scan (name ++ '"' :: tail) = some (name, tail) ↔ ∀ char ∈ name, isVerbatim char = true := by
  refine ⟨?_, scan_verbatim⟩
  intro read
  unfold scan at read
  obtain ⟨last, ran, finished⟩ := Option.bind_eq_some_iff.mp read
  have ended : last = ⟨.closed tail, name⟩ := by
    obtain ⟨mode, value⟩ := last
    cases mode <;> cases finished
    rfl
  subst ended
  rw [run_append] at ran
  obtain ⟨middle, named, later⟩ := Option.bind_eq_some_iff.mp ran
  obtain ⟨ended, moved, after⟩ := Option.bind_eq_some_iff.mp later
  -- A quotation mark that ends the scalar leaves what was read before it.
  have whole : ∀ value blanks, inLine value blanks '"' = some ended → value ++ blanks = name := by
    intro value blanks closes
    cases closes
    have read : Scan.run ⟨.closed [], value ++ blanks⟩ tail = _ := after
    rw [run_closed] at read
    cases read
    rfl
  obtain ⟨mode, value⟩ := middle
  cases mode with
  | text blanks =>
      refine (verbatim_of_exact named ?_).1
      rw [← whole value blanks moved, weights_append]
      change weights value + weights blanks = _
      simp
  | escape =>
      cases moved
      exact absurd rfl (run_open free (fun _ => Mode.noConfusion) after tail)
  | hex left digits => cases moved
  | folding joined carriage breaks =>
      have same := whole (value ++ folded joined breaks) [] moved
      obtain ⟨-, blanks, mode⟩ := verbatim_of_exact named (by
        rw [← same, List.append_nil, weights_append]
        change weights value + weights (folded joined breaks) = _
        simp)
      cases mode
  | closed rest =>
      -- The name has the quotation mark that ends the scalar: too much follows it.
      cases moved
      have read : Scan.run ⟨.closed (rest ++ ['"']), value⟩ tail = _ := after
      rw [run_closed] at read
      have same : rest ++ ['"'] ++ tail = tail := by
        injection read with read
        injection read with mode
        injection mode
      have length := congrArg List.length same
      rw [List.length_append, List.length_append, List.length_singleton] at length
      omega

end Runs

end Yaml
