import Mathlib.Algebra.GroupWithZero.Nat
import Mathlib.Data.List.Basic
import Mathlib.Tactic.Common

/-! # Words of a shell command

A POSIX shell reads a command character by character into words and operators. Between double
quotes a dollar sign and a backquote start an expansion, and a backslash is taken away before
some characters; a text that stands there is the text of the word exactly if it has none of
these (`read_quoted_iff`). Every character adds at most one to what is read, and one that ends a
quotation adds nothing, so what is lost by a special character is not made up for.
-/

namespace Shell

inductive Token where
  | word (text : List Char)
  | operator (char : Char)
  deriving DecidableEq, Repr

inductive Mode where
  | plain | escaped | double | doubleEscaped | single | comment
  deriving DecidableEq, Repr

/-- What has been read: the word in progress and the tokens before it. -/
structure Reading where
  mode : Mode := .plain
  word : Option (List Char) := none
  tokens : List Token := []
  deriving DecidableEq, Repr

def Reading.push (reading : Reading) (mode : Mode) (chars : List Char) : Reading :=
  { reading with mode, word := some (reading.word.getD [] ++ chars) }

/-- The tokens with the word in progress. -/
def Reading.closed (reading : Reading) : List Token :=
  reading.tokens ++ (reading.word.map Token.word).toList

def Reading.operator (reading : Reading) (char : Char) : Reading :=
  { mode := .plain, word := none, tokens := reading.closed ++ [.operator char] }

/-- The characters of control operators and redirections. -/
def isOperator (char : Char) : Bool :=
  ['|', '&', ';', '<', '>', '(', ')', '\n'].contains char

/-- Outside of quotes the character starts an expansion, or may start one. -/
def expandsPlain (char : Char) : Bool := ['$', '`', '*', '?', '[', '~'].contains char

/-- Between double quotes a backslash before the character is taken away. -/
def escapable (char : Char) : Bool := ['$', '`', '"', '\\', '\n'].contains char

/-- One character; `none` where an expansion starts or the shell's language says nothing. -/
def Reading.step (reading : Reading) (char : Char) : Option Reading :=
  if char = '\x00' then none
  else match reading.mode with
  | .plain =>
      if char = '"' then some (reading.push .double [])
      else if char = '\'' then some (reading.push .single [])
      else if char = '\\' then some { reading with mode := .escaped }
      else if expandsPlain char then none
      else if char = ' ' ∨ char = '\t' then
        some { mode := .plain, word := none, tokens := reading.closed }
      else if isOperator char then some (reading.operator char)
      else if char = '#' ∧ reading.word = none then some { reading with mode := .comment }
      else some (reading.push .plain [char])
  | .escaped =>
      if char = '\n' then some { reading with mode := .plain }
      else some (reading.push .plain [char])
  | .double =>
      if char = '"' then some { reading with mode := .plain }
      else if char = '\\' then some { reading with mode := .doubleEscaped }
      else if char = '$' ∨ char = '`' then none
      else some (reading.push .double [char])
  | .doubleEscaped =>
      if char = '\n' then some { reading with mode := .double }
      else if escapable char then some (reading.push .double [char])
      else some (reading.push .double ['\\', char])
  | .single =>
      if char = '\'' then some { reading with mode := .plain }
      else some (reading.push .single [char])
  | .comment =>
      if char = '\n' then some (reading.operator char) else some reading

/-- A text read on. -/
def Reading.run (reading : Reading) (text : List Char) : Option Reading :=
  text.foldlM Reading.step reading

/-- The tokens at the end of the command; quotes are closed there. -/
def Reading.finish (reading : Reading) : Option (List Token) :=
  match reading.mode with
  | .plain | .comment => some reading.closed
  | .escaped | .double | .doubleEscaped | .single => none

/-- The tokens of a command without expansions. -/
def read (text : List Char) : Option (List Token) :=
  (Reading.run {} text).bind Reading.finish

/-- A text that stays as it is between double quotes. -/
structure KeptInDoubleQuotes (text : List Char) : Prop where
  chars : ∀ char ∈ text, char ∉ ['"', '$', '`', '\x00']
  /-- A backslash stands before a character that leaves it there. -/
  backslashes : ∀ before after, text = before ++ '\\' :: after →
    ∃ char rest, after = char :: rest ∧ escapable char = false

section Runs

variable {reading next last : Reading} {char : Char} {text rest : List Char}

@[simp] theorem run_nil (reading : Reading) : reading.run [] = some reading := rfl

@[simp] theorem run_cons (reading : Reading) (char : Char) (text : List Char) :
    reading.run (char :: text) = (reading.step char).bind fun next => next.run text := rfl

theorem run_append (reading : Reading) (text rest : List Char) :
    reading.run (text ++ rest) = (reading.run text).bind fun next => next.run rest :=
  List.foldlM_append

/-! ## Unquoted words -/

/-- A character that is part of a word wherever it stands. -/
def isPlain (char : Char) : Bool :=
  char ≠ '\x00' && char ≠ '"' && char ≠ '\'' && char ≠ '\\' && !expandsPlain char && char ≠ ' ' &&
    char ≠ '\t' && !isOperator char && char ≠ '#'

theorem step_plain {tokens : List Token} (plain : isPlain char = true)
    (before : Option (List Char)) :
    Reading.step ⟨.plain, before, tokens⟩ char =
      some ⟨.plain, some (before.getD [] ++ [char]), tokens⟩ := by
  simp only [isPlain, Bool.and_eq_true, decide_eq_true_eq, Bool.not_eq_true'] at plain
  obtain ⟨⟨⟨⟨⟨⟨⟨⟨null, double⟩, single⟩, backslash⟩, expands⟩, space⟩, tab⟩, operator⟩, hash⟩ := plain
  unfold Reading.step
  simp only [null, double, single, backslash, expands, space, tab, operator, hash, ↓reduceIte,
    or_self, false_and, Bool.false_eq_true]
  rfl

theorem run_plain {word tokens} {text : List Char} (plain : ∀ char ∈ text, isPlain char = true) :
    Reading.run ⟨.plain, some word, tokens⟩ text = some ⟨.plain, some (word ++ text), tokens⟩ := by
  induction text generalizing word with
  | nil => rw [List.append_nil, run_nil]
  | cons char text ih =>
      rw [run_cons, step_plain (plain char List.mem_cons_self), Option.bind_some]
      change Reading.run ⟨.plain, some (word ++ [char]), tokens⟩ text = _
      rw [ih fun other member => plain other (List.mem_cons_of_mem _ member), List.append_assoc]
      rfl

/-- A word of plain characters, after which there is none in progress. -/
theorem run_word {tokens : List Token} {text : List Char} (filled : text ≠ [])
    (plain : ∀ char ∈ text, isPlain char = true) :
    Reading.run ⟨.plain, none, tokens⟩ text = some ⟨.plain, some text, tokens⟩ := by
  cases text with
  | nil => exact absurd rfl filled
  | cons char text =>
      rw [run_cons, step_plain (plain char List.mem_cons_self), Option.bind_some]
      exact run_plain fun other member => plain other (List.mem_cons_of_mem _ member)

/-- Words and the blank after each. -/
def spaced (words : List (List Char)) : List Char := words.flatMap fun word => word ++ [' ']

theorem run_spaced (tokens : List Token) {words : List (List Char)}
    (plain : ∀ word ∈ words, word ≠ [] ∧ ∀ char ∈ word, isPlain char = true) :
    Reading.run ⟨.plain, none, tokens⟩ (spaced words) =
      some ⟨.plain, none, tokens ++ words.map .word⟩ := by
  induction words generalizing tokens with
  | nil => rw [List.map_nil, List.append_nil]; rfl
  | cons word words ih =>
      have first := plain word List.mem_cons_self
      have shape : spaced (word :: words) = word ++ ' ' :: spaced words := by
        rw [spaced, List.flatMap_cons, List.append_assoc]
        rfl
      rw [shape, run_append, run_word first.1 first.2, Option.bind_some, run_cons]
      change Reading.run ⟨.plain, none, tokens ++ [.word word]⟩ (spaced words) = _
      rw [ih _ fun other member => plain other (List.mem_cons_of_mem _ member), List.append_assoc]
      rfl

/-- A word after whose beginning double quotes open. -/
theorem run_opening (tokens : List Token) {words : List (List Char)} {start : List Char}
    (others : ∀ word ∈ words, word ≠ [] ∧ ∀ char ∈ word, isPlain char = true)
    (filled : start ≠ []) (plain : ∀ char ∈ start, isPlain char = true) :
    Reading.run ⟨.plain, none, tokens⟩ (spaced words ++ start ++ ['"']) =
      some ⟨.double, some start, tokens ++ words.map .word⟩ := by
  rw [run_append, run_append, run_spaced _ others, Option.bind_some, run_word filled plain,
    Option.bind_some, run_cons]
  change some (⟨.double, some (start ++ []), _⟩ : Reading) = _
  rw [List.append_nil]

/-! ## What is kept between double quotes -/

/-- The text keeps its characters, after a backslash or not. -/
def keeps : Bool → List Char → Bool
  | false, [] => true
  | true, [] => false
  | false, char :: rest =>
      if char = '\\' then keeps true rest
      else decide (char ∉ ['"', '$', '`', '\x00']) && keeps false rest
  | true, char :: rest => !escapable char && char ≠ '\x00' && keeps false rest

theorem run_keeps {word : List Char} {tokens : List Token} {text : List Char}
    (kept : keeps false text = true) :
    Reading.run ⟨.double, some word, tokens⟩ text = some ⟨.double, some (word ++ text), tokens⟩ := by
  have both : (keeps false text = true → ∀ word,
      Reading.run ⟨.double, some word, tokens⟩ text =
        some ⟨.double, some (word ++ text), tokens⟩) ∧
      (keeps true text = true → ∀ word,
        Reading.run ⟨.doubleEscaped, some word, tokens⟩ text =
          some ⟨.double, some (word ++ '\\' :: text), tokens⟩) := by
    clear kept
    induction text with
    | nil =>
        refine ⟨?_, ?_⟩
        · intro _ word
          rw [List.append_nil, run_nil]
        · intro never
          cases never
    | cons char text ih =>
        refine ⟨?_, ?_⟩
        · intro kept word
          rw [keeps] at kept
          rw [run_cons]
          by_cases backslash : char = '\\'
          · rw [if_pos backslash] at kept
            subst backslash
            exact ih.2 kept word
          · rw [if_neg backslash, Bool.and_eq_true] at kept
            have plain : char ≠ '"' ∧ char ≠ '$' ∧ char ≠ '`' ∧ char ≠ '\x00' := by
              simpa using kept.1
            have moved : Reading.step ⟨.double, some word, tokens⟩ char =
                some ⟨.double, some (word ++ [char]), tokens⟩ := by
              unfold Reading.step
              simp only [plain.1, plain.2.1, plain.2.2.1, plain.2.2.2, backslash, ↓reduceIte,
                or_self]
              rfl
            rw [moved, Option.bind_some, ih.1 kept.2, List.append_assoc]
            rfl
        · intro kept word
          rw [keeps, Bool.and_eq_true, Bool.and_eq_true] at kept
          rw [run_cons]
          have plain : escapable char = false := by simpa using kept.1.1
          have null : char ≠ '\x00' := of_decide_eq_true kept.1.2
          have newline : char ≠ '\n' := by
            intro same
            rw [same] at plain
            cases plain
          have moved : Reading.step ⟨.doubleEscaped, some word, tokens⟩ char =
              some ⟨.double, some (word ++ ['\\', char]), tokens⟩ := by
            unfold Reading.step
            simp only [null, newline, plain, ↓reduceIte, Bool.false_eq_true]
            rfl
          rw [moved, Option.bind_some, ih.1 kept.2, List.append_assoc]
          rfl
  exact both.1 kept word

theorem kept_cons (other : char ≠ '\\') :
    KeptInDoubleQuotes (char :: text) ↔
      char ∉ ['"', '$', '`', '\x00'] ∧ KeptInDoubleQuotes text := by
  constructor
  · intro kept
    refine ⟨kept.chars char List.mem_cons_self, ?_, ?_⟩
    · intro later member
      exact kept.chars later (List.mem_cons_of_mem _ member)
    · intro before after split
      exact kept.backslashes (char :: before) after (by rw [split, List.cons_append])
  · rintro ⟨first, kept⟩
    refine ⟨?_, ?_⟩
    · intro later member
      rcases List.mem_cons.mp member with rfl | listed
      · exact first
      · exact kept.chars later listed
    · intro before after split
      cases before with
      | nil =>
          rw [List.nil_append, List.cons.injEq] at split
          exact absurd split.1 other
      | cons head before =>
          rw [List.cons_append, List.cons.injEq] at split
          exact kept.backslashes before after split.2

theorem kept_backslash :
    KeptInDoubleQuotes ('\\' :: char :: text) ↔
      escapable char = false ∧ char ≠ '\x00' ∧ KeptInDoubleQuotes text := by
  have stays : KeptInDoubleQuotes ('\\' :: char :: text) → escapable char = false := by
    intro kept
    obtain ⟨first, rest, same, free⟩ := kept.backslashes [] (char :: text) rfl
    cases same
    exact free
  constructor
  · intro kept
    refine ⟨stays kept, ?_, ?_, ?_⟩
    · intro null
      have member := kept.chars char (List.mem_cons_of_mem _ List.mem_cons_self)
      rw [null] at member
      exact member (by decide)
    · intro later member
      exact kept.chars later (List.mem_cons_of_mem _ (List.mem_cons_of_mem _ member))
    · intro before after split
      exact kept.backslashes ('\\' :: char :: before) after
        (by rw [split, List.cons_append, List.cons_append])
  · rintro ⟨free, null, kept⟩
    refine ⟨?_, ?_⟩
    · intro later member
      rcases List.mem_cons.mp member with rfl | listed
      · decide
      · rcases List.mem_cons.mp listed with rfl | inside
        · intro special
          simp only [List.mem_cons, List.not_mem_nil, or_false] at special
          rcases special with rfl | rfl | rfl | rfl
          · cases free
          · cases free
          · cases free
          · exact null rfl
        · exact kept.chars later inside
    · intro before after split
      rcases before with _ | ⟨head, _ | ⟨second, before⟩⟩
      · rw [List.nil_append, List.cons.injEq] at split
        exact ⟨char, text, split.2.symm, free⟩
      · rw [List.cons_append, List.nil_append, List.cons.injEq, List.cons.injEq] at split
        rw [split.2.1] at free
        cases free
      · rw [List.cons_append, List.cons_append, List.cons.injEq, List.cons.injEq] at split
        exact kept.backslashes before after split.2.2

theorem keeps_iff : ∀ text, keeps false text = true ↔ KeptInDoubleQuotes text
  | [] => by
      refine iff_of_true rfl ⟨?_, ?_⟩
      · intro char member
        cases member
      · intro before after split
        cases before <;> cases split
  | [char] => by
      by_cases backslash : char = '\\'
      · subst backslash
        refine iff_of_false (by decide) ?_
        intro kept
        obtain ⟨first, rest, same, -⟩ := kept.backslashes [] [] rfl
        cases same
      · rw [kept_cons backslash, keeps, if_neg backslash, Bool.and_eq_true, keeps_iff []]
        simp
  | char :: second :: rest => by
      by_cases backslash : char = '\\'
      · subst backslash
        rw [kept_backslash, keeps, if_pos rfl, keeps, Bool.and_eq_true, Bool.and_eq_true,
          keeps_iff rest, and_assoc]
        simp
      · rw [kept_cons backslash, keeps, if_neg backslash, Bool.and_eq_true,
          keeps_iff (second :: rest)]
        simp

/-! ## What a character adds -/

def Token.size : Token → Nat
  | .word text => text.length
  | .operator _ => 1

def sizes (tokens : List Token) : Nat := (tokens.map Token.size).sum

/-- What the characters so far may still add. -/
def Mode.pending : Mode → Nat
  | .double => 0
  | .doubleEscaped | .plain => 1
  | .escaped | .single | .comment => 2

def Reading.credit (reading : Reading) : Nat := sizes reading.closed + reading.mode.pending

theorem sizes_append (first second : List Token) :
    sizes (first ++ second) = sizes first + sizes second := by
  unfold sizes
  rw [List.map_append, List.sum_append]

theorem sizes_closed_push (reading : Reading) (mode : Mode) (chars : List Char) :
    sizes (reading.push mode chars).closed = sizes reading.closed + chars.length := by
  unfold Reading.push Reading.closed
  rw [sizes_append, sizes_append]
  cases reading.word with
  | none => simp [sizes, Token.size]
  | some word =>
      simp [sizes, Token.size]
      omega

theorem sizes_operator (reading : Reading) (char : Char) :
    sizes (reading.operator char).closed = sizes reading.closed + 1 := by
  change sizes ((reading.closed ++ [.operator char]) ++ []) = _
  rw [List.append_nil, sizes_append]
  rfl

@[simp] theorem credit_push (reading : Reading) (mode : Mode) (chars : List Char) :
    (reading.push mode chars).credit = sizes reading.closed + chars.length + mode.pending := by
  unfold Reading.credit
  rw [sizes_closed_push]
  rfl

@[simp] theorem credit_operator (reading : Reading) (char : Char) :
    (reading.operator char).credit = sizes reading.closed + 1 + 1 := by
  unfold Reading.credit
  rw [sizes_operator]
  rfl

@[simp] theorem credit_mode (reading : Reading) (mode : Mode) :
    ({ reading with mode } : Reading).credit = sizes reading.closed + mode.pending := rfl

@[simp] theorem credit_blank (reading : Reading) :
    (⟨.plain, none, reading.closed⟩ : Reading).credit = sizes reading.closed + 1 := by
  change sizes (reading.closed ++ []) + 1 = _
  rw [List.append_nil]

/-- Every character adds at most one. -/
theorem step_credit (moved : reading.step char = some next) :
    next.credit ≤ reading.credit + 1 := by
  have here : reading.credit = sizes reading.closed + reading.mode.pending := rfl
  rw [here]
  unfold Reading.step at moved
  split at moved
  · cases moved
  · cases current : reading.mode <;> rw [current] at moved <;> simp only at moved <;>
      split_ifs at moved <;> cases moved <;>
      simp only [credit_push, credit_operator, credit_mode, credit_blank, Mode.pending,
        List.length_cons, List.length_nil, here, current] <;> omega

theorem run_credit (ran : reading.run text = some last) :
    last.credit ≤ reading.credit + text.length := by
  induction text generalizing reading with
  | nil =>
      cases ran
      exact Nat.le_refl _
  | cons char text ih =>
      obtain ⟨next, moved, later⟩ := Option.bind_eq_some_iff.mp ran
      have first := step_credit moved
      have rest := ih later
      rw [List.length_cons]
      omega

/-- Between double quotes. -/
def Reading.quoted (reading : Reading) : Prop :=
  reading.mode = .double ∨ reading.mode = .doubleEscaped

/-- The step that opens double quotes takes away what was pending. -/
theorem step_opens (moved : reading.step char = some next) (outside : ¬ reading.quoted)
    (inside : next.quoted) : next.credit + 1 = reading.credit := by
  have here : reading.credit = sizes reading.closed + reading.mode.pending := rfl
  rw [here]
  unfold Reading.quoted at outside inside
  unfold Reading.step at moved
  split at moved
  · cases moved
  · cases current : reading.mode <;> rw [current] at moved outside <;> simp only at moved <;>
      split_ifs at moved <;> cases moved <;>
      simp_all [Reading.push, Reading.operator, Mode.pending]
    have opened := credit_push reading .double []
    simpa [Reading.push, Mode.pending] using opened

/-- A text that leaves double quotes and comes back adds two less than it has characters. -/
theorem run_opens (ran : reading.run text = some last) (outside : ¬ reading.quoted)
    (inside : last.quoted) : last.credit + 2 ≤ reading.credit + text.length := by
  induction text generalizing reading with
  | nil =>
      cases ran
      exact absurd inside outside
  | cons char text ih =>
      obtain ⟨next, moved, later⟩ := Option.bind_eq_some_iff.mp ran
      rw [List.length_cons]
      by_cases opened : next.quoted
      · have first := step_opens moved outside opened
        have rest := run_credit later
        omega
      · have first := step_credit moved
        have rest := ih later opened
        omega

/-- Between double quotes every character adds one only if the text is kept. -/
theorem keeps_of_exact {escaped : Bool}
    (mode : reading.mode = if escaped then .doubleEscaped else .double)
    (ran : reading.run text = some last) (ends : last.mode = .double)
    (exact : last.credit = reading.credit + text.length) : keeps escaped text = true := by
  induction text generalizing reading escaped with
  | nil =>
      cases ran
      rw [ends] at mode
      cases escaped with
      | false => rfl
      | true => cases mode
  | cons char text ih =>
      obtain ⟨next, moved, later⟩ := Option.bind_eq_some_iff.mp ran
      rw [List.length_cons] at exact
      have first := step_credit moved
      have rest := run_credit later
      have full : next.credit = reading.credit + 1 := by omega
      have others : last.credit = next.credit + text.length := by omega
      have stays : next.quoted := by
        by_contra outside
        have lost := run_opens later outside (.inl ends)
        omega
      have here : reading.credit = sizes reading.closed + reading.mode.pending := rfl
      unfold Reading.step at moved
      split at moved
      · cases moved
      next null =>
        cases escaped with
        | false =>
            rw [mode] at moved here
            simp only [Bool.false_eq_true, ↓reduceIte] at moved here
            rw [keeps]
            split at moved
            · cases moved
              exact absurd stays (by simp [Reading.quoted])
            next quote =>
              by_cases backslash : char = '\\'
              · rw [if_pos backslash] at moved ⊢
                cases moved
                exact ih rfl later others
              · rw [if_neg backslash] at moved ⊢
                split at moved
                · cases moved
                next expands =>
                  cases moved
                  rw [Bool.and_eq_true]
                  rw [not_or] at expands
                  refine ⟨by simp [quote, expands.1, expands.2, null], ?_⟩
                  exact ih rfl later others
        | true =>
            rw [mode] at moved here
            simp only [↓reduceIte] at moved here
            rw [keeps]
            split at moved
            · cases moved
              rw [credit_mode, here] at full
              change _ + 0 = _ + 1 + 1 at full
              omega
            · split at moved
              · cases moved
                rw [credit_push, here] at full
                change _ + 1 + 0 = _ + 1 + 1 at full
                omega
              next free =>
                cases moved
                rw [Bool.and_eq_true, Bool.and_eq_true]
                refine ⟨⟨by simpa using free, decide_eq_true null⟩, ?_⟩
                exact ih rfl later others

/-! ## A quoted text in a command -/

theorem run_unclosed (free : '"' ∉ text) (inside : reading.quoted)
    (ran : reading.run text = some last) : last.finish = none := by
  induction text generalizing reading with
  | nil =>
      cases ran
      unfold Reading.finish
      rcases inside with double | escaped
      · rw [double]
      · rw [escaped]
  | cons char text ih =>
      obtain ⟨next, moved, later⟩ := Option.bind_eq_some_iff.mp ran
      rw [List.mem_cons, not_or] at free
      refine ih free.2 ?_ later
      unfold Reading.step at moved
      unfold Reading.quoted at inside ⊢
      split at moved
      · cases moved
      · rcases inside with double | escaped
        · rw [double] at moved
          simp only [Ne.symm free.1, ↓reduceIte] at moved
          split_ifs at moved <;> cases moved
          · exact .inr rfl
          · exact .inl rfl
        · rw [escaped] at moved
          simp only at moved
          split_ifs at moved <;> cases moved <;> exact .inl rfl

theorem run_single (free : '\'' ∉ text) (inside : reading.mode = .single)
    (ran : reading.run text = some last) : last.finish = none := by
  induction text generalizing reading with
  | nil =>
      cases ran
      unfold Reading.finish
      rw [inside]
  | cons char text ih =>
      obtain ⟨next, moved, later⟩ := Option.bind_eq_some_iff.mp ran
      rw [List.mem_cons, not_or] at free
      refine ih free.2 ?_ later
      unfold Reading.step at moved
      rw [inside] at moved
      simp only [Ne.symm free.1, ↓reduceIte] at moved
      split_ifs at moved
      cases moved
      rfl

theorem run_comment (free : '\n' ∉ text) (inside : reading.mode = .comment)
    (ran : reading.run text = some last) : last = reading := by
  induction text generalizing reading with
  | nil =>
      cases ran
      rfl
  | cons char text ih =>
      obtain ⟨next, moved, later⟩ := Option.bind_eq_some_iff.mp ran
      rw [List.mem_cons, not_or] at free
      unfold Reading.step at moved
      rw [inside] at moved
      simp only [Ne.symm free.1, ↓reduceIte] at moved
      split_ifs at moved
      cases moved
      exact ih free.2 inside later

/-- What follows a quotation: it is read to its end, and opens and closes no quotation. -/
structure Closes (after : List Char) (rest : List Token) : Prop where
  read : ∀ reading : Reading, reading.mode = .plain →
    (reading.run after).bind Reading.finish = some (reading.closed ++ rest)
  quotes : '"' ∉ after
  singles : '\'' ∉ after
  lines : '\n' ∉ after

theorem closes_words {words : List (List Char)} {word : List Char} (filled : word ≠ [])
    (plain : ∀ char ∈ word, isPlain char = true)
    (others : ∀ word ∈ words, word ≠ [] ∧ ∀ char ∈ word, isPlain char = true) :
    Closes (' ' :: spaced words ++ word) (words.map .word ++ [.word word]) := by
  have free : ∀ char, isPlain char = false → char ≠ ' ' →
      char ∉ ' ' :: spaced words ++ word := by
    intro char special blank member
    rw [List.cons_append, List.mem_cons, List.mem_append, spaced, List.mem_flatMap] at member
    rcases member with same | ⟨other, listed, inside⟩ | inside
    · exact blank same
    · rcases List.mem_append.mp inside with inside | same
      · exact absurd ((others other listed).2 char inside) (by simp [special])
      · exact blank (List.mem_singleton.mp same)
    · exact absurd (plain char inside) (by simp [special])
  refine ⟨?_, free _ (by decide) (by decide), free _ (by decide) (by decide),
    free _ (by decide) (by decide)⟩
  rintro ⟨mode, before, tokens⟩ rfl
  rw [List.cons_append, run_cons]
  change (Reading.run ⟨.plain, none, Reading.closed ⟨.plain, before, tokens⟩⟩
    (spaced words ++ word)).bind Reading.finish = _
  rw [run_append, run_spaced _ others, Option.bind_some, run_word filled plain, Option.bind_some]
  change some (_ ++ [Token.word word]) = _
  rw [List.append_assoc]

section Quoted

variable {before name after word : List Char} {tokens others : List Token}

theorem quoted_read (opened : Reading.run {} before = some ⟨.double, some word, tokens⟩)
    (closes : Closes after others) (kept : KeptInDoubleQuotes name) :
    read (before ++ name ++ '"' :: after) =
      some (tokens ++ .word (word ++ name) :: others) := by
  unfold read
  rw [run_append, run_append, opened, Option.bind_some, run_keeps ((keeps_iff name).mpr kept),
    Option.bind_some, run_cons]
  change (Reading.run ⟨.plain, some (word ++ name), tokens⟩ after).bind Reading.finish = _
  rw [closes.read _ rfl]
  change some ((tokens ++ [Token.word (word ++ name)]) ++ others) = _
  rw [List.append_assoc]
  rfl

/-- What the name was read as, from what the whole command was read as. -/
theorem read_split (opened : Reading.run {} before = some ⟨.double, some word, tokens⟩)
    {found : List Token} (reads : read (before ++ name ++ '"' :: after) = some found) :
    ∃ middle ended last, Reading.run ⟨.double, some word, tokens⟩ name = some middle ∧
      middle.step '"' = some ended ∧ ended.run after = some last ∧ last.finish = some found := by
  unfold read at reads
  rw [run_append, run_append, opened, Option.bind_some] at reads
  obtain ⟨last, ran, finished⟩ := Option.bind_eq_some_iff.mp reads
  obtain ⟨middle, named, later⟩ := Option.bind_eq_some_iff.mp ran
  obtain ⟨ended, moved, read⟩ := Option.bind_eq_some_iff.mp later
  exact ⟨middle, ended, last, named, moved, read, finished⟩

/-- **What double quotes keep.** A command is read with the name as the rest of a quoted word, and
with nothing else changed, exactly if double quotes keep the name. -/
theorem read_quoted_iff (name : List Char)
    (opened : Reading.run {} before = some ⟨.double, some word, tokens⟩)
    (closes : Closes after others) :
    read (before ++ name ++ '"' :: after) =
      some (tokens ++ .word (word ++ name) :: others) ↔ KeptInDoubleQuotes name := by
  refine ⟨?_, quoted_read opened closes⟩
  intro reads
  obtain ⟨middle, ended, last, named, moved, ran, finished⟩ := read_split opened reads
  have started : Reading.credit ⟨.double, some word, tokens⟩ = sizes tokens + word.length := by
    change sizes (tokens ++ [Token.word word]) + 0 = _
    rw [sizes_append]
    rfl
  have most := run_credit named
  rw [started] at most
  have wanted : sizes (tokens ++ [Token.word (word ++ name)]) =
      sizes tokens + word.length + name.length := by
    rw [sizes_append]
    change sizes tokens + (word ++ name).length = _
    rw [List.length_append, Nat.add_assoc]
  -- With the rest of the command read as words, the name's part is what was read before it.
  have parts : ended.mode = .plain → ended.closed = tokens ++ [Token.word (word ++ name)] := by
    intro plain
    have all := closes.read ended plain
    rw [ran, Option.bind_some, finished] at all
    have same := Option.some.inj all
    rw [List.append_cons] at same
    exact (List.append_cancel_right same).symm
  have shown : middle.credit = sizes middle.closed + middle.mode.pending := rfl
  obtain ⟨mode, current, read⟩ := middle
  cases mode with
  | plain =>
      cases moved
      rw [run_unclosed closes.quotes (.inl rfl) ran] at finished
      cases finished
  | escaped =>
      cases moved
      have size := congrArg sizes (parts rfl)
      rw [sizes_closed_push, wanted] at size
      change _ = _ + 2 at shown
      change _ + 1 = _ at size
      omega
  | double =>
      cases moved
      have size := congrArg sizes (parts rfl)
      rw [wanted] at size
      refine (keeps_iff name).mp (keeps_of_exact rfl named rfl ?_)
      rw [started, ← size]
      rfl
  | doubleEscaped =>
      cases moved
      rw [run_unclosed closes.quotes (.inl rfl) ran] at finished
      cases finished
  | single =>
      cases moved
      rw [run_single closes.singles rfl ran] at finished
      cases finished
  | comment =>
      cases moved
      rw [run_comment closes.lines rfl ran] at finished
      have size := congrArg sizes (Option.some.inj finished)
      rw [List.append_cons, sizes_append, wanted] at size
      change _ = _ + 2 at shown
      omega

end Quoted

end Runs

end Shell
