import AmberBackup.Lib.Utf8Decoder
import AmberBackup.Restic.CheckOutput

/-! # Taking credentials out of a text

Scrubbing replaces the userinfo of each URL. It keeps to lines (`lineWise_scrub`), makes up no
character that stands for bytes that could not be read (`marks_scrub`), and changes no part of a
text in which it changes nothing (`scrub_flatten`).
-/

namespace AmberBackup

open Utf8 (marks replacement)

section Scrubbing

variable {text first second scheme userinfo later : List Char}

/-- What stands for a userinfo. -/
def mask : List Char := "://***:***@".toList

theorem mask_chars : mask = [':', '/', '/', '*', '*', '*', ':', '*', '*', '*', '@'] := by
  unfold mask
  simp only [String.reduceToList]

/-- A scheme and a userinfo that is to be masked. -/
structure IsUrl (scheme userinfo : List Char) : Prop where
  letter : scheme.head?.any Char.isAlpha = true
  scheme : ∀ char ∈ scheme, schemeChar char = true
  filled : userinfo ≠ []
  userinfo : ∀ char ∈ userinfo, userinfoChar char = true

theorem takeWhile_append_stop {accepts : Char → Bool} {taken : List Char} {stop : Char}
    (all : ∀ char ∈ taken, accepts char = true) (stops : accepts stop = false)
    (rest : List Char) :
    (taken ++ stop :: rest).takeWhile accepts = taken ∧
      (taken ++ stop :: rest).dropWhile accepts = stop :: rest := by
  rw [List.takeWhile_append_of_pos all, List.dropWhile_append_of_pos all,
    List.takeWhile_cons_of_neg (by simp [stops]), List.dropWhile_cons_of_neg (by simp [stops]),
    List.append_nil]
  exact ⟨rfl, rfl⟩

theorem urlCredentials_iff : urlCredentials text = some (scheme, userinfo) ↔
    IsUrl scheme userinfo ∧
      ∃ later, text = scheme ++ "://".toList ++ userinfo ++ '@' :: later := by
  constructor
  · intro url
    obtain ⟨split, allowed⟩ := urlCredentials_split url
    refine ⟨?_, split⟩
    unfold urlCredentials at url
    simp only at url
    split at url
    case isFalse => cases url
    case isTrue found =>
      obtain ⟨rfl, rfl⟩ := Prod.mk.inj (Option.some.inj url)
      simp only [Bool.and_eq_true, decide_eq_true_eq] at found
      obtain ⟨⟨⟨letter, colon⟩, filled⟩, -⟩ := found
      refine ⟨?_, fun char member => List.mem_takeWhile_imp member, filled, allowed⟩
      cases text with
      | nil => cases letter
      | cons first rest =>
          have accepted : schemeChar first = true := by
            unfold schemeChar Char.isAlphanum
            change first.isAlpha = true at letter
            rw [letter]
            rfl
          rw [List.takeWhile_cons_of_pos accepted]
          exact letter
  · rintro ⟨url, later, rfl⟩
    have colon : schemeChar ':' = false := by decide
    have closing : userinfoChar '@' = false := by decide
    have shape : scheme ++ "://".toList ++ userinfo ++ '@' :: later =
        scheme ++ ':' :: ("//".toList ++ (userinfo ++ '@' :: later)) := by
      simp
    obtain ⟨taken, dropped⟩ := takeWhile_append_stop url.scheme colon
      ("//".toList ++ (userinfo ++ '@' :: later))
    obtain ⟨inside, after⟩ := takeWhile_append_stop url.userinfo closing later
    have three : List.drop 3 (':' :: ("//".toList ++ (userinfo ++ '@' :: later))) =
        userinfo ++ '@' :: later := rfl
    unfold urlCredentials
    simp only
    rw [shape, taken, dropped, three, inside, after]
    rw [if_pos]
    simp only [Bool.and_eq_true, decide_eq_true_eq]
    refine ⟨⟨⟨?_, rfl⟩, url.filled⟩, rfl⟩
    cases scheme with
    | nil => exact url.letter
    | cons first scheme => exact url.letter

theorem urlCredentials_append {credentials : List Char × List Char}
    (found : urlCredentials text = some credentials) (rest : List Char) :
    urlCredentials (text ++ rest) = some credentials := by
  obtain ⟨url, later, rfl⟩ := urlCredentials_iff.mp found
  refine urlCredentials_iff.mpr ⟨url, later ++ rest, ?_⟩
  rw [List.append_assoc, List.cons_append]

theorem scrub_of_none {first : Char} {rest : List Char}
    (plain : urlCredentials (first :: rest) = none) :
    scrubSecretsInText (first :: rest) = first :: scrubSecretsInText rest := by
  unfold scrubSecretsInText
  rw [scrubFrom, plain]

theorem scrub_of_some (url : urlCredentials (scheme ++ "://".toList ++ userinfo ++ '@' :: later) =
    some (scheme, userinfo)) :
    scrubSecretsInText (scheme ++ "://".toList ++ userinfo ++ '@' :: later) =
      scheme ++ mask ++ scrubSecretsInText later := by
  unfold scrubSecretsInText
  generalize whole : scheme ++ "://".toList ++ userinfo ++ '@' :: later = text at url ⊢
  cases text with
  | nil => cases url
  | cons first rest =>
      have dropped : rest.drop (scheme.length + 3 + userinfo.length) = later := by
        have after := congrArg (List.drop (scheme.length + 3 + userinfo.length + 1)) whole
        rw [List.drop_succ_cons, List.append_cons] at after
        rw [← after]
        apply List.drop_left'
        simp only [List.length_append, List.length_cons, List.length_nil]
        rfl
      rw [scrubFrom, url]
      change scheme ++ mask ++ scrubFrom _ rest = _
      rw [scrubFrom_drop, dropped]

/-- A text is scrubbed character by character, and URL by URL. -/
@[elab_as_elim]
theorem scrub_induction {motive : List Char → Prop} (nil : motive [])
    (plain : ∀ first rest, urlCredentials (first :: rest) = none → motive rest →
      motive (first :: rest))
    (url : ∀ scheme userinfo later,
      urlCredentials (scheme ++ "://".toList ++ userinfo ++ '@' :: later) =
        some (scheme, userinfo) →
      motive later → motive (scheme ++ "://".toList ++ userinfo ++ '@' :: later))
    (text : List Char) : motive text := by
  induction size : text.length using Nat.strongRecOn generalizing text with
  | ind length ih =>
      cases text with
      | nil => exact nil
      | cons first rest =>
          cases found : urlCredentials (first :: rest) with
          | none => exact plain first rest found (ih _ (by simp at size; omega) rest rfl)
          | some credentials =>
              obtain ⟨scheme, userinfo⟩ := credentials
              obtain ⟨⟨later, split⟩, -⟩ := urlCredentials_split found
              rw [split] at found ⊢
              have shorter : later.length < length := by
                rw [← size, split, List.length_append, List.length_append, List.length_append,
                  List.length_cons]
                omega
              exact url scheme userinfo later found (ih _ shorter _ rfl)

theorem marks_scrub (text : List Char) : marks (scrubSecretsInText text) ≤ marks text := by
  induction text using scrub_induction with
  | nil => exact Nat.le_refl _
  | plain first rest absent ih =>
      rw [scrub_of_none absent, ← List.singleton_append, Utf8.marks_append,
        ← List.singleton_append (l := rest), Utf8.marks_append]
      exact Nat.add_le_add_left ih _
  | url scheme userinfo later found ih =>
      have none : marks mask = 0 := by
        rw [mask_chars]
        decide
      rw [scrub_of_some found, List.append_cons]
      simp only [Utf8.marks_append, none]
      omega

/-! ## Lines -/

/-- A URL ends with its line. -/
theorem urlCredentials_line (line rest : List Char) :
    urlCredentials (line ++ '\n' :: rest) = urlCredentials line := by
  cases found : urlCredentials line with
  | some credentials => exact urlCredentials_append found _
  | none =>
      cases other : urlCredentials (line ++ '\n' :: rest) with
      | none => rfl
      | some credentials =>
          obtain ⟨scheme, userinfo⟩ := credentials
          obtain ⟨url, later, split⟩ := urlCredentials_iff.mp other
          have inside : '\n' ∉ scheme ++ "://".toList ++ userinfo ++ ['@'] := by
            simp only [List.mem_append, not_or]
            refine ⟨⟨⟨?_, by decide⟩, ?_⟩, by decide⟩
            · intro member
              exact absurd (url.scheme _ member) (by decide)
            · intro member
              exact absurd (url.userinfo _ member) (by decide)
          have none : ∀ rest, line ≠ scheme ++ "://".toList ++ userinfo ++ '@' :: rest := by
            intro rest same
            rw [urlCredentials_iff.mpr ⟨url, rest, same⟩] at found
            cases found
          rw [List.append_cons _ '@'] at split
          rcases List.append_eq_append_iff.mp split with
            ⟨middle, same, after⟩ | ⟨middle, same, -⟩
          · cases middle with
            | nil =>
                rw [List.append_nil] at same
                exact absurd same.symm (none [])
            | cons next others =>
                -- the URL would reach beyond the line feed
                obtain ⟨rfl, -⟩ := List.cons.inj after
                rw [same] at inside
                exact absurd (List.mem_append_right _ List.mem_cons_self) inside
          · rw [← List.append_cons] at same
            exact absurd same (none middle)

theorem scrub_line (line rest : List Char) :
    scrubSecretsInText (line ++ '\n' :: rest) =
      scrubSecretsInText line ++ '\n' :: scrubSecretsInText rest := by
  induction line using scrub_induction with
  | nil =>
      have feed : urlCredentials ('\n' :: rest) = none := urlCredentials_line [] rest
      rw [List.nil_append, scrub_of_none feed]
      rfl
  | plain first line absent ih =>
      have still : urlCredentials (first :: (line ++ '\n' :: rest)) = none :=
        (urlCredentials_line (first :: line) rest).trans absent
      rw [List.cons_append, scrub_of_none still, ih, scrub_of_none absent]
      rfl
  | url scheme userinfo later found ih =>
      have still := urlCredentials_append found ('\n' :: rest)
      rw [List.append_assoc, List.cons_append] at still ⊢
      rw [scrub_of_some still, ih, scrub_of_some found, List.append_assoc (scheme ++ mask)]

theorem lineWise_scrub : LineBuffer.LineWise '\n' '\n' scrubSecretsInText := by
  refine ⟨?_, fun line rest _ => scrub_line line rest⟩
  intro line
  induction line using scrub_induction with
  | nil => exact id
  | plain first rest absent ih =>
      intro line
      rw [scrub_of_none absent]
      intro member
      rcases List.mem_cons.mp member with rfl | later
      · exact line List.mem_cons_self
      · exact ih (fun inside => line (List.mem_cons_of_mem _ inside)) later
  | url scheme userinfo later found ih =>
      intro line
      rw [scrub_of_some found]
      intro member
      rcases List.mem_append.mp member with early | after
      · rcases List.mem_append.mp early with inside | masked
        · exact line (List.mem_append_left _ (List.mem_append_left _
            (List.mem_append_left _ inside)))
        · rw [mask_chars] at masked
          exact absurd masked (by decide)
      · refine ih ?_ after
        intro inside
        exact line (List.mem_append_right _ (List.mem_cons_of_mem _ inside))

/-! ## Texts without credentials -/

theorem urlCredentials_of_colon (absent : ':' ∉ text) : urlCredentials text = none := by
  cases found : urlCredentials text with
  | none => rfl
  | some credentials =>
      obtain ⟨-, later, rfl⟩ := urlCredentials_iff.mp found
      refine absurd ?_ absent
      exact List.mem_append_left _ (List.mem_append_left _ (List.mem_append_right _ (by decide)))

theorem scrub_of_colon (absent : ':' ∉ text) : scrubSecretsInText text = text := by
  induction text with
  | nil => rfl
  | cons first rest ih =>
      rw [scrub_of_none (urlCredentials_of_colon absent),
        ih fun member => absent (List.mem_cons_of_mem _ member)]

/-- Scrubbing leaves a colon wherever it changes something. -/
theorem scrub_of_colon_scrub (absent : ':' ∉ scrubSecretsInText text) :
    scrubSecretsInText text = text := by
  induction text using scrub_induction with
  | nil => rfl
  | plain first rest none ih =>
      rw [scrub_of_none none] at absent ⊢
      rw [ih fun member => absent (List.mem_cons_of_mem _ member)]
  | url scheme userinfo later found ih =>
      rw [scrub_of_some found] at absent
      refine absurd ?_ absent
      exact List.mem_append_left _ (List.mem_append_right _ (by decide))

theorem scrub_single (char : Char) : scrubSecretsInText [char] = [char] := by
  have none : urlCredentials [char] = none := by
    cases found : urlCredentials [char] with
    | none => rfl
    | some credentials =>
        obtain ⟨-, later, split⟩ := urlCredentials_iff.mp found
        have long := congrArg List.length split
        have three : "://".toList.length = 3 := rfl
        simp only [List.length_append, List.length_cons, List.length_nil, three] at long
        omega
  rw [scrub_of_none none]
  rfl

/-! ## Parts of a scrubbed text -/

def masked : List Char := "***:***".toList

theorem masked_chars : masked = ['*', '*', '*', ':', '*', '*', '*'] := by
  unfold masked
  simp only [String.reduceToList]

theorem mask_eq : mask = "://".toList ++ masked ++ ['@'] := by
  rw [mask_chars, masked_chars]
  rfl

theorem append_mask (scheme later : List Char) :
    scheme ++ mask ++ later = scheme ++ "://".toList ++ masked ++ '@' :: later := by
  rw [mask_eq]
  simp only [List.append_assoc, List.singleton_append]

theorem masked_allowed : ∀ char ∈ masked, userinfoChar char = true := by
  have all : masked.all userinfoChar = true := by
    rw [masked_chars]
    decide
  exact List.all_eq_true.mp all

theorem mask_not_letter : ∀ char ∈ mask, char.isAlpha = false := by
  have all : (mask.all fun char => !char.isAlpha) = true := by
    rw [mask_chars]
    decide
  intro char member
  have other := List.all_eq_true.mp all char member
  simpa using other

theorem masked_filled : masked ≠ [] := by
  rw [masked_chars]
  exact List.cons_ne_nil _ _

/-- A URL that is not changed has its userinfo masked already. -/
theorem masked_of_scrubbed (url : IsUrl scheme userinfo)
    (same : scheme ++ mask ++ second = scheme ++ "://".toList ++ userinfo ++ '@' :: first) :
    userinfo = masked ∧ second = first := by
  have closing : userinfoChar '@' = false := by decide
  rw [append_mask] at same
  simp only [List.append_assoc] at same
  have tails := List.append_cancel_left (List.append_cancel_left same)
  obtain ⟨taken, dropped⟩ := takeWhile_append_stop masked_allowed closing second
  obtain ⟨inside, after⟩ := takeWhile_append_stop url.userinfo closing first
  rw [tails] at taken dropped
  exact ⟨inside.symm.trans taken, (List.cons.inj (dropped.symm.trans after)).2⟩

theorem scrub_cons_of_not_letter {first : Char} (other : first.isAlpha = false) (rest : List Char) :
    scrubSecretsInText (first :: rest) = first :: scrubSecretsInText rest := by
  refine scrub_of_none ?_
  unfold urlCredentials
  simp only [List.head?_cons, Option.any_some, other, Bool.false_and, Bool.false_eq_true, if_false]

/-- A masked URL is not changed, nor is it if its scheme is cut. -/
theorem scrub_masked (allowed : ∀ char ∈ scheme, schemeChar char = true)
    (same : scrubSecretsInText later = later) :
    scrubSecretsInText (scheme ++ mask ++ later) = scheme ++ mask ++ later := by
  induction scheme with
  | nil =>
      have plain : ∀ text : List Char, (∀ char ∈ text, char.isAlpha = false) →
          scrubSecretsInText (text ++ later) = text ++ later := by
        intro text others
        induction text with
        | nil => exact same
        | cons first rest ih =>
            rw [List.cons_append, scrub_cons_of_not_letter (others first List.mem_cons_self),
              ih fun char member => others char (List.mem_cons_of_mem _ member)]
      exact plain mask mask_not_letter
  | cons first scheme ih =>
      by_cases letter : first.isAlpha = true
      · have url : urlCredentials (first :: scheme ++ "://".toList ++ masked ++ '@' :: later) =
            some (first :: scheme, masked) :=
          urlCredentials_iff.mpr ⟨⟨letter, allowed, masked_filled, masked_allowed⟩, later, rfl⟩
        have read := scrub_of_some url
        rw [same] at read
        rwa [← append_mask] at read
      · rw [List.cons_append, List.cons_append,
          scrub_cons_of_not_letter (Bool.not_eq_true _ ▸ letter),
          ih fun char member => allowed char (List.mem_cons_of_mem _ member)]

theorem scrub_tail {first : Char} {rest : List Char}
    (same : scrubSecretsInText (first :: rest) = first :: rest) :
    scrubSecretsInText rest = rest := by
  generalize whole : first :: rest = text at same
  induction text using scrub_induction with
  | nil => cases whole
  | plain head tail none _ =>
      obtain ⟨-, rfl⟩ := List.cons.inj whole
      rw [scrub_of_none none] at same
      exact (List.cons.inj same).2
  | url scheme userinfo later found _ =>
      obtain ⟨url, -⟩ := urlCredentials_iff.mp found
      rw [scrub_of_some found] at same
      obtain ⟨rfl, after⟩ := masked_of_scrubbed url same
      cases scheme with
      | nil => exact absurd url.letter (by decide)
      | cons head scheme =>
          have shape : head :: scheme ++ "://".toList ++ masked ++ '@' :: later =
              head :: (scheme ++ mask ++ later) :=
            (append_mask (head :: scheme) later).symm
          rw [shape] at whole
          obtain ⟨-, rfl⟩ := List.cons.inj whole
          refine scrub_masked ?_ after
          intro char member
          exact url.scheme char (List.mem_cons_of_mem _ member)

theorem scrub_suffix (same : scrubSecretsInText (first ++ second) = first ++ second) :
    scrubSecretsInText second = second := by
  induction first with
  | nil => exact same
  | cons head first ih => exact ih (scrub_tail same)

theorem scrub_prefix (same : scrubSecretsInText (first ++ second) = first ++ second) :
    scrubSecretsInText first = first := by
  induction first using scrub_induction with
  | nil => rfl
  | plain head rest none ih => rw [scrub_of_none none, ih (scrub_tail same)]
  | url scheme userinfo later found ih =>
      have still := urlCredentials_append found second
      obtain ⟨url, -⟩ := urlCredentials_iff.mp found
      rw [List.append_assoc, List.cons_append] at still same
      rw [scrub_of_some still] at same
      obtain ⟨rfl, after⟩ := masked_of_scrubbed url same
      rw [scrub_of_some found, ih after]
      exact append_mask scheme later

/-- Scrubbing changes no part of a text in which it changes nothing. -/
theorem scrub_flatten (parts : List (List Char))
    (same : scrubSecretsInText parts.flatten = parts.flatten) :
    parts.flatMap scrubSecretsInText = parts.flatten := by
  induction parts with
  | nil => rfl
  | cons part parts ih =>
      rw [List.flatten_cons] at same ⊢
      rw [List.flatMap_cons, scrub_prefix same, ih (scrub_suffix same)]

end Scrubbing

end AmberBackup
