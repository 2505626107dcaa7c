import AmberBackup.Lib.PercentCoding

/-! # Hosts of URLs

The host of a URL is a name or an address in brackets, with a port. A name is read back from what
is printed of it, an address exactly if its zone is ASCII (`parseHost_escape_literal`): bytes of
a zone that are not are printed as escapes that no zone may have.
-/

namespace NetUrl

open Utf8 (Bytes isAscii)

/-! ## Pieces of a text -/

/-- Around the first separator. -/
def cut (separator : UInt8) (text : Bytes) : Bytes × Bytes :=
  (text.takeWhile (· ≠ separator), (text.dropWhile (· ≠ separator)).drop 1)

/-- Around the last separator. -/
def lastCut (separator : UInt8) : Bytes → Option (Bytes × Bytes)
  | [] => none
  | c :: rest =>
      match lastCut separator rest with
      | some (before, after) => some (c :: before, after)
      | none => if c = separator then some ([], rest) else none

/-- In front of the first escaped percent sign. -/
def cutZone : Bytes → Option (Bytes × Bytes)
  | [] => none
  | c :: rest =>
      if (bytesOf "%25").isPrefixOf (c :: rest) then some ([], c :: rest)
      else (cutZone rest).map fun (before, zone) => (c :: before, zone)

/-! ## Reading a host -/

/-- What a release requires of a host besides: of the text in brackets, and of a host without
brackets. -/
structure HostRules where
  literal : Bytes → Bool
  name : Bytes → Bool

/-- A port with its colon, or nothing. -/
def validOptionalPort : Bytes → Bool
  | [] => true
  | c :: digits => c = byte ':' && digits.all isDigit

/-- The text between brackets, which may end in a zone. -/
def unescapeLiteral (text : Bytes) : Except ParseError Bytes :=
  match cutZone text with
  | none => unescape .host text
  | some (address, zone) => do
      let address ← unescape .host address
      let zone ← unescape .zone zone
      return address ++ zone

def parseHost (rules : HostRules) (host : Bytes) : Except ParseError Bytes :=
  if host.head? = some (byte '[') then
    match lastCut (byte ']') host with
    | none => .error .missingBracket
    | some (before, port) =>
        if !validOptionalPort port then .error (.invalidPort port)
        else do
          let literal ← unescapeLiteral before
          let port ← unescape .host (byte ']' :: port)
          if rules.literal (literal.drop 1) then return literal ++ port
          else throw (.invalidHost (literal ++ port))
  else
    match lastCut (byte ':') host with
    | some (_, digits) =>
        if !digits.all isDigit then .error (.invalidPort (byte ':' :: digits)) else name
    | none => name
where
  name : Except ParseError Bytes := do
    let host ← unescape .host host
    if rules.name host then return host else throw (.invalidHost host)

def stripBrackets (host : Bytes) : Bytes :=
  if host.head? = some (byte '[') && host.getLast? = some (byte ']') then (host.drop 1).dropLast
  else host

/-- A host without its port and brackets. -/
def hostnameOf (host : Bytes) : Bytes :=
  match lastCut (byte ':') host with
  | some (before, digits) => if digits.all isDigit then stripBrackets before else stripBrackets host
  | none => stripBrackets host

/-! ## Separators -/

section Pieces

variable {separator c : UInt8} {text before after zone rest : Bytes}

theorem lastCut_eq_none : lastCut separator text = none ↔ separator ∉ text := by
  induction text with
  | nil => exact iff_of_true rfl List.not_mem_nil
  | cons c text ih =>
      rw [lastCut]
      cases found : lastCut separator text with
      | some pieces =>
          refine iff_of_false (Option.some_ne_none _) ?_
          rw [found] at ih
          have inside : separator ∈ text := by
            by_contra absent
            cases ih.mpr absent
          exact not_not.mpr (List.mem_cons_of_mem _ inside)
      | none =>
          have absent := ih.mp found
          by_cases same : c = separator
          · simp [same]
          · simp [same, absent, Ne.symm same]

theorem lastCut_append (absent : separator ∉ after) (before : Bytes) :
    lastCut separator (before ++ separator :: after) = some (before, after) := by
  induction before with
  | nil =>
      rw [List.nil_append, lastCut, lastCut_eq_none.mpr absent]
      exact if_pos rfl
  | cons c before ih => rw [List.cons_append, lastCut, ih]

theorem eq_of_lastCut (found : lastCut separator text = some (before, after)) :
    text = before ++ separator :: after ∧ separator ∉ after := by
  induction text generalizing before with
  | nil => cases found
  | cons c text ih =>
      rw [lastCut] at found
      cases inner : lastCut separator text with
      | some pieces =>
          rw [inner] at found
          cases found
          obtain ⟨split, absent⟩ := ih inner
          exact ⟨congrArg (c :: ·) split, absent⟩
      | none =>
          rw [inner] at found
          simp only [Option.ite_none_right_eq_some, Option.some.injEq, Prod.mk.injEq] at found
          obtain ⟨rfl, rfl, rfl⟩ := found
          exact ⟨rfl, lastCut_eq_none.mp inner⟩

theorem cutZone_cons (other : (bytesOf "%25").isPrefixOf (c :: rest) = false) :
    cutZone (c :: rest) = (cutZone rest).map fun pieces => (c :: pieces.1, pieces.2) := by
  rw [cutZone, if_neg (by simp [other])]

theorem cutZone_marked (marked : (bytesOf "%25").isPrefixOf text = true) :
    cutZone text = some ([], text) := by
  cases text with
  | nil => cases marked
  | cons c rest => exact if_pos marked

theorem not_marked (other : c ≠ byte '%') (rest : Bytes) :
    (bytesOf "%25").isPrefixOf (c :: rest) = false := by
  change (byte '%' == c && _) = false
  rw [beq_false_of_ne (Ne.symm other), Bool.false_and]

/-- In front of the zone there is no escaped percent sign. -/
structure CutZone (text before zone : Bytes) : Prop where
  split : text = before ++ zone
  zone : zone = [] ∨ (bytesOf "%25").isPrefixOf zone = true
  before : ¬ bytesOf "%25" <:+: before

theorem not_infix_cons (zone : Bytes)
    (other : (bytesOf "%25").isPrefixOf (c :: before ++ zone) = false)
    (later : ¬ bytesOf "%25" <:+: before) : ¬ bytesOf "%25" <:+: c :: before := by
  rw [List.infix_cons_iff]
  rintro (front | inside)
  · have longer : bytesOf "%25" <+: c :: before ++ zone :=
      front.trans (List.prefix_append _ _)
    rw [← List.isPrefixOf_iff_prefix, other] at longer
    cases longer
  · exact later inside

theorem cutZone_cases (text : Bytes) :
    (cutZone text = none ∧ CutZone text text []) ∨
      ∃ before zone, cutZone text = some (before, zone) ∧ zone ≠ [] ∧ CutZone text before zone := by
  induction text with
  | nil => exact .inl ⟨rfl, rfl, .inl rfl, by decide +kernel⟩
  | cons c text ih =>
      by_cases marked : (bytesOf "%25").isPrefixOf (c :: text) = true
      · exact .inr ⟨[], c :: text, cutZone_marked marked, List.cons_ne_nil _ _, rfl, .inr marked,
          by decide +kernel⟩
      · rw [Bool.not_eq_true] at marked
        rw [cutZone_cons marked]
        rcases ih with ⟨absent, whole⟩ | ⟨before, zone, found, filled, pieces⟩
        · rw [absent]
          refine .inl ⟨rfl, (List.append_nil _).symm, .inl rfl, ?_⟩
          exact not_infix_cons [] (by rwa [List.append_nil]) whole.before
        · rw [found]
          refine .inr ⟨c :: before, zone, rfl, filled, congrArg (c :: ·) pieces.split, pieces.zone,
            not_infix_cons zone ?_ pieces.before⟩
          rwa [List.cons_append, ← pieces.split]

end Pieces

/-! ## Hosts -/

/-- A byte that may stand in a host, as it is or escaped. -/
def isHostByte (c : UInt8) : Bool := !shouldEscape c .host || !isAscii c

section Hosts

variable {rules : HostRules} {c : UInt8} {text value before rest host address zone port : Bytes}

theorem isHostByte_of_plain (plain : shouldEscape c .host = false) : isHostByte c = true := by
  unfold isHostByte
  rw [plain]
  rfl

/-- A byte of a host that is printed escaped is not ASCII. -/
theorem not_ascii_of_hostByte (hostByte : isHostByte c = true)
    (escaped : shouldEscape c .host = true) : isAscii c = false := by
  simpa [isHostByte, escaped] using hostByte

theorem highDigit_ne_two (other : isAscii c = false) : highDigit c ≠ byte '2' := by
  intro same
  have large := unhex_highDigit other
  rw [same] at large
  exact large (by decide)

theorem host_readsBack (hostByte : isHostByte c = true ∨ c = byte '%') :
    readsBack .host .host c = true := by
  rcases hostByte with plain | rfl
  · unfold readsBack
    split
    next escaped =>
      have large := unhex_highDigit (not_ascii_of_hostByte plain escaped)
      simp only [refusesEscape, large, decide_false, Bool.and_false, Bool.not_false]
    next whole =>
      simp only [refusesByte, Bool.eq_false_iff.mpr whole, Bool.and_false, Bool.not_false]
  · decide +kernel

/-- Bytes of a zone that are not ASCII are printed escaped, and then refused. -/
theorem zone_readsBack (zoneByte : isHostByte c = true ∨ c = byte '%' ∨ c = byte ' ') :
    readsBack .host .zone c = isAscii c := by
  rcases zoneByte with plain | rfl | rfl
  · unfold readsBack
    split
    next escaped =>
      have other := not_ascii_of_hostByte plain escaped
      have space : c ≠ byte ' ' := by
        rintro rfl
        exact absurd other (by decide)
      simp only [refusesEscape, (percent_reads c).2.2, highDigit_ne_two other, decide_false,
        Bool.false_and, Bool.not_false, Bool.true_and, ne_eq, space, not_false_eq_true,
        decide_true, escaped, other, Bool.not_true]
    next whole =>
      have same := Bool.eq_false_iff.mpr whole
      simp only [refusesByte, shouldEscape_zone, same, Bool.and_false, Bool.not_false,
        isAscii_of_plain same]
  · decide +kernel
  · decide +kernel

theorem path_readsBack (c : UInt8) : readsBack .path .path c = true := by
  unfold readsBack refusesEscape refusesByte
  simp

/-- What an escape in a host stands for. -/
theorem host_escape {high low : UInt8}
    (accepted : refusesEscape .host high low = false) :
    high = byte '2' ∧ low = byte '5' ∨ isAscii (hexByte high low) = false := by
  by_cases mark : high = byte '2' ∧ low = byte '5'
  · exact .inl mark
  · right
    have large : ¬ unhex high < 8 := by
      simp only [refusesEscape, Bool.and_eq_false_iff, Bool.not_eq_false', Bool.and_eq_true,
        decide_eq_true_eq, decide_eq_false_iff_not] at accepted
      exact accepted.resolve_left mark
    exact isAscii_hexByte large

theorem isHostByte_of_accepted {mode : Encoding} (hostMode : mode = .host ∨ mode = .zone)
    (accepted : refusesByte mode c = false) : isHostByte c = true := by
  unfold isHostByte
  cases escaped : shouldEscape c .host with
  | false => rfl
  | true =>
      rcases hostMode with rfl | rfl
      · simpa [refusesByte, escaped] using accepted
      · simpa [refusesByte, shouldEscape_zone, escaped] using accepted

theorem host_bytes (read : unescape .host text = .ok value) :
    ∀ c ∈ value, isHostByte c = true ∨ c = byte '%' := by
  refine unescape_induction (motive := fun _ value => ∀ c ∈ value, isHostByte c = true ∨ c = byte '%')
    (List.forall_mem_nil _) ?_ ?_ read
  · intro high low others value accepted isHigh isLow later
    refine List.forall_mem_cons.mpr ⟨?_, later⟩
    rcases host_escape accepted with ⟨rfl, rfl⟩ | other
    · exact .inr (by decide)
    · exact .inl (by simp [isHostByte, other])
  · intro c rest value _ accepted later
    exact List.forall_mem_cons.mpr ⟨.inl (isHostByte_of_accepted (.inl rfl) accepted), later⟩

/-- A percent sign in a host stands for `%25`. -/
theorem percent_not_mem (read : unescape .host text = .ok value)
    (unmarked : ¬ bytesOf "%25" <:+: text) : byte '%' ∉ value := by
  refine unescape_induction
    (motive := fun text value => ¬ bytesOf "%25" <:+: text → byte '%' ∉ value)
    (fun _ => List.not_mem_nil) ?_ ?_ read unmarked
  · intro high low others value accepted isHigh isLow later unmarked member
    rcases host_escape accepted with ⟨rfl, rfl⟩ | other
    · exact unmarked ⟨[], others, rfl⟩
    · rcases List.mem_cons.mp member with same | inside
      · rw [← same] at other
        exact absurd other (by decide)
      · refine later (fun found => unmarked ?_) inside
        exact found.trans (List.suffix_append [byte '%', high, low] others).isInfix
  · intro c rest value other _ later unmarked member
    rcases List.mem_cons.mp member with same | inside
    · exact other same.symm
    · exact later (fun found => unmarked (found.trans (List.suffix_cons c rest).isInfix)) inside

/-- What an escape in a zone stands for. -/
theorem zone_escape {high low : UInt8} (accepted : refusesEscape .zone high low = false) :
    high = byte '2' ∧ low = byte '5' ∨ hexByte high low = byte ' ' ∨
      shouldEscape (hexByte high low) .host = false := by
  by_cases mark : high = byte '2' ∧ low = byte '5'
  · exact .inl mark
  · right
    simp only [refusesEscape, Bool.and_eq_false_iff, Bool.not_eq_false', Bool.and_eq_true,
      decide_eq_true_eq, decide_eq_false_iff_not, not_not] at accepted
    exact accepted.resolve_left mark

theorem zone_bytes (read : unescape .zone text = .ok value) :
    ∀ c ∈ value, isHostByte c = true ∨ c = byte '%' ∨ c = byte ' ' := by
  refine unescape_induction
    (motive := fun _ value => ∀ c ∈ value, isHostByte c = true ∨ c = byte '%' ∨ c = byte ' ')
    (List.forall_mem_nil _) ?_ ?_ read
  · intro high low others value accepted _ _ later
    refine List.forall_mem_cons.mpr ⟨?_, later⟩
    rcases zone_escape accepted with ⟨rfl, rfl⟩ | space | plain
    · exact .inr (.inl (by decide))
    · exact .inr (.inr space)
    · exact .inl (by simp [isHostByte, plain])
  · intro c rest value _ accepted later
    exact List.forall_mem_cons.mpr ⟨.inl (isHostByte_of_accepted (.inr rfl) accepted), later⟩

/-- Escapes in a zone stand for ASCII bytes. -/
theorem zone_lowersToAscii {lower : Char → Char} (table : Utf8.LowerTable lower)
    (read : unescape .zone text = .ok value) :
    Utf8.LowersToAscii lower text ↔ Utf8.LowersToAscii lower value := by
  refine unescape_induction (motive := fun text value => ∀ front,
    Utf8.LowersToAscii lower (front ++ text) ↔ Utf8.LowersToAscii lower (front ++ value))
    (fun _ => Iff.rfl) ?_ ?_ read []
  · intro high low others value accepted isHigh isLow later front
    have isByte : isAscii (hexByte high low) = true := by
      rcases zone_escape accepted with ⟨rfl, rfl⟩ | space | plain
      · decide
      · rw [space]
        decide
      · exact isAscii_of_plain plain
    have nothing : Utf8.LowersToAscii lower [] := List.forall_mem_nil _
    rw [Utf8.lowersToAscii_append table isByte,
      Utf8.lowersToAscii_append table (show isAscii (byte '%') = true by decide)]
    have skipped : Utf8.LowersToAscii lower (high :: low :: others) ↔
        Utf8.LowersToAscii lower others := by
      have first := Utf8.lowersToAscii_append table (isAscii_of_isHex isHigh) [] (low :: others)
      have second := Utf8.lowersToAscii_append table (isAscii_of_isHex isLow) [] others
      exact first.trans ((and_iff_right nothing).trans (second.trans (and_iff_right nothing)))
    rw [skipped]
    exact and_congr_right fun _ => later []
  · intro c rest value _ _ later front
    have whole := later (front ++ [c])
    simpa only [List.append_assoc, List.singleton_append] using whole

theorem escape_plain {mode : Encoding} (plain : ∀ c ∈ text, shouldEscape c mode = false) :
    escape mode text = text := by
  induction text with
  | nil => rfl
  | cons c text ih =>
      rw [escape_cons, plain c List.mem_cons_self,
        ih fun other member => plain other (List.mem_cons_of_mem _ member)]
      rfl

/-- A byte that no escape of a text has and that is escaped itself is not printed. -/
theorem mem_escape {mode : Encoding} (member : c ∈ escape mode text) :
    c ∈ text ∧ shouldEscape c mode = false ∨ c = byte '%' ∨ isHex c = true := by
  obtain ⟨printed, inside, at_byte⟩ := List.mem_flatMap.mp member
  split at at_byte
  case isTrue special =>
    obtain ⟨high, low, -⟩ := percent_reads printed
    simp only [percent, List.mem_cons, List.not_mem_nil, or_false] at at_byte
    rcases at_byte with rfl | rfl | rfl
    · exact .inr (.inl rfl)
    · exact .inr (.inr high)
    · exact .inr (.inr low)
  case isFalse plain =>
    rw [List.mem_singleton.mp at_byte]
    exact .inl ⟨inside, by simpa using plain⟩

/-- What follows the last colon is a number. -/
def portOk (host : Bytes) : Bool := (lastCut (byte ':') host).all fun pieces => pieces.2.all isDigit

/-- A host without brackets in front. -/
structure NameHost (host : Bytes) : Prop where
  bytes : ∀ c ∈ host, isHostByte c = true ∨ c = byte '%'
  front : host.head? ≠ some (byte '[')
  port : portOk host = true

/-- An address in brackets, with its zone. -/
structure LiteralHost (address zone port host : Bytes) : Prop where
  text : host = byte '[' :: (address ++ zone) ++ byte ']' :: port
  address : ∀ c ∈ address, isHostByte c = true ∧ c ≠ byte '%'
  marked : zone = [] ∨ zone.head? = some (byte '%')
  bytes : ∀ c ∈ zone, isHostByte c = true ∨ c = byte '%' ∨ c = byte ' '
  port : validOptionalPort port = true

/-- The zone of a host, as it is written. -/
def zoneText (host : Bytes) : Bytes :=
  if host.head? = some (byte '[') then
    match lastCut (byte ']') host with
    | some (before, _) =>
        match cutZone before with
        | some (_, zone) => zone
        | none => []
    | none => []
  else []

theorem port_plain (valid : validOptionalPort port = true) :
    (∀ c ∈ port, shouldEscape c .host = false) ∧ byte ']' ∉ port ∧
      unescape .host (byte ']' :: port) = .ok (byte ']' :: port) := by
  have portByte : ∀ c ∈ port, c = byte ':' ∨ isDigit c = true := by
    cases port with
    | nil => exact List.forall_mem_nil _
    | cons c digits =>
        obtain ⟨colon, all⟩ := Bool.and_eq_true_iff.mp valid
        exact List.forall_mem_cons.mpr ⟨.inl (of_decide_eq_true colon),
          fun other member => .inr (List.all_eq_true.mp all other member)⟩
  have plain : ∀ c ∈ port, shouldEscape c .host = false := by
    intro c member
    rcases portByte c member with rfl | digit
    · decide +kernel
    · exact shouldEscape_of_isDigit digit .host
  refine ⟨plain, ?_, ?_⟩
  · intro member
    rcases portByte _ member with same | digit
    · exact absurd same (by decide)
    · exact absurd digit (by decide)
  · have whole : ∀ c ∈ byte ']' :: port, shouldEscape c .host = false :=
      List.forall_mem_cons.mpr ⟨by decide +kernel, plain⟩
    have read := @unescape_escape .host .host (byte ']' :: port) fun c member =>
      host_readsBack (.inl (by simp [isHostByte, whole c member]))
    rwa [escape_plain whole] at read

/-- What the text in front of the closing bracket is read as. -/
theorem unescapeLiteral_cases (read : unescapeLiteral text = .ok value) :
    ∃ front rawZone, cutZone text = (if rawZone = [] then none else some (front, rawZone)) ∧
      CutZone text front rawZone ∧ ∃ address zone, unescape .host front = .ok address ∧
        unescape .zone rawZone = .ok zone ∧ value = address ++ zone := by
  unfold unescapeLiteral at read
  rcases cutZone_cases text with ⟨absent, whole⟩ | ⟨front, rawZone, found, filled, pieces⟩
  · rw [absent] at read
    exact ⟨text, [], absent, whole, value, [], read, rfl, (List.append_nil value).symm⟩
  · rw [found] at read
    simp only [bind, Except.bind, pure, Except.pure] at read
    split at read
    · cases read
    next address addressed =>
      split at read
      · cases read
      next zone zoned =>
        cases read
        exact ⟨front, rawZone, by rw [found, if_neg filled], pieces, address, zone, addressed,
          zoned, rfl⟩

/-- The zone of a text keeps its percent sign. -/
theorem zone_marked (cutting : CutZone text before rest) (read : unescape .zone rest = .ok zone) :
    zone = [] ∨ zone.head? = some (byte '%') := by
  rcases cutting.zone with rfl | marked
  · cases read
    exact .inl rfl
  · obtain ⟨others, rfl⟩ := List.isPrefixOf_iff_prefix.mp marked
    right
    change unescape .zone (byte '%' :: byte '2' :: byte '5' :: others) = _ at read
    rw [unescape, if_pos rfl] at read
    cases later : unescape .zone others with
    | error error =>
        rw [later] at read
        split at read <;> cases read
    | ok value =>
        rw [later] at read
        split at read
        · cases read
        · cases read
          exact congrArg some (show hexByte (byte '2') (byte '5') = byte '%' by decide)

theorem portOk_cons (c : UInt8) (rest : Bytes) :
    portOk (c :: rest) =
      if byte ':' ∈ rest then portOk rest else (c ≠ byte ':' || rest.all isDigit) := by
  unfold portOk
  rw [lastCut]
  cases found : lastCut (byte ':') rest with
  | some pieces =>
      have member : byte ':' ∈ rest := by
        by_contra absent
        rw [lastCut_eq_none.mpr absent] at found
        cases found
      rw [if_pos member]
      rfl
  | none =>
      rw [if_neg (lastCut_eq_none.mp found)]
      by_cases same : c = byte ':' <;> simp [same]

/-- Reading a host keeps its first bracket and its colons. -/
structure SameColons (text host : Bytes) : Prop where
  front : text.head? = some (byte '[') ↔ host.head? = some (byte '[')
  colon : byte ':' ∈ text ↔ byte ':' ∈ host
  digits : text.all isDigit = host.all isDigit
  port : portOk text = portOk host

theorem sameColons (read : unescape .host text = .ok host) : SameColons text host := by
  refine unescape_induction (motive := SameColons) ⟨Iff.rfl, Iff.rfl, rfl, rfl⟩ ?_ ?_ read
  · intro high low others value accepted isHigh isLow same
    have notColon : ∀ c, isHex c = true → byte ':' ≠ c := by
      rintro c hex rfl
      exact absurd hex (by decide)
    have stands : hexByte high low ≠ byte '[' ∧ byte ':' ≠ hexByte high low ∧
        isDigit (hexByte high low) = false := by
      rcases host_escape accepted with ⟨rfl, rfl⟩ | other
      · decide
      · refine ⟨?_, ?_, ?_⟩
        · intro same
          rw [same] at other
          exact absurd other (by decide)
        · intro same
          rw [← same] at other
          exact absurd other (by decide)
        · cases digit : isDigit (hexByte high low) with
          | false => rfl
          | true => exact absurd (isAscii_of_isDigit digit) (by rw [other]; exact Bool.false_ne_true)
    have colon : byte ':' ∈ byte '%' :: high :: low :: others ↔ byte ':' ∈ others := by
      simp [notColon high isHigh, notColon low isLow, show byte ':' ≠ byte '%' by decide]
    have colons : byte ':' ∈ hexByte high low :: value ↔ byte ':' ∈ value := by
      simp [stands.2.1]
    refine ⟨?_, colon.trans (same.colon.trans colons.symm), ?_, ?_⟩
    · refine iff_of_false ?_ ?_
      · intro front
        exact absurd (Option.some.inj front) (by decide)
      · intro front
        exact stands.1 (Option.some.inj front)
    · change (isDigit (byte '%') && _) = (isDigit (hexByte high low) && _)
      rw [stands.2.2]
      rfl
    · have three : portOk (byte '%' :: high :: low :: others) =
          if byte ':' ∈ others then portOk others else true := by
        have inside : byte ':' ∈ high :: low :: others ↔ byte ':' ∈ others := by
          simp [notColon high isHigh, notColon low isLow]
        have last : byte ':' ∈ low :: others ↔ byte ':' ∈ others := by
          simp [notColon low isLow]
        rw [portOk_cons, portOk_cons, portOk_cons]
        simp only [inside, last]
        split
        · rfl
        · rfl
      rw [three, portOk_cons]
      by_cases member : byte ':' ∈ others
      · rw [if_pos member, if_pos (same.colon.mp member), same.port]
      · rw [if_neg member, if_neg (fun inside => member (same.colon.mpr inside)),
          decide_eq_true (Ne.symm stands.2.1), Bool.true_or]
  · intro c rest value _ _ same
    refine ⟨Iff.rfl, ?_, ?_, ?_⟩
    · rw [List.mem_cons, List.mem_cons, same.colon]
    · rw [List.all_cons, List.all_cons, same.digits]
    · rw [portOk_cons, portOk_cons, same.port, same.digits]
      simp only [same.colon]

/-- **What a host is read as.** -/
theorem parseHost_cases (parsed : parseHost rules text = .ok host) :
    NameHost host ∧ rules.name host = true ∧ zoneText text = [] ∨
      ∃ address zone port, LiteralHost address zone port host ∧
        rules.literal (address ++ zone) = true ∧ unescape .zone (zoneText text) = .ok zone := by
  unfold parseHost at parsed
  split at parsed
  case isTrue bracket =>
    right
    split at parsed
    · cases parsed
    next before port found =>
      split at parsed
      · cases parsed
      next valid =>
        simp only [Bool.not_eq_true', Bool.not_eq_false] at valid
        obtain ⟨split, -⟩ := eq_of_lastCut found
        obtain ⟨plain, -, closing⟩ := port_plain valid
        simp only [bind, Except.bind, pure, Except.pure, closing] at parsed
        split at parsed
        · cases parsed
        next literal inside =>
          obtain ⟨front, rawZone, cutting, pieces, address, zone, addressed, zoned, rfl⟩ :=
            unescapeLiteral_cases inside
          have bracketed : before.head? = some (byte '[') := by
            cases before with
            | nil =>
                rw [split] at bracket
                exact absurd (Option.some.inj bracket) (by decide)
            | cons first others =>
                rw [split] at bracket
                exact bracket
          have fronted : front.head? = some (byte '[') := by
            rw [pieces.split] at bracketed
            cases front with
            | nil =>
                rcases pieces.zone with rfl | marked
                · cases bracketed
                · obtain ⟨others, rfl⟩ := List.isPrefixOf_iff_prefix.mp marked
                  exact absurd (Option.some.inj bracketed) (by decide)
            | cons first others => exact bracketed
          obtain ⟨addr, rfl⟩ : ∃ addr, address = byte '[' :: addr := by
            have first := (sameColons addressed).front.mp fronted
            cases address with
            | nil => cases first
            | cons c addr => exact ⟨addr, congrArg (· :: addr) (Option.some.inj first)⟩
          split at parsed
          next ruled =>
            cases parsed
            have bytes := List.forall_mem_cons.mp (host_bytes addressed)
            have unmarked := percent_not_mem addressed pieces.before
            refine ⟨addr, zone, port, ⟨?_, ?_, zone_marked pieces zoned, zone_bytes zoned, valid⟩,
              ruled, ?_⟩
            · rw [List.cons_append]
            · intro c member
              have other : c ≠ byte '%' := by
                rintro rfl
                exact unmarked (List.mem_cons_of_mem _ member)
              exact ⟨(bytes.2 c member).resolve_right other, other⟩
            · unfold zoneText
              rw [if_pos bracket, found]
              simp only [cutting]
              by_cases empty : rawZone = []
              · subst empty
                exact zoned
              · rw [if_neg empty]
                exact zoned
          · cases parsed
  case isFalse other =>
    left
    have named : parseHost.name rules text = .ok host ∧ portOk text = true := by
      unfold portOk
      split at parsed
      next before digits found =>
        rw [found]
        split at parsed
        · cases parsed
        next valid => exact ⟨parsed, by simpa using valid⟩
      next absent =>
        rw [absent]
        exact ⟨parsed, rfl⟩
    obtain ⟨read, port⟩ := named
    unfold parseHost.name at read
    simp only [bind, Except.bind, pure, Except.pure] at read
    split at read
    · cases read
    next value unescaped =>
      split at read
      next ruled =>
        cases read
        have same := sameColons unescaped
        exact ⟨⟨host_bytes unescaped, fun front => other (same.front.mpr front),
          same.port.symm.trans port⟩, ruled, if_neg other⟩
      · cases read

/-! ## Hosts printed and read again -/

theorem escape_front {mode : Encoding} (plain : shouldEscape (byte '[') mode = false) :
    (escape mode text).head? = some (byte '[') ↔ text.head? = some (byte '[') := by
  cases text with
  | nil => exact Iff.rfl
  | cons c rest =>
      rw [escape_cons]
      split
      case isTrue special =>
        refine iff_of_false ?_ ?_
        · intro front
          exact absurd (Option.some.inj front) (by decide)
        · intro front
          rw [Option.some.inj front, plain] at special
          cases special
      case isFalse => exact Iff.rfl

theorem parseHost_escape_name (name : NameHost host) (ruled : rules.name host = true) :
    parseHost rules (escape .host host) = .ok host := by
  have read := unescape_escape fun c member => host_readsBack (name.bytes c member)
  have same := sameColons read
  have named : parseHost.name rules (escape .host host) = .ok host := by
    unfold parseHost.name
    rw [read]
    exact if_pos ruled
  unfold parseHost
  rw [if_neg fun front => name.front (same.front.mp front)]
  have port := same.port.trans name.port
  unfold portOk at port
  split
  next before digits found =>
    rw [found] at port
    rw [show digits.all isDigit = true from port]
    exact named
  next absent => exact named

theorem cutZone_escape (plain : ∀ c ∈ address, isHostByte c = true ∧ c ≠ byte '%') (rest : Bytes) :
    cutZone (escape .host address ++ rest) =
      (cutZone rest).map fun pieces => (escape .host address ++ pieces.1, pieces.2) := by
  induction address with
  | nil =>
      change cutZone rest = (cutZone rest).map id
      rw [Option.map_id]
      rfl
  | cons c address ih =>
      have later := ih fun other member => plain other (List.mem_cons_of_mem _ member)
      obtain ⟨hostByte, other⟩ := plain c List.mem_cons_self
      rw [escape_cons, List.append_assoc]
      split
      case isTrue special =>
        have ascii : isAscii c = false := by
          simpa [isHostByte, special] using hostByte
        have digits : highDigit c ≠ byte '2' ∧ highDigit c ≠ byte '%' ∧ lowDigit c ≠ byte '%' := by
          have notMark : ∀ digit, isHex digit = true → digit ≠ byte '%' := by
            rintro digit hex rfl
            exact absurd hex (by decide)
          obtain ⟨high, low, -⟩ := percent_reads c
          exact ⟨highDigit_ne_two ascii, notMark _ high, notMark _ low⟩
        have unmarked : ∀ others, (bytesOf "%25").isPrefixOf
            (byte '%' :: highDigit c :: others) = false := by
          intro others
          change (_ && (byte '2' == highDigit c && _)) = false
          rw [beq_false_of_ne (Ne.symm digits.1), Bool.false_and, Bool.and_false]
        change cutZone (byte '%' :: highDigit c :: lowDigit c :: (escape .host address ++ rest)) = _
        rw [cutZone_cons (unmarked _), cutZone_cons (not_marked digits.2.1 _),
          cutZone_cons (not_marked digits.2.2 _), later]
        cases cutZone rest <;> rfl
      case isFalse =>
        change cutZone (c :: (escape .host address ++ rest)) = _
        rw [cutZone_cons (not_marked other _), later]
        cases cutZone rest <;> rfl

/-- The printed address is read as the address; its zone is read if it is ASCII. -/
theorem unescapeLiteral_escape (plain : ∀ c ∈ address, isHostByte c = true ∧ c ≠ byte '%')
    (marked : zone = [] ∨ zone.head? = some (byte '%')) :
    unescapeLiteral (escape .host (address ++ zone)) =
      (unescape .zone (escape .host zone)).map (address ++ ·) := by
  have read := @unescape_escape .host .host address fun c member =>
    host_readsBack (.inl (plain c member).1)
  unfold unescapeLiteral
  rw [escape_append, cutZone_escape plain]
  rcases marked with rfl | front
  · change unescape .host (escape .host address ++ []) = _
    rw [List.append_nil, read]
    exact congrArg Except.ok (List.append_nil address).symm
  · cases zone with
    | nil => cases front
    | cons c others =>
        cases Option.some.inj front
        have zoned : cutZone (escape .host (byte '%' :: others)) =
            some ([], escape .host (byte '%' :: others)) := by
          apply cutZone_marked
          rw [escape_cons, if_pos (shouldEscape_percent .host)]
          rfl
        rw [zoned]
        simp only [Option.map_some, List.append_nil, read, bind, Except.bind, pure, Except.pure]
        cases unescape .zone (escape .host (byte '%' :: others)) <;> rfl

/-- **An address is read back** exactly if its zone is ASCII. -/
theorem parseHost_escape_literal (literal : LiteralHost address zone port host)
    (ruled : rules.literal (address ++ zone) = true) :
    ((∀ c ∈ zone, isAscii c = true) → parseHost rules (escape .host host) = .ok host) ∧
      ∀ value, parseHost rules (escape .host host) = .ok value → ∀ c ∈ zone, isAscii c = true := by
  obtain ⟨plain, closes, closing⟩ := port_plain literal.port
  have front : ∀ c ∈ byte '[' :: address, isHostByte c = true ∧ c ≠ byte '%' :=
    List.forall_mem_cons.mpr ⟨by decide +kernel, literal.address⟩
  have shape : escape .host host =
      escape .host (byte '[' :: address ++ zone) ++ byte ']' :: port := by
    have tail : escape .host (byte ']' :: port) = byte ']' :: port :=
      escape_plain (List.forall_mem_cons.mpr ⟨by decide +kernel, plain⟩)
    rw [literal.text, ← List.cons_append, escape_append, tail]
  have bracket : (escape .host host).head? = some (byte '[') := by
    rw [escape_front (by decide +kernel), literal.text]
    rfl
  have parsed : parseHost rules (escape .host host) =
      (unescape .zone (escape .host zone)).bind fun zone =>
        if rules.literal (address ++ zone) then
          .ok (byte '[' :: (address ++ zone) ++ byte ']' :: port)
        else .error (.invalidHost (byte '[' :: (address ++ zone) ++ byte ']' :: port)) := by
    unfold parseHost
    rw [if_pos bracket, shape, lastCut_append closes]
    simp only [literal.port, Bool.not_true, Bool.false_eq_true, if_false]
    rw [unescapeLiteral_escape front literal.marked, closing]
    cases unescape .zone (escape .host zone) <;> rfl
  rw [parsed]
  refine ⟨?_, ?_⟩
  · intro ascii
    have reads : ∀ c ∈ zone, readsBack .host .zone c = true := fun c member =>
      (zone_readsBack (literal.bytes c member)).trans (ascii c member)
    rw [unescape_escape reads, literal.text]
    exact if_pos ruled
  · intro value read c member
    cases zoned : unescape .zone (escape .host zone) with
    | error error =>
        rw [zoned] at read
        cases read
    | ok printed =>
        rw [← zone_readsBack (literal.bytes c member)]
        exact readsBack_of_unescape zoned c member

/-! ## Hosts in lower case -/

variable {lower : Char → Char} {separator : UInt8}

open Utf8 (LowerTable toLower lowerByte isLowerLetter)

/-- An ASCII byte that is no letter is in the same places in lower case. -/
theorem lastCut_toLower (table : LowerTable lower) (ascii : isAscii separator = true)
    (letter : isLowerLetter separator = false) (same : lowerByte separator = separator)
    (text : Bytes) :
    lastCut separator (toLower lower text) =
      (lastCut separator text).map fun pieces => (toLower lower pieces.1, toLower lower pieces.2) := by
  have kept : ∀ {text}, separator ∉ text → separator ∉ toLower lower text := by
    intro text absent member
    rcases Utf8.mem_of_mem_toLower table ascii member with isLetter | inside
    · rw [letter] at isLetter
      cases isLetter
    · exact absent inside
  cases found : lastCut separator text with
  | none => exact lastCut_eq_none.mpr (kept (lastCut_eq_none.mp found))
  | some pieces =>
      obtain ⟨before, after⟩ := pieces
      obtain ⟨rfl, absent⟩ := eq_of_lastCut found
      rw [Utf8.toLower_append_ascii table ascii, same]
      exact lastCut_append (kept absent) _

theorem digits_toLower (table : LowerTable lower) (digits : text.all isDigit = true) :
    toLower lower text = text := by
  refine Utf8.toLower_of_fixed table fun c member => ?_
  have digit := List.all_eq_true.mp digits c member
  obtain ⟨-, high⟩ := Bool.and_eq_true_iff.mp digit
  have small : ¬ (65 ≤ c ∧ c ≤ 90) := by
    rintro ⟨low, -⟩
    exact absurd (UInt8.le_trans low (of_decide_eq_true high)) (by decide)
  exact ⟨isAscii_of_isDigit digit, if_neg small⟩

theorem port_toLower (table : LowerTable lower) (valid : validOptionalPort port = true) :
    toLower lower port = port := by
  cases port with
  | nil => rfl
  | cons c digits =>
      obtain ⟨colon, all⟩ := Bool.and_eq_true_iff.mp valid
      rw [of_decide_eq_true colon, Utf8.toLower_cons_ascii table (by decide),
        digits_toLower table all]
      rfl

theorem hostByte_toLower (table : LowerTable lower)
    (member : c ∈ toLower lower text) : isHostByte c = true ∨ c ∈ text := by
  by_cases ascii : isAscii c = true
  · rcases Utf8.mem_of_mem_toLower table ascii member with letter | inside
    · left
      refine isHostByte_of_plain (shouldEscape_of_isLetter ?_ .host)
      exact Bool.or_eq_true_iff.mpr (.inl letter)
    · exact .inr inside
  · left
    simp [isHostByte, ascii]

theorem NameHost.lowered (table : LowerTable lower) (name : NameHost host) :
    NameHost (toLower lower host) := by
  refine ⟨?_, ?_, ?_⟩
  · intro c member
    rcases hostByte_toLower table member with hostByte | inside
    · exact .inl hostByte
    · exact name.bytes c inside
  · intro front
    exact name.front (Utf8.head_of_toLower table (by decide) (by decide) front)
  · have port := name.port
    unfold portOk at port ⊢
    rw [lastCut_toLower table (by decide) (by decide) (by decide)]
    cases found : lastCut (byte ':') host with
    | none => rfl
    | some pieces =>
        rw [found] at port
        change (toLower lower pieces.2).all isDigit = true
        rw [digits_toLower table port]
        exact port

theorem LiteralHost.lowered (table : LowerTable lower)
    (literal : LiteralHost address zone port host) :
    toLower lower (address ++ zone) = toLower lower address ++ toLower lower zone ∧
      LiteralHost (toLower lower address) (toLower lower zone) port (toLower lower host) := by
  have split : toLower lower (address ++ zone) = toLower lower address ++ toLower lower zone ∧
      (toLower lower zone = [] ∨ (toLower lower zone).head? = some (byte '%')) := by
    rcases literal.marked with rfl | front
    · rw [List.append_nil]
      exact ⟨(List.append_nil _).symm, .inl rfl⟩
    · cases zone with
      | nil => cases front
      | cons c others =>
          cases Option.some.inj front
          rw [Utf8.toLower_append_ascii table (by decide), Utf8.toLower_cons_ascii table (by decide)]
          exact ⟨rfl, .inr rfl⟩
  refine ⟨split.1, ?_, ?_, split.2, ?_, literal.port⟩
  · rw [literal.text, Utf8.toLower_append_ascii table (by decide),
      Utf8.toLower_cons_ascii table (by decide), split.1, port_toLower table literal.port]
    rfl
  · intro c member
    rcases hostByte_toLower table member with hostByte | inside
    · refine ⟨hostByte, ?_⟩
      rintro rfl
      rcases Utf8.mem_of_mem_toLower table (by decide) member with letter | inside
      · exact absurd letter (by decide)
      · exact (literal.address _ inside).2 rfl
    · exact literal.address c inside
  · intro c member
    rcases hostByte_toLower table member with hostByte | inside
    · exact .inl hostByte
    · exact literal.bytes c inside

/-! ## Names without ports -/

theorem stripBrackets_literal (inside : Bytes) :
    stripBrackets (byte '[' :: inside ++ [byte ']']) = inside := by
  unfold stripBrackets
  rw [if_pos]
  · rw [List.cons_append, List.drop_succ_cons, List.drop_zero, List.dropLast_concat]
  · rw [List.getLast?_concat]
    rfl

theorem hostnameOf_literal (literal : LiteralHost address zone port host) :
    hostnameOf host = address ++ zone := by
  have valid := literal.port
  have text := literal.text
  cases port with
  | nil =>
      rw [text]
      unfold hostnameOf
      split
      next before digits found =>
        obtain ⟨split, -⟩ := eq_of_lastCut found
        rw [if_neg, stripBrackets_literal]
        intro all
        have last := congrArg List.getLast? split
        rw [List.getLast?_concat, List.getLast?_append_of_ne_nil _ (List.cons_ne_nil _ _)] at last
        cases digits with
        | nil => exact absurd (Option.some.inj last) (by decide)
        | cons c others =>
            rw [List.getLast?_cons_cons] at last
            have member := List.mem_of_getLast? last.symm
            exact absurd (List.all_eq_true.mp all _ member) (by decide)
      next => exact stripBrackets_literal _
  | cons c digits =>
      obtain ⟨colon, all⟩ := Bool.and_eq_true_iff.mp valid
      cases of_decide_eq_true colon
      have absent : byte ':' ∉ digits := by
        intro member
        exact absurd (List.all_eq_true.mp all _ member) (by decide)
      have split : host = (byte '[' :: (address ++ zone) ++ [byte ']']) ++ byte ':' :: digits := by
        rw [text, List.append_assoc]
        rfl
      unfold hostnameOf
      rw [split, lastCut_append absent]
      simp only [all, if_true]
      exact stripBrackets_literal _

theorem hostnameOf_name (name : NameHost host) :
    hostnameOf host = ((lastCut (byte ':') host).map Prod.fst).getD host := by
  have unbracketed : ∀ {text : Bytes}, text.head? ≠ some (byte '[') → stripBrackets text = text := by
    intro text front
    unfold stripBrackets
    rw [if_neg (by simp [front])]
  have port := name.port
  unfold portOk at port
  unfold hostnameOf
  cases found : lastCut (byte ':') host with
  | none => exact unbracketed name.front
  | some pieces =>
      rw [found] at port
      simp only [show pieces.2.all isDigit = true from port, if_true]
      obtain ⟨split, -⟩ := eq_of_lastCut found
      refine unbracketed fun front => name.front ?_
      rw [split]
      cases before : pieces.1 with
      | nil =>
          rw [before] at front
          cases front
      | cons c others =>
          rw [before] at front
          exact front

theorem hostnameOf_toLower (table : LowerTable lower) (name : NameHost host)
    (filled : hostnameOf host ≠ []) : hostnameOf (toLower lower host) ≠ [] := by
  rw [hostnameOf_name name] at filled
  rw [hostnameOf_name (name.lowered table), lastCut_toLower table (by decide) (by decide) (by decide)]
  cases found : lastCut (byte ':') host with
  | none =>
      rw [found] at filled
      exact fun empty => filled (Utf8.toLower_eq_nil.mp empty)
  | some pieces =>
      rw [found] at filled
      exact fun empty => filled (Utf8.toLower_eq_nil.mp empty)

end Hosts

end NetUrl
