import Mathlib.Data.List.TakeWhile
import AmberBackup.Lib.UrlHost

/-! # URLs of Go

`Url.parse` and `Url.print` as Go's `net/url` computes them on byte strings.
-/

namespace NetUrl

open Utf8 (Bytes isAscii)

/-! ## Parsing -/

structure Url where
  scheme : Bytes := []
  opaqueData : Bytes := []
  user : Option (Bytes × Option Bytes) := none
  host : Bytes := []
  path : Bytes := []
  rawPath : Bytes := []
  omitHost : Bool := false
  forceQuery : Bool := false
  rawQuery : Bytes := []
  fragment : Bytes := []
  rawFragment : Bytes := []
  deriving DecidableEq, Repr

def isControl (c : UInt8) : Bool := c < 0x20 || c = 0x7F

def isSchemeByte (c : UInt8) : Bool := isLetter c || isDigit c || (bytesOf "+-.").contains c

def getScheme (raw : Bytes) : Except ParseError (Bytes × Bytes) :=
  match raw.dropWhile isSchemeByte with
  | [] => .ok ([], raw)
  | c :: rest =>
      let scheme := raw.takeWhile isSchemeByte
      if c ≠ byte ':' then .ok ([], raw)
      else match scheme with
        | [] => .error .missingScheme
        | first :: _ => if isLetter first then .ok (scheme, rest) else .ok ([], raw)

def isUserinfoByte (c : UInt8) : Bool :=
  isLetter c || isDigit c || (bytesOf "-._:~!$&'()*+,;=%@").contains c

def parseUserinfo (info : Bytes) : Except ParseError (Bytes × Option Bytes) :=
  if !info.all isUserinfoByte then .error .invalidUserinfo
  else if !info.contains (byte ':') then do
    let username ← unescape .userPassword info
    return (username, none)
  else do
    let username ← unescape .userPassword (cut (byte ':') info).1
    let password ← unescape .userPassword (cut (byte ':') info).2
    return (username, some password)

def parseAuthority (rules : HostRules) (authority : Bytes) :
    Except ParseError (Option (Bytes × Option Bytes) × Bytes) :=
  match lastCut (byte '@') authority with
  | none => do
      let host ← parseHost rules authority
      return (none, host)
  | some (info, host) => do
      let host ← parseHost rules host
      let user ← parseUserinfo info
      return (some user, host)

def setPath (url : Url) (text : Bytes) : Except ParseError Url := do
  let path ← unescape .path text
  return { url with path, rawPath := if escape .path path = text then [] else text }

def setFragment (url : Url) (text : Bytes) : Except ParseError Url := do
  let fragment ← unescape .fragment text
  return { url with fragment, rawFragment := if escape .fragment fragment = text then [] else text }

/-- The text ends in its only question mark. -/
def endsInOnlyMark (text : Bytes) : Bool :=
  text.getLast? = some (byte '?') && text.count (byte '?') = 1

/-- What follows the scheme, without its query. -/
def parseHierarchy (rules : HostRules) (url : Url) (rest : Bytes) : Except ParseError Url :=
  if rest.head? ≠ some (byte '/') then
    if url.scheme ≠ [] then .ok { url with opaqueData := rest }
    else if (cut (byte '/') rest).1.contains (byte ':') then .error .firstSegmentColon
    else setPath url rest
  else if (url.scheme ≠ [] || !(bytesOf "///").isPrefixOf rest) && (bytesOf "//").isPrefixOf rest then do
    let authority := (rest.drop 2).takeWhile (· ≠ byte '/')
    let (user, host) ← parseAuthority rules authority
    setPath { url with user, host } ((rest.drop 2).dropWhile (· ≠ byte '/'))
  else setPath { url with omitHost := url.scheme ≠ [] } rest

/-- A URL without its fragment. -/
def parseReference (rules : HostRules) (raw : Bytes) : Except ParseError Url :=
  if raw.any isControl then .error .controlCharacter
  else if raw = bytesOf "*" then .ok { path := raw }
  else do
    let (scheme, rest) ← getScheme raw
    let scheme := scheme.map Utf8.lowerByte
    if endsInOnlyMark rest then
      parseHierarchy rules { scheme, forceQuery := true } rest.dropLast
    else
      parseHierarchy rules { scheme, rawQuery := (cut (byte '?') rest).2 } (cut (byte '?') rest).1

def Url.parse (rules : HostRules) (raw : Bytes) : Except ParseError Url := do
  let url ← parseReference rules (cut (byte '#') raw).1
  if (cut (byte '#') raw).2 = [] then return url
  else setFragment url (cut (byte '#') raw).2

/-! ## Printing -/

def Url.hostname (url : Url) : Bytes := hostnameOf url.host

def validEncoded (mode : Encoding) (text : Bytes) : Bool :=
  text.all fun c => (bytesOf "!$&'()*+,;=:@[]%").contains c || !shouldEscape c mode

/-- The text it was parsed from still stands for the value. -/
def keepsRaw (mode : Encoding) (raw value : Bytes) : Bool :=
  raw ≠ [] && validEncoded mode raw && unescape mode raw = .ok value

def Url.escapedPath (url : Url) : Bytes :=
  if keepsRaw .path url.rawPath url.path then url.rawPath
  else if url.path = bytesOf "*" then url.path
  else escape .path url.path

def Url.escapedFragment (url : Url) : Bytes :=
  if keepsRaw .fragment url.rawFragment url.fragment then url.rawFragment
  else escape .fragment url.fragment

def printUser : Bytes × Option Bytes → Bytes
  | (username, none) => escape .userPassword username ++ [byte '@']
  | (username, some password) =>
      escape .userPassword username ++ byte ':' :: escape .userPassword password ++ [byte '@']

def Url.printAuthority (url : Url) : Bytes :=
  if url.scheme = [] ∧ url.host = [] ∧ url.user = none then []
  else if url.omitHost ∧ url.host = [] ∧ url.user = none then []
  else
    (if url.host = [] ∧ url.path = [] ∧ url.user = none then [] else bytesOf "//") ++
      (url.user.map printUser).getD [] ++ escape .host url.host

def Url.printHierarchy (url : Url) (before : Bytes) : Bytes :=
  let path := url.escapedPath
  let lead := if path ≠ [] ∧ path.head? ≠ some (byte '/') ∧ url.host ≠ [] then [byte '/'] else []
  let dot :=
    if before ++ url.printAuthority ++ lead = [] ∧ (cut (byte '/') path).1.contains (byte ':') then
      bytesOf "./"
    else []
  url.printAuthority ++ lead ++ dot ++ path

def Url.print (url : Url) : Bytes :=
  let start := if url.scheme = [] then [] else url.scheme ++ [byte ':']
  start ++ (if url.opaqueData ≠ [] then url.opaqueData else url.printHierarchy start) ++
    (if url.forceQuery ∨ url.rawQuery ≠ [] then byte '?' :: url.rawQuery else []) ++
    (if url.fragment ≠ [] then byte '#' :: url.escapedFragment else [])

section Servers

variable {rules : HostRules} {url : Url} {raw scheme authority pathText text : Bytes} {c : UInt8}

/-- The text between the scheme's slashes and the path, the query or the fragment. -/
def authorityText (raw : Bytes) : Bytes :=
  ((raw.dropWhile (· ≠ byte ':')).drop 3).takeWhile fun c => !(bytesOf "/?#").contains c

theorem span_append {stops : UInt8 → Bool} {front rest : Bytes}
    (inside : ∀ c ∈ front, stops c = true) (stop : ∀ c, rest.head? = some c → stops c = false) :
    (front ++ rest).takeWhile stops = front ∧ (front ++ rest).dropWhile stops = rest := by
  rw [List.takeWhile_append_of_pos inside, List.dropWhile_append_of_pos inside]
  cases rest with
  | nil => exact ⟨List.append_nil front, rfl⟩
  | cons c others =>
      have stopped : ¬ stops c = true := by simp [stop c rfl]
      rw [List.takeWhile_cons_of_neg stopped, List.dropWhile_cons_of_neg stopped, List.append_nil]
      exact ⟨rfl, rfl⟩

theorem cut_of_not_mem {separator : UInt8} (absent : separator ∉ text) :
    cut separator text = (text, []) := by
  have others : ∀ c ∈ text, decide (c ≠ separator) = true := by
    intro c member
    exact decide_eq_true fun same => absent (same ▸ member)
  have spanned := @span_append (fun c => decide (c ≠ separator)) text [] others
    fun c first => by cases first
  rw [List.append_nil] at spanned
  unfold cut
  rw [spanned.1, spanned.2]
  rfl

/-- A byte that may stand in the authority or the path of a URL. -/
def isPart (c : UInt8) : Bool := c ≠ byte '?' && c ≠ byte '#' && !isControl c

theorem isControl_of_isVisible (visible : isVisible c = true) : isControl c = false := by
  obtain ⟨above, below⟩ := Bool.and_eq_true_iff.mp visible
  refine Bool.or_eq_false_iff.mpr ⟨decide_eq_false fun small => ?_, decide_eq_false ?_⟩
  · exact absurd (UInt8.le_trans (of_decide_eq_true above) (UInt8.le_of_lt small)) (by decide)
  · rintro rfl
    cases below

theorem isPart_of_isVisible (visible : isVisible c = true) (mark : c ≠ byte '?')
    (hash : c ≠ byte '#') : isPart c = true := by
  unfold isPart
  rw [isControl_of_isVisible visible, decide_eq_true mark, decide_eq_true hash]
  rfl

/-- A URL of a server, in parts. -/
structure ServerText (scheme authority pathText : Bytes) : Prop where
  lower : scheme.map Utf8.lowerByte = scheme
  scheme : scheme ≠ [] ∧ ∀ c ∈ scheme, isLetter c = true
  authority : ∀ c ∈ authority, isPart c = true ∧ c ≠ byte '/' ∧ c ≠ byte '@'
  path : ∀ c ∈ pathText, isPart c = true
  slash : pathText = [] ∨ pathText.head? = some (byte '/')

/-- A URL of a server is parsed in its parts. -/
theorem parse_server (parts : ServerText scheme authority pathText) :
    Url.parse rules (scheme ++ bytesOf "://" ++ (authority ++ pathText)) =
      (parseHost rules authority).bind fun host => setPath { scheme, host } pathText := by
  obtain ⟨lower, ⟨filled, letters⟩, inAuthority, inPath, slash⟩ := parts
  have letterPart : ∀ c, isLetter c = true → isPart c = true ∧ isSchemeByte c = true := by
    intro c letter
    refine ⟨isPart_of_isVisible (isVisible_of_isLetter letter) ?_ ?_, ?_⟩
    · rintro rfl
      exact absurd letter (by decide)
    · rintro rfl
      exact absurd letter (by decide)
    · unfold isSchemeByte
      rw [letter, Bool.true_or, Bool.true_or]
  have bytes : ∀ c ∈ scheme ++ bytesOf "://" ++ (authority ++ pathText), isPart c = true := by
    intro c member
    simp only [List.mem_append] at member
    rcases member with (inScheme | inMark) | inAuth | inside
    · exact (letterPart c (letters c inScheme)).1
    · exact List.all_eq_true.mp (show (bytesOf "://").all isPart = true by decide) c inMark
    · exact (inAuthority c inAuth).1
    · exact inPath c inside
  have absent : ∀ mark, isPart mark = false →
      mark ∉ scheme ++ bytesOf "://" ++ (authority ++ pathText) := by
    intro mark other member
    rw [bytes mark member] at other
    cases other
  have shape : scheme ++ bytesOf "://" ++ (authority ++ pathText) =
      scheme ++ byte ':' :: byte '/' :: byte '/' :: (authority ++ pathText) := by
    rw [List.append_assoc]
    rfl
  obtain ⟨taken, dropped⟩ := @span_append isSchemeByte scheme
    (byte ':' :: byte '/' :: byte '/' :: (authority ++ pathText))
    (fun c member => (letterPart c (letters c member)).2)
    (fun c first => by
      cases Option.some.inj first
      decide)
  have schemed : getScheme (scheme ++ bytesOf "://" ++ (authority ++ pathText)) =
      .ok (scheme, byte '/' :: byte '/' :: (authority ++ pathText)) := by
    unfold getScheme
    rw [shape, taken, dropped]
    cases scheme with
    | nil => exact absurd rfl filled
    | cons first others =>
        simp [letters first List.mem_cons_self]
  have unmarked : byte '?' ∉ byte '/' :: byte '/' :: (authority ++ pathText) := by
    intro member
    apply absent (byte '?') (by decide)
    rw [shape]
    exact List.mem_append_right _ (List.mem_cons_of_mem _ member)
  have notMarked : endsInOnlyMark (byte '/' :: byte '/' :: (authority ++ pathText)) = false := by
    unfold endsInOnlyMark
    rw [List.count_eq_zero_of_not_mem unmarked, Bool.and_eq_false_iff]
    exact .inr (by decide)
  have uncontrolled : (scheme ++ bytesOf "://" ++ (authority ++ pathText)).any isControl = false := by
    rw [List.any_eq_false]
    intro c member control
    have part := bytes c member
    simp [isPart, control] at part
  have notStar : scheme ++ bytesOf "://" ++ (authority ++ pathText) ≠ bytesOf "*" := by
    intro same
    have length := congrArg List.length same
    rw [shape, List.length_append] at length
    simp [bytesOf] at length
    omega
  obtain ⟨front, back⟩ := @span_append (fun c => decide (c ≠ byte '/')) authority pathText
    (fun c member => decide_eq_true (inAuthority c member).2.1)
    (fun c first => by
      rcases slash with rfl | slashed
      · cases first
      · rw [slashed] at first
        cases Option.some.inj first
        decide)
  have userless : byte '@' ∉ authority := fun member => (inAuthority _ member).2.2 rfl
  unfold Url.parse
  rw [cut_of_not_mem (absent (byte '#') (by decide))]
  unfold parseReference
  rw [if_neg (by rw [uncontrolled]; exact Bool.false_ne_true), if_neg notStar, schemed]
  simp only [bind, Except.bind, pure, Except.pure, lower, notMarked, Bool.false_eq_true, if_false]
  rw [cut_of_not_mem unmarked]
  unfold parseHierarchy
  have twoSlashes : bytesOf "//" <+: byte '/' :: byte '/' :: (authority ++ pathText) :=
    ⟨authority ++ pathText, rfl⟩
  rw [if_neg (fun other => other rfl), if_pos (by simp [filled, twoSlashes])]
  simp only [List.drop_succ_cons, List.drop_zero, front, back]
  unfold parseAuthority
  rw [lastCut_eq_none.mpr userless]
  simp only [bind, Except.bind, pure, Except.pure]
  cases parseHost rules authority with
  | error error => rfl
  | ok host =>
      simp only
      cases setPath { scheme, host } pathText <;> rfl

/-- The parts that a URL with a host and without a user was parsed from. -/
structure ParsedServer (rules : HostRules) (raw authority : Bytes) (url : Url) : Prop where
  host : parseHost rules authority = .ok url.host
  text : authorityText raw = authority
  path : ∃ pathText, unescape .path pathText = .ok url.path ∧
    (pathText = [] ∨ pathText.head? = some (byte '/'))
  opaqueData : url.opaqueData = []
  omitHost : url.omitHost = false
  forceQuery : url.forceQuery = endsInOnlyMark (cut (byte '#') raw).1

theorem setPath_eq {next : Url} (set : setPath url text = .ok next) :
    ∃ path rawPath, unescape .path text = .ok path ∧ next = { url with path, rawPath } := by
  unfold setPath at set
  simp only [bind, Except.bind, pure, Except.pure] at set
  split at set
  · cases set
  next path read =>
    cases set
    exact ⟨path, _, read, rfl⟩

theorem setFragment_eq {next : Url} (set : setFragment url text = .ok next) :
    ∃ fragment rawFragment, next = { url with fragment, rawFragment } := by
  unfold setFragment at set
  simp only [bind, Except.bind, pure, Except.pure] at set
  split at set
  · cases set
  · cases set
    exact ⟨_, _, rfl⟩

/-- What follows the scheme has an authority if the URL has a host. -/
theorem hierarchy_server {before : Url} {rest : Bytes} (hostless : before.host = [])
    (plain : before.opaqueData = []) (present : before.omitHost = false)
    (parsed : parseHierarchy rules before rest = .ok url) (hosted : url.host ≠ [])
    (userless : url.user = none) :
    ∃ authority pathText, rest = bytesOf "//" ++ authority ++ pathText ∧ byte '/' ∉ authority ∧
      (pathText = [] ∨ pathText.head? = some (byte '/')) ∧
      parseHost rules authority = .ok url.host ∧ unescape .path pathText = .ok url.path ∧
      url.opaqueData = [] ∧ url.omitHost = false ∧ url.forceQuery = before.forceQuery ∧
      url.scheme = before.scheme := by
  have no_host : ∀ (next : Url) {text : Bytes}, next.host = [] → setPath next text = .ok url →
      False := by
    intro next text empty set
    obtain ⟨path, rawPath, -, rfl⟩ := setPath_eq set
    exact hosted empty
  unfold parseHierarchy at parsed
  split at parsed
  · split at parsed
    · cases parsed
      exact absurd hostless hosted
    · split at parsed
      · cases parsed
      · exact absurd (no_host _ hostless parsed) id
  · split at parsed
    next slashes =>
      obtain ⟨-, twoSlashes⟩ := Bool.and_eq_true_iff.mp slashes
      obtain ⟨others, rfl⟩ := List.isPrefixOf_iff_prefix.mp twoSlashes
      change (do
        let (user, host) ← parseAuthority rules (others.takeWhile (· ≠ byte '/'))
        setPath { before with user, host } (others.dropWhile (· ≠ byte '/'))) = _ at parsed
      simp only [bind, Except.bind] at parsed
      split at parsed
      · cases parsed
      next pair read =>
        obtain ⟨user, host⟩ := pair
        obtain ⟨path, rawPath, unescaped, rfl⟩ := setPath_eq parsed
        refine ⟨others.takeWhile (· ≠ byte '/'), others.dropWhile (· ≠ byte '/'), ?_, ?_, ?_,
          ?_, unescaped, plain, present, rfl, rfl⟩
        · rw [List.append_assoc, List.takeWhile_append_dropWhile]
        · intro member
          have other := List.mem_takeWhile_imp member
          simp at other
        · cases dropped : others.dropWhile (· ≠ byte '/') with
          | nil => exact .inl rfl
          | cons c later =>
              have stopped := List.head?_dropWhile_not (fun c => decide (c ≠ byte '/')) others
              rw [dropped] at stopped
              exact .inr (congrArg some (by simpa using stopped))
        · unfold parseAuthority at read
          split at read
          · simp only [bind, Except.bind, pure, Except.pure] at read
            split at read
            · cases read
            next named =>
              cases read
              exact named
          · simp only [bind, Except.bind, pure, Except.pure] at read
            split at read
            · cases read
            · split at read
              · cases read
              · cases read
                cases userless
    · exact absurd (no_host { before with omitHost := before.scheme ≠ [] } hostless
        parsed) id

theorem getScheme_eq {rest : Bytes} (schemed : getScheme raw = .ok (scheme, rest))
    (filled : scheme ≠ []) :
    raw = scheme ++ byte ':' :: rest ∧ ∀ c ∈ scheme, isSchemeByte c = true := by
  unfold getScheme at schemed
  split at schemed
  · cases schemed
    exact absurd rfl filled
  next c others dropped =>
    simp only at schemed
    split at schemed
    · cases schemed
      exact absurd rfl filled
    next colon =>
      split at schemed
      · cases schemed
      next first letters taken =>
        split at schemed
        · cases schemed
          have whole := List.takeWhile_append_dropWhile (p := isSchemeByte) (l := raw)
          rw [dropped, not_not.mp colon] at whole
          exact ⟨whole.symm, fun c member => List.mem_takeWhile_imp member⟩
        · cases schemed
          exact absurd rfl filled

theorem cut_eq (separator : UInt8) (text : Bytes) :
    ∃ tail, text = (cut separator text).1 ++ tail ∧ separator ∉ (cut separator text).1 ∧
      ∀ c, tail.head? = some c → c = separator := by
  refine ⟨text.dropWhile (· ≠ separator), List.takeWhile_append_dropWhile.symm, ?_, ?_⟩
  · intro member
    have other := List.mem_takeWhile_imp (show separator ∈ text.takeWhile (· ≠ separator) from member)
    simp at other
  · intro c first
    have stopped := List.head?_dropWhile_not (fun c => decide (c ≠ separator)) text
    rw [first] at stopped
    simpa using stopped

/-- The mark at the end of a URL is at the end of what follows its scheme. -/
theorem endsInOnlyMark_append {front rest : Bytes} (absent : byte '?' ∉ front) :
    endsInOnlyMark (front ++ byte ':' :: rest) = endsInOnlyMark rest := by
  unfold endsInOnlyMark
  rw [List.count_append, List.count_eq_zero_of_not_mem absent, Nat.zero_add,
    List.count_cons_of_ne (by decide), List.getLast?_append_of_ne_nil _ (List.cons_ne_nil _ _)]
  cases rest with
  | nil => decide
  | cons c others => rw [List.getLast?_cons_cons]

/-- A text without a fragment that a URL with a host was parsed from. -/
structure ServerReference (rules : HostRules) (raw : Bytes) (url : Url)
    (scheme authority pathText query : Bytes) : Prop where
  text : raw = scheme ++ byte ':' :: (bytesOf "//" ++ authority ++ pathText ++ query)
  colonless : byte ':' ∉ scheme
  inside : ∀ c ∈ authority, c ≠ byte '/' ∧ c ≠ byte '?'
  slash : pathText = [] ∨ pathText.head? = some (byte '/')
  marked : ∀ c, query.head? = some c → c = byte '?'
  host : parseHost rules authority = .ok url.host
  path : unescape .path pathText = .ok url.path
  opaqueData : url.opaqueData = []
  omitHost : url.omitHost = false
  forceQuery : url.forceQuery = endsInOnlyMark raw

theorem reference_server (parsed : parseReference rules raw = .ok url) (schemed : url.scheme ≠ [])
    (hosted : url.host ≠ []) (userless : url.user = none) :
    ∃ scheme authority pathText query,
      ServerReference rules raw url scheme authority pathText query := by
  unfold parseReference at parsed
  split at parsed
  · cases parsed
  · split at parsed
    · cases parsed
      exact absurd rfl hosted
    · simp only [bind, Except.bind] at parsed
      split at parsed
      · cases parsed
      next pair read =>
        obtain ⟨scheme, rest⟩ := pair
        -- the part in front of the query is parsed either way
        have server : ∀ {before : Url} {front query : Bytes}, rest = front ++ query →
            byte '?' ∉ front → (∀ c, query.head? = some c → c = byte '?') →
            before.scheme = scheme.map Utf8.lowerByte → before.host = [] →
            before.opaqueData = [] → before.omitHost = false →
            before.forceQuery = endsInOnlyMark rest →
            parseHierarchy rules before front = .ok url →
            ∃ scheme authority pathText query,
              ServerReference rules raw url scheme authority pathText query := by
          intro before front query split absent marked lowered hostless plain present forced whole
          obtain ⟨authority, pathText, shape, slashless, slash, host, path, noData, noOmit, force,
            same⟩ := hierarchy_server hostless plain present whole hosted userless
          have filled : scheme ≠ [] := by
            rintro rfl
            rw [same, lowered] at schemed
            exact schemed rfl
          obtain ⟨text, bytes⟩ := getScheme_eq read filled
          have schemeless : ∀ mark, isSchemeByte mark = false → mark ∉ scheme := by
            intro mark other member
            rw [bytes mark member] at other
            cases other
          refine ⟨scheme, authority, pathText, query, ?_, schemeless _ (by decide), ?_, slash,
            marked, host, path, noData, noOmit, ?_⟩
          · rw [text, split, shape]
          · intro c member
            refine ⟨fun equal => slashless (equal ▸ member), fun equal => absent ?_⟩
            rw [shape, ← equal]
            exact List.mem_append_left _ (List.mem_append_right _ member)
          · rw [force, forced, text, endsInOnlyMark_append (schemeless _ (by decide))]
        split at parsed
        next only =>
          have mark := only
          unfold endsInOnlyMark at mark
          obtain ⟨last, once⟩ := Bool.and_eq_true_iff.mp mark
          have shape := List.dropLast_append_getLast? _ (of_decide_eq_true last)
          refine server shape.symm ?_ (fun c first => (Option.some.inj first).symm) rfl rfl rfl rfl
            only.symm parsed
          have counted := of_decide_eq_true once
          rw [← shape, List.count_append] at counted
          have twice : List.count (byte '?') [byte '?'] = 1 := by decide
          exact List.count_eq_zero.mp (by omega)
        next other =>
          obtain ⟨tail, shape, absent, marked⟩ := cut_eq (byte '?') rest
          refine server shape absent marked rfl rfl rfl rfl ?_ parsed
          simpa using other

/-- **A URL with a host** was written with slashes in front of it. -/
theorem server_of_parse (parsed : Url.parse rules raw = .ok url) (schemed : url.scheme ≠ [])
    (hosted : url.host ≠ []) (userless : url.user = none) :
    ∃ authority, ParsedServer rules raw authority url := by
  obtain ⟨tail, whole, unmarked, fragment⟩ := cut_eq (byte '#') raw
  obtain ⟨before, reference, fields⟩ : ∃ before,
      parseReference rules (cut (byte '#') raw).1 = .ok before ∧
      ∃ fragment rawFragment, url = { before with fragment, rawFragment } := by
    unfold Url.parse at parsed
    simp only [bind, Except.bind, pure, Except.pure] at parsed
    split at parsed
    · cases parsed
    next before read =>
      refine ⟨before, read, ?_⟩
      split at parsed
      · cases parsed
        exact ⟨_, _, rfl⟩
      · exact setFragment_eq parsed
  obtain ⟨_, _, rfl⟩ := fields
  obtain ⟨scheme, authority, pathText, query, ⟨shape, colonless, inside, slash, marked, host, path,
    noData, noOmit, forced⟩⟩ := reference_server reference schemed hosted userless
  refine ⟨authority, host, ?_, ⟨pathText, path, slash⟩, noData, noOmit, forced⟩
  have split : raw = scheme ++ byte ':' :: byte '/' :: byte '/' ::
      (authority ++ (pathText ++ query ++ tail)) := by
    rw [whole, shape]
    simp only [List.append_assoc, List.cons_append]
    rfl
  have dropped := (@span_append (fun c => decide (c ≠ byte ':')) scheme
    (byte ':' :: byte '/' :: byte '/' :: (authority ++ (pathText ++ query ++ tail)))
    (fun c member => decide_eq_true fun same => colonless (same ▸ member))
    (fun c first => by
      cases Option.some.inj first
      decide)).2
  unfold authorityText
  rw [split, dropped, List.drop_succ_cons, List.drop_succ_cons, List.drop_succ_cons, List.drop_zero]
  refine (span_append ?_ ?_).1
  · intro c member
    have hashless : c ≠ byte '#' := by
      rintro rfl
      refine unmarked ?_
      rw [shape]
      simp [member]
    have bytes : bytesOf "/?#" = [byte '/', byte '?', byte '#'] := rfl
    simp [bytes, (inside c member).1, (inside c member).2, hashless]
  · intro c first
    have stops : c = byte '/' ∨ c = byte '?' ∨ c = byte '#' := by
      cases pathText with
      | cons d others =>
          exact .inl ((Option.some.inj first).symm.trans
            (Option.some.inj (slash.resolve_left (List.cons_ne_nil _ _))))
      | nil =>
          cases query with
          | cons d others => exact .inr (.inl (marked c first))
          | nil => exact .inr (.inr (fragment c first))
    rcases stops with rfl | rfl | rfl <;> decide

/-! ## Printing a URL of a server -/

theorem setPath_escape (url : Url) (path : Bytes) :
    setPath url (escape .path path) = .ok { url with path, rawPath := [] } := by
  unfold setPath
  rw [unescape_escape fun c _ => path_readsBack c]
  simp only [bind, Except.bind, pure, Except.pure, if_true]

theorem escape_slash {path : Bytes} (slash : path = [] ∨ path.head? = some (byte '/')) :
    escape .path path = [] ∨ (escape .path path).head? = some (byte '/') := by
  cases path with
  | nil => exact .inl rfl
  | cons c others =>
      cases Option.some.inj (slash.resolve_left (List.cons_ne_nil _ _))
      rw [escape_cons, if_neg (by decide)]
      exact .inr rfl

theorem unescape_slash {path : Bytes} (slash : text = [] ∨ text.head? = some (byte '/'))
    (read : unescape .path text = .ok path) : path = [] ∨ path.head? = some (byte '/') := by
  cases text with
  | nil =>
      cases read
      exact .inl rfl
  | cons c others =>
      cases Option.some.inj (slash.resolve_left (List.cons_ne_nil _ _))
      rw [unescape_cons (by decide), if_neg (by decide)] at read
      cases later : unescape .path others with
      | error error =>
          rw [later] at read
          cases read
      | ok value =>
          rw [later] at read
          cases read
          exact .inr rfl

theorem print_server (schemed : url.scheme ≠ []) (noData : url.opaqueData = [])
    (userless : url.user = none) (hosted : url.host ≠ [])
    (slash : url.path = [] ∨ url.path.head? = some (byte '/')) (noRaw : url.rawPath = [])
    (noQuery : url.rawQuery = []) (noFragment : url.fragment = []) :
    url.print = url.scheme ++ bytesOf "://" ++ (escape .host url.host ++ escape .path url.path) ++
      (if url.forceQuery then [byte '?'] else []) := by
  have notStar : url.path ≠ bytesOf "*" := by
    intro same
    rw [same] at slash
    exact absurd slash (by decide)
  have path : url.escapedPath = escape .path url.path := by
    unfold Url.escapedPath keepsRaw
    rw [noRaw, if_neg (by simp), if_neg notStar]
  have lead := escape_slash slash
  have leadless : ¬ (escape .path url.path ≠ [] ∧
      (escape .path url.path).head? ≠ some (byte '/') ∧ url.host ≠ []) := by
    rintro ⟨filled, other, -⟩
    exact lead.elim filled other
  have authority : url.printAuthority = bytesOf "//" ++ escape .host url.host := by
    unfold Url.printAuthority
    rw [if_neg (fun none => schemed none.1), if_neg (fun none => hosted none.2.1),
      if_neg (fun none => hosted none.1), userless]
    simp
  have started : ¬ (url.scheme ++ [byte ':'] ++ url.printAuthority ++ [] = [] ∧
      (cut (byte '/') (escape .path url.path)).1.contains (byte ':') = true) := by
    rintro ⟨empty, -⟩
    simp at empty
  unfold Url.print Url.printHierarchy
  simp only [path, schemed, noData, noQuery, noFragment, if_neg leadless, ne_eq, if_false, not_true,
    or_false, List.append_nil]
  rw [List.append_nil] at started
  rw [if_neg started, authority]
  have marks : bytesOf "://" = [byte ':'] ++ bytesOf "//" := rfl
  rw [marks]
  simp only [List.append_nil, List.append_assoc]

end Servers

end NetUrl
