import Mathlib.Data.List.DropRight
import AmberBackup.GoAgent.Restic
import AmberBackup.Lib.NetUrl

/-! # Credentials of the command line

A stored API key belongs to the URL of a server in canonical form. What `normalizeServerURL`
accepts is put in canonical form exactly if the URL does not end in an empty query and the zone of
its address is ASCII in lower case (`server_url_canonical_iff`): a question mark is printed again
although the query is cleared, and other zones are printed in a form that is not accepted.
-/

namespace AmberBackup

namespace Cli

open NetUrl (Url HostRules ParseError byte bytesOf)
open Utf8 (Bytes toLower LowerTable)

inductive InvalidServerURL where
  | parse (error : ParseError)
  /-- Scheme must be https or http. -/
  | scheme
  /-- Missing host. -/
  | host
  /-- Must not contain credentials. -/
  | credentials
  deriving DecidableEq, Repr

inductive ServerURLError where
  /-- Empty server URL. -/
  | empty
  | invalid (input : Bytes) (reason : InvalidServerURL)
  deriving DecidableEq, Repr

/-- The input without the spaces around it, `https` being its scheme if it has none. -/
def serverText (input : Bytes) : Bytes :=
  let raw := Utf8.trimSpace GoAgent.isSpace input
  if bytesOf "://" <:+: raw then raw else bytesOf "https://" ++ raw

/-- `u` with the fields set that make it canonical. -/
def canonical (lower : Char → Char) (url : Url) : Url :=
  { url with
    scheme := toLower lower url.scheme
    host := toLower lower url.host
    rawQuery := []
    fragment := []
    rawFragment := []
    path := url.path.rdropWhile (· = byte '/')
    rawPath := [] }

def normalizeServerURL (lower : Char → Char) (rules : HostRules) (input : Bytes) :
    Except ServerURLError Bytes :=
  if Utf8.trimSpace GoAgent.isSpace input = [] then .error .empty
  else
    match Url.parse rules (serverText input) with
    | .error error => .error (.invalid input (.parse error))
    | .ok url =>
        if url.scheme ≠ bytesOf "https" ∧ url.scheme ≠ bytesOf "http" then
          .error (.invalid input .scheme)
        else if url.hostname = [] then .error (.invalid input .host)
        else if url.user ≠ none then .error (.invalid input .credentials)
        else .ok (canonical lower url).print

structure StoredLogin where
  apiKey : Bytes
  deriving DecidableEq, Repr

structure CredentialStore where
  current : Bytes := []
  servers : List (Bytes × StoredLogin) := []
  deriving DecidableEq, Repr

/-- The fields of a configuration that name a server and a key. -/
structure ServerAccess where
  url : Bytes := []
  apiKey : Bytes := []
  deriving DecidableEq, Repr

inductive AccessError (ε : Type) where
  | load (error : ε)
  | noServer
  | notLoggedIn (url : Bytes)
  deriving DecidableEq, Repr

/-- The URL and the key of the login that is stored for the URL, if there is one. -/
def withStored (lower : Char → Char) (rules : HostRules) (store : CredentialStore)
    (access : ServerAccess) : ServerAccess :=
  let url := if access.url = [] then store.current else access.url
  if url = [] then { access with url }
  else match normalizeServerURL lower rules url with
    | .error _ => { access with url }
    | .ok base =>
        match store.servers.lookup base with
        | some login => { url := base, apiKey := login.apiKey }
        | none => { access with url }

def requireCredentials {ε : Type} (lower : Char → Char) (rules : HostRules)
    (loaded : Except ε CredentialStore) (access : ServerAccess) :
    Except (AccessError ε) ServerAccess := do
  let access ←
    if access.apiKey = [] then
      match loaded with
      | .error error => throw (.load error)
      | .ok store => pure (withStored lower rules store access)
    else pure access
  if access.url = [] then throw .noServer
  else if access.apiKey = [] then throw (.notLoggedIn access.url)
  else return access

/-! ## Canonical URLs -/

/-- A URL that a server is known by. -/
structure CanonicalUrl (lower : Char → Char) (rules : HostRules) (base : Bytes) : Prop where
  parsed : ∃ url, Url.parse rules base = .ok url ∧
    (url.scheme = bytesOf "https" ∨ url.scheme = bytesOf "http") ∧ url.host ≠ [] ∧
    toLower lower url.host = url.host ∧ url.user = none ∧ url.rawQuery = [] ∧ url.fragment = []
  scheme : bytesOf "https://" <+: base ∨ bytesOf "http://" <+: base
  marks : byte '?' ∉ base ∧ byte '#' ∉ base
  slash : base.getLast? ≠ some (byte '/')
  again : normalizeServerURL lower rules base = .ok base

/-- The URL has a query, which is empty. -/
def EmptyQuery (raw : Bytes) : Prop :=
  NetUrl.endsInOnlyMark (NetUrl.cut (byte '#') raw).1 = true

/-- The zone of the address in the URL, in lower case, is ASCII. -/
def PlainZone (lower : Char → Char) (raw : Bytes) : Prop :=
  Utf8.LowersToAscii lower (NetUrl.zoneText (NetUrl.authorityText raw))

/-- What releases require of hosts does not depend on the case of letters. -/
structure LawfulRules (lower : Char → Char) (rules : HostRules) : Prop where
  literal : ∀ text, rules.literal text = true → rules.literal (toLower lower text) = true
  name : ∀ host, rules.name host = true → rules.name (toLower lower host) = true

/-! ## Stored keys -/

section Access

variable {ε : Type} {lower : Char → Char} {rules : HostRules} {loaded : Except ε CredentialStore}
  {access ready : ServerAccess}

theorem withStored_key (store : CredentialStore) (access : ServerAccess) :
    (withStored lower rules store access).apiKey = access.apiKey ∨
      ∃ login, store.servers.lookup (withStored lower rules store access).url = some login ∧
        (withStored lower rules store access).apiKey = login.apiKey := by
  unfold withStored
  simp only
  generalize (if access.url = [] then store.current else access.url) = url
  split
  · exact .inl rfl
  · split
    · exact .inl rfl
    next base normalized =>
      cases found : store.servers.lookup base with
      | none => exact .inl rfl
      | some login => exact .inr ⟨login, found, rfl⟩

/-- A key that is not given is one that is stored for the URL it is used with. -/
theorem requireCredentials_paired
    (required : requireCredentials lower rules loaded access = .ok ready) :
    access.apiKey ≠ [] ∧ ready = access ∨
      ∃ store login, loaded = .ok store ∧ store.servers.lookup ready.url = some login ∧
        ready.apiKey = login.apiKey := by
  unfold requireCredentials at required
  by_cases given : access.apiKey = []
  · right
    rw [if_pos given] at required
    cases loaded with
    | error error => cases required
    | ok store =>
        simp only [bind, Except.bind, pure, Except.pure] at required
        split at required
        · cases required
        · split at required
          · cases required
          next keyed =>
            cases required
            rcases @withStored_key lower _ store access with same | ⟨login, found, key⟩
            · rw [given] at same
              exact absurd same keyed
            · exact ⟨store, login, rfl, found, key⟩
  · left
    rw [if_neg given] at required
    simp only [bind, Except.bind, pure, Except.pure, given, if_false] at required
    split at required
    · cases required
    · cases required
      exact ⟨given, rfl⟩

end Access

/-! ## Canonical form -/

section Canonical

variable {lower : Char → Char} {rules : HostRules} {input raw base authority : Bytes} {url : Url}

theorem normalizeServerURL_eq (accepted : normalizeServerURL lower rules input = .ok base) :
    ∃ url, Url.parse rules (serverText input) = .ok url ∧
      (url.scheme = bytesOf "https" ∨ url.scheme = bytesOf "http") ∧ url.hostname ≠ [] ∧
      url.user = none ∧ base = (canonical lower url).print := by
  unfold normalizeServerURL at accepted
  split at accepted
  · cases accepted
  · split at accepted
    · cases accepted
    next url parsed =>
      split at accepted
      · cases accepted
      next schemed =>
        split at accepted
        · cases accepted
        next hosted =>
          split at accepted
          · cases accepted
          next userless =>
            cases accepted
            exact ⟨url, parsed, by tauto, hosted, not_not.mp userless, rfl⟩

/-- A visible byte is no blank. -/
theorem isSpace_of_isVisible {c : UInt8} (visible : NetUrl.isVisible c = true) :
    GoAgent.isSpace (Utf8.asciiChar c) = false := by
  obtain ⟨above, below⟩ := Bool.and_eq_true_iff.mp visible
  have least : 33 ≤ c.toNat := UInt8.le_iff_toNat_le.mp (of_decide_eq_true above)
  have most : c.toNat ≤ 126 := UInt8.le_iff_toNat_le.mp (of_decide_eq_true below)
  unfold GoAgent.isSpace asciiSpace spaceSeparator
  rw [Utf8.asciiChar_toNat (NetUrl.isAscii_of_isVisible visible)]
  simp only [Bool.or_eq_false_iff, Bool.and_eq_false_iff, decide_eq_false_iff_not]
  omega

/-- What is printed is visible, and an escape or a byte that needs none. -/
theorem visible_printed {c : UInt8} {mode : NetUrl.Encoding} {text : Bytes}
    (member : c ∈ NetUrl.escape mode text) :
    NetUrl.isVisible c = true ∧ (c = byte '%' ∨ NetUrl.shouldEscape c mode = false) := by
  rcases NetUrl.mem_escape member with ⟨-, plain⟩ | rfl | hex
  · exact ⟨NetUrl.isVisible_of_plain plain, .inr plain⟩
  · exact ⟨by decide, .inl rfl⟩
  · have plain := NetUrl.shouldEscape_of_isHex hex mode
    exact ⟨NetUrl.isVisible_of_plain plain, .inr plain⟩

theorem ne_of_printed {c special : UInt8} {mode : NetUrl.Encoding} {text : Bytes}
    (member : c ∈ NetUrl.escape mode text) (escaped : NetUrl.shouldEscape special mode = true)
    (other : special ≠ byte '%') : c ≠ special := by
  rintro rfl
  rcases (visible_printed member).2 with same | plain
  · exact other same
  · rw [plain] at escaped
    cases escaped

/-- What is printed of a host can stand in front of a path. -/
theorem host_printed {c : UInt8} {host : Bytes} (member : c ∈ NetUrl.escape .host host) :
    NetUrl.isPart c = true ∧ c ≠ byte '/' ∧ c ≠ byte '@' ∧ Utf8.isAscii c = true ∧
      GoAgent.isSpace (Utf8.asciiChar c) = false := by
  have visible := (visible_printed member).1
  refine ⟨NetUrl.isPart_of_isVisible visible ?_ ?_, ?_, ?_, NetUrl.isAscii_of_isVisible visible,
    isSpace_of_isVisible visible⟩
  · exact ne_of_printed member (by decide) (by decide)
  · exact ne_of_printed member (by decide) (by decide)
  · exact ne_of_printed member (by decide) (by decide)
  · exact ne_of_printed member (by decide) (by decide)

theorem path_printed {c : UInt8} {path : Bytes} (member : c ∈ NetUrl.escape .path path) :
    NetUrl.isPart c = true ∧ Utf8.isAscii c = true ∧
      GoAgent.isSpace (Utf8.asciiChar c) = false := by
  have visible := (visible_printed member).1
  refine ⟨NetUrl.isPart_of_isVisible visible ?_ ?_, NetUrl.isAscii_of_isVisible visible,
    isSpace_of_isVisible visible⟩
  · exact ne_of_printed member (by decide) (by decide)
  · exact ne_of_printed member (by decide) (by decide)

/-- The schemes that are accepted consist of lower-case letters. -/
theorem scheme_letters {scheme : Bytes}
    (schemed : scheme = bytesOf "https" ∨ scheme = bytesOf "http") :
    scheme ≠ [] ∧ ∀ c ∈ scheme, NetUrl.isLetter c = true ∧ Utf8.lowerByte c = c := by
  have checked : scheme ≠ [] ∧
      scheme.all (fun c => NetUrl.isLetter c && Utf8.lowerByte c = c) = true := by
    rcases schemed with rfl | rfl <;> exact ⟨by decide, by decide⟩
  refine ⟨checked.1, fun c member => ?_⟩
  obtain ⟨letter, lower⟩ := Bool.and_eq_true_iff.mp (List.all_eq_true.mp checked.2 c member)
  exact ⟨letter, of_decide_eq_true lower⟩

/-- The URL that is printed, with its host in a form that can be printed. -/
structure Printed (lower : Char → Char) (url : Url) : Prop where
  scheme : url.scheme = bytesOf "https" ∨ url.scheme = bytesOf "http"
  lowered : toLower lower url.scheme = url.scheme
  host : url.host ≠ []
  hostname : url.hostname ≠ []
  hostLower : toLower lower url.host = url.host
  slash : url.path = [] ∨ url.path.head? = some (byte '/')
  trimmed : url.path.rdropWhile (· = byte '/') = url.path
  others : url = { scheme := url.scheme, host := url.host, path := url.path,
                   forceQuery := url.forceQuery : Url }

/-- The text that is printed, without a mark at its end. -/
def serverPrint (url : Url) : Bytes :=
  url.scheme ++ bytesOf "://" ++ (NetUrl.escape .host url.host ++ NetUrl.escape .path url.path)

theorem Printed.print (printed : Printed lower url) :
    url.print = serverPrint url ++ (if url.forceQuery then [byte '?'] else []) := by
  have filled := (scheme_letters printed.scheme).1
  have fields := printed.others
  refine NetUrl.print_server filled ?_ ?_ printed.host printed.slash ?_ ?_ ?_ <;> rw [fields]

theorem rdropWhile_slash {path : Bytes} (slash : path = [] ∨ path.head? = some (byte '/')) :
    path.rdropWhile (· = byte '/') = [] ∨
      (path.rdropWhile (· = byte '/')).head? = some (byte '/') := by
  obtain ⟨tail, split⟩ := List.rdropWhile_prefix (· = byte '/') path
  cases kept : path.rdropWhile (· = byte '/') with
  | nil => exact .inl rfl
  | cons c others =>
      rw [kept] at split
      rcases slash with rfl | front
      · cases split
      · rw [← split] at front
        exact .inr front

/-- What is accepted is printed in a canonical form. -/
theorem printed_of_accepted (table : LowerTable lower)
    (parsed : Url.parse rules raw = .ok url)
    (schemed : url.scheme = bytesOf "https" ∨ url.scheme = bytesOf "http")
    (hosted : url.hostname ≠ []) (userless : url.user = none) :
    ∃ authority,
      NetUrl.ParsedServer rules raw authority url ∧ Printed lower (canonical lower url) := by
  obtain ⟨filled, letters⟩ := scheme_letters schemed
  have host : url.host ≠ [] := by
    intro empty
    unfold Url.hostname at hosted
    rw [empty] at hosted
    exact hosted (by decide)
  obtain ⟨authority, server⟩ := NetUrl.server_of_parse parsed filled host userless
  have lowered : toLower lower url.scheme = url.scheme := by
    refine Utf8.toLower_of_fixed table fun c member => ⟨?_, (letters c member).2⟩
    exact NetUrl.isAscii_of_isVisible (NetUrl.isVisible_of_isLetter (letters c member).1)
  have hostname : NetUrl.hostnameOf (toLower lower url.host) ≠ [] := by
    rcases NetUrl.parseHost_cases server.host with ⟨name, -, -⟩ |
      ⟨address, zone, port, literal, -, -⟩
    · exact NetUrl.hostnameOf_toLower table name hosted
    · obtain ⟨split, lowerLiteral⟩ := literal.lowered table
      rw [NetUrl.hostnameOf_literal lowerLiteral, ← split]
      intro empty
      apply hosted
      unfold Url.hostname
      rw [NetUrl.hostnameOf_literal literal]
      exact Utf8.toLower_eq_nil.mp empty
  have slash : url.path = [] ∨ url.path.head? = some (byte '/') := by
    obtain ⟨pathText, read, slashed⟩ := server.path
    exact NetUrl.unescape_slash slashed read
  refine ⟨authority, server, ⟨?_, ?_, ?_, hostname, Utf8.toLower_toLower table _,
    rdropWhile_slash slash, List.rdropWhile_idempotent _ _, ?_⟩⟩
  · change toLower lower url.scheme = _ ∨ toLower lower url.scheme = _
    rwa [lowered]
  · exact Utf8.toLower_toLower table _
  · exact fun empty => host (Utf8.toLower_eq_nil.mp empty)
  · unfold canonical
    rw [server.opaqueData, server.omitHost, userless]

/-- A printed URL without a mark at its end is parsed as it is, if its host is. -/
theorem parse_serverPrint (printed : Printed lower url) (unmarked : url.forceQuery = false) :
    Url.parse rules (serverPrint url) =
      (NetUrl.parseHost rules (NetUrl.escape .host url.host)).map fun host => { url with host } := by
  obtain ⟨filled, letters⟩ := scheme_letters printed.scheme
  have lower : url.scheme.map Utf8.lowerByte = url.scheme := by
    rw [List.map_congr_left fun c member => (letters c member).2, List.map_id']
  unfold serverPrint
  rw [NetUrl.parse_server ⟨lower, ⟨filled, fun c member => (letters c member).1⟩, fun c member => ?_,
    fun c member => (path_printed member).1, NetUrl.escape_slash printed.slash⟩]
  · cases NetUrl.parseHost rules (NetUrl.escape .host url.host) with
    | error error => rfl
    | ok host =>
        change NetUrl.setPath _ _ = _
        rw [NetUrl.setPath_escape, printed.others, unmarked]
        rfl
  · obtain ⟨part, slashless, userless, -⟩ := host_printed member
    exact ⟨part, slashless, userless⟩

theorem serverPrint_bytes (printed : Printed lower url) {c : UInt8}
    (member : c ∈ serverPrint url) :
    NetUrl.isPart c = true ∧ Utf8.isAscii c = true ∧
      GoAgent.isSpace (Utf8.asciiChar c) = false := by
  simp only [serverPrint, List.mem_append] at member
  rcases member with (scheme | marks) | host | path
  · have visible := NetUrl.isVisible_of_isLetter ((scheme_letters printed.scheme).2 c scheme).1
    refine ⟨NetUrl.isPart_of_isVisible visible ?_ ?_, NetUrl.isAscii_of_isVisible visible,
      isSpace_of_isVisible visible⟩
    · rintro rfl
      exact absurd ((scheme_letters printed.scheme).2 _ scheme).1 (by decide)
    · rintro rfl
      exact absurd ((scheme_letters printed.scheme).2 _ scheme).1 (by decide)
  · have plain : (bytesOf "://").all (fun c =>
        NetUrl.isPart c && Utf8.isAscii c && !GoAgent.isSpace (Utf8.asciiChar c)) = true := by
      decide
    simpa [and_assoc] using List.all_eq_true.mp plain c marks
  · obtain ⟨part, -, -, ascii, space⟩ := host_printed host
    exact ⟨part, ascii, space⟩
  · exact path_printed path

/-- A printed URL ends in no slash. -/
theorem serverPrint_last (printed : Printed lower url) :
    (serverPrint url).getLast? ≠ some (byte '/') := by
  intro last
  have host : NetUrl.escape .host url.host ≠ [] :=
    fun empty => printed.host (NetUrl.escape_eq_nil.mp empty)
  unfold serverPrint at last
  rw [List.getLast?_append_of_ne_nil _ (List.append_ne_nil_of_left_ne_nil host _)] at last
  by_cases path : url.path = []
  · rw [path] at last
    change (NetUrl.escape .host url.host ++ []).getLast? = _ at last
    rw [List.append_nil] at last
    exact (host_printed (List.mem_of_getLast? last)).2.1 rfl
  · rw [List.getLast?_append_of_ne_nil _ fun empty => path (NetUrl.escape_eq_nil.mp empty)] at last
    rcases NetUrl.getLast_escape last with slash | hex
    · have kept : url.path.rdropWhile (· = byte '/') ≠ [] := by rwa [printed.trimmed]
      have other := List.rdropWhile_last_not (· = byte '/') url.path kept
      simp only [printed.trimmed, decide_eq_true_eq] at other
      rw [List.getLast?_eq_some_getLast path] at slash
      exact other (Option.some.inj slash)
    · exact absurd hex (by decide)

/-- A URL in canonical form is normalized to itself, if its host is parsed as it is. -/
theorem normalize_serverPrint (printed : Printed lower url) (unmarked : url.forceQuery = false)
    (parsed : Url.parse rules (serverPrint url) = .ok url) :
    normalizeServerURL lower rules (serverPrint url) = .ok (serverPrint url) := by
  have trimmed : Utf8.trimSpace GoAgent.isSpace (serverPrint url) = serverPrint url :=
    Utf8.trimSpace_of_plain fun c member => (serverPrint_bytes printed member).2
  have text : serverText (serverPrint url) = serverPrint url := by
    unfold serverText
    rw [trimmed]
    exact if_pos ⟨url.scheme, NetUrl.escape .host url.host ++ NetUrl.escape .path url.path, rfl⟩
  have filled : serverPrint url ≠ [] := by
    unfold serverPrint bytesOf
    simp
  have same : canonical lower url = url := by
    have fields := printed.others
    unfold canonical
    rw [printed.lowered, printed.hostLower, printed.trimmed]
    rw [fields]
  have schemed : ¬ (url.scheme ≠ bytesOf "https" ∧ url.scheme ≠ bytesOf "http") := by
    rintro ⟨https, http⟩
    exact printed.scheme.elim https http
  have userless : url.user = none := by rw [printed.others]
  unfold normalizeServerURL
  rw [trimmed, if_neg filled, text, parsed]
  simp only
  rw [if_neg schemed, if_neg printed.hostname, if_neg (not_not.mpr userless), same, printed.print,
    unmarked, if_neg Bool.false_ne_true, List.append_nil]

/-- **Canonical URLs.** What is accepted is put in a canonical form exactly if its query is not
an empty one and the zone of its address is ASCII in lower case. A stored key is only used with the
URL it is stored under. -/
theorem server_url_canonical_iff {ε : Type} (table : LowerTable lower)
    (lawful : LawfulRules lower rules) (accepted : normalizeServerURL lower rules input = .ok base) :
    (CanonicalUrl lower rules base ↔
      ¬ EmptyQuery (serverText input) ∧ PlainZone lower (serverText input)) ∧
    ∀ (loaded : Except ε CredentialStore) access ready,
      requireCredentials lower rules loaded access = .ok ready →
        access.apiKey ≠ [] ∧ ready = access ∨
          ∃ store login, loaded = .ok store ∧ store.servers.lookup ready.url = some login ∧
            ready.apiKey = login.apiKey := by
  refine ⟨?_, fun loaded access ready => requireCredentials_paired⟩
  obtain ⟨url, parsed, schemed, hosted, userless, rfl⟩ := normalizeServerURL_eq accepted
  obtain ⟨authority, server, printed⟩ := printed_of_accepted table parsed schemed hosted userless
  have forced : (canonical lower url).forceQuery = true ↔ EmptyQuery (serverText input) := by
    unfold EmptyQuery
    rw [← server.forceQuery]
    rfl
  have reparsed : (PlainZone lower (serverText input) →
        NetUrl.parseHost rules (NetUrl.escape .host (canonical lower url).host) =
          .ok (canonical lower url).host) ∧
      ∀ host, NetUrl.parseHost rules (NetUrl.escape .host (canonical lower url).host) = .ok host →
        PlainZone lower (serverText input) := by
    unfold PlainZone
    rw [server.text]
    rcases NetUrl.parseHost_cases server.host with ⟨name, ruled, zone⟩ |
      ⟨address, zone, port, literal, ruled, zoned⟩
    · rw [zone]
      exact ⟨fun _ => NetUrl.parseHost_escape_name (name.lowered table) (lawful.name _ ruled),
        fun _ _ => List.forall_mem_nil _⟩
    · obtain ⟨split, lowered⟩ := literal.lowered table
      have again := lawful.literal _ ruled
      rw [split] at again
      have both := NetUrl.parseHost_escape_literal lowered again
      have ascii := NetUrl.zone_lowersToAscii table zoned
      exact ⟨fun plain => both.1 (ascii.mp plain), fun host same => ascii.mpr (both.2 host same)⟩
  rw [printed.print]
  constructor
  · intro whole
    have unmarked : (canonical lower url).forceQuery = false := by
      by_contra marked
      rw [Bool.not_eq_false] at marked
      apply whole.marks.1
      rw [marked]
      exact List.mem_append_right _ (List.mem_singleton_self _)
    refine ⟨fun empty => ?_, ?_⟩
    · rw [forced.mpr empty] at unmarked
      cases unmarked
    · obtain ⟨found, read, -⟩ := whole.parsed
      rw [unmarked, if_neg Bool.false_ne_true, List.append_nil,
        parse_serverPrint printed unmarked] at read
      cases host : NetUrl.parseHost rules (NetUrl.escape .host (canonical lower url).host) with
      | error error =>
          rw [host] at read
          cases read
      | ok value => exact reparsed.2 value host
  · rintro ⟨filled, plain⟩
    have unmarked : (canonical lower url).forceQuery = false := by
      by_contra marked
      exact filled (forced.mp (by simpa using marked))
    have read : Url.parse rules (serverPrint (canonical lower url)) = .ok (canonical lower url) := by
      rw [parse_serverPrint printed unmarked, reparsed.1 plain]
      rfl
    rw [unmarked, if_neg Bool.false_ne_true, List.append_nil]
    refine ⟨⟨canonical lower url, read, printed.scheme, printed.host, printed.hostLower, userless,
      rfl, rfl⟩, ?_, ?_, serverPrint_last printed, normalize_serverPrint printed unmarked read⟩
    · unfold serverPrint
      have start : ∀ scheme rest, scheme = bytesOf "https" ∨ scheme = bytesOf "http" →
          bytesOf "https://" <+: scheme ++ bytesOf "://" ++ rest ∨
            bytesOf "http://" <+: scheme ++ bytesOf "://" ++ rest := by
        have https : bytesOf "https://" = bytesOf "https" ++ bytesOf "://" := by decide
        have http : bytesOf "http://" = bytesOf "http" ++ bytesOf "://" := by decide
        rintro scheme rest (rfl | rfl)
        · rw [https]
          exact .inl (List.prefix_append _ _)
        · rw [http]
          exact .inr (List.prefix_append _ _)
      exact start _ _ printed.scheme
    · refine ⟨fun mark => ?_, fun hash => ?_⟩
      · exact absurd (serverPrint_bytes printed mark).1 (by decide)
      · exact absurd (serverPrint_bytes printed hash).1 (by decide)

/-- A release that requires nothing of a host besides. -/
def anyHost : HostRules where
  literal _ := true
  name _ := true

/-- An empty query is printed again, and an address with a zone that is not ASCII is printed in a
form that is not accepted. -/
theorem server_url_not_canonical :
    normalizeServerURL GoAgent.toLower anyHost (bytesOf "amber.example/?") =
        .ok (bytesOf "https://amber.example?") ∧
      normalizeServerURL GoAgent.toLower anyHost (Utf8.encode "https://[fe80::1%25ä]".toList) =
        .ok (bytesOf "https://[fe80::1%25%C3%A4]") ∧
      normalizeServerURL GoAgent.toLower anyHost (bytesOf "https://[fe80::1%25%C3%A4]") =
        .error (.invalid (bytesOf "https://[fe80::1%25%C3%A4]")
          (.parse (.invalidEscape (bytesOf "%C3")))) ∧
      ¬ ∀ input base, normalizeServerURL GoAgent.toLower anyHost input = .ok base →
        CanonicalUrl GoAgent.toLower anyHost base := by
  have marked : normalizeServerURL GoAgent.toLower anyHost (bytesOf "amber.example/?") =
      .ok (bytesOf "https://amber.example?") := by decide +kernel
  refine ⟨marked, by decide +kernel, by decide +kernel, ?_⟩
  intro all
  exact absurd (all _ _ marked).marks.1 (by decide +kernel)

/-- Lower case of the alphabet is a table of lower-case letters. -/
theorem toLower_table : LowerTable GoAgent.toLower := by
  have ascii : ∀ char : Char, char.toNat < 0x80 → GoAgent.toLower char = char.toLower ∧
      GoAgent.toLower (GoAgent.toLower char) = GoAgent.toLower char := by
    intro char small
    have all : ∀ number < 128, GoAgent.toLower (Char.ofNat number) = (Char.ofNat number).toLower ∧
        GoAgent.toLower (GoAgent.toLower (Char.ofNat number)) =
          GoAgent.toLower (Char.ofNat number) := by decide +kernel
    have at_char := all char.toNat small
    rwa [Char.ofNat_toNat] at at_char
  have other : ∀ char : Char, 0x80 ≤ char.toNat → GoAgent.toLower char = char ∨
      GoAgent.toLower char = 'i' ∨ GoAgent.toLower char = 'k' := by
    intro char large
    unfold GoAgent.toLower
    split
    · exact .inr (.inl rfl)
    · split
      · exact .inr (.inr rfl)
      · left
        refine dif_neg ?_
        rintro ⟨-, high⟩
        have number : char.toNat ≤ 90 := high
        omega
  refine ⟨fun char small => (ascii char small).1, ?_, ?_⟩
  · intro char large
    rcases other char large with same | i | k
    · rw [same]
      exact .inl large
    · rw [i]
      exact .inr (by decide)
    · rw [k]
      exact .inr (by decide)
  · intro char
    by_cases small : char.toNat < 0x80
    · exact (ascii char small).2
    · rcases other char (Nat.not_lt.mp small) with same | i | k
      · rw [same, same]
      · rw [i]
        decide
      · rw [k]
        decide

theorem example_url_canonical :
    CanonicalUrl GoAgent.toLower anyHost (bytesOf "https://amber.example:3000/backup") := by
  have accepted : normalizeServerURL GoAgent.toLower anyHost
      (bytesOf " https://Amber.Example:3000/backup/?x#y ") =
        .ok (bytesOf "https://amber.example:3000/backup") := by decide +kernel
  have plain : PlainZone GoAgent.toLower
      (serverText (bytesOf " https://Amber.Example:3000/backup/?x#y ")) := by
    have all : (toLower GoAgent.toLower (NetUrl.zoneText (NetUrl.authorityText (serverText
        (bytesOf " https://Amber.Example:3000/backup/?x#y "))))).all Utf8.isAscii = true := by
      decide +kernel
    exact List.all_eq_true.mp all
  have filled : ¬ EmptyQuery (serverText (bytesOf " https://Amber.Example:3000/backup/?x#y ")) := by
    unfold EmptyQuery
    decide +kernel
  exact (@server_url_canonical_iff _ _ _ _ Unit toLower_table
    ⟨fun _ same => same, fun _ same => same⟩ accepted).1.mpr ⟨filled, plain⟩

end Canonical

end Cli

end AmberBackup
