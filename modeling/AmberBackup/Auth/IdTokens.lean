import AmberBackup.Auth.SsoService
import AmberBackup.Lib.Base64
import AmberBackup.Restic.Host

/-! # Tokens of identity providers

An `id_token` is taken if one of the provider's keys verifies its signature and its claims are about
this sign-in: issuer, audience, lifetime and nonce. A token names the key it was signed with, or any
key will do. Parsing and signatures are up to the platform. What it takes for a token to pass is said
without the checks (`openToken_eq_ok`, `checkClaims_eq_ok`, `verifyWithKeys_iff`).
-/

namespace AmberBackup.Auth

open Utf8 (Bytes)

/-- A JSON Web Key as published in a provider's key set. -/
structure Jwk where
  members : List (String × Json)

def Jwk.kid (jwk : Jwk) : Option String :=
  match lookupLast "kid" jwk.members with
  | some (.text kid) => some kid
  | _ => none

/-- How the verification of a signature reads it. -/
inductive SignatureOptions where
  | plain | pss | ieeeP1363
  deriving DecidableEq, Repr

/-- What the checks of a token call. -/
structure TokenPlatform (Key : Type) where
  /-- `JSON.parse`, of the bytes as UTF-8. -/
  parseJson : Bytes → Option Json
  /-- `String(value)`, of what is no text. -/
  toText : Json → String
  createPublicKey : Jwk → Option Key
  /-- `verify`, by digest, signed text, key, options and signature; `none` where it throws. -/
  verifySignature : String → List Char → Key → SignatureOptions → Bytes → Option Bool

/-- `ID_TOKEN_ALGS`. -/
def idTokenAlgs : List (String × String) :=
  [("RS256", "sha256"), ("RS384", "sha384"), ("RS512", "sha512"),
    ("PS256", "sha256"), ("PS384", "sha384"), ("PS512", "sha512"),
    ("ES256", "sha256"), ("ES384", "sha384"), ("ES512", "sha512")]

/-- The members every object inherits: no digest, but not undefined either. -/
def inheritedMembers : List String :=
  ["constructor", "__defineGetter__", "__defineSetter__", "hasOwnProperty", "__lookupGetter__",
    "__lookupSetter__", "isPrototypeOf", "propertyIsEnumerable", "toString", "valueOf", "__proto__",
    "toLocaleString"]

/-- `ID_TOKEN_ALGS[alg]`: a digest, or an inherited member, for which verification throws. -/
def digestOf (alg : String) : Option (Option String) :=
  match lookupLast alg idTokenAlgs with
  | some digest => some (some digest)
  | none => if alg ∈ inheritedMembers then some none else none

def signatureOptions (alg : String) : SignatureOptions :=
  if "PS".toList <+: alg.toList then .pss
  else if "ES".toList <+: alg.toList then .ieeeP1363
  else .plain

/-- `CLOCK_SKEW`, in seconds. -/
def clockSkew : Nat := 60

/-- `value.name`; `null` has no members to read. -/
def memberOf (name : String) : Json → Except Failure (Option Json)
  | .null => .error (.error ("Cannot read properties of null (reading '" ++ name ++ "')"))
  | .object fields => .ok (lookupLast name fields)
  | _ => .ok none

/-- `value ?? …`. -/
def present : Option Json → Option Json
  | some .null => none
  | value => value

/-- `value === text`. -/
def isText (text : String) : Option Json → Bool
  | some (.text found) => found = text
  | _ => false

def isTrue : Option Json → Bool
  | some (.boolean flag) => flag
  | _ => false

/-- A token taken apart, before its signature is verified. -/
structure OpenedToken where
  alg : String
  /-- None for an algorithm that is an inherited member. -/
  digest : Option String
  /-- The name of the key, unless it is empty. -/
  kid : Option String
  signed : List Char
  signature : Bytes
  payload : List Char

section Platform

variable {Key : Type} (platform : TokenPlatform Key)

/-- `String(value)`. -/
def TokenPlatform.text : Json → String
  | .text text => text
  | other => platform.toText other

def parseSegment (segment : List Char) : Except Failure Json :=
  match platform.parseJson (Base64.decode segment) with
  | some value => .ok value
  | none => .error (.unauthorized "Malformed id_token")

/-- The name of the key a header asks for. -/
def keyName : Option Json → Option String
  | some (.text kid) => if kid = "" then none else some kid
  | _ => none

/-- `verifyIdToken` up to the keys. -/
def openToken (idToken : Option String) : Except Failure OpenedToken :=
  match idToken.filter (· ≠ "") with
  | none => .error (.unauthorized "Missing id_token")
  | some token =>
      match token.toList.splitOn '.' with
      | [header, payload, signature] => do
          let value ← parseSegment platform header
          let alg := ((present (← memberOf "alg" value)).map platform.text).getD ""
          match digestOf alg with
          -- `none` and the HMAC family would let anyone mint a token
          | none => throw (.unauthorized ("Unsupported id_token algorithm: " ++ alg))
          | some digest =>
              return {
                alg, digest, payload
                kid := keyName (← memberOf "kid" value)
                signed := header ++ '.' :: payload
                signature := Base64.decode signature }
      | _ => .error (.unauthorized "Malformed id_token")

/-- The keys that are tried: those of the token's name, or else all. -/
def candidateKeys (keys : List Jwk) : Option String → List Jwk
  | none => keys
  | some kid =>
      let named := keys.filter fun jwk => jwk.kid = some kid
      if named.isEmpty then keys else named

def keyVerifies (token : OpenedToken) (jwk : Jwk) : Bool :=
  match platform.createPublicKey jwk, token.digest with
  | some key, some digest =>
      platform.verifySignature digest token.signed key (signatureOptions token.alg)
        token.signature = some true
  | _, _ => false

/-- True as soon as one candidate key verifies the signature. -/
def verifyWithKeys (keys : List Jwk) (token : OpenedToken) : Bool :=
  (candidateKeys keys token.kid).any (keyVerifies platform token)

/-- Whether the token names a key that is not among these. -/
def namesUnknownKey (keys : List Jwk) (token : OpenedToken) : Bool :=
  match token.kid with
  | none => false
  | some kid => !keys.any fun jwk => jwk.kid = some kid

/-- Whether the audience of a token is this client. -/
def audienceOk (clientId : String) : Option Json → Bool
  | some (.array items) => items.any fun item => isText clientId (some item)
  | aud => isText clientId aud

/-- Whether a token has expired, at a time in seconds; one that does not say so has. -/
def hasExpired (now : Nat) : Option Json → Bool
  | some (.number exp) => exp + clockSkew < now
  | _ => true

def isEarly (now : Nat) : Option Json → Bool
  | some (.number nbf) => (now : Rat) < nbf - clockSkew
  | _ => false

/-- A check that ends the sign-in where it fails. -/
def demand (holds : Bool) (message : String) : Except Failure Unit :=
  if holds then .ok () else .error (.unauthorized message)

/-- `verifyIdToken` from the signature on, at a time in seconds. -/
def checkClaims (clientId issuer : String) (nonce : Option String) (now : Nat) (claims : Json) :
    Except Failure Unit := do
  demand (isText issuer (← memberOf "iss" claims)) "id_token issuer mismatch"
  demand (audienceOk clientId (← memberOf "aud" claims)) "id_token audience mismatch"
  demand (!hasExpired now (← memberOf "exp" claims)) "id_token has expired"
  demand (!isEarly now (← memberOf "nbf" claims)) "id_token is not valid yet"
  match nonce.filter (· ≠ "") with
  | none => return ()
  | some nonce => demand (isText nonce (← memberOf "nonce" claims)) "id_token nonce mismatch"

/-- The identity that claims assert, as `oidcProfile` reads it. -/
def claimedProfile (type : SsoProviderType) (claims : Json) : Except Failure SsoProfile := do
  let email :=
    match ← memberOf "email" claims with
    | some (.text email) => email
    | _ => ""
  let emailVerified := isTrue (← memberOf "email_verified" claims) ||
    (type = .entra && isTrue (← memberOf "xms_edov" claims))
  let name := (present (← memberOf "name" claims)).or
    (present (← memberOf "preferred_username" claims))
  return {
    subject := ((present (← memberOf "sub" claims)).map platform.text).getD ""
    email
    name := (name.map platform.text).getD email
    emailVerified }

end Platform

/-! ## What passes -/

/-- A text as the token it was opened as. -/
structure OpensAs {Key : Type} (platform : TokenPlatform Key) (text : String)
    (token : OpenedToken) : Prop where
  parts : ∃ header signature, text.toList.splitOn '.' = [header, token.payload, signature] ∧
    token.signed = header ++ '.' :: token.payload ∧ token.signature = Base64.decode signature ∧
    ∃ value alg kid, parseSegment platform header = .ok value ∧ memberOf "alg" value = .ok alg ∧
      memberOf "kid" value = .ok kid ∧ token.alg = ((present alg).map platform.text).getD "" ∧
      token.kid = keyName kid
  digest : digestOf token.alg = some token.digest

/-- The claims of a token that is for this client, from this issuer, for this sign-in and in its
lifetime. -/
structure ClaimsHold (clientId issuer : String) (nonce : Option String) (now : Nat)
    (fields : List (String × Json)) : Prop where
  issuer : lookupLast "iss" fields = some (.text issuer)
  audience : lookupLast "aud" fields = some (.text clientId) ∨
    ∃ items, lookupLast "aud" fields = some (.array items) ∧ .text clientId ∈ items
  expiry : ∃ exp, lookupLast "exp" fields = some (.number exp) ∧ (now : Rat) ≤ exp + clockSkew
  notBefore : ∀ nbf, lookupLast "nbf" fields = some (.number nbf) → nbf - clockSkew ≤ now
  nonce : ∀ value, nonce = some value → value ≠ "" → lookupLast "nonce" fields = some (.text value)

theorem bind_ok {α β : Type} (value : α) (rest : α → Except Failure β) :
    (Except.ok value >>= rest) = rest value := rfl

theorem isText_iff {text : String} {value : Option Json} :
    isText text value = true ↔ value = some (.text text) := by
  unfold isText
  split
  · next found => simp
  · next other => exact ⟨nofun, fun same => absurd same (other text)⟩

theorem audienceOk_iff {clientId : String} {aud : Option Json} :
    audienceOk clientId aud = true ↔
      aud = some (.text clientId) ∨ ∃ items, aud = some (.array items) ∧ .text clientId ∈ items := by
  unfold audienceOk
  split
  · next items =>
      simp only [List.any_eq_true, isText_iff, Option.some.injEq, reduceCtorEq, false_or,
        Json.array.injEq, exists_eq_left', exists_eq_right]
  · next other =>
      rw [isText_iff]
      refine ⟨Or.inl, ?_⟩
      rintro (same | ⟨items, same, -⟩)
      · exact same
      · exact absurd same (other items)

theorem hasExpired_iff {now : Nat} {exp : Option Json} :
    hasExpired now exp = false ↔ ∃ number, exp = some (.number number) ∧
      (now : Rat) ≤ number + clockSkew := by
  unfold hasExpired
  split
  · next number => simp [Rat.not_lt]
  · next other => exact ⟨nofun, fun ⟨number, same, _⟩ => absurd same (other number)⟩

theorem isEarly_iff {now : Nat} {nbf : Option Json} :
    isEarly now nbf = false ↔ ∀ number, nbf = some (.number number) →
      number - clockSkew ≤ (now : Rat) := by
  unfold isEarly
  split
  · next number => simp [Rat.not_lt]
  · next other => exact ⟨fun _ number same => absurd same (other number), fun _ => rfl⟩

theorem demand_eq_ok {holds : Bool} {message : String} :
    demand holds message = .ok () ↔ holds = true := by
  unfold demand
  split
  · next holds => exact ⟨fun _ => holds, fun _ => rfl⟩
  · next fails => exact ⟨nofun, fun holds => absurd holds fails⟩

theorem demand_bind_eq_ok {holds : Bool} {message : String} {rest : Except Failure Unit} :
    (demand holds message >>= fun _ => rest) = .ok () ↔ holds = true ∧ rest = .ok () := by
  unfold demand
  split
  · next holds => exact ⟨fun passed => ⟨holds, passed⟩, And.right⟩
  · next fails => exact ⟨nofun, fun passed => absurd passed.1 fails⟩

/-- The checks of the claims of an object, in their order. -/
theorem checkClaims_object {clientId issuer : String} {nonce : Option String} {now : Nat}
    {fields : List (String × Json)} :
    checkClaims clientId issuer nonce now (.object fields) = .ok () ↔
      isText issuer (lookupLast "iss" fields) = true ∧
      audienceOk clientId (lookupLast "aud" fields) = true ∧
      hasExpired now (lookupLast "exp" fields) = false ∧
      isEarly now (lookupLast "nbf" fields) = false ∧
      ∀ value, nonce = some value → value ≠ "" → isText value (lookupLast "nonce" fields) = true := by
  unfold checkClaims
  simp only [memberOf, bind_ok, demand_bind_eq_ok, Bool.not_eq_true']
  refine and_congr_right fun _ => and_congr_right fun _ => and_congr_right fun _ =>
    and_congr_right fun _ => ?_
  split
  · next unasked =>
      refine ⟨fun _ value asked given => ?_, fun _ => rfl⟩
      rw [asked, Option.filter_some, if_pos (decide_eq_true given)] at unasked
      cases unasked
  · next value asked =>
      obtain ⟨rfl, given⟩ := Option.filter_eq_some_iff.mp asked
      rw [demand_eq_ok]
      refine ⟨fun about other same _ => ?_, fun about => about value rfl (of_decide_eq_true given)⟩
      cases same
      exact about

theorem checkClaims_eq_ok {clientId issuer : String} {nonce : Option String} {now : Nat}
    {claims : Json} : checkClaims clientId issuer nonce now claims = .ok () ↔
      ∃ fields, claims = .object fields ∧ ClaimsHold clientId issuer nonce now fields := by
  constructor
  · intro passed
    cases claims with
    | object fields =>
        obtain ⟨iss, aud, exp, nbf, about⟩ := checkClaims_object.mp passed
        exact ⟨fields, rfl, isText_iff.mp iss, audienceOk_iff.mp aud, hasExpired_iff.mp exp,
          isEarly_iff.mp nbf, fun value asked given => isText_iff.mp (about value asked given)⟩
    | null | boolean | number | text | array => cases passed
  · rintro ⟨fields, rfl, holds⟩
    exact checkClaims_object.mpr ⟨isText_iff.mpr holds.issuer, audienceOk_iff.mpr holds.audience,
      hasExpired_iff.mpr holds.expiry, isEarly_iff.mpr holds.notBefore,
      fun value asked given => isText_iff.mpr (holds.nonce value asked given)⟩

theorem verifyWithKeys_iff {Key : Type} {platform : TokenPlatform Key} {keys : List Jwk}
    {token : OpenedToken} : verifyWithKeys platform keys token = true ↔
      ∃ jwk ∈ candidateKeys keys token.kid, ∃ key digest,
        platform.createPublicKey jwk = some key ∧ token.digest = some digest ∧
        platform.verifySignature digest token.signed key (signatureOptions token.alg)
          token.signature = some true := by
  unfold verifyWithKeys
  rw [List.any_eq_true]
  refine exists_congr fun jwk => and_congr_right fun _ => ?_
  unfold keyVerifies
  cases platform.createPublicKey jwk with
  | none => simp
  | some key => cases token.digest <;> simp

theorem candidateKeys_subset (keys : List Jwk) (kid : Option String) :
    candidateKeys keys kid ⊆ keys := by
  unfold candidateKeys
  split
  · exact fun _ member => member
  · dsimp only
    split
    · exact fun _ member => member
    · exact fun _ member => (List.mem_filter.mp member).1

/-- The keys that are tried have the name the token asks for, where there are such keys. -/
theorem kid_of_candidateKeys {keys : List Jwk} {token : OpenedToken} {kid : String}
    (known : namesUnknownKey keys token = false) (asked : token.kid = some kid) :
    ∀ jwk ∈ candidateKeys keys token.kid, jwk.kid = some kid := by
  unfold namesUnknownKey at known
  rw [asked] at known ⊢
  dsimp only at known
  have named : (keys.filter fun jwk => jwk.kid = some kid) ≠ [] := by
    rw [Bool.not_eq_false', List.any_eq_true] at known
    obtain ⟨jwk, member, same⟩ := known
    exact List.ne_nil_of_mem (List.mem_filter.mpr ⟨member, same⟩)
  intro jwk member
  unfold candidateKeys at member
  dsimp only at member
  rw [if_neg (by rwa [List.isEmpty_iff])] at member
  exact of_decide_eq_true (List.mem_filter.mp member).2

theorem openToken_eq_ok {Key : Type} {platform : TokenPlatform Key} {idToken : Option String}
    {token : OpenedToken} (opened : openToken platform idToken = .ok token) :
    ∃ text, idToken = some text ∧ OpensAs platform text token := by
  unfold openToken at opened
  split at opened
  · cases opened
  · next text given =>
      refine ⟨text, (Option.filter_eq_some_iff.mp given).1, ?_⟩
      split at opened
      · next header payload signature parts =>
          obtain ⟨value, parsed, opened⟩ := of_bind_eq_ok opened
          obtain ⟨alg, algRead, opened⟩ := of_bind_eq_ok opened
          dsimp only at opened
          split at opened
          · cases opened
          · next digest known =>
              obtain ⟨kid, kidRead, opened⟩ := of_bind_eq_ok opened
              cases opened
              exact ⟨⟨header, signature, parts, rfl, rfl, value, alg, kid, parsed, algRead, kidRead,
                rfl, rfl⟩, known⟩
      · cases opened

end AmberBackup.Auth
