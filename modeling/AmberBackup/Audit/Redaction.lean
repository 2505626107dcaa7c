import AmberBackup.Common.Slug
import AmberBackup.Restic.Host

/-! # Secrets in audit details

The body of a request is kept in the audit log with the values of its secret fields replaced by
a marker. Whether anything secret stays, and whether the rest is kept as it was, is read off the
places of the body: `redacted_iff` tells for which bodies both hold.
-/

namespace AmberBackup

/-! ## Secret fields -/

structure ChannelField where
  name : String
  /-- Stored encrypted in the channel credential secret. -/
  secret : Bool := false

structure ChannelDefinition where
  type : String
  fields : List ChannelField

/-- `CHANNELS`, with the fields of their forms. -/
def channels : List ChannelDefinition :=
  [ { type := "email"
      fields := [{ name := "host" }, { name := "port" }, { name := "security" },
        { name := "from" }, { name := "to" }, { name := "username", secret := true },
        { name := "password", secret := true }] },
    { type := "webhook"
      fields := [{ name := "url", secret := true }, { name := "headerName" },
        { name := "headerValue", secret := true }] },
    { type := "slack", fields := [{ name := "webhookUrl", secret := true }] },
    { type := "teams", fields := [{ name := "webhookUrl", secret := true }] },
    { type := "discord", fields := [{ name := "webhookUrl", secret := true }] },
    { type := "telegram"
      fields := [{ name := "botToken", secret := true }, { name := "chatId" }] },
    { type := "gotify"
      fields := [{ name := "serverUrl" }, { name := "appToken", secret := true }] },
    { type := "ntfy"
      fields := [{ name := "serverUrl" }, { name := "topic" },
        { name := "accessToken", secret := true }] } ]

/-- `secretFieldNames`, a name as often as backends mark it. -/
def secretFieldNames : List String :=
  backends.flatMap fun backend => (backend.fields.filter (·.secret)).map (·.name)

/-- `secretChannelFieldNames`, a name as often as channels mark it. -/
def secretChannelFieldNames : List String :=
  channels.flatMap fun channel => (channel.fields.filter (·.secret)).map (·.name)

/-- `k.toLowerCase()`. -/
def lowerText (text : String) : List Char := text.toList.flatMap lowerCase

/-- `EXPLICIT_SECRET_FIELDS`. -/
def explicitSecretFields : List (List Char) :=
  (secretFieldNames ++ secretChannelFieldNames ++ ["code"]).map lowerText

/-- What `.` stands for: one code unit that does not end a line. -/
def lineUnit (char : Char) : Bool :=
  char.toNat < 0x10000 && char ≠ '\n' && char ≠ '\r' && char.toNat ≠ 0x2028 &&
    char.toNat ≠ 0x2029

/-- The text begins with the stem, any one code unit or none, and `key`. -/
def keyAt (text : List Char) (stem : String) : Bool :=
  let rest := text.drop stem.length
  stem.toList.isPrefixOf text &&
    ("key".toList.isPrefixOf rest ||
      (rest.head?.any lineUnit && "key".toList.isPrefixOf rest.tail))

/-- One of the alternatives of `SECRET_KEY_RE` begins here. -/
def secretAt (text : List Char) : Bool :=
  (["pass", "secret", "token", "credential", "webhook"].any fun word =>
      word.toList.isPrefixOf text) ||
    ["priv", "api", "access"].any (keyAt text)

/-- `SECRET_KEY_RE`, whose flag `i` folds the letters of ASCII only. -/
def secretKeyRe (key : String) : Bool := (key.toList.map Char.toLower).tails.any secretAt

/-- The values of this key are secrets. -/
def secretKey (key : String) : Bool := secretKeyRe key || explicitSecretFields.contains (lowerText key)

example : ["clientSecret", "API_KEY", "privKey", "region", "urls", "name"].map secretKey =
    [true, true, true, true, false, false] := by
  decide +kernel

/-! ## Redaction -/

def maxRedactDepth : Nat := 6

def redactedMarker : Json := .text "[redacted]"

mutual

/-- `redactSecrets`. -/
def redactSecrets : Json → Nat → Json
  | .array items, depth =>
      if maxRedactDepth < depth then .array items else .array (redactItems items (depth + 1))
  | .object fields, depth =>
      if maxRedactDepth < depth then .object fields else .object (redactFields fields (depth + 1))
  | value, _ => value

def redactItems : List Json → Nat → List Json
  | [], _ => []
  | item :: rest, depth => redactSecrets item depth :: redactItems rest depth

/-- The entries of the clone. Assigning to `__proto__` makes no entry: it sets the prototype of
the clone, or does nothing. -/
def redactFields : List (String × Json) → Nat → List (String × Json)
  | [], _ => []
  | (key, value) :: rest, depth =>
      let kept := if secretKey key then redactedMarker else redactSecrets value depth
      if key = "__proto__" then redactFields rest depth
      else (key, kept) :: redactFields rest depth

end

theorem redactItems_eq (items : List Json) (depth : Nat) :
    redactItems items depth = items.map (redactSecrets · depth) := by
  induction items with
  | nil => rfl
  | cons item rest ih =>
      rw [redactItems, ih]
      rfl

theorem redactFields_cons (entry : String × Json) (rest : List (String × Json)) (depth : Nat) :
    redactFields (entry :: rest) depth =
      if entry.1 = "__proto__" then redactFields rest depth
      else (entry.1, if secretKey entry.1 then redactedMarker else redactSecrets entry.2 depth) ::
        redactFields rest depth := by
  rw [redactFields]

/-- The keys of the clone. -/
theorem redactFields_keys (fields : List (String × Json)) (depth : Nat) :
    (redactFields fields depth).map Prod.fst =
      (fields.map Prod.fst).filter fun key => key ≠ "__proto__" := by
  induction fields with
  | nil => rfl
  | cons entry rest ih =>
      rw [redactFields_cons, List.map_cons]
      split
      case isTrue lost => rw [ih, List.filter_cons_of_neg (by simpa using lost)]
      case isFalse kept =>
        rw [List.map_cons, ih, List.filter_cons_of_pos (by simpa using kept)]

/-- Nothing is cloned below the last level. -/
theorem redactSecrets_below {depth : Nat} (below : maxRedactDepth < depth) (value : Json) :
    redactSecrets value depth = value := by
  cases value with
  | array items => rw [redactSecrets, if_pos below]
  | object fields => rw [redactSecrets, if_pos below]
  | null | boolean flag | number value | text content => rw [redactSecrets] <;> simp

theorem redactSecrets_array {depth : Nat} (above : depth ≤ maxRedactDepth) (items : List Json) :
    redactSecrets (.array items) depth = .array (items.map (redactSecrets · (depth + 1))) := by
  rw [redactSecrets, if_neg (Nat.not_lt.mpr above), redactItems_eq]

theorem redactSecrets_object {depth : Nat} (above : depth ≤ maxRedactDepth)
    (fields : List (String × Json)) :
    redactSecrets (.object fields) depth = .object (redactFields fields (depth + 1)) := by
  rw [redactSecrets, if_neg (Nat.not_lt.mpr above)]

/-! ## Places of a value -/

/-- A step into a value. -/
inductive PathStep where
  | key (name : String)
  | index (position : Nat)

def Json.child : Json → PathStep → Option Json
  | .object fields, .key name => lookupLast name fields
  | .array items, .index position => items[position]?
  | _, _ => none

/-- The value at a place. -/
def Json.at : Json → List PathStep → Option Json
  | value, [] => some value
  | value, step :: rest => (value.child step).bind (·.at rest)

/-- What is seen of a value without going into it. -/
inductive Face where
  | null
  | boolean (flag : Bool)
  | number (value : Rat)
  | text (content : String)
  | array (size : Nat)
  | object (keys : List String)

def Json.face : Json → Face
  | .null => .null
  | .boolean flag => .boolean flag
  | .number value => .number value
  | .text content => .text content
  | .array items => .array items.length
  | .object fields => .object (fields.map Prod.fst)

/-- The place is not below a secret key. -/
def Plain (path : List PathStep) : Prop := ∀ name, .key name ∈ path → secretKey name = false

/-- The second value is the first one without its secrets and otherwise the same. -/
structure Redacted (value out : Json) : Prop where
  /-- Under a secret key there is the marker. -/
  removed : ∀ path name kept, secretKey name = true →
    out.at (path ++ [.key name]) = some kept → kept = redactedMarker
  /-- What is not below a secret key is as it was. -/
  unchanged : ∀ path, Plain path → (out.at path).map Json.face = (value.at path).map Json.face

/-- The secrets are all within reach of the redaction, and it loses no key on the way. -/
structure Redactable (value : Json) : Prop where
  /-- A secret key deeper than the last level that is cloned holds the marker already. -/
  reached : ∀ path name kept, Plain path → maxRedactDepth < path.length →
    secretKey name = true → value.at (path ++ [.key name]) = some kept → kept = redactedMarker
  /-- No object that is cloned has a key `__proto__`. -/
  named : ∀ path, Plain path → path.length ≤ maxRedactDepth →
    value.at (path ++ [.key "__proto__"]) = none

variable {value out : Json} {depth : Nat} {path rest : List PathStep} {step : PathStep}

theorem Json.at_cons : value.at (step :: rest) = (value.child step).bind (·.at rest) := rfl

theorem Json.at_append : value.at (path ++ rest) = (value.at path).bind (·.at rest) := by
  induction path generalizing value with
  | nil => rfl
  | cons step others ih =>
      rw [List.cons_append, Json.at_cons, Json.at_cons, Option.bind_assoc]
      congr 1
      funext inner
      exact ih

theorem Json.at_concat : value.at (path ++ [step]) = (value.at path).bind (·.child step) := by
  rw [Json.at_append]
  congr 1
  funext inner
  exact Option.bind_fun_some _

theorem Plain.nil : Plain [] := fun _ listed => absurd listed List.not_mem_nil

theorem Plain.tail (plain : Plain (step :: rest)) : Plain rest :=
  fun name listed => plain name (List.mem_cons_of_mem _ listed)

theorem Plain.cons (first : ∀ name, step = .key name → secretKey name = false)
    (plain : Plain rest) : Plain (step :: rest) := by
  intro name listed
  rcases List.mem_cons.mp listed with same | later
  · exact first name same.symm
  · exact plain name later

theorem Plain.append (plain : Plain path) (others : Plain rest) : Plain (path ++ rest) := by
  intro name listed
  rcases List.mem_append.mp listed with first | later
  · exact plain name first
  · exact others name later

/-- A place below a secret key is below an outermost one. -/
theorem exists_outermost (below : ¬ Plain path) :
    ∃ above name inner, path = above ++ .key name :: inner ∧ Plain above ∧
      secretKey name = true := by
  induction path with
  | nil => exact absurd Plain.nil below
  | cons step rest ih =>
      by_cases outermost : ∃ name, step = .key name ∧ secretKey name = true
      · obtain ⟨name, rfl, secret⟩ := outermost
        exact ⟨[], name, rest, rfl, Plain.nil, secret⟩
      · have first : ∀ name, step = .key name → secretKey name = false := by
          intro name same
          by_contra secret
          exact outermost ⟨name, same, Bool.eq_true_of_not_eq_false secret⟩
        obtain ⟨above, name, inner, rfl, plain, secret⟩ :=
          ih fun plain => below (Plain.cons first plain)
        exact ⟨step :: above, name, inner, rfl, Plain.cons first plain, secret⟩

/-! ## One level of the redaction -/

/-- A value of the clone under a key. -/
theorem lookupLast_redactFields (name : String) (fields : List (String × Json)) (depth : Nat) :
    lookupLast name (redactFields fields depth) =
      if name = "__proto__" then none
      else (lookupLast name fields).map fun value =>
        if secretKey name then redactedMarker else redactSecrets value depth := by
  induction fields with
  | nil => exact (ite_self none).symm
  | cons entry rest ih =>
      rw [redactFields_cons, lookupLast_cons name entry]
      by_cases lost : name = "__proto__"
      · rw [if_pos lost] at ih ⊢
        split
        case isTrue => exact ih
        case isFalse kept =>
          rw [lookupLast_cons, ih, Option.none_or, if_neg]
          exact fun same => kept (same.trans lost)
      · rw [if_neg lost] at ih ⊢
        split
        case isTrue proto =>
          have other : entry.1 ≠ name := fun same => lost (same.symm.trans proto)
          rw [ih, if_neg other, Option.or_none]
        case isFalse =>
          rw [lookupLast_cons, ih, Option.map_or]
          congr 1
          by_cases same : entry.1 = name
          · rw [if_pos same, if_pos same, Option.map_some, same]
          · rw [if_neg same, if_neg same, Option.map_none]

theorem child_redactSecrets_index (above : depth ≤ maxRedactDepth) (position : Nat) :
    (redactSecrets value depth).child (.index position) =
      (value.child (.index position)).map (redactSecrets · (depth + 1)) := by
  cases value with
  | array items =>
      rw [redactSecrets_array above]
      exact List.getElem?_map ..
  | object fields =>
      rw [redactSecrets_object above]
      rfl
  | null | boolean flag | number value | text content => rfl

theorem child_redactSecrets_key (above : depth ≤ maxRedactDepth) (name : String) :
    (redactSecrets value depth).child (.key name) =
      if name = "__proto__" then none
      else (value.child (.key name)).map fun inner =>
        if secretKey name then redactedMarker else redactSecrets inner (depth + 1) := by
  cases value with
  | object fields =>
      rw [redactSecrets_object above]
      exact lookupLast_redactFields name fields (depth + 1)
  | array items =>
      rw [redactSecrets_array above]
      exact (ite_self none).symm
  | null | boolean flag | number value | text content => exact (ite_self none).symm

/-- No object that is cloned from this depth on has a key `__proto__`. -/
def NamedFrom (depth : Nat) (value : Json) : Prop :=
  ∀ path, Plain path → depth + path.length ≤ maxRedactDepth →
    value.at (path ++ [.key "__proto__"]) = none

theorem NamedFrom.here (named : NamedFrom depth value) (above : depth ≤ maxRedactDepth) :
    value.child (.key "__proto__") = none := by
  have first := named [] Plain.nil above
  exact (Option.bind_fun_some _).symm.trans first

theorem NamedFrom.inside {inner : Json} (named : NamedFrom depth value) (plain : Plain path)
    (found : value.at path = some inner) : NamedFrom (depth + path.length) inner := by
  intro more others within
  have deeper := named (path ++ more) (plain.append others)
    (by rw [List.length_append]; omega)
  rwa [List.append_assoc, Json.at_append, found, Option.bind_some] at deeper

theorem NamedFrom.child {inner : Json} (named : NamedFrom depth value)
    (plain : ∀ name, step = .key name → secretKey name = false)
    (found : value.child step = some inner) : NamedFrom (depth + 1) inner := by
  apply named.inside (Plain.cons plain Plain.nil)
  rw [Json.at_cons, found]
  rfl

/-- A step that leads to no secret leads to the redacted value. -/
theorem child_redactSecrets (above : depth ≤ maxRedactDepth) (named : NamedFrom depth value)
    (plain : ∀ name, step = .key name → secretKey name = false) :
    (redactSecrets value depth).child step =
      (value.child step).map (redactSecrets · (depth + 1)) := by
  cases step with
  | index position => exact child_redactSecrets_index above position
  | key name =>
      rw [child_redactSecrets_key above]
      split
      case isTrue lost => rw [lost, named.here above, Option.map_none]
      case isFalse => simp only [plain name rfl, Bool.false_eq_true, if_false]

/-- What is not below a secret key is redacted in its place. -/
theorem at_redactSecrets (named : NamedFrom depth value) (plain : Plain path) :
    (redactSecrets value depth).at path =
      (value.at path).map (redactSecrets · (depth + path.length)) := by
  induction path generalizing value depth with
  | nil => rfl
  | cons step rest ih =>
      rcases Nat.lt_or_ge maxRedactDepth depth with below | above
      · rw [redactSecrets_below below]
        have same : (redactSecrets · (depth + (step :: rest).length)) = id := by
          funext inner
          exact redactSecrets_below (Nat.lt_add_right _ below) inner
        rw [same, Option.map_id, id]
      · have first : ∀ name, step = .key name → secretKey name = false :=
          fun name same => plain name (same ▸ List.mem_cons_self)
        rw [Json.at_cons, Json.at_cons, child_redactSecrets above named first]
        cases found : value.child step with
        | none => rfl
        | some inner =>
            rw [Option.map_some, Option.bind_some, Option.bind_some,
              ih (named.child first found) plain.tail, List.length_cons]
            congr 2
            funext other
            congr 1
            omega

theorem face_redactSecrets (named : NamedFrom depth value) :
    (redactSecrets value depth).face = value.face := by
  rcases Nat.lt_or_ge maxRedactDepth depth with below | above
  · rw [redactSecrets_below below]
  · cases value with
    | array items =>
        rw [redactSecrets_array above]
        rw [Json.face, Json.face, List.length_map]
    | object fields =>
        rw [redactSecrets_object above, Json.face, Json.face, redactFields_keys]
        apply congrArg Face.object
        apply List.filter_eq_self.mpr
        intro key listed
        obtain ⟨entry, member, rfl⟩ := List.mem_map.mp listed
        exact decide_eq_true (lookupLast_eq_none.mp (named.here above) entry member)
    | null | boolean flag | number value | text content => rfl

/-! ## Redacted bodies -/

/-- An object whose keys are all kept has no key `__proto__`. -/
theorem child_proto_of_face (above : depth ≤ maxRedactDepth)
    (same : (redactSecrets value depth).face = value.face) :
    value.child (.key "__proto__") = none := by
  cases value with
  | object fields =>
      rw [redactSecrets_object above] at same
      rw [Json.face, Json.face, redactFields_keys] at same
      have all := List.filter_eq_self.mp (Face.object.inj same)
      apply lookupLast_eq_none.mpr
      intro entry listed
      exact of_decide_eq_true (all entry.1 (List.mem_map_of_mem listed))
  | null | boolean flag | number value | text content | array items => rfl

/-- A redaction that keeps the face of every place has lost no key. -/
theorem namedFrom_of_unchanged
    (unchanged : ∀ path, Plain path →
      ((redactSecrets value depth).at path).map Json.face = (value.at path).map Json.face) :
    NamedFrom depth value := by
  intro path plain within
  induction path generalizing value depth with
  | nil =>
      rw [Json.at_concat]
      exact child_proto_of_face within (Option.some.inj (unchanged [] Plain.nil))
  | cons step rest ih =>
      have above : depth ≤ maxRedactDepth := Nat.le_of_add_right_le within
      have first : ∀ name, step = .key name → secretKey name = false :=
        fun name same => plain name (same ▸ List.mem_cons_self)
      have here := child_proto_of_face above (Option.some.inj (unchanged [] Plain.nil))
      rw [List.cons_append, Json.at_cons]
      cases found : value.child step with
      | none => rfl
      | some inner =>
          have moved : (redactSecrets value depth).child step =
              some (redactSecrets inner (depth + 1)) := by
            cases step with
            | index position => rw [child_redactSecrets_index above, found, Option.map_some]
            | key name =>
                have other : name ≠ "__proto__" := by
                  rintro rfl
                  rw [here] at found
                  cases found
                rw [child_redactSecrets_key above, if_neg other, found, Option.map_some,
                  if_neg (by rw [first name rfl]; exact Bool.false_ne_true)]
          rw [List.length_cons] at within
          rw [Option.bind_some]
          refine @ih inner (depth + 1) ?_ plain.tail (by omega)
          intro path others
          have inside := unchanged (step :: path) (Plain.cons first others)
          rwa [Json.at_cons, Json.at_cons, moved, found, Option.bind_some,
            Option.bind_some] at inside

variable {name : String} {kept : Json}

/-- Under a key, at a place that is not below a secret key, the redacted value has the marker
or, where nothing is cloned any more, what the value has there. -/
theorem under_plain (named : NamedFrom 0 value) (plain : Plain path)
    (secret : secretKey name = true)
    (found : (redactSecrets value 0).at (path ++ [.key name]) = some kept) :
    kept = redactedMarker ∨
      (maxRedactDepth < path.length ∧ value.at (path ++ [.key name]) = some kept) := by
  rw [Json.at_concat, at_redactSecrets named plain, Nat.zero_add] at found
  rw [Json.at_concat]
  cases reached : value.at path with
  | none =>
      rw [reached] at found
      cases found
  | some inner =>
      rw [reached, Option.map_some, Option.bind_some] at found
      rcases Nat.lt_or_ge maxRedactDepth path.length with below | above
      · rw [redactSecrets_below below] at found
        exact .inr ⟨below, found⟩
      · rw [child_redactSecrets_key above] at found
        by_cases lost : name = "__proto__"
        · rw [if_pos lost] at found
          cases found
        · rw [if_neg lost] at found
          obtain ⟨held, -, same⟩ := Option.map_eq_some_iff.mp found
          rw [if_pos secret] at same
          exact .inl same.symm

/-- **Secrets in audit details.** A body is redacted exactly if its secret keys are within the
levels that are cloned, or hold the marker, and no cloned object has a key `__proto__`. -/
theorem redacted_iff (value : Json) : Redacted value (redactSecrets value 0) ↔ Redactable value := by
  constructor
  · intro redacted
    have named := namedFrom_of_unchanged redacted.unchanged
    refine ⟨?_, ?_⟩
    · intro path name kept plain below secret found
      apply redacted.removed path name kept secret
      rw [Json.at_concat, at_redactSecrets named plain, Nat.zero_add]
      rw [Json.at_concat] at found
      rw [funext (redactSecrets_below below), Option.map_id']
      exact found
    · intro path plain within
      exact named path plain (by omega)
  · intro redactable
    have named : NamedFrom 0 value := by
      intro path plain within
      exact redactable.named path plain (by omega)
    have marked : ∀ path name kept, Plain path → secretKey name = true →
        (redactSecrets value 0).at (path ++ [.key name]) = some kept → kept = redactedMarker := by
      intro path name kept plain secret found
      rcases under_plain named plain secret found with marker | ⟨below, source⟩
      · exact marker
      · exact redactable.reached path name kept plain below secret source
    refine ⟨?_, ?_⟩
    · intro path name kept secret found
      by_cases plain : Plain path
      · exact marked path name kept plain secret found
      · -- Below a secret key there is nothing, since the marker has no places.
        obtain ⟨above, outer, inner, rfl, plain, hidden⟩ := exists_outermost plain
        rw [List.append_assoc, List.cons_append, List.append_cons, Json.at_append] at found
        cases reached : (redactSecrets value 0).at (above ++ [.key outer]) with
        | none =>
            rw [reached] at found
            cases found
        | some held =>
            rw [reached, marked above outer held plain hidden reached] at found
            cases inner <;> cases found
    · intro path plain
      rw [at_redactSecrets named plain, Option.map_map]
      cases reached : value.at path with
      | none => rfl
      | some inner => exact congrArg some (face_redactSecrets (named.inside plain reached))

/-- A secret eight objects down is kept. -/
theorem redacted_not_always : ¬ ∀ value : Json, Redacted value (redactSecrets value 0) := by
  intro always
  let nest (value : Json) : Json := .object [("a", value)]
  let body := nest (nest (nest (nest (nest (nest (nest (.object [("password", .text "hunter2")])))))))
  have redacted := always body
  have kept := redacted.removed (List.replicate 7 (.key "a")) "password" (.text "hunter2")
    (by decide +kernel) (by rfl)
  exact absurd (Json.text.inj kept) (by decide)

end AmberBackup
