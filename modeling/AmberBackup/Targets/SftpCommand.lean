import AmberBackup.GoAgent.CommandLines

/-! # The SSH command of an SFTP repository

The arguments of the command are joined by spaces into one option of restic, references to
credential files are replaced in the joined text, and restic splits it again. Where the host, the
user and the port are accepted the split gives back the arguments that were joined, with the path
of the key file in its place (`sftp_command_split`).
-/

namespace AmberBackup

/-! ## References in joined arguments -/

section Pieces

variable {paths : Fields} {text before after : List Char} {name path : String}

def substituteText (paths : Fields) (text : List Char) : List Char :=
  (argumentPieces 0 text).flatMap (ArgumentPiece.substitute paths)

def reference (name : List Char) : List Char := referenceOpening ++ name ++ referenceClosing

theorem referenceOpening_eq : referenceOpening = '\x7b' :: referenceOpening.drop 1 := by
  decide +kernel

theorem referenceClosing_eq : referenceClosing = ['\x7d', '\x7d'] := by decide +kernel

theorem credentialFileRefRE_other {first : Char} (other : first ≠ '\x7b') (rest : List Char) :
    credentialFileRefRE (first :: rest) = none := by
  have different : referenceOpening.isPrefixOf (first :: rest) = false := by
    rw [referenceOpening_eq, List.isPrefixOf_cons_cons, beq_false_of_ne (Ne.symm other),
      Bool.false_and]
  unfold credentialFileRefRE
  rw [different]
  rfl

theorem argumentPieces_skip (count : Nat) (text : List Char) :
    argumentPieces count text = argumentPieces 0 (text.drop count) := by
  induction text generalizing count with
  | nil =>
      rw [List.drop_nil]
      cases count <;> rfl
  | cons first rest ih =>
      cases count with
      | zero => rfl
      | succ count => exact ih count

/-- A beginning without an opening brace stays. -/
theorem substituteText_append (plain : '\x7b' ∉ before) (after : List Char) :
    substituteText paths (before ++ after) = before ++ substituteText paths after := by
  induction before with
  | nil => rfl
  | cons first before ih =>
      rw [List.mem_cons, not_or] at plain
      have step := ih plain.2
      unfold substituteText at step ⊢
      rw [List.cons_append, argumentPieces, credentialFileRefRE_other (Ne.symm plain.1),
        List.flatMap_cons, step]
      rfl

theorem substituteText_plain (plain : '\x7b' ∉ text) : substituteText paths text = text := by
  have whole := @substituteText_append paths text plain []
  rwa [List.append_nil, show substituteText paths [] = [] from rfl, List.append_nil] at whole

/-- A reference to a file is replaced by the path of the file. -/
theorem substituteText_reference (filled : name.toList ≠ []) (closed : '\x7d' ∉ name.toList)
    (file : lookupLast name paths = some path) (after : List Char) :
    substituteText paths (reference name.toList ++ after) =
      path.toList ++ substituteText paths after := by
  have shape : reference name.toList ++ after =
      '\x7b' :: (referenceOpening.drop 1 ++ name.toList ++ referenceClosing ++ after) := by
    unfold reference
    rw [← List.cons_append, ← List.cons_append, ← List.cons_append, ← referenceOpening_eq]
  have rest : (reference name.toList ++ after).drop referenceOpening.length =
      name.toList ++ (referenceClosing ++ after) := by
    unfold reference
    rw [List.append_assoc, List.append_assoc, List.drop_left]
  have named : ((name.toList ++ (referenceClosing ++ after)).takeWhile (· ≠ '\x7d')) =
      name.toList := by
    rw [List.takeWhile_append_of_pos]
    · rw [referenceClosing_eq, List.cons_append, List.takeWhile_cons_of_neg (by decide),
        List.append_nil]
    · intro char member
      exact decide_eq_true fun closing => closed (closing ▸ member)
  have found : credentialFileRefRE (reference name.toList ++ after) = some name.toList := by
    have opened : referenceOpening.isPrefixOf (reference name.toList ++ after) = true := by
      rw [List.isPrefixOf_iff_prefix]
      exact ⟨name.toList ++ (referenceClosing ++ after), by simp [reference]⟩
    have closing : referenceClosing.isPrefixOf
        ((name.toList ++ (referenceClosing ++ after)).drop name.toList.length) = true := by
      rw [List.drop_left, List.isPrefixOf_iff_prefix]
      exact List.prefix_append _ _
    unfold credentialFileRefRE
    rw [if_pos opened]
    simp only [rest, named]
    rw [closing]
    simp [filled]
  have skipped : (referenceOpening.drop 1 ++ name.toList ++ referenceClosing ++ after).drop
      (referenceOpening.length + name.toList.length + referenceClosing.length - 1) = after := by
    apply List.drop_left'
    simp only [List.length_append, List.length_drop]
    rw [referenceOpening_eq, List.length_cons]
    omega
  rw [shape] at found
  unfold substituteText
  rw [shape, argumentPieces, found]
  simp only [List.flatMap_cons, ArgumentPiece.substitute, String.ofList_toList, file]
  rw [argumentPieces_skip, skipped]

/-- Replacing references in a joined text replaces them in what was joined. -/
theorem substituteText_intercalate (filled : name.toList ≠ []) (closed : '\x7d' ∉ name.toList)
    (file : lookupLast name paths = some path) {words : List (List Char)}
    (each : ∀ word ∈ words, '\x7b' ∉ word ∨ word = reference name.toList) :
    substituteText paths ([' '].intercalate words) =
      [' '].intercalate
        (words.map fun word => if word = reference name.toList then path.toList else word) := by
  have plain : ∀ word : List Char, '\x7b' ∉ word → word ≠ reference name.toList := by
    intro word free same
    rw [same] at free
    unfold reference at free
    rw [referenceOpening_eq] at free
    exact free List.mem_cons_self
  induction words with
  | nil => rfl
  | cons word words ih =>
      cases words with
      | nil =>
          rw [List.intercalate_singleton, List.map_singleton, List.intercalate_singleton]
          rcases each word List.mem_cons_self with free | same
          · rw [substituteText_plain free, if_neg (plain word free)]
          · have whole := substituteText_reference filled closed file []
            rw [if_pos same, same]
            rwa [List.append_nil, show substituteText paths [] = [] from rfl,
              List.append_nil] at whole
      | cons next words =>
          have later := ih fun other member => each other (List.mem_cons_of_mem _ member)
          have space : ∀ text, substituteText paths ([' '] ++ text) =
              [' '] ++ substituteText paths text := by
            intro text
            exact substituteText_append (by decide) text
          rw [List.intercalate_cons_cons, List.append_assoc, List.map_cons]
          rcases each word List.mem_cons_self with free | same
          · rw [substituteText_append free, space, later, if_neg (plain word free),
              List.map_cons, List.intercalate_cons_cons, List.append_assoc]
          · rw [if_pos same, same, substituteText_reference filled closed file, space, later,
              List.map_cons, List.intercalate_cons_cons, List.append_assoc]

end Pieces

/-! ## What is accepted -/

/-- Neither a space nor a brace, so that the text stays one argument. -/
def isWord (text : String) : Prop := ' ' ∉ text.toList ∧ '\x7b' ∉ text.toList

theorem isWord_append {first second : String} (one : isWord first) (two : isWord second) :
    isWord (first ++ second) := by
  unfold isWord at *
  rw [String.toList_append, List.mem_append, List.mem_append, not_or, not_or]
  exact ⟨⟨one.1, two.1⟩, one.2, two.2⟩

instance (text : String) : Decidable (isWord text) := inferInstanceAs (Decidable (_ ∧ _))

/-- A text all of whose characters are of a kind without spaces and braces. -/
theorem isWord_of_all {text : String} {kind : Char → Bool} (all : text.toList.all kind = true)
    (space : kind ' ' = false) (brace : kind '\x7b' = false) : isWord text := by
  rw [List.all_eq_true] at all
  constructor
  · intro member
    exact absurd (all ' ' member) (by rw [space]; exact Bool.false_ne_true)
  · intro member
    exact absurd (all '\x7b' member) (by rw [brace]; exact Bool.false_ne_true)

def tokenChar (char : Char) : Bool :=
  isAlphanumeric char || char = '.' || char = '_' || char = '-'

theorem isSafeToken_all {chars : List Char} (safe : isSafeToken chars = true) :
    chars.all tokenChar = true := by
  cases chars with
  | nil => rfl
  | cons first rest =>
      simp only [isSafeToken, Bool.and_eq_true] at safe
      rw [List.all_cons, Bool.and_eq_true]
      refine ⟨?_, safe.1.2⟩
      unfold tokenChar
      rw [safe.1.1]
      rfl

theorem isSafeToken_head {chars : List Char} (safe : isSafeToken chars = true) :
    chars.head? ≠ some '-' := by
  cases chars with
  | nil =>
      intro hyphen
      cases hyphen
  | cons first rest =>
      simp only [isSafeToken, Bool.and_eq_true] at safe
      intro hyphen
      rw [List.head?_cons, Option.some.injEq] at hyphen
      rw [hyphen] at safe
      exact absurd safe.1.1 (by decide)

theorem sftpHostRe_isWord {host : String} (valid : sftpHostRe host = true) : isWord host := by
  unfold sftpHostRe at valid
  rw [Bool.or_eq_true] at valid
  rcases valid with token | bracketed
  · exact isWord_of_all (isSafeToken_all token) (by decide) (by decide)
  · split at bracketed
    case h_2 => cases bracketed
    case h_1 rest opened =>
      split at bracketed
      case h_2 => cases bracketed
      case h_1 inner closed =>
        rw [Bool.and_eq_true] at bracketed
        have parts : host.toList = '[' :: (inner.reverse ++ [']']) := by
          rw [opened, ← List.reverse_reverse rest, closed, List.reverse_cons]
        have bracketChars : host.toList.all
            (fun char => isHexDigit char || char = ':' || char = '[' || char = ']') = true := by
          rw [parts, List.all_cons, List.all_append, List.all_reverse, Bool.and_eq_true,
            Bool.and_eq_true]
          refine ⟨by decide, ?_, by decide⟩
          rw [List.all_eq_true] at bracketed ⊢
          intro char member
          rw [bracketed.2 char member]
          rfl
        exact isWord_of_all bracketChars (by decide) (by decide)

/-- What is left of the checks: texts that are empty or of the accepted form. -/
structure SafeSftp (host user port : String) : Prop where
  host : host = "" ∨ sftpHostRe host = true
  user : user = "" ∨ sftpUserRe user = true
  port : port = "" ∨ sftpPortRe port = true

theorem safeSftp_of_accepted {config : Config} (accepted : assertSafeSftpConfig config = .ok ()) :
    SafeSftp (str (lookupLast "host" config)) (str (lookupLast "user" config))
      (str (lookupLast "port" config)) := by
  unfold assertSafeSftpConfig at accepted
  simp only [bind, Except.bind, pure, Except.pure, throw, throwThe, MonadExceptOf.throw] at accepted
  split at accepted
  · cases accepted
  next host =>
    split at accepted
    · cases accepted
    next user =>
      split at accepted
      · cases accepted
      next port =>
        have valid : ∀ {absent present : Prop}, ¬ (¬ absent ∧ ¬ present) → absent ∨ present := by
          intro absent present refuted
          by_contra neither
          exact refuted (not_or.mp neither)
        exact ⟨valid host, valid user, valid port⟩

theorem SafeSftp.isWord {host user port : String} (safe : SafeSftp host user port) :
    isWord host ∧ isWord user ∧ isWord port := by
  refine ⟨?_, ?_, ?_⟩
  · rcases safe.host with rfl | valid
    · decide
    · exact sftpHostRe_isWord valid
  · rcases safe.user with rfl | valid
    · decide
    · exact isWord_of_all (isSafeToken_all valid) (by decide) (by decide)
  · rcases safe.port with rfl | valid
    · decide
    · unfold sftpPortRe at valid
      rw [Bool.and_eq_true] at valid
      exact isWord_of_all valid.2 (by decide) (by decide)

/-! ## The command -/

/-- The arguments of the command, with a text for the key file. -/
def sshArguments (host user port keyFile : String) : List String :=
  ["ssh", user ++ "@" ++ host] ++ (if port = "" then [] else ["-p", port]) ++
    ["-i", keyFile, "-o", "StrictHostKeyChecking=accept-new", "-o", "BatchMode=yes", "-s", "sftp"]

/-- The destination does not begin with a hyphen. -/
theorem destination_no_option {user : String} (host : String)
    (valid : user = "" ∨ sftpUserRe user = true) :
    (user ++ "@" ++ host).toList.head? ≠ some '-' := by
  rcases valid with rfl | token
  · intro hyphen
    have starts : ("" ++ "@" ++ host).toList = '@' :: host.toList := by
      rw [String.empty_append, String.toList_append, show "@".toList = ['@'] by decide +kernel]
      rfl
    rw [starts, List.head?_cons, Option.some.injEq] at hyphen
    exact absurd hyphen (by decide)
  · have filled : user.toList ≠ [] := by
      intro empty
      unfold sftpUserRe at token
      rw [empty] at token
      cases token
    rw [String.toList_append, String.toList_append, List.append_assoc,
      List.head?_append_of_ne_nil _ filled]
    exact isSafeToken_head token

theorem sshArguments_words {host user port keyFile : String} (safe : SafeSftp host user port) :
    ∀ word ∈ sshArguments host user port keyFile, isWord word ∨ word = keyFile := by
  obtain ⟨hostWord, userWord, portWord⟩ := safe.isWord
  intro word member
  unfold sshArguments at member
  rw [List.mem_append, List.mem_append] at member
  rcases member with (front | given) | back
  · simp only [List.mem_cons, List.not_mem_nil, or_false] at front
    rcases front with rfl | rfl
    · exact .inl (by decide +kernel)
    · exact .inl (isWord_append (isWord_append userWord (by decide +kernel)) hostWord)
  · split at given
    · cases given
    · simp only [List.mem_cons, List.not_mem_nil, or_false] at given
      rcases given with rfl | rfl
      · exact .inl (by decide +kernel)
      · exact .inl portWord
  · simp only [List.mem_cons, List.not_mem_nil, or_false] at back
    rcases back with rfl | rfl | rfl | rfl | rfl | rfl | rfl | rfl
    all_goals first | exact .inr rfl | exact .inl (by decide +kernel)

/-- The command with the path of the key file in place of the reference to it. -/
theorem substituteText_command {host user port path : String} {paths : Fields}
    (safe : SafeSftp host user port) (file : lookupLast sftpKeyFilename paths = some path) :
    substituteText paths (String.intercalate " "
        (sshArguments host user port (credentialFileRef sftpKeyFilename))).toList =
      [' '].intercalate ((sshArguments host user port path).map String.toList) := by
  have named : (credentialFileRef sftpKeyFilename).toList = reference sftpKeyFilename.toList := by
    decide +kernel
  have free : ∀ word : String, isWord word → word.toList ≠ reference sftpKeyFilename.toList := by
    intro word plain same
    have opening : reference sftpKeyFilename.toList = '\x7b' :: (reference
        sftpKeyFilename.toList).drop 1 := by decide +kernel
    rw [opening] at same
    exact plain.2 (same ▸ List.mem_cons_self)
  have each : ∀ word ∈ (sshArguments host user port (credentialFileRef sftpKeyFilename)).map
      String.toList, '\x7b' ∉ word ∨ word = reference sftpKeyFilename.toList := by
    intro word member
    obtain ⟨text, listed, rfl⟩ := List.mem_map.mp member
    rcases sshArguments_words safe text listed with plain | same
    · exact .inl plain.2
    · exact .inr (same ▸ named)
  have fixed : ∀ word : String, isWord word →
      (if word.toList = reference sftpKeyFilename.toList then path.toList else word.toList) =
        word.toList := fun word plain => if_neg (free word plain)
  rw [String.toList_intercalate, show " ".toList = [' '] by decide +kernel,
    substituteText_intercalate (by decide +kernel) (by decide +kernel) file each]
  congr 1
  obtain ⟨hostWord, userWord, portWord⟩ := safe.isWord
  have destination := isWord_append (isWord_append userWord (show isWord "@" by decide +kernel))
    hostWord
  unfold sshArguments
  simp only [List.map_append, List.map_cons, List.map_nil, named, ↓reduceIte,
    fixed "ssh" (by decide +kernel), fixed _ destination, fixed "-i" (by decide +kernel),
    fixed "-o" (by decide +kernel), fixed "BatchMode=yes" (by decide +kernel),
    fixed "StrictHostKeyChecking=accept-new" (by decide +kernel),
    fixed "-s" (by decide +kernel), fixed "sftp" (by decide +kernel)]
  congr 2
  split
  · rfl
  · simp only [List.map_cons, List.map_nil, fixed "-p" (by decide +kernel), fixed _ portWord]

/-- What the backend makes of an accepted configuration with a key. -/
theorem sftpBackend_build {config : Config} {credentials : Fields} (repoConfig : Config)
    (accepted : assertSafeSftpConfig config = .ok ())
    (key : credential "privateKey" credentials "" ≠ "") :
    ∃ resolved, sftpBackend.build config credentials repoConfig = .ok resolved ∧
      resolved.extraArgs = some ["-o", "sftp.command=" ++ String.intercalate " "
        (sshArguments (str (lookupLast "host" config)) (str (lookupLast "user" config))
          (str (lookupLast "port" config)) (credentialFileRef sftpKeyFilename))] := by
  unfold sftpBackend
  simp only [accepted, bind, Except.bind, pure, Except.pure]
  rw [if_neg key]
  exact ⟨_, rfl, rfl⟩

/-- **The SSH command.** Split at spaces, the command with the path of the key file is the
intended list of arguments, on the server and on the agent: the destination is one argument and
no option, and a port is a number. -/
theorem sftp_command_split {config : Config} {credentials paths : Fields} {path : String}
    (repoConfig : Config) (args : List String)
    (accepted : assertSafeSftpConfig config = .ok ())
    (key : credential "privateKey" credentials "" ≠ "")
    (file : lookupLast sftpKeyFilename paths = some path) (clean : ' ' ∉ path.toList) :
    let host := str (lookupLast "host" config)
    let user := str (lookupLast "user" config)
    let port := str (lookupLast "port" config)
    ∃ resolved command, sftpBackend.build config credentials repoConfig = .ok resolved ∧
      ResticService.commandLine resolved.extraArgs paths args =
        ["-o", "sftp.command=" ++ command] ++ args ∧
      GoAgent.commandLine resolved.extraArgs paths args =
        ["-o", "sftp.command=" ++ command] ++ args ∧
      command.toList.splitOn ' ' = (sshArguments host user port path).map String.toList ∧
      (user ++ "@" ++ host).toList.head? ≠ some '-' ∧ (port = "" ∨ sftpPortRe port = true) := by
  intro host user port
  have safe := safeSftp_of_accepted accepted
  obtain ⟨resolved, built, extra⟩ := sftpBackend_build repoConfig accepted key
  have command := substituteText_command safe file
  have substituted : substituteCredentialPaths (resolved.extraArgs.getD []) paths =
      ["-o", "sftp.command=" ++ String.ofList
        ([' '].intercalate ((sshArguments host user port path).map String.toList))] := by
    have option : substituteText paths "-o".toList = "-o".toList :=
      substituteText_plain (by decide +kernel)
    have plain : '\x7b' ∉ "sftp.command=".toList := by decide +kernel
    rw [extra]
    change ["-o", _].map (fun arg => String.ofList (substituteText paths arg.toList)) = _
    rw [List.map_cons, List.map_singleton, option, String.ofList_toList, String.toList_append,
      substituteText_append plain, command, String.ofList_append, String.ofList_toList]
  refine ⟨resolved, String.ofList ([' '].intercalate
    ((sshArguments host user port path).map String.toList)), built, ?_, ?_, ?_,
    destination_no_option host safe.user, safe.port⟩
  · unfold ResticService.commandLine
    rw [substituted]
  · unfold GoAgent.commandLine
    rw [substituted]
  · rw [String.toList_ofList]
    apply List.splitOn_intercalate
    · intro word member
      obtain ⟨text, listed, rfl⟩ := List.mem_map.mp member
      rcases sshArguments_words safe text listed with plain | same
      · exact plain.1
      · exact same ▸ clean
    · exact List.cons_ne_nil _ _

/-- A port that is a number and not a text. -/
def nasConfig : Config :=
  [("host", .text "[fd00::7]"), ("user", .text "amber"), ("port", .number 2222)]

theorem nas_command_split :
    let host := str (lookupLast "host" nasConfig)
    let user := str (lookupLast "user" nasConfig)
    let port := str (lookupLast "port" nasConfig)
    ∃ resolved command, sftpBackend.build nasConfig [("privateKey", "k")] [] = .ok resolved ∧
      ResticService.commandLine resolved.extraArgs [(sftpKeyFilename, "/tmp/a/key")] ["init"] =
        ["-o", "sftp.command=" ++ command] ++ ["init"] ∧
      GoAgent.commandLine resolved.extraArgs [(sftpKeyFilename, "/tmp/a/key")] ["init"] =
        ["-o", "sftp.command=" ++ command] ++ ["init"] ∧
      command.toList.splitOn ' ' =
        (sshArguments host user port "/tmp/a/key").map String.toList ∧
      (user ++ "@" ++ host).toList.head? ≠ some '-' ∧ (port = "" ∨ sftpPortRe port = true) :=
  sftp_command_split [] ["init"] (by decide +kernel) (by decide +kernel) (by decide +kernel)
    (by decide +kernel)

end AmberBackup
