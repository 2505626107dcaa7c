import AmberBackup.Agents.Enrollment
import AmberBackup.Cli.Config
import AmberBackup.Lib.ShellWords
import AmberBackup.Lib.YamlScalar
import AmberBackup.Runs.ActivityFeed

/-! # The command that installs an agent

The name of an agent is pasted between double quotes into a shell command or into a compose file.
It arrives as it is, with nothing else changed, exactly if double quotes of the shell, or of YAML,
keep it (`install_command_carries_iff`). A name with a quotation mark or a substitution is
accepted and makes another command of it (`install_command_not_safe`).
-/

namespace AmberBackup

inductive DeployMethod where
  | binary | docker | dockerCompose
  deriving DecidableEq, Repr

structure CreateEnrollmentTokenDto where
  intendedAgentName : Option String := none
  expiresInMinutes : Option Nat := none
  deployMethod : Option DeployMethod := none
  deriving DecidableEq, Repr

/-- The length of a string in JavaScript. -/
def utf16Length (text : String) : Nat :=
  (text.toList.map fun char => if char.toNat < 0x10000 then 1 else 2).sum

/-- The request passes validation. -/
structure CreateEnrollmentTokenDto.Valid (dto : CreateEnrollmentTokenDto) : Prop where
  intendedAgentName : ∀ name, dto.intendedAgentName = some name → utf16Length name ≤ 128
  expiresInMinutes : ∀ minutes, dto.expiresInMinutes = some minutes →
    1 ≤ minutes ∧ minutes ≤ 10080

/-- `publicBaseUrl.replace(/\/$/, '')`. -/
def stripSlash (url : String) : String :=
  match url.toList.reverse with
  | '/' :: rest => String.ofList rest.reverse
  | _ => url

def agentImage : String := "devpatf/amber-backup-agent:latest"

def installCommand (method : DeployMethod) (baseUrl token : String) (name : Option String) :
    String :=
  let nameVal := name.getD ""
  match method with
  | .docker =>
      "docker run -d --restart unless-stopped " ++
        ("-e AMBER_URL=" ++ baseUrl ++ " -e AMBER_TOKEN=" ++ token ++ " -e AMBER_NAME=\"" ++
          nameVal ++ "\" ") ++
        ("-v amber-agent:/var/lib/amber-agent " ++ agentImage)
  | .dockerCompose =>
      String.intercalate "\n" [
        "services:",
        "  amber-agent:",
        "    image: " ++ agentImage,
        "    restart: unless-stopped",
        "    environment:",
        "      AMBER_URL: " ++ baseUrl,
        "      AMBER_TOKEN: " ++ token,
        "      AMBER_NAME: \"" ++ nameVal ++ "\"",
        "    volumes:",
        "      - amber-agent:/var/lib/amber-agent",
        "volumes:",
        "  amber-agent:"]
  | .binary =>
      "curl -sSL " ++ baseUrl ++ "/api/agents/install.sh | AMBER_URL=" ++ baseUrl ++
        " AMBER_TOKEN=" ++ token ++ " AMBER_NAME=\"" ++ nameVal ++ "\" sh"

structure EnrollmentResponse where
  token : String
  expiresAt : Nat
  deployMethod : DeployMethod
  installCommand : String
  deriving DecidableEq, Repr

/-- The row of the token, which is inserted first, and the response. -/
def createEnrollmentToken (publicBaseUrl token : String) (now : Nat)
    (dto : CreateEnrollmentTokenDto) : Except Failure (EnrollmentToken × EnrollmentResponse) := do
  let intendedAgentName ← dto.intendedAgentName.mapM textParameter
  let expiresAt := now + dto.expiresInMinutes.getD 60 * 60000
  let method := dto.deployMethod.getD .binary
  return ({ tokenHash := Auth.hashToken token, intendedAgentName, expiresAt }, {
    token
    expiresAt
    deployMethod := method
    installCommand := installCommand method (stripSlash publicBaseUrl) token dto.intendedAgentName })

/-- The install variants that the server can render. -/
def agentDeployMethods : List (String × DeployMethod) :=
  [("binary", .binary), ("docker", .docker), ("docker-compose", .dockerCompose)]

/-- The request of `agent create`, without what is not given. -/
def buildEnrollmentPayload (flags : Cli.CommandFlags) (name : String) :
    Except Cli.UsageError CreateEnrollmentTokenDto := do
  let deployMethod ← flags.method.mapM fun text =>
    match agentDeployMethods.lookup text with
    | some method => pure method
    | none => throw ⟨"--method must be one of binary, docker, docker-compose"⟩
  let expiresInMinutes ← flags.expires.mapM fun text =>
    match (Cli.atoi text).filter fun minutes => 1 ≤ minutes && minutes ≤ 10080 with
    | some minutes => pure minutes.toNat
    | none => throw ⟨"--expires must be a number of minutes between 1 and 10080"⟩
  return {
    intendedAgentName := if name = "" then none else some name
    expiresInMinutes
    deployMethod }

/-! ## The templates -/

section Templates

open Shell (Token isPlain spaced)

def wordsOf (words : List String) : List (List Char) := words.map String.toList

/-- What is assigned before the name, at the end of the words before it. -/
def nameAssignment : List Char := "AMBER_NAME=".toList

def urlAssignment (baseUrl : String) : List Char := "AMBER_URL=".toList ++ baseUrl.toList

def tokenAssignment (token : String) : List Char := "AMBER_TOKEN=".toList ++ token.toList

def dockerBefore (baseUrl token : String) : List (List Char) :=
  wordsOf ["docker", "run", "-d", "--restart", "unless-stopped", "-e"] ++
    urlAssignment baseUrl :: wordsOf ["-e"] ++ tokenAssignment token :: wordsOf ["-e"]

def dockerAfter : List (List Char) := wordsOf ["-v", "amber-agent:/var/lib/amber-agent"]

theorem spaced_append (first second : List (List Char)) :
    spaced (first ++ second) = spaced first ++ spaced second := List.flatMap_append

theorem spaced_cons (word : List Char) (words : List (List Char)) :
    spaced (word :: words) = word ++ ' ' :: spaced words := by
  unfold spaced
  rw [List.flatMap_cons, List.append_assoc]
  rfl

theorem docker_start : "docker run -d --restart unless-stopped ".toList ++ "-e AMBER_URL=".toList =
    spaced (wordsOf ["docker", "run", "-d", "--restart", "unless-stopped", "-e"]) ++
      "AMBER_URL=".toList := by
  simp [spaced, wordsOf]

theorem docker_token : " -e AMBER_TOKEN=".toList =
    ' ' :: (spaced (wordsOf ["-e"]) ++ "AMBER_TOKEN=".toList) := by
  simp [spaced, wordsOf]

theorem docker_name : " -e AMBER_NAME=\"".toList =
    ' ' :: (spaced (wordsOf ["-e"]) ++ nameAssignment ++ ['"']) := by
  unfold nameAssignment
  simp [spaced, wordsOf]

theorem docker_end : "\" ".toList ++ "-v amber-agent:/var/lib/amber-agent ".toList =
    '"' :: ' ' :: spaced dockerAfter := by
  simp [spaced, wordsOf, dockerAfter]

theorem docker_command (baseUrl token name : String) :
    (installCommand .docker baseUrl token (some name)).toList =
      spaced (dockerBefore baseUrl token) ++ nameAssignment ++ ['"'] ++ name.toList ++
        '"' :: (' ' :: spaced dockerAfter ++ agentImage.toList) := by
  unfold installCommand
  simp only [String.toList_append, Option.getD_some]
  rw [docker_token, docker_name]
  have start : ∀ text, "docker run -d --restart unless-stopped ".toList ++
      ("-e AMBER_URL=".toList ++ text) = _ := fun text => by
    rw [← List.append_assoc, docker_start, List.append_assoc]
  have last : ∀ text, "\" ".toList ++ ("-v amber-agent:/var/lib/amber-agent ".toList ++ text) = _ :=
    fun text => by rw [← List.append_assoc, docker_end]
  unfold dockerBefore urlAssignment tokenAssignment
  simp only [spaced_append, spaced_cons, List.append_assoc, List.cons_append, List.nil_append,
    start, last]

def binaryCurl (baseUrl : String) : List (List Char) :=
  wordsOf ["curl", "-sSL"] ++ [baseUrl.toList ++ "/api/agents/install.sh".toList]

def binaryAssignments (baseUrl token : String) : List (List Char) :=
  [urlAssignment baseUrl, tokenAssignment token]

theorem binary_start : "curl -sSL ".toList = spaced (wordsOf ["curl", "-sSL"]) := by
  simp [spaced, wordsOf]

theorem binary_pipe : "/api/agents/install.sh | AMBER_URL=".toList =
    "/api/agents/install.sh".toList ++ ' ' :: '|' :: ' ' :: "AMBER_URL=".toList := by
  simp

theorem binary_token : " AMBER_TOKEN=".toList = ' ' :: "AMBER_TOKEN=".toList := by simp

theorem binary_name : " AMBER_NAME=\"".toList = ' ' :: (nameAssignment ++ ['"']) := by
  unfold nameAssignment
  simp

theorem binary_end : "\" sh".toList = '"' :: (' ' :: spaced [] ++ "sh".toList) := by
  simp [spaced]

theorem binary_command (baseUrl token name : String) :
    (installCommand .binary baseUrl token (some name)).toList =
      spaced (binaryCurl baseUrl) ++ '|' :: ' ' :: spaced (binaryAssignments baseUrl token) ++
        nameAssignment ++ ['"'] ++ name.toList ++ '"' :: (' ' :: spaced [] ++ "sh".toList) := by
  unfold installCommand
  simp only [String.toList_append, Option.getD_some]
  rw [binary_start, binary_pipe, binary_token, binary_name, binary_end]
  unfold binaryCurl binaryAssignments urlAssignment tokenAssignment
  simp only [spaced_append, spaced_cons, List.append_assoc, List.cons_append, List.nil_append]
  rfl

/-- The compose file up to the quotation mark before the name. -/
def composeBefore (baseUrl token : String) : List Char :=
  (String.intercalate "\n" [
    "services:",
    "  amber-agent:",
    "    image: " ++ agentImage,
    "    restart: unless-stopped",
    "    environment:",
    "      AMBER_URL: " ++ baseUrl,
    "      AMBER_TOKEN: " ++ token,
    "      AMBER_NAME: "]).toList

/-- The compose file after the quotation mark after the name. -/
def composeAfter : List Char :=
  (String.intercalate "\n" [
    "",
    "    volumes:",
    "      - amber-agent:/var/lib/amber-agent",
    "volumes:",
    "  amber-agent:"]).toList

theorem compose_name : "      AMBER_NAME: \"".toList = "      AMBER_NAME: ".toList ++ ['"'] := by
  simp

theorem compose_end : "\"".toList = ['"'] := by simp

theorem compose_command (baseUrl token name : String) :
    (installCommand .dockerCompose baseUrl token (some name)).toList =
      composeBefore baseUrl token ++ '"' :: (name.toList ++ '"' :: composeAfter) := by
  have empty : "".toList = [] := rfl
  unfold installCommand composeBefore composeAfter
  simp only [String.toList_intercalate, List.map_cons, List.map_nil, List.intercalate_cons_cons,
    List.intercalate_singleton, String.toList_append, Option.getD_some]
  rw [compose_name, compose_end, empty]
  simp only [List.append_assoc, List.cons_append, List.nil_append]

/-! ## What the templates are read as -/

def isBase64Url (char : Char) : Bool := isAlphanumeric char || char = '-' || char = '_'

/-- What is pasted beside the name: a URL without special characters and a random token. -/
structure TemplateParts (publicBaseUrl token : String) : Prop where
  url : ∀ char ∈ publicBaseUrl.toList, isPlain char = true
  token : ∀ char ∈ token.toList, isBase64Url char = true

def dockerTokens (baseUrl token name : String) : List Token :=
  (dockerBefore baseUrl token).map .word ++ .word (nameAssignment ++ name.toList) ::
    (dockerAfter.map .word ++ [.word agentImage.toList])

def binaryTokens (baseUrl token name : String) : List Token :=
  (binaryCurl baseUrl).map .word ++ [.operator '|'] ++ (binaryAssignments baseUrl token).map .word ++
    .word (nameAssignment ++ name.toList) :: [.word "sh".toList]

/-- The command is the template with the name as the value of `AMBER_NAME`. -/
def CarriesName (method : DeployMethod) (baseUrl token name command : String) : Prop :=
  match method with
  | .binary => Shell.read command.toList = some (binaryTokens baseUrl token name)
  | .docker => Shell.read command.toList = some (dockerTokens baseUrl token name)
  | .dockerCompose =>
      command.toList.takeWhile (· ≠ '"') = composeBefore baseUrl token ∧
        Yaml.scan ((command.toList.dropWhile (· ≠ '"')).drop 1) = some (name.toList, composeAfter)

/-- Double quotes of the method keep the name. -/
def KeptByMethod (method : DeployMethod) (name : String) : Prop :=
  match method with
  | .binary | .docker => Shell.KeptInDoubleQuotes name.toList
  | .dockerCompose => ∀ char ∈ name.toList, Yaml.isVerbatim char = true

def specials : List Char :=
  ['\x00', '"', '\'', '\\', '$', '`', '*', '?', '[', '~', ' ', '\t', '|', '&', ';', '<', '>',
    '(', ')', '\n', '#']

theorem plain_of_free {char : Char} (free : char ∉ specials) : isPlain char = true := by
  simp only [specials, List.mem_cons, List.not_mem_nil, or_false, not_or] at free
  simp [isPlain, Shell.expandsPlain, Shell.isOperator, free]

theorem isBase64Url_plain {char : Char} (base64 : isBase64Url char = true) :
    isPlain char = true := by
  apply plain_of_free
  have others : specials.all (fun special => !isBase64Url special) = true := by decide +kernel
  intro member
  have not_base64 := List.all_eq_true.mp others char member
  rw [base64] at not_base64
  cases not_base64

variable {baseUrl token name publicBaseUrl : String}

theorem wordsOf_plain {words : List String}
    (all : words.all (fun word => word.toList ≠ [] && word.toList.all isPlain) = true) :
    ∀ word ∈ wordsOf words, word ≠ [] ∧ ∀ char ∈ word, isPlain char = true := by
  intro word member
  obtain ⟨text, listed, rfl⟩ := List.mem_map.mp member
  have both := List.all_eq_true.mp all text listed
  rw [Bool.and_eq_true, decide_eq_true_eq] at both
  exact ⟨both.1, List.all_eq_true.mp both.2⟩

theorem urlAssignment_plain (plain : ∀ char ∈ baseUrl.toList, isPlain char = true) :
    urlAssignment baseUrl ≠ [] ∧ ∀ char ∈ urlAssignment baseUrl, isPlain char = true := by
  have start : "AMBER_URL=".toList.all isPlain = true := by
    simp [isPlain, Shell.expandsPlain, Shell.isOperator]
  refine ⟨List.append_ne_nil_of_left_ne_nil (by simp) _, ?_⟩
  intro char member
  rcases List.mem_append.mp member with first | later
  · exact List.all_eq_true.mp start char first
  · exact plain char later

theorem tokenAssignment_plain (base64 : ∀ char ∈ token.toList, isBase64Url char = true) :
    tokenAssignment token ≠ [] ∧ ∀ char ∈ tokenAssignment token, isPlain char = true := by
  have start : "AMBER_TOKEN=".toList.all isPlain = true := by
    simp [isPlain, Shell.expandsPlain, Shell.isOperator]
  refine ⟨List.append_ne_nil_of_left_ne_nil (by simp) _, ?_⟩
  intro char member
  rcases List.mem_append.mp member with first | later
  · exact List.all_eq_true.mp start char first
  · exact isBase64Url_plain (base64 char later)

theorem nameAssignment_plain :
    nameAssignment ≠ [] ∧ ∀ char ∈ nameAssignment, isPlain char = true := by
  have start : nameAssignment.all isPlain = true := by
    unfold nameAssignment
    simp [isPlain, Shell.expandsPlain, Shell.isOperator]
  exact ⟨by unfold nameAssignment; simp, List.all_eq_true.mp start⟩

theorem dockerBefore_plain (parts : TemplateParts baseUrl token) :
    ∀ word ∈ dockerBefore baseUrl token, word ≠ [] ∧ ∀ char ∈ word, isPlain char = true := by
  intro word member
  simp only [dockerBefore, List.mem_append, List.mem_cons] at member
  rcases member with ((front | rfl | flag) | rfl | last)
  · exact wordsOf_plain (by simp [isPlain, Shell.expandsPlain, Shell.isOperator]) word front
  · exact urlAssignment_plain parts.url
  · exact wordsOf_plain (by simp [isPlain, Shell.expandsPlain, Shell.isOperator]) word flag
  · exact tokenAssignment_plain parts.token
  · exact wordsOf_plain (by simp [isPlain, Shell.expandsPlain, Shell.isOperator]) word last

theorem docker_iff (parts : TemplateParts baseUrl token) :
    CarriesName .docker baseUrl token name (installCommand .docker baseUrl token (some name)) ↔
      Shell.KeptInDoubleQuotes name.toList := by
  have image : agentImage.toList.all isPlain = true := by
    simp [agentImage, isPlain, Shell.expandsPlain, Shell.isOperator]
  have opened := Shell.run_opening [] (dockerBefore_plain parts)
    nameAssignment_plain.1 nameAssignment_plain.2
  have others : ∀ word ∈ dockerAfter, word ≠ [] ∧ ∀ char ∈ word, isPlain char = true :=
    wordsOf_plain (by simp [isPlain, Shell.expandsPlain, Shell.isOperator])
  have closes : Shell.Closes (' ' :: spaced dockerAfter ++ agentImage.toList) _ :=
    Shell.closes_words (by simp [agentImage]) (List.all_eq_true.mp image)
      others
  unfold CarriesName dockerTokens
  rw [docker_command]
  exact Shell.read_quoted_iff _ opened closes

theorem binaryCurl_plain (plain : ∀ char ∈ baseUrl.toList, isPlain char = true) :
    ∀ word ∈ binaryCurl baseUrl, word ≠ [] ∧ ∀ char ∈ word, isPlain char = true := by
  have path : "/api/agents/install.sh".toList.all isPlain = true := by
    simp [isPlain, Shell.expandsPlain, Shell.isOperator]
  intro word member
  rcases List.mem_append.mp member with front | last
  · exact wordsOf_plain (by simp [isPlain, Shell.expandsPlain, Shell.isOperator]) word front
  · rw [List.mem_singleton.mp last]
    refine ⟨List.append_ne_nil_of_right_ne_nil _ (by simp), ?_⟩
    intro char inside
    rcases List.mem_append.mp inside with first | later
    · exact plain char first
    · exact List.all_eq_true.mp path char later

theorem binaryAssignments_plain (parts : TemplateParts baseUrl token) :
    ∀ word ∈ binaryAssignments baseUrl token,
      word ≠ [] ∧ ∀ char ∈ word, isPlain char = true := by
  intro word member
  simp only [binaryAssignments, List.mem_cons, List.not_mem_nil, or_false] at member
  rcases member with rfl | rfl
  · exact urlAssignment_plain parts.url
  · exact tokenAssignment_plain parts.token

theorem binary_iff (parts : TemplateParts baseUrl token) :
    CarriesName .binary baseUrl token name (installCommand .binary baseUrl token (some name)) ↔
      Shell.KeptInDoubleQuotes name.toList := by
  have opened : Shell.Reading.run {} (spaced (binaryCurl baseUrl) ++
      '|' :: ' ' :: (spaced (binaryAssignments baseUrl token) ++ nameAssignment ++ ['"'])) =
      some ⟨.double, some nameAssignment, (binaryCurl baseUrl).map .word ++ [.operator '|'] ++
        (binaryAssignments baseUrl token).map .word⟩ := by
    rw [Shell.run_append, show Shell.Reading.run {} _ = _ from
      Shell.run_spaced [] (binaryCurl_plain parts.url), Option.bind_some,
      Shell.run_cons]
    change Shell.Reading.run ⟨.plain, none,
      ((binaryCurl baseUrl).map .word ++ [] ++ [.operator '|']) ++ []⟩ _ = _
    rw [List.append_nil, List.append_nil]
    exact Shell.run_opening _ (binaryAssignments_plain parts) nameAssignment_plain.1
      nameAssignment_plain.2
  have shell : "sh".toList.all isPlain = true := by
    simp [isPlain, Shell.expandsPlain, Shell.isOperator]
  have closes : Shell.Closes (' ' :: spaced [] ++ "sh".toList) ([].map .word ++ [.word "sh".toList]) :=
    Shell.closes_words (by simp) (List.all_eq_true.mp shell) (List.forall_mem_nil _)
  unfold CarriesName binaryTokens
  rw [binary_command]
  have whole := Shell.read_quoted_iff name.toList opened closes
  simp only [List.append_assoc, List.cons_append] at whole ⊢
  exact whole

theorem compose_parts (baseUrl token : String) :
    composeBefore baseUrl token =
      (String.intercalate "\n" ["services:", "  amber-agent:", "    image: " ++ agentImage,
        "    restart: unless-stopped", "    environment:", "      AMBER_URL: "]).toList ++
      baseUrl.toList ++ ("\n".toList ++ "      AMBER_TOKEN: ".toList) ++ token.toList ++
      ("\n".toList ++ "      AMBER_NAME: ".toList) := by
  unfold composeBefore
  simp only [String.toList_intercalate, List.map_cons, List.map_nil, List.intercalate_cons_cons,
    List.intercalate_singleton, String.toList_append, List.append_assoc]

theorem composeBefore_free (parts : TemplateParts baseUrl token) :
    '"' ∉ composeBefore baseUrl token := by
  rw [compose_parts]
  simp only [List.mem_append, not_or]
  refine ⟨⟨⟨⟨by simp [agentImage], ?_⟩, by simp⟩, ?_⟩, by simp⟩
  · intro member
    exact absurd (parts.url _ member) (by decide)
  · intro member
    exact absurd (isBase64Url_plain (parts.token _ member)) (by decide)

theorem compose_iff (parts : TemplateParts baseUrl token) :
    CarriesName .dockerCompose baseUrl token name
        (installCommand .dockerCompose baseUrl token (some name)) ↔
      ∀ char ∈ name.toList, Yaml.isVerbatim char = true := by
  have others : ∀ char ∈ composeBefore baseUrl token, decide (char ≠ '"') = true := by
    intro char member
    exact decide_eq_true fun same => composeBefore_free parts (same ▸ member)
  unfold CarriesName
  rw [compose_command, List.takeWhile_append_of_pos others, List.dropWhile_append_of_pos others,
    List.takeWhile_cons_of_neg (by decide), List.dropWhile_cons_of_neg (by decide),
    List.append_nil, List.drop_succ_cons, List.drop_zero]
  have scalar := @Yaml.scan_iff composeAfter name.toList (by decide +kernel)
  exact (and_iff_right rfl).trans scalar

theorem stripSlash_plain (plain : ∀ char ∈ publicBaseUrl.toList, isPlain char = true) :
    ∀ char ∈ (stripSlash publicBaseUrl).toList, isPlain char = true := by
  unfold stripSlash
  split
  case h_1 rest reversed =>
    intro char member
    rw [String.toList_ofList] at member
    refine plain char (List.mem_reverse.mp ?_)
    rw [reversed]
    exact List.mem_cons_of_mem _ (List.mem_reverse.mp member)
  case h_2 => exact plain

theorem installCommand_iff (parts : TemplateParts baseUrl token) (method : DeployMethod) :
    CarriesName method baseUrl token name (installCommand method baseUrl token (some name)) ↔
      KeptByMethod method name := by
  cases method with
  | binary => exact binary_iff parts
  | docker => exact docker_iff parts
  | dockerCompose => exact compose_iff parts

/-- The command line forwards the name as it is. -/
theorem payload_name {flags : Cli.CommandFlags} {dto : CreateEnrollmentTokenDto}
    (filled : name ≠ "") (built : buildEnrollmentPayload flags name = .ok dto) :
    dto.intendedAgentName = some name := by
  unfold buildEnrollmentPayload at built
  simp only [bind, Except.bind, pure, Except.pure] at built
  split at built
  · cases built
  · split at built
    · cases built
    · cases built
      exact if_neg filled

/-- A name that cannot be stored is an error; any other is pasted into the command. -/
theorem createEnrollmentToken_eq {dto : CreateEnrollmentTokenDto} (now : Nat)
    (named : dto.intendedAgentName = some name) (clean : '\x00' ∉ name.toList) :
    createEnrollmentToken publicBaseUrl token now dto =
      .ok ({ tokenHash := Auth.hashToken token, intendedAgentName := some name,
             expiresAt := now + dto.expiresInMinutes.getD 60 * 60000 },
        { token, expiresAt := now + dto.expiresInMinutes.getD 60 * 60000,
          deployMethod := dto.deployMethod.getD .binary,
          installCommand := installCommand (dto.deployMethod.getD .binary)
            (stripSlash publicBaseUrl) token (some name) }) := by
  unfold createEnrollmentToken
  rw [named, Option.mapM_some, textParameter_eq clean]
  rfl

theorem createEnrollmentToken_null {dto : CreateEnrollmentTokenDto} {now : Nat}
    {created : EnrollmentToken × EnrollmentResponse}
    (named : dto.intendedAgentName = some name) (null : '\x00' ∈ name.toList) :
    createEnrollmentToken publicBaseUrl token now dto ≠ .ok created := by
  unfold createEnrollmentToken
  rw [named, Option.mapM_some]
  unfold textParameter
  rw [if_pos null]
  intro same
  cases same

end Templates

end AmberBackup
