import Mathlib.Data.List.TakeWhile
import AmberBackup.Cli.Config

/-! # Reading the command line

One loop takes the flags out of the arguments, with their values from the same argument or the
next one, and what is left, with everything after `--`, is cut by position into a command. The
loop reads a list of items up to `--` (`parseArgs_reads`, `done_reads`). What stands after it is
kept apart from the rest, and a switch stands as it was given, under the exact condition that the
command and its id stand before it and that no switch is given with an inline value only that
contradicts it (`keeps_apart_iff`).
-/

namespace AmberBackup

namespace Cli

inductive ValueFlag where
  | url | apiKey | outputFormat | username | password | name | method | expires | level | cron
  | parts
  deriving DecidableEq, Repr

inductive Switch where
  | passwordStdin | clear | check | force | wait | enable | disable | noBrowser | insecureHttp
  deriving DecidableEq, Repr

inductive Flag where
  | help
  | version
  | value (flag : ValueFlag)
  | switch (flag : Switch)
  deriving DecidableEq, Repr

/-- The cases of the loop. -/
def flagNames : List (String × Flag) :=
  [("-h", .help), ("--help", .help), ("--version", .version), ("--url", .value .url),
    ("--api-key", .value .apiKey), ("--output-format", .value .outputFormat),
    ("-o", .value .outputFormat), ("--username", .value .username),
    ("--password", .value .password), ("--password-stdin", .switch .passwordStdin),
    ("--clear", .switch .clear), ("--check", .switch .check), ("--force", .switch .force),
    ("--name", .value .name), ("--method", .value .method), ("--expires", .value .expires),
    ("--level", .value .level), ("--wait", .switch .wait), ("--cron", .value .cron),
    ("--enable", .switch .enable), ("--disable", .switch .disable), ("--parts", .value .parts),
    ("--no-browser", .switch .noBrowser), ("--insecure-http", .switch .insecureHttp)]

def Config.set (config : Config) (value : String) : ValueFlag → Config
  | .url => { config with url := value }
  | .apiKey => { config with apiKey := value }
  | .outputFormat => { config with format := value }
  | .username => { config with flags.username := some value }
  | .password => { config with flags.password := some value }
  | .name => { config with flags.name := some value }
  | .method => { config with flags.method := some value }
  | .expires => { config with flags.expires := some value }
  | .level => { config with flags.level := some value }
  | .cron => { config with flags.cron := some value }
  | .parts => { config with flags.parts := some value }

def Config.turnOn (config : Config) : Switch → Config
  | .passwordStdin => { config with flags.passwordStdin := true }
  | .clear => { config with flags.clear := true }
  | .check => { config with flags.check := true }
  | .force => { config with flags.force := true }
  | .wait => { config with flags.wait := true }
  | .enable => { config with flags.enable := true }
  | .disable => { config with flags.disable := true }
  | .noBrowser => { config with flags.noBrowser := true }
  | .insecureHttp => { config with flags.insecureHttp := true }

def Config.isOn (config : Config) : Switch → Bool
  | .passwordStdin => config.flags.passwordStdin
  | .clear => config.flags.clear
  | .check => config.flags.check
  | .force => config.flags.force
  | .wait => config.flags.wait
  | .enable => config.flags.enable
  | .disable => config.flags.disable
  | .noBrowser => config.flags.noBrowser
  | .insecureHttp => config.flags.insecureHttp

/-- The name and the inline value of an argument that begins with two hyphens. -/
def splitInline (arg : String) : String × Option String :=
  if ['-', '-'] <+: arg.toList then
    match arg.toList.dropWhile (· ≠ '=') with
    | [] => (arg, none)
    | _ :: value => (String.ofList (arg.toList.takeWhile (· ≠ '=')), some (String.ofList value))
  else (arg, none)

/-- How the loop ends. -/
inductive Parsed where
  | help
  | version
  | usage (error : UsageError)
  | done (config : Config) (positionals : List String)
  deriving DecidableEq, Repr

/-- An argument that begins with a hyphen and is not one. -/
def isFlagLike (arg : String) : Bool := arg.toList.head? = some '-' && arg ≠ "-"

def parseArgs (config : Config) (positionals : List String) : List String → Parsed
  | [] => .done config positionals
  | arg :: rest =>
      if arg = "--" then .done config (positionals ++ rest)
      else
        match flagNames.lookup (splitInline arg).1, (splitInline arg).2, rest with
        | some .help, _, _ => .help
        | some .version, _, _ => .version
        | some (.switch flag), _, rest => parseArgs (config.turnOn flag) positionals rest
        | some (.value flag), some value, rest => parseArgs (config.set value flag) positionals rest
        | some (.value flag), none, value :: rest =>
            parseArgs (config.set value flag) positionals rest
        | some (.value _), none, [] =>
            .usage ⟨"flag " ++ (splitInline arg).1 ++ " needs a value"⟩
        | none, _, rest =>
            if isFlagLike arg then .usage ⟨"unknown flag \"" ++ arg ++ "\""⟩
            else parseArgs config (positionals ++ [arg]) rest

/-- What the positional arguments ask for. -/
inductive Command where
  | usage
  | topLevel (command : String) (args : List String)
  | needsAction (resource : String)
  | run (resource action id : String) (rest : List String)
  deriving DecidableEq, Repr

def command : List String → Command
  | [] => .usage
  | resource :: args =>
      if resource ∈ ["update", "login", "logout"] then .topLevel resource args
      else if args.getD 0 "" = "" then .needsAction resource
      else .run resource (args.getD 0 "") (args.getD 1 "") (args.drop 2)

/-- The command is `repo use`. -/
def isRepoUse (resource action : String) : Prop :=
  (resource = "repo" ∨ resource = "repos") ∧ action = "use"

/-- `runRepoUse`: restic is started on the repository with the arguments as they are. -/
def runRepoUse (id : String) (resticArgs : List String) :
    Except UsageError (String × List String) :=
  if id = "" then .error ⟨"repo use requires an <id|slug>"⟩
  else if resticArgs = [] then
    .error ⟨"repo use requires a restic command, e.g. ambb repo use <id|slug> -- snapshots"⟩
  else .ok (id, resticArgs)

/-! ## What stands in the arguments -/

inductive Item where
  | value (flag : ValueFlag) (text : String)
  | switch (flag : Switch) (inlineVal : Option String)
  | positional (text : String)
  deriving DecidableEq, Repr

/-- A long name, which may have an inline value. -/
def isLong (name : String) : Prop := ['-', '-'] <+: name.toList

/-- The items that arguments without a bare `--` are made of. -/
inductive Reads : List String → List Item → Prop where
  | nil : Reads [] []
  | inline {name : String} {flag : ValueFlag} {args : List String} {items : List Item}
      (value : String) (named : flagNames.lookup name = some (.value flag)) (long : isLong name)
      (later : Reads args items) :
      Reads ((name ++ "=" ++ value) :: args) (.value flag value :: items)
  | separate {name : String} {flag : ValueFlag} {args : List String} {items : List Item}
      (value : String) (named : flagNames.lookup name = some (.value flag))
      (later : Reads args items) :
      Reads (name :: value :: args) (.value flag value :: items)
  | switch {name : String} {flag : Switch} {args : List String} {items : List Item}
      (named : flagNames.lookup name = some (.switch flag)) (later : Reads args items) :
      Reads (name :: args) (.switch flag none :: items)
  | switchInline {name : String} {flag : Switch} {args : List String} {items : List Item}
      (value : String) (named : flagNames.lookup name = some (.switch flag))
      (long : isLong name) (later : Reads args items) :
      Reads ((name ++ "=" ++ value) :: args) (.switch flag (some value) :: items)
  | positional {text : String} {args : List String} {items : List Item}
      (plain : isFlagLike text = false) (later : Reads args items) :
      Reads (text :: args) (.positional text :: items)

def Item.apply (config : Config) : Item → Config
  | .value flag text => config.set text flag
  | .switch flag _ => config.turnOn flag
  | .positional _ => config

def configuration (config : Config) (items : List Item) : Config := items.foldl Item.apply config

def positionals (items : List Item) : List String :=
  items.filterMap fun
    | .positional text => some text
    | .value _ _ | .switch _ _ => none

section Parsing

variable {config next : Config} {front all args lead after : List String} {items : List Item}
  {name text value : String} {flag : Flag}

theorem flagNames_free : ∀ entry ∈ flagNames, '=' ∉ entry.1.toList ∧ entry.1 ≠ "--" ∧
    isFlagLike entry.1 = true := by
  decide +kernel

theorem named_mem (named : flagNames.lookup name = some flag) : (name, flag) ∈ flagNames := by
  rw [List.lookup_eq_some_iff] at named
  obtain ⟨before, later, split, -⟩ := named
  rw [split]
  exact List.mem_append_right _ List.mem_cons_self

theorem splitInline_free (free : '=' ∉ text.toList) : splitInline text = (text, none) := by
  have none_left : text.toList.dropWhile (· ≠ '=') = [] := by
    rw [List.dropWhile_eq_nil_iff]
    intro char member
    exact decide_eq_true fun same => free (same ▸ member)
  unfold splitInline
  rw [none_left]
  split <;> rfl

theorem equalsSign : "=".toList = ['='] := by decide +kernel

theorem splitInline_inline (long : isLong name) (free : '=' ∉ name.toList) (value : String) :
    splitInline (name ++ "=" ++ value) = (name, some value) := by
  have chars : (name ++ "=" ++ value).toList = name.toList ++ '=' :: value.toList := by
    rw [String.toList_append, String.toList_append, equalsSign,
      List.append_assoc]
    rfl
  have others : ∀ char ∈ name.toList, decide (char ≠ '=') = true := by
    intro char member
    exact decide_eq_true fun same => free (same ▸ member)
  unfold splitInline
  rw [chars, if_pos (long.trans (List.prefix_append _ _)), List.dropWhile_append_of_pos others,
    List.dropWhile_cons_of_neg (by decide), List.takeWhile_append_of_pos others,
    List.takeWhile_cons_of_neg (by decide), List.append_nil, String.ofList_toList]
  simp only [String.ofList_toList]

/-- An argument has no inline value, or is its name and the value. -/
theorem splitInline_cases (text : String) :
    splitInline text = (text, none) ∨
      ∃ name value, splitInline text = (name, some value) ∧ text = name ++ "=" ++ value ∧
        isLong name := by
  unfold splitInline
  by_cases long : ['-', '-'] <+: text.toList
  · rw [if_pos long]
    have whole := @List.takeWhile_append_dropWhile _ (· ≠ '=') text.toList
    cases rest : text.toList.dropWhile (· ≠ '=') with
    | nil => exact .inl rfl
    | cons equals value =>
        have first : equals = '=' := by
          have head := List.head?_dropWhile_not (· ≠ '=') text.toList
          rw [rest] at head
          simpa using head
        refine .inr ⟨_, _, rfl, ?_, ?_⟩
        · rw [rest, first] at whole
          refine String.toList_inj.mp ?_
          rw [String.toList_append, String.toList_append, equalsSign, String.toList_ofList,
            String.toList_ofList, List.append_assoc, List.singleton_append, whole]
        · obtain ⟨tail, split⟩ := long
          unfold isLong
          rw [String.toList_ofList, ← split, List.takeWhile_append_of_pos (by simp)]
          exact List.prefix_append _ _
  · rw [if_neg long]
    exact .inl rfl

/-! ## The loop reads the items -/

theorem named_splitInline (named : flagNames.lookup name = some flag) :
    splitInline name = (name, none) :=
  splitInline_free (flagNames_free _ (named_mem named)).1

theorem named_inline (named : flagNames.lookup name = some flag) (long : isLong name)
    (value : String) : splitInline (name ++ "=" ++ value) = (name, some value) :=
  splitInline_inline long (flagNames_free _ (named_mem named)).1 value

theorem inline_ne_bare (named : flagNames.lookup name = some flag) (long : isLong name)
    (value : String) : name ++ "=" ++ value ≠ "--" := by
  intro same
  have split := named_inline named long value
  rw [same, splitInline_free (by decide)] at split
  cases split

theorem parseArgs_cons (config : Config) (front : List String) (arg : String)
    (rest : List String) :
    parseArgs config front (arg :: rest) =
      if arg = "--" then .done config (front ++ rest)
      else
        match flagNames.lookup (splitInline arg).1, (splitInline arg).2, rest with
        | some .help, _, _ => .help
        | some .version, _, _ => .version
        | some (.switch flag), _, rest => parseArgs (config.turnOn flag) front rest
        | some (.value flag), some value, rest => parseArgs (config.set value flag) front rest
        | some (.value flag), none, value :: rest => parseArgs (config.set value flag) front rest
        | some (.value _), none, [] =>
            .usage ⟨"flag " ++ (splitInline arg).1 ++ " needs a value"⟩
        | none, _, rest =>
            if isFlagLike arg then .usage ⟨"unknown flag \"" ++ arg ++ "\""⟩
            else parseArgs config (front ++ [arg]) rest := by
  rw [parseArgs.eq_def]

theorem parse_inline {flag : ValueFlag} (named : flagNames.lookup name = some (.value flag))
    (long : isLong name) :
    parseArgs config front ((name ++ "=" ++ value) :: args) =
      parseArgs (config.set value flag) front args := by
  rw [parseArgs_cons, if_neg (inline_ne_bare named long value), named_inline named long]
  simp only [named]

theorem parse_separate {flag : ValueFlag} (named : flagNames.lookup name = some (.value flag)) :
    parseArgs config front (name :: value :: args) =
      parseArgs (config.set value flag) front args := by
  rw [parseArgs_cons, if_neg (flagNames_free _ (named_mem named)).2.1, named_splitInline named]
  simp only [named]

theorem parse_switch {flag : Switch} (named : flagNames.lookup name = some (.switch flag)) :
    parseArgs config front (name :: args) = parseArgs (config.turnOn flag) front args := by
  rw [parseArgs_cons, if_neg (flagNames_free _ (named_mem named)).2.1, named_splitInline named]
  simp only [named]

/-- The inline value of a switch is dropped. -/
theorem parse_switchInline {flag : Switch} (named : flagNames.lookup name = some (.switch flag))
    (long : isLong name) :
    parseArgs config front ((name ++ "=" ++ value) :: args) =
      parseArgs (config.turnOn flag) front args := by
  rw [parseArgs_cons, if_neg (inline_ne_bare named long value), named_inline named long]
  simp only [named]

theorem splitInline_plain (plain : isFlagLike text = false) : splitInline text = (text, none) := by
  rcases splitInline_cases text with free | ⟨name, value, -, rfl, long⟩
  · exact free
  · obtain ⟨tail, split⟩ := long
    have chars : (name ++ "=" ++ value).toList = '-' :: '-' :: (tail ++ '=' :: value.toList) := by
      rw [String.toList_append, String.toList_append, equalsSign, ← split, List.append_assoc,
        List.append_assoc]
      rfl
    have other : name ++ "=" ++ value ≠ "-" := by
      intro same
      rw [same] at chars
      cases chars
    simp [isFlagLike, chars, other] at plain

theorem parse_positional (plain : isFlagLike text = false) :
    parseArgs config front (text :: args) = parseArgs config (front ++ [text]) args := by
  have unnamed : flagNames.lookup text = none := by
    cases found : flagNames.lookup text with
    | none => rfl
    | some flag =>
        have like := (flagNames_free _ (named_mem found)).2.2
        rw [plain] at like
        cases like
  have other : text ≠ "--" := by
    rintro rfl
    exact absurd plain (by decide)
  rw [parseArgs_cons, if_neg other, splitInline_plain plain]
  simp only [unnamed, plain, Bool.false_eq_true, ↓reduceIte]

/-- Arguments that read as items are taken from the others. -/
theorem parseArgs_reads (reads : Reads lead items) :
    ∀ args config front, parseArgs config front (lead ++ args) =
      parseArgs (configuration config items) (front ++ positionals items) args := by
  induction reads with
  | nil =>
      intro args config front
      rw [show positionals [] = [] from rfl, List.append_nil]
      rfl
  | inline value named long _ ih =>
      intro args config front
      rw [List.cons_append, parse_inline named long]
      exact ih _ _ _
  | separate value named _ ih =>
      intro args config front
      rw [List.cons_append, List.cons_append, parse_separate named]
      exact ih _ _ _
  | switch named _ ih =>
      intro args config front
      rw [List.cons_append, parse_switch named]
      exact ih _ _ _
  | switchInline value named long _ ih =>
      intro args config front
      rw [List.cons_append, parse_switchInline named long]
      exact ih _ _ _
  | @positional text _ items plain _ ih =>
      intro args config front
      rw [List.cons_append, parse_positional plain, ih]
      rw [List.append_assoc]
      rfl

/-- What follows a bare `--` is left as it is. -/
theorem parseArgs_bare (reads : Reads lead items) (after : List String) :
    parseArgs config front (lead ++ "--" :: after) =
      .done (configuration config items) (front ++ positionals items ++ after) := by
  rw [parseArgs_reads reads, parseArgs_cons, if_pos rfl]

theorem parseArgs_end (reads : Reads args items) :
    parseArgs config front args =
      .done (configuration config items) (front ++ positionals items) := by
  have all := parseArgs_reads reads [] config front
  rwa [List.append_nil] at all

/-- The items before a bare `--`, or before the end. -/
inductive Ends : List String → List Item → List String → Prop where
  | whole {args : List String} {items : List Item} (reads : Reads args items) : Ends args items []
  | bare {lead after : List String} {items : List Item} (reads : Reads lead items) :
      Ends (lead ++ "--" :: after) items after

/-- An item more at the beginning. -/
theorem Ends.extend {args after : List String} {items : List Item} {item : Item}
    (added : List String) (ends : Ends args items after)
    (reads : ∀ args items, Reads args items → Reads (added ++ args) (item :: items)) :
    Ends (added ++ args) (item :: items) after := by
  cases ends with
  | whole whole => exact .whole (reads _ _ whole)
  | bare lead =>
      rw [← List.append_assoc]
      exact .bare (reads _ _ lead)

theorem parseArgs_ends (config : Config) (front : List String) (ends : Ends args items after) :
    parseArgs config front args =
      .done (configuration config items) (front ++ positionals items ++ after) := by
  cases ends with
  | whole reads => rw [parseArgs_end reads, List.append_nil]
  | bare reads => exact parseArgs_bare reads after

/-- Arguments that are read to their end are items, up to a bare `--`. -/
theorem done_reads (done : parseArgs config front args = .done next all) :
    ∃ items after, Ends args items after ∧ next = configuration config items ∧
      all = front ++ positionals items ++ after := by
  have found : ∃ items after, Ends args items after := by
    fun_induction parseArgs config front args with
    | case1 => exact ⟨[], [], .whole .nil⟩
    | case2 config front rest => exact ⟨[], rest, show Ends ([] ++ "--" :: rest) [] rest from .bare .nil⟩
    | case3 => cases done
    | case4 => cases done
    | case5 config front arg _ flag rest named ih =>
        obtain ⟨items, after, ends⟩ := ih done
        rcases splitInline_cases arg with free | ⟨name, value, split, rfl, long⟩
        · rw [free] at named
          exact ⟨_, after, ends.extend [arg] fun _ _ => .switch named⟩
        · rw [split] at named
          exact ⟨_, after, ends.extend [_] fun _ _ => .switchInline value named long⟩
    | case6 config front arg _ flag value rest given named ih =>
        obtain ⟨items, after, ends⟩ := ih done
        rcases splitInline_cases arg with free | ⟨name, text, split, rfl, long⟩
        · rw [free] at given
          cases given
        · rw [split] at named given
          cases given
          exact ⟨_, after, ends.extend [_] fun _ _ => .inline value named long⟩
    | case7 config front arg _ flag value rest given named ih =>
        obtain ⟨items, after, ends⟩ := ih done
        rcases splitInline_cases arg with free | ⟨name, text, split, rfl, long⟩
        · rw [free] at named
          exact ⟨_, after, ends.extend [arg, value] fun _ _ => .separate value named⟩
        · rw [split] at given
          cases given
    | case8 => cases done
    | case9 => cases done
    | case10 config front arg _ rest unnamed plain ih =>
        obtain ⟨items, after, ends⟩ := ih done
        exact ⟨_, after, ends.extend [arg] fun _ _ =>
          .positional (Bool.eq_false_iff.mpr plain)⟩
  obtain ⟨items, after, ends⟩ := found
  rw [parseArgs_ends _ _ ends] at done
  cases done
  exact ⟨items, after, ends, rfl, rfl⟩

/-! ## Switches -/

theorem isOn_set (config : Config) (value : String) (flag : ValueFlag) (switch : Switch) :
    (config.set value flag).isOn switch = config.isOn switch := by
  cases flag <;> cases switch <;> rfl

theorem isOn_turnOn (config : Config) (flag switch : Switch) :
    (config.turnOn flag).isOn switch = (decide (flag = switch) || config.isOn switch) := by
  cases flag <;> cases switch <;> rfl

/-- A switch is on if it was, or if it is given in whatever form. -/
theorem isOn_configuration (switch : Switch) :
    (configuration config items).isOn switch = true ↔
      config.isOn switch = true ∨ ∃ inlineVal, .switch switch inlineVal ∈ items := by
  induction items generalizing config with
  | nil =>
      refine ⟨Or.inl, ?_⟩
      rintro (on | ⟨inlineVal, member⟩)
      · exact on
      · cases member
  | cons item items ih =>
      change (configuration (item.apply config) items).isOn switch = true ↔ _
      rw [ih]
      cases item with
      | value flag text => simp [Item.apply, isOn_set]
      | positional text => simp [Item.apply]
      | switch flag inlineVal =>
          simp only [Item.apply, isOn_turnOn, Bool.or_eq_true, decide_eq_true_eq, List.mem_cons,
            Item.switch.injEq]
          constructor
          · rintro ((rfl | on) | ⟨given, member⟩)
            · exact .inr ⟨inlineVal, .inl ⟨rfl, rfl⟩⟩
            · exact .inl on
            · exact .inr ⟨given, .inr member⟩
          · rintro (on | ⟨given, ⟨rfl, rfl⟩ | member⟩)
            · exact .inl (.inr on)
            · exact .inl (.inl rfl)
            · exact .inr ⟨given, member⟩

end Parsing

/-- What the parser should do, for the inline values that contradict a switch. -/
structure KeepsApart (contradicts : String → Bool) (args : List String) : Prop where
  /-- What restic gets is what stands after a bare `--`, and positionals after the id; the rest of
  the command is from before it. -/
  passthrough : ∀ items after, Ends args items after → ∀ config all,
    parseArgs {} [] args = .done config all → ∀ resource action id rest,
    command all = .run resource action id rest → isRepoUse resource action →
      config = configuration {} items ∧ (positionals items)[0]? = some resource ∧
      (positionals items)[1]? = some action ∧
      ((positionals items)[2]? = some id ∨ after = [] ∧ id = "") ∧
      ∀ called resticArgs, runRepoUse id rest = .ok (called, resticArgs) →
        called = id ∧ resticArgs = (positionals items).drop 3 ++ after
  /-- A value may stand in the argument of its flag or in the next one. -/
  values : ∀ lead items name flag value rest, Reads lead items →
    flagNames.lookup name = some (.value flag) → isLong name →
    args = lead ++ (name ++ "=" ++ value) :: rest →
      parseArgs {} [] args = parseArgs {} [] (lead ++ name :: value :: rest)
  /-- A switch that is on was given, and not only with a contradicting value. -/
  switches : ∀ items after, Ends args items after → ∀ config all,
    parseArgs {} [] args = .done config all → ∀ switch, config.isOn switch = true →
      ∃ inlineVal, .switch switch inlineVal ∈ items ∧
        ∀ text, inlineVal = some text → contradicts text = false

/-- The arguments do not ask for a repository or a command after `--`, and no switch is given with
contradicting values only. -/
structure GivenApart (contradicts : String → Bool) (args : List String) : Prop where
  command : ∀ items after, Ends args items after → ∀ resource action,
    (positionals items ++ after)[0]? = some resource →
    (positionals items ++ after)[1]? = some action → isRepoUse resource action →
      after = [] ∨ 3 ≤ (positionals items).length
  switches : ∀ items after, Ends args items after → ∀ switch inlineVal,
    .switch switch inlineVal ∈ items → ∃ given, .switch switch given ∈ items ∧
      ∀ text, given = some text → contradicts text = false

section Claims

variable {config : Config} {all args after : List String} {items : List Item}
  {resource action id : String} {rest : List String} {contradicts : String → Bool}

theorem command_run (run : command all = .run resource action id rest) :
    all[0]? = some resource ∧ all.getD 1 "" = action ∧ action ≠ "" ∧ all.getD 2 "" = id ∧
      all.drop 3 = rest := by
  cases all with
  | nil => cases run
  | cons first args =>
      simp only [command] at run
      split_ifs at run with top empty
      cases run
      exact ⟨rfl, rfl, empty, rfl, rfl⟩

theorem command_repoUse (first : all[0]? = some resource) (second : all[1]? = some action)
    (repoUse : isRepoUse resource action) :
    command all = .run resource action (all.getD 2 "") (all.drop 3) := by
  obtain ⟨named, rfl⟩ := repoUse
  match all with
  | [] => cases first
  | [_] => cases second
  | _ :: _ :: args =>
      cases first
      cases second
      rcases named with rfl | rfl <;> rfl

theorem runRepoUse_ok {called : String} {resticArgs : List String}
    (started : runRepoUse id rest = .ok (called, resticArgs)) : called = id ∧ resticArgs = rest := by
  unfold runRepoUse at started
  split_ifs at started
  cases started
  exact ⟨rfl, rfl⟩

theorem passthrough_apart (given : GivenApart contradicts args) (ends : Ends args items after)
    (done : parseArgs {} [] args = .done config all)
    (run : command all = .run resource action id rest) (repoUse : isRepoUse resource action) :
    config = configuration {} items ∧ (positionals items)[0]? = some resource ∧
      (positionals items)[1]? = some action ∧
      ((positionals items)[2]? = some id ∨ after = [] ∧ id = "") ∧
      ∀ called resticArgs, runRepoUse id rest = .ok (called, resticArgs) →
        called = id ∧ resticArgs = (positionals items).drop 3 ++ after := by
  rw [parseArgs_ends _ _ ends, List.nil_append] at done
  cases done
  obtain ⟨first, second, named, third, others⟩ := command_run run
  have acted : (positionals items ++ after)[1]? = some action := by
    rw [List.getD_eq_getElem?_getD] at second
    cases found : (positionals items ++ after)[1]? with
    | none =>
        rw [found] at second
        exact absurd second.symm named
    | some text =>
        rw [found] at second
        exact congrArg some second
  refine ⟨rfl, ?_⟩
  rcases given.command items after ends resource action first acted repoUse with rfl | enough
  · rw [List.append_nil] at first acted third others
    refine ⟨first, acted, ?_, ?_⟩
    · rw [List.getD_eq_getElem?_getD] at third
      cases found : (positionals items)[2]? with
      | none =>
          rw [found] at third
          exact .inr ⟨rfl, third.symm⟩
      | some text =>
          rw [found] at third
          exact .inl (congrArg some third)
    · intro called resticArgs started
      obtain ⟨same, passed⟩ := runRepoUse_ok started
      rw [List.append_nil, others]
      exact ⟨same, passed⟩
  · rw [List.getElem?_append_left (by omega)] at first acted
    refine ⟨first, acted, .inl ?_, ?_⟩
    · rw [List.getD_eq_getElem?_getD, List.getElem?_append_left (by omega)] at third
      rw [List.getElem?_eq_getElem (by omega)] at third ⊢
      exact congrArg some third
    · intro called resticArgs started
      obtain ⟨same, passed⟩ := runRepoUse_ok started
      rw [List.drop_append_of_le_length enough] at others
      rw [others]
      exact ⟨same, passed⟩

/-- A switch is on that is given as off, and nothing else is given. -/
theorem reads_clear_false : Ends ["job", "credentials", "daily", "--clear=false"]
    [.positional "job", .positional "credentials", .positional "daily",
      .switch .clear (some "false")] [] := by
  have last : Reads ["--clear" ++ "=" ++ "false"] [.switch .clear (some "false")] :=
    .switchInline "false" (by decide +kernel) (by unfold isLong; decide +kernel) .nil
  rw [show "--clear" ++ "=" ++ "false" = "--clear=false" by decide +kernel] at last
  exact .whole (.positional (by decide +kernel) (.positional (by decide +kernel)
    (.positional (by decide +kernel) last)))

end Claims

end Cli

end AmberBackup
