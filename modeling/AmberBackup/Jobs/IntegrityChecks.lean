import AmberBackup.Database.Statements

/-! # Integrity checks

What the next check of a job verifies, what a finished one writes to the repository, and
which agents can run one.
-/

namespace AmberBackup

/-- Parts a rotating check splits the data into unless the schedule says otherwise. -/
def defaultSubsetParts : Nat := 12

def checkMinAgentVersion : String := "1.26.0"

/-- Run error recorded when restic reports damage. -/
def damagedMessage : String :=
  "Integrity errors found — the log lists the damaged data and how to repair it"

/-- What the next check of a job verifies. A rotating check continues where the last
passed part left off, and restarts when the number of parts has changed since. -/
def planCheck (job : BackupJob) (repository : Repository) (level : Option IntegrityLevel) :
    CheckInfo :=
  let chosen := (level.or job.integrityCheck.level).getD .quick
  if chosen = .rotating then
    let parts := job.integrityCheck.subsetParts.getD defaultSubsetParts
    let next := repository.checkSubsetNext
    let part :=
      if repository.checkSubsetParts = some parts ∧ 1 ≤ next ∧ next ≤ parts then next else 1
    { level := .rotating, part := some part, parts := some parts }
  else { level := chosen }

/-- Whether a finished check completes the verification of all data. Parts only advance
on success, so passing the last one completes a rotation. -/
def CheckInfo.completesVerification (info : CheckInfo) : Bool :=
  match info.level with
  | .quick => false
  | .full => true
  | .rotating => info.part.isSome && info.part = info.parts && info.part ≠ some 0

/-- The repository after a finished check. -/
def repositoryPatch (now : Nat) (info : CheckInfo) (outcome : CheckOutcome)
    (repository : Repository) : Repository :=
  if outcome.damaged then
    { repository with
      checkStatus := some .damaged, checkAt := some now, checkLevel := some info.level,
      checkError := none }
  else if outcome.status ≠ .success then
    { repository with checkError := some (outcome.error.getD "Check failed") }
  else
    let passed : Repository :=
      { repository with
        checkStatus := some .passed, checkAt := some now, checkLevel := some info.level,
        checkError := none
        dataVerifiedAt :=
          if info.completesVerification then some now else repository.dataVerifiedAt }
    match info.level, info.part, info.parts with
    | .rotating, some part, some parts =>
        if part ≠ 0 ∧ parts ≠ 0 then
          { passed with checkSubsetParts := some parts, checkSubsetNext := part % parts + 1 }
        else passed
    | _, _, _ => passed

/-- `parseInt(s, 10) || 0`. -/
def parseIntOrZero (text : List Char) : Int :=
  let digits (chars : List Char) : Int :=
    (chars.takeWhile Char.isDigit).foldl
      (fun value digit => value * 10 + (digit.toNat - '0'.toNat)) 0
  match text.dropWhile Char.isWhitespace with
  | '-' :: rest => -digits rest
  | '+' :: rest => digits rest
  | chars => digits chars

/-- The parts between the dots. -/
def splitDots : List Char → List (List Char)
  | [] => [[]]
  | '.' :: rest => [] :: splitDots rest
  | char :: rest =>
      match splitDots rest with
      | [] => [[char]]
      | part :: parts => (char :: part) :: parts

/-- The numbers of a `major.minor.patch` version; a leading `v` is ignored. -/
def versionNumbers (version : String) : List Int :=
  let bare := match version.toList.dropWhile Char.isWhitespace with
    | 'v' :: rest => rest
    | chars => chars
  ((splitDots bare).take 3).map parseIntOrZero

/-- Compares `major.minor.patch` versions; a missing number reads as 0. -/
def versionLess (first second : String) : Bool :=
  let number (numbers : List Int) (index : Nat) : Int := numbers.getD index 0
  let a := versionNumbers first
  let b := versionNumbers second
  if number a 0 ≠ number b 0 then number a 0 < number b 0
  else if number a 1 ≠ number b 1 then number a 1 < number b 1
  else number a 2 < number b 2

example : versionLess "v1.9.4" checkMinAgentVersion = true := by decide

end AmberBackup
