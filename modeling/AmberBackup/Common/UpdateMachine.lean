import Mathlib.Logic.Function.Basic
import AmberBackup.Lib.NetUrl
import AmberBackup.Lib.Postconditions

/-! # Updating a program

Programs that update themselves make requests, work on files and run what they downloaded. Every
request and every operation on files can fail, and a run can be cut off between any two of them.
-/

namespace AmberBackup

namespace Updating

open NetUrl (Url)
open Utf8 (Bytes)
open Procedure (Ends ending)

structure Path where
  dir : String
  name : String
  deriving DecidableEq, Repr

structure FileNode where
  content : Bytes
  /-- The permission bits. -/
  mode : Nat
  deriving DecidableEq, Repr

structure SystemError where
  message : String
  /-- `os.ErrPermission`. -/
  denied : Bool := false
  deriving DecidableEq, Repr

/-- What comes back for a request: redirects, and what is served in the end. -/
structure Reply where
  hops : List Url := []
  status : Nat := 200
  body : Bytes := []
  /-- Reading the body fails. -/
  cutShort : Bool := false
  deriving DecidableEq, Repr

/-- What an operation meets; each looks at what it depends on. -/
structure Circumstances where
  error : Option SystemError := none
  reply : Reply := {}
  /-- The random part of a temporary name. -/
  suffix : String := ""
  /-- How much is written before a write fails. -/
  written : Nat := 0
  /-- What a program prints. -/
  output : String := ""
  deriving DecidableEq, Repr

structure Computer where
  files : Path → Option FileNode
  /-- The outcomes of the operations to come; the run is cut off where they end. -/
  ahead : List Circumstances
  requests : List Url := []
  /-- The bodies that were read, by the URL asked for. -/
  fetched : List (String × Bytes) := []
  /-- The programs that ran to their end, with what they printed. -/
  ran : List (Bytes × String) := []

inductive UpdateError where
  /-- Cut off between two operations. -/
  | interrupted
  | system (error : SystemError)
  | refusedDownload (url : String)
  | refusedRedirect (hop : Url)
  | tooManyRedirects
  | notFound (url : String)
  | status (url : String) (status : Nat)
  | unreadable (url : String)
  | tooLarge (url : String) (limit : Nat)
  /-- No release of ambb has been published yet. -/
  | noRelease
  | undecodable
  | unexpectedTag (tag : String)
  | noBuild (tag name : String)
  | noChecksums (tag : String)
  | noChecksum (name : String)
  | malformedChecksum (name : String)
  | checksumMismatch (name : String)
  | brokenArchive
  | notInArchive (want : String)
  | binaryTooLarge (want : String)
  | developmentBuild (current latest : String)
  | versionCheck (got want : String)
  deriving DecidableEq, Repr

abbrev Update := Procedure Computer UpdateError

/-- An operation: it is cut off, or it meets its outcome. -/
def perform {α : Type} (act : Circumstances → Computer → Except UpdateError α × Computer) : Update α :=
  ⟨fun machine =>
    match machine.ahead with
    | [] => (.error .interrupted, machine)
    | outcome :: ahead => act outcome { machine with ahead }⟩

/-- An operation that fails with the system's error. -/
def attempt {α : Type} (act : Circumstances → Computer → Except UpdateError α × Computer) : Update α :=
  perform fun outcome machine =>
    match outcome.error with
    | some error => (.error (.system error), machine)
    | none => act outcome machine

def setFile (path : Path) (node : Option FileNode) (machine : Computer) : Computer :=
  { machine with files := Function.update machine.files path node }

def noSuchFile : UpdateError := .system { message := "no such file or directory" }

def stat (path : Path) : Update FileNode :=
  attempt fun _ machine =>
    match machine.files path with
    | some node => (.ok node, machine)
    | none => (.error noSuchFile, machine)

def modifyFile (path : Path) (change : FileNode → FileNode) (machine : Computer) : Computer :=
  setFile path ((machine.files path).map change) machine

/-- Writes the content, or as much of it as is written before the write fails. -/
def write (path : Path) (content : Bytes) : Update (Option SystemError) :=
  perform fun outcome machine =>
    match outcome.error with
    | some error =>
        (.ok (some error),
          modifyFile path (fun node => { node with content := content.take outcome.written }) machine)
    | none => (.ok none, modifyFile path (fun node => { node with content }) machine)

def close : Update (Option SystemError) :=
  perform fun outcome machine => (.ok outcome.error, machine)

def chmod (path : Path) (mode : Nat) : Update Unit :=
  attempt fun _ machine => (.ok (), modifyFile path (fun node => { node with mode }) machine)

def rename (source target : Path) : Update Unit :=
  attempt fun _ machine =>
    match machine.files source with
    | none => (.error noSuchFile, machine)
    | some node => (.ok (), setFile target (some node) (setFile source none machine))

/-- `_ = os.Remove(path)`. -/
def removeQuietly (path : Path) : Update Unit :=
  perform fun outcome machine =>
    (.ok (), if outcome.error.isSome then machine else setFile path none machine)

/-- Runs a file: what it printed, if it ran to its end. -/
def runBinary (path : Path) : Update (Bool × String) :=
  perform fun outcome machine =>
    match outcome.error, machine.files path with
    | none, some node =>
        (.ok (true, outcome.output),
          { machine with ran := machine.ran ++ [(node.content, outcome.output)] })
    | _, _ => (.ok (false, outcome.output), machine)

def await : Update Reply := attempt fun outcome machine => (.ok outcome.reply, machine)

def throwing : Option SystemError → Update Unit
  | none => pure ()
  | some error => .raise (.system error)

def isInterrupted : UpdateError → Bool
  | .interrupted => true
  | _ => false

/-! ## What operations do -/

section Operations

variable {α : Type} {pre : Computer → Prop} {returns : α → Computer → Prop}
  {throws : UpdateError → Computer → Prop}

/-- An operation is cut off or acts on its outcome. -/
theorem perform_ends {act : Circumstances → Computer → Except UpdateError α × Computer}
    (quiet : ∀ machine ahead, pre machine → pre { machine with ahead })
    (cut : ∀ machine, pre machine → throws .interrupted machine)
    (acts : ∀ outcome machine, pre machine →
      ending returns throws (act outcome machine).1 (act outcome machine).2) :
    (perform act).Ends pre (ending returns throws) := by
  constructor
  intro machine holds
  unfold perform
  dsimp only
  cases machine.ahead with
  | nil => exact cut machine holds
  | cons outcome ahead => exact acts outcome _ (quiet machine ahead holds)

theorem attempt_ends {act : Circumstances → Computer → Except UpdateError α × Computer}
    (quiet : ∀ machine ahead, pre machine → pre { machine with ahead })
    (fails : ∀ error machine, pre machine → throws error machine)
    (acts : ∀ outcome machine, pre machine →
      ending returns throws (act outcome machine).1 (act outcome machine).2) :
    (attempt act).Ends pre (ending returns throws) := by
  refine perform_ends quiet (fails _) ?_
  intro outcome machine holds
  cases outcome.error with
  | some error => exact fails _ machine holds
  | none => exact acts outcome machine holds

end Operations

section Files

variable {machine : Computer} {path target : Path}

theorem files_setFile (value : Option FileNode) : (setFile path value machine).files path = value :=
  Function.update_self _ _ _

theorem files_setFile_of_ne (different : target ≠ path) (value : Option FileNode) :
    (setFile path value machine).files target = machine.files target :=
  Function.update_of_ne different _ _

end Files

end Updating

end AmberBackup
