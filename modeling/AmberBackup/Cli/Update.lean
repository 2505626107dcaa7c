import AmberBackup.Cli.Config
import AmberBackup.Common.UpdateMachine
import AmberBackup.Common.Versions

/-! # Self-update of the command line

`ambb update` looks up the latest release, downloads the archive for the platform and the release's
checksums, stages the binary of the archive beside the executable, runs it and moves it over the
executable.
-/

namespace AmberBackup

namespace Cli

open NetUrl (Url HostRules bytesOf)
open Utf8 (Bytes toLower)
open GoAgent (isSpace trimSpace)
open Updating

/-! ## Downloads -/

structure GhAsset where
  name : String
  url : String
  deriving DecidableEq, Repr

structure GhRelease where
  tagName : String
  assets : List GhAsset
  deriving DecidableEq, Repr

structure ArchiveEntry where
  name : String
  regular : Bool
  /-- `none` if reading the entry fails. -/
  content : Option Bytes
  deriving DecidableEq, Repr

/-- What the update uses of Go's libraries. -/
structure Toolchain where
  rules : HostRules
  lower : Char → Char
  sha256 : Bytes → Bytes
  decodeRelease : Bytes → Option GhRelease
  openZip : Bytes → Option (List ArchiveEntry)
  /-- The entries of a compressed tar file up to its end or to what is broken, `true` for the end. -/
  readTar : Bytes → Option (List ArchiveEntry × Bool)

def maxReleaseJSON : Nat := 2 ^ 20
def maxChecksums : Nat := 64 * 2 ^ 10
def maxArchive : Nat := 100 * 2 ^ 20
def maxBinary : Nat := 100 * 2 ^ 20

def latestReleaseURL : String :=
  "https://api.github.com/repos/amber-backup/amber-backup/releases/latest"

/-- GitHub itself and its asset CDN, HTTPS only. -/
def allowedDownloadHost (lower : Char → Char) (url : Url) : Bool :=
  let host := toLower lower url.hostname
  url.scheme = bytesOf "https" &&
    (host = bytesOf "github.com" || host = bytesOf "api.github.com" ||
      host = bytesOf "githubusercontent.com" || (bytesOf ".githubusercontent.com").isSuffixOf host)

def request (url : Url) : Update Unit :=
  .write fun machine => { machine with requests := machine.requests ++ [url] }

/-- Follows redirects after `via` requests. -/
def follow (lower : Char → Char) (via : Nat) : List Url → Update Unit
  | [] => pure ()
  | hop :: rest =>
      if 10 ≤ via then .raise .tooManyRedirects
      else if !allowedDownloadHost lower hop then .raise (.refusedRedirect hop)
      else do
        request hop
        follow lower (via + 1) rest

def record (url : String) (body : Bytes) : Update Unit :=
  .write fun machine => { machine with fetched := machine.fetched ++ [(url, body)] }

/-- The body of a reply, at most `limit` bytes of it. -/
def readBody (rawURL : String) (limit : Nat) (reply : Reply) : Except UpdateError Bytes :=
  if reply.status = 404 then .error (.notFound rawURL)
  else if reply.status ≠ 200 then .error (.status rawURL reply.status)
  else if reply.cutShort then .error (.unreadable rawURL)
  else if limit < reply.body.length then .error (.tooLarge rawURL limit)
  else .ok reply.body

def fetchLimited (tools : Toolchain) (rawURL : String) (limit : Nat) : Update Bytes :=
  match Url.parse tools.rules (Utf8.encode rawURL.toList) with
  | .error _ => .raise (.refusedDownload rawURL)
  | .ok url =>
      if !allowedDownloadHost tools.lower url then .raise (.refusedDownload rawURL)
      else do
        request url
        let reply ← await
        follow tools.lower 1 reply.hops
        let body ← .lift fun _ => readBody rawURL limit reply
        record rawURL body
        return body

def assetName (version goos goarch : String) : String :=
  "ambb_" ++ version ++ "_" ++ goos ++ "_" ++ goarch ++
    (if goos = "windows" then ".zip" else ".tar.gz")

def binaryName (goos : String) : String := if goos = "windows" then "ambb.exe" else "ambb"

/-- `strings.Fields`. -/
def fields (line : List Char) : List (List Char) :=
  (line.splitOnP isSpace).filter fun field => field ≠ []

def isHexDigit (char : Char) : Bool :=
  char.isDigit || ('a' ≤ char && char ≤ 'f')

/-- The checksum a line of the listing gives for the name. -/
def checksumOf (name : String) (line : List Char) : Option (List Char) :=
  match fields line with
  | [sum, file] =>
      let file := if file.head? = some '*' then file.tail else file
      if file = name.toList then some (sum.map Char.toLower) else none
  | _ => none

/-- The SHA-256 for a name in a `sha256sum` listing. -/
def lookupChecksum (listing : Bytes) (name : String) : Except UpdateError (List Char) :=
  match ((Utf8.runes listing).splitOn '\n').findSome? (checksumOf name) with
  | none => .error (.noChecksum name)
  | some sum =>
      if sum.length = 64 && sum.all isHexDigit then .ok sum else .error (.malformedChecksum name)

def hexDigits (byte : UInt8) : List Char :=
  [Nat.digitChar (byte.toNat / 16), Nat.digitChar (byte.toNat % 16)]

/-- `hex.EncodeToString`. -/
def hexText (bytes : Bytes) : List Char := bytes.flatMap hexDigits

/-- What is read of the entry that is looked for. -/
def readEntry (want : String) (entry : ArchiveEntry) : Except UpdateError Bytes :=
  match entry.content with
  | none => .error .brokenArchive
  | some content => if maxBinary < content.length then .error (.binaryTooLarge want) else .ok content

/-- The file `want` of an archive; no other entry is looked at. -/
def extractBinary (tools : Toolchain) (archive : Bytes) (zip : Bool) (want : String) :
    Except UpdateError Bytes :=
  let wanted := fun (entry : ArchiveEntry) => entry.name = want && entry.regular
  if zip then
    match tools.openZip archive with
    | none => .error .brokenArchive
    | some entries =>
        match entries.find? wanted with
        | none => .error (.notInArchive want)
        | some entry => readEntry want entry
  else
    match tools.readTar archive with
    | none => .error .brokenArchive
    | some (entries, ended) =>
        match entries.find? wanted with
        | none => .error (if ended then .notInArchive want else .brokenArchive)
        | some entry => readEntry want entry

/-- A later asset of the same name replaces an earlier one. -/
def findAsset (release : GhRelease) (name : String) : Option GhAsset :=
  release.assets.reverse.find? fun asset => asset.name = name

def readRelease (tools : Toolchain) (body : Bytes) : Except UpdateError (String × GhRelease) :=
  match tools.decodeRelease body with
  | none => .error .undecodable
  | some release =>
      match releaseVersion? release.tagName with
      | none => .error (.unexpectedTag release.tagName)
      | some version => .ok (version, release)

def fetchLatestRelease (tools : Toolchain) : Update (String × GhRelease) := do
  let body ← Procedure.mapError (fun
    | .notFound _ => .noRelease
    | other => other) (fetchLimited tools latestReleaseURL maxReleaseJSON)
  .lift fun _ => readRelease tools body

/-- The assets for the platform: the archive and the checksums. -/
def pickAssets (release : GhRelease) (name : String) : Except UpdateError (GhAsset × GhAsset) :=
  match findAsset release name, findAsset release "checksums.txt" with
  | none, _ => .error (.noBuild release.tagName name)
  | some _, none => .error (.noChecksums release.tagName)
  | some archive, some checksums => .ok (archive, checksums)

/-- The binary of an archive with the checksum that is asked for. -/
def verifiedBinary (tools : Toolchain) (version goos goarch : String) (wantSum : List Char)
    (archive : Bytes) : Except UpdateError Bytes :=
  let name := assetName version goos goarch
  if hexText (tools.sha256 archive) ≠ wantSum then .error (.checksumMismatch name)
  else
    extractBinary tools archive (goos = "windows")
      ("ambb_" ++ version ++ "_" ++ goos ++ "_" ++ goarch ++ "/" ++ binaryName goos)

def downloadBinary (tools : Toolchain) (release : GhRelease) (version goos goarch : String) :
    Update Bytes := do
  let name := assetName version goos goarch
  let (archiveAsset, checksumAsset) ← .lift fun _ => pickAssets release name
  let sums ← fetchLimited tools checksumAsset.url maxChecksums
  let wantSum ← .lift fun _ => lookupChecksum sums name
  let archive ← fetchLimited tools archiveAsset.url maxArchive
  .lift fun _ => verifiedBinary tools version goos goarch wantSum archive

/-! ## Installing -/

def stagePrefix : String := ".ambb-update-"

/-- `os.CreateTemp` under a name that is not taken. -/
def createTemp (dir : String) : Update Path :=
  attempt fun outcome machine =>
    let path : Path := ⟨dir, stagePrefix ++ outcome.suffix⟩
    match machine.files path with
    | some _ => (.error (.system { message := "file exists" }), machine)
    | none => (.ok path, setFile path (some ⟨[], 0o600⟩) machine)

/-- `_ = os.Rename(source, target)`. -/
def renameQuietly (source target : Path) : Update Unit :=
  perform fun outcome machine =>
    match outcome.error, machine.files source with
    | none, some node => (.ok (), setFile target (some node) (setFile source none machine))
    | _, _ => (.ok (), machine)

def oldPath (path : Path) : Path := { path with name := path.name ++ ".old" }

def exePath (path : Path) : Path := { path with name := path.name ++ ".exe" }

/-- A running executable cannot be overwritten on Windows but can be renamed, so it is moved aside
first. -/
def replaceExecutable (windows : Bool) (source target : Path) : Update Unit :=
  if !windows then rename source target
  else do
    removeQuietly (oldPath target)
    rename target (oldPath target)
    Procedure.onFailure isInterrupted (renameQuietly (oldPath target) target) (rename source target)
    removeQuietly (oldPath target)

/-- What the command is run for and with. -/
structure Installation where
  goos : String
  goarch : String
  /-- The version of the running binary. -/
  current : String
  /-- The running executable. -/
  exe : Path

def Installation.windows (install : Installation) : Bool := install.goos = "windows"

/-- Runs the staged binary and moves it over the executable. -/
def checkAndReplace (install : Installation) (latest : String) (staged : Path) : Update Unit := do
  let (succeeded, out) ← runBinary staged
  let got := trimSpace out
  if !succeeded || got ≠ "ambb " ++ latest then .raise (.versionCheck got ("ambb " ++ latest))
  else replaceExecutable install.windows staged install.exe

/-- Stages the binary in a file of its own. -/
def fillStaged (staged : Path) (binary : Bytes) (mode : Nat) : Update Unit := do
  let writeErr ← write staged binary
  let closeErr ← close
  throwing writeErr
  throwing closeErr
  chmod staged (mode &&& 0o777 ||| 0o100)

/-- Stages next to the executable so that the final rename stays on one file system. -/
def installBinary (install : Installation) (latest : String) (binary : Bytes) (mode : Nat) :
    Update Unit := do
  let staged ← createTemp install.exe.dir
  Procedure.deferring isInterrupted (removeQuietly staged) do
    fillStaged staged binary mode
    if install.windows then do
      -- Windows only runs files with an executable extension.
      rename staged (exePath staged)
      Procedure.deferring isInterrupted (removeQuietly (exePath staged))
        (checkAndReplace install latest (exePath staged))
    else checkAndReplace install latest staged

inductive Report where
  | upToDate
  | available (latest : String)
  | updated (latest : String)
  deriving DecidableEq, Repr

/-- Whether the release is to be installed, or what is reported instead. -/
def updateDecision (flags : CommandFlags) (current latest : String) : Except UpdateError (Option Report) :=
  let isDev := (releaseVersion? ("v" ++ current)).isNone
  if flags.check then
    .ok (some (if !isDev && !versionGreater latest current then .upToDate else .available latest))
  else if isDev && !flags.force then .error (.developmentBuild current latest)
  else if !isDev && !versionGreater latest current && !flags.force then .ok (some .upToDate)
  else .ok none

/-- `ambb update [--check] [--force]`. -/
def runUpdate (tools : Toolchain) (install : Installation) (flags : CommandFlags) :
    Update Report := do
  let (latest, release) ← fetchLatestRelease tools
  let report ← .lift fun _ => updateDecision flags install.current latest
  match report with
  | some report => return report
  | none => do
      let info ← stat install.exe
      let binary ← downloadBinary tools release latest install.goos install.goarch
      installBinary install latest binary info.mode
      return .updated latest

end Cli

end AmberBackup
