import Notary.Core.Archive
import Notary.Lib.Crash
import Notary.Lib.Search

/-! The rollback-safe installation transaction for the notaryctl/notaryd pair. -/

namespace Notary.Updater
open Notary.Core (Crates toVec fromSliceRaw)
open Utf8 (Bytes)
open Json Crash

/-- The files of an installation and of one update. -/
inductive FileName
  | cli | daemon
  | cliBackup | daemonBackup
  | cliRestore | daemonRestore
  | journal | journalPartial
  | cliCandidate | daemonCandidate
  deriving DecidableEq

abbrev Disk := FileName → Option Bytes

inductive JournalPhase
  | prepared | replacingNotaryd | notarydReplaced | replacingNotaryctl | notaryctlReplaced
  deriving DecidableEq

def JournalPhase.text : JournalPhase → String
  | prepared => "prepared"
  | replacingNotaryd => "replacing_notaryd"
  | notarydReplaced => "notaryd_replaced"
  | replacingNotaryctl => "replacing_notaryctl"
  | notaryctlReplaced => "notaryctl_replaced"

def JournalPhase.ofText (s : String) : Option JournalPhase :=
  [prepared, replacingNotaryd, notarydReplaced, replacingNotaryctl, notaryctlReplaced].find?
    (·.text = s)

structure UpdateJournal where
  schemaVersion : String
  buildId : String
  phase : JournalPhase
  deriving DecidableEq

def UpdateJournal.toJson (c : Crates) (j : UpdateJournal) : c.Json :=
  .object [("schema_version", .string j.schemaVersion), ("build_id", .string j.buildId),
    ("phase", .string j.phase.text)]

def UpdateJournal.ofJson (c : Crates) (v : c.Json) : Option UpdateJournal := do
  match ← structFields ["schema_version", "build_id", "phase"] true v with
  | [schemaVersion, buildId, phase] =>
    some ⟨← schemaVersion.asStr, ← buildId.asStr, ← JournalPhase.ofText (← phase.asStr)⟩
  | _ => none

def journalSchema : String := "notary/update-journal/v1"

/-- What the transaction relies on: the libraries, the digest of a file, and whether a program
reports a build when it is asked for its version. -/
structure Tools where
  crates : Crates
  Digest : Type
  decDigest : DecidableEq Digest
  fileSha256 : Bytes → Digest
  reports : Bytes → String → Bool

attribute [instance] Tools.decDigest

/-- What happens at one step: it fails, or the process is killed at it. A write that ends early
leaves a first part of its bytes. -/
inductive Fault
  | pass
  | error (written : ℕ)
  | kill (written : ℕ)
  deriving DecidableEq

abbrev Action := Prog Fault Disk String

/-! The steps. -/

def interrupted : String := "input/output error"

/-- A step that only looks at the disk. -/
def look {α : Type} (f : Disk → Except String α) : Action α := Prog.step fun fault disk =>
  match fault with
  | some (.error _) => (.failed interrupted, disk)
  | some (.kill _) => (.killed, disk)
  | _ =>
    match f disk with
    | .ok a => (.done a, disk)
    | .error e => (.failed e, disk)

/-- A step that replaces the disk at once. An error may be reported after the change. -/
def change (f : Disk → Except String Disk) : Action Unit := Prog.step fun fault disk =>
  match f disk with
  | .error e => (.failed e, disk)
  | .ok disk' =>
    match fault with
    | some (.error written) => (.failed interrupted, if written = 0 then disk else disk')
    | some (.kill written) => (.killed, if written = 0 then disk else disk')
    | _ => (.done (), disk')

/-- A write of whole contents; one that ends early leaves a first part of them. -/
def writeContents (file : FileName) (contents : Disk → Except String Bytes) : Action Unit :=
  Prog.step fun fault disk =>
    match contents disk with
    | .error e => (.failed e, disk)
    | .ok data =>
      match fault with
      | some (.error written) =>
        (.failed interrupted, Function.update disk file (some (data.take written)))
      | some (.kill written) => (.killed, Function.update disk file (some (data.take written)))
      | _ => (.done (), Function.update disk file (some data))

def contentsOf (file : FileName) (disk : Disk) : Except String Bytes :=
  match disk file with
  | some data => .ok data
  | none => .error "no such file"

def inspect (file : FileName) : Action Bytes := look (contentsOf file)

def pathIsAbsent (file : FileName) : Action Bool := look fun disk => .ok (disk file).isNone

/-- `Path::is_file`, which takes an error for an answer. -/
def isFile (file : FileName) : Action Bool := Prog.step fun fault disk =>
  match fault with
  | some (.error _) => (.done false, disk)
  | some (.kill _) => (.killed, disk)
  | _ => (.done (disk file).isSome, disk)

/-- `sync_all` and `sync_directory`. -/
def sync : Action Unit := look fun _ => .ok ()

def hardLink (source target : FileName) : Action Unit := change fun disk =>
  match disk source, disk target with
  | some data, none => .ok (Function.update disk target (some data))
  | _, _ => .error "cannot link"

def createNew (file : FileName) : Action Unit := change fun disk =>
  match disk file with
  | none => .ok (Function.update disk file (some []))
  | some _ => .error "file exists"

def copyContents (source target : FileName) : Action Unit :=
  writeContents target (contentsOf source)

def replaceFile (source target : FileName) : Action Unit := change fun disk =>
  match disk source with
  | some data => .ok (Function.update (Function.update disk target (some data)) source none)
  | none => .error "no such file"

def removeIfExists (file : FileName) : Action Unit := change fun disk =>
  .ok (Function.update disk file none)

section

variable (tools : Tools)

/-- `--version` may fail for other reasons than the build. -/
def ensureCandidateBuild (file : FileName) (buildId : String) : Action Unit := do
  let program ← inspect file
  Prog.ensure (tools.reports program buildId = true)
    "the staged build ID does not match the signed release"

/-! The transaction. -/

/-- The pending file with its contents on disk. -/
def writePending (pending : FileName) (contents : Bytes) : Action Unit := do
  sync
  writeContents pending fun _ => .ok contents
  sync

/-- The pending file is removed when it goes out of scope. -/
def writePrivateFileAtomically (file partialFile : FileName) (contents : Bytes) :
    Action Unit := do
  let written ← Prog.attempt do
    writePending partialFile contents
    replaceFile partialFile file
  let _ ← (removeIfExists partialFile).attempt
  Prog.ofExcept written

def UpdateJournal.bytes (j : UpdateJournal) : Bytes := toVec (j.toJson tools.crates)

def writeJournal (buildId : String) (phase : JournalPhase) : Action Unit := do
  writePrivateFileAtomically .journal .journalPartial
    ((⟨journalSchema, buildId, phase⟩ : UpdateJournal).bytes tools)
  sync

/-- The copy that stands in for a hard link. -/
def copyBackup (source backup : FileName) : Except String Unit → Action Unit
  | .ok () => pure ()
  | .error _ => do
    let _ ← inspect source
    createNew backup
    copyContents source backup
    sync

def hardLinkBackup (source backup : FileName) : Action Unit := do
  let absent ← pathIsAbsent backup
  Prog.ensure (absent = true) "the rollback path already exists"
  let linked ← (hardLink source backup).attempt
  copyBackup source backup linked
  sync

def bothReport (buildId : String) : Action Bool := do
  let cli ← (ensureCandidateBuild tools .cli buildId).attempt
  match cli with
  | .error _ => pure false
  | .ok () => do
    let daemon ← (ensureCandidateBuild tools .daemon buildId).attempt
    pure daemon.toBool

def filesMatch (left right : FileName) : Action Bool := do
  let l ← inspect left
  let r ← inspect right
  if l.length ≠ r.length then
    pure false
  else do
    let l ← inspect left
    let r ← inspect right
    pure (tools.fileSha256 l = tools.fileSha256 r)

/-- The target is a file with the contents of the rollback copy. -/
def alreadyRestored (backup target : FileName) : Action Bool := do
  let present ← isFile target
  if present then filesMatch tools backup target else pure false

def restoreBackup (backup target pending : FileName) : Action Unit := do
  let _ ← inspect backup
  let restored ← alreadyRestored tools backup target
  if restored then
    pure ()
  else do
    removeIfExists pending
    copyContents backup pending
    let _ ← inspect pending
    sync
    replaceFile pending target

def finishTransaction : Action Unit := do
  removeIfExists .cliBackup
  removeIfExists .daemonBackup
  removeIfExists .journal
  sync

def allAbsent : List FileName → Action Bool
  | [] => pure true
  | file :: files => do
    let absent ← pathIsAbsent file
    if absent then allAbsent files else pure false

def restorePair : Action Unit := do
  restoreBackup tools .cliBackup .cli .cliRestore
  restoreBackup tools .daemonBackup .daemon .daemonRestore

def recoverPhase (journal : UpdateJournal) : Action Unit :=
  match journal.phase with
  | .prepared => finishTransaction
  | .replacingNotaryd | .notarydReplaced => do
    restoreBackup tools .daemonBackup .daemon .daemonRestore
    finishTransaction
  | .replacingNotaryctl => do
    restorePair tools
    finishTransaction
  | .notaryctlReplaced => do
    let valid ← bothReport tools journal.buildId
    if valid then
      finishTransaction
    else do
      restorePair tools
      finishTransaction

/-- `validate_identifier`. -/
def validIdentifier (value : String) : Bool :=
  let cs := Utf8.chars value
  !cs.isEmpty && cs.head? ≠ some '.' && !Search.occurs ['.', '.'] cs &&
    cs.all fun ch => ch.isAlphanum || ch = '.' || ch = '_' || ch = '-'

def readJournal (data : Bytes) : Except String UpdateJournal :=
  match (fromSliceRaw tools.crates data).bind (UpdateJournal.ofJson tools.crates) with
  | some journal => .ok journal
  | none => .error "the update journal is malformed"

def recoverInterruptedUpdate : Action Unit := do
  let absent ← pathIsAbsent .journal
  if absent then do
    let clean ← allAbsent [.cliBackup, .daemonBackup]
    Prog.ensure (clean = true) "orphaned update rollback files require manual inspection"
  else do
    let data ← inspect .journal
    let journal ← Prog.ofExcept (readJournal tools data)
    Prog.ensure (journal.schemaVersion = journalSchema) "the update journal schema is unsupported"
    Prog.ensure (validIdentifier journal.buildId = true) "the journal build ID is invalid"
    recoverPhase tools journal

def replaceInstalledPair (buildId : String) : Action Unit := do
  hardLinkBackup .daemon .daemonBackup
  writeJournal tools buildId .replacingNotaryd
  replaceFile .daemonCandidate .daemon
  sync
  writeJournal tools buildId .notarydReplaced
  hardLinkBackup .cli .cliBackup
  writeJournal tools buildId .replacingNotaryctl
  replaceFile .cliCandidate .cli
  sync
  writeJournal tools buildId .notaryctlReplaced
  ensureCandidateBuild tools .cli buildId
  ensureCandidateBuild tools .daemon buildId

/-- The end of the transaction: a replacement that failed is recovered before its error is
reported. -/
def settleUpdate : Except String Unit → Action Unit
  | .ok () => finishTransaction
  | .error _ => do
    let recovered ← (recoverInterruptedUpdate tools).attempt
    match recovered with
    | .ok () => Prog.fail "the update failed and the previous pair was restored"
    | .error _ => Prog.fail "the update failed and recovery also failed"

def applyUpdateTransaction (buildId : String) : Action Unit := do
  let clean ← allAbsent [.cliBackup, .daemonBackup, .journal]
  Prog.ensure (clean = true) "a previous update has not been recovered"
  writeJournal tools buildId .prepared
  let replaced ← (replaceInstalledPair tools buildId).attempt
  settleUpdate tools replaced

end

end Notary.Updater
