import Osdns.Framework.Loops
import Osdns.Journal.Payloads
import Osdns.Platform.ResolvConf

/-!
# Reading and writing the resolver file

`DirectResolvConf` of `platform/unix/direct.rs` with the policy of `platform/linux/direct.rs`, as
programs over the calls on files.  Between any two calls other programs may write the file, replace
it or remove it.  What they write changes the change time of the file, and a file that was replaced
has no link left: programs replace the file by a rename and do not keep the old one.
-/

namespace Osdns

open Interaction
open Interaction.Fallible (ask value known)
open Journal (SnapshotData IdentityData)

namespace Direct

/-! ## Files -/

/-- What `fstat` tells of a file, apart from its links, and its bytes. -/
structure File where
  content : List UInt8
  regular : Bool
  mode : UInt32
  owner : FileOwner
  modified : FileTime
  /-- The change time. -/
  changed : Nat

/-- The files that were ever opened or named, and the one that is named `resolv.conf`. -/
structure Disk where
  files : Nat → File
  name : Option Nat
  /-- What the name stood for, newest first. -/
  history : List (Option File)
  current : history.head? = some (name.map files)
  /-- What this program has put there: a content, or nothing. -/
  published : List (Option (List UInt8))

/-- `std::fs::Metadata`. -/
structure Stat where
  regular : Bool
  mode : UInt32
  owner : FileOwner
  links : UInt64
  length : Nat
  modified : FileTime
  changed : Nat

def Disk.stat (s : Disk) (file : Nat) : Stat where
  regular := (s.files file).regular
  mode := (s.files file).mode
  owner := (s.files file).owner
  links := if s.name = some file then 1 else 0
  length := (s.files file).content.length
  modified := (s.files file).modified
  changed := (s.files file).changed

/-! ## Calls -/

/-- The errors of this backend that no other one has, and the others. -/
inductive FileError
  | unsafeFilesystem (message : String)
  | resourcePlatform (backend : BackendKind) (resource : ResourceId) (message : String)
  | other (error : Error)

/-- `Error::is_external_modification`. -/
def FileError.isExternalModification : FileError → Bool
  | .other error => error.isExternalModification
  | _ => false

/-- Why a file is not opened. -/
inductive OpenFault
  | notFound
  | failed (message : String)

/-- Why extended attributes are not listed. -/
inductive AttributeFault
  | notSupported
  | failed (message : String)

inductive FileOp
  /-- `check_usable`. -/
  | checkUsable
  | openFile
  | stat (file : Nat)
  /-- `read`: at most so many bytes from an offset. -/
  | read (file : Nat) (offset limit : Nat)
  /-- `flistxattr`. -/
  | listAttributes (file : Nat)
  /-- `atomic_write_file::OpenOptions::open`. -/
  | openTemporary
  | temporaryAttributes
  | writeAll (content : List UInt8)
  | setPermissions (mode : UInt32)
  | syncAll
  | commit (content : List UInt8)
  | removeFile
  | syncDirectory

abbrev FileRet : FileOp → Type
  | .checkUsable => Except FileError Unit
  | .openFile => Except OpenFault Nat
  | .stat _ => Except String Stat
  | .read _ _ _ => Except String (List UInt8)
  | .listAttributes _ => Except AttributeFault Nat
  | .openTemporary => Except String Unit
  | .temporaryAttributes => Except AttributeFault Nat
  | .writeAll _ => Except String Unit
  | .setPermissions _ => Except String Unit
  | .syncAll => Except String Unit
  | .commit _ => Except String Unit
  | .removeFile => Except OpenFault Unit
  | .syncDirectory => Except String Unit

abbrev FileProgram : Type → Type := Fallible FileError FileRet

def ioError (message : String) : FileError := .other (.io message)

/-- A call whose failure is an I/O error. -/
def io {α : Type} (p : Program FileRet (Except String α)) : FileProgram α :=
  ask (p.bind fun result => .done (result.mapError ioError))

/-! ## Reading -/

/-- The storage budget. -/
def budget : Nat := 16 * 1024 * 1024

/-- `LinuxDirectPolicy::metadata`. -/
def metadata (file : Nat) : FileProgram DirectFileMetadata := do
  let metadata ← io (.call (.stat file) .done)
  if ¬ metadata.regular ∨ metadata.links ≠ 1 then
    throw (.unsafeFilesystem "resolver configuration must be a single-link regular file")
  return {
    mode := metadata.mode
    owner := some metadata.owner
    flags := none
    links := some metadata.links
    modified := none }

/-- `take(limit).read_to_end`. -/
def readToEnd (file limit : Nat) : Nat → List UInt8 → FileProgram (List UInt8)
  | 0, content => return content
  | rounds + 1, content => do
      let bytes ← io (.call (.read file content.length (limit - content.length)) .done)
      if bytes.isEmpty then return content
      else readToEnd file limit rounds (content ++ bytes)

section Programs

variable (resource : ResourceId)

/-- The file is as it was when it was first looked at. -/
def confirmUnchanged (file : Nat) (before : Stat) (first : DirectFileMetadata) :
    FileProgram Unit := do
  let after ← io (.call (.stat file) .done)
  if before.length ≠ after.length ∨ before.modified ≠ after.modified ∨
      before.changed ≠ after.changed then
    throw (.resourcePlatform .resolvConfFile resource
      "resolver configuration changed during capture")
  let second ← metadata file
  if first ≠ second then
    throw (.resourcePlatform .resolvConfFile resource
      "resolver configuration changed during capture")

/-- The capture of the file that was opened. -/
def readOpened (file : Nat) : FileProgram DirectSnapshot := do
  let before ← io (.call (.stat file) .done)
  if ¬ before.regular then
    throw (.unsafeFilesystem "resolver configuration is not a regular file")
  let first ← metadata file
  let content ← readToEnd file (budget + 1) (budget + 1) []
  if budget < content.length then
    throw (.other (.unsupported .resolvConfFile
      "resolver configuration exceeds the storage budget"))
  confirmUnchanged resource file before first
  return ⟨some content, some first⟩

/-- `read_current`. -/
def readCurrent : FileProgram DirectSnapshot := do
  ask (.call .checkUsable .done)
  match ← value (.call .openFile .done) with
  | .error .notFound => return ⟨none, none⟩
  | .error (.failed message) => throw (ioError message)
  | .ok file => readOpened resource file

/-- `verify_expected`. -/
def verifyExpected (expected : DirectSnapshot) : FileProgram Unit := do
  let current ← readCurrent resource
  if current ≠ expected then
    throw (.other (.externalModification resource "resolv.conf changed before publication"))

/-! ## Writing -/

/-- `reject_extended_attributes`. -/
def rejectExtendedAttributes (p : Program FileRet (Except AttributeFault Nat)) :
    FileProgram Unit := do
  match ← value p with
  | .ok 0 => return
  | .error .notSupported => return
  | .ok _ => throw (.other (.unsupported .resolvConfFile
      "the atomic writer cannot preserve resolver extended attributes or ACLs"))
  | .error (.failed message) => throw (ioError message)

/-- The file that is to be replaced has nothing that would be lost. -/
def checkReplaced : FileProgram Unit := do
  match ← value (.call .openFile .done) with
  | .ok file => rejectExtendedAttributes (.call (.listAttributes file) .done)
  | .error .notFound => return
  | .error (.failed message) => throw (ioError message)

/-- The mode of the captured file, if there was one. -/
def setMode : Option DirectFileMetadata → FileProgram Unit
  | some metadata => io (.call (.setPermissions metadata.mode) .done)
  | none => pure ()

/-- `LinuxDirectPolicy::write`. -/
def write (content : List UInt8) (metadata : Option DirectFileMetadata)
    (verifyExpected : FileProgram Unit) : FileProgram Unit := do
  checkReplaced
  io (.call .openTemporary .done)
  rejectExtendedAttributes (.call .temporaryAttributes .done)
  io (.call (.writeAll content) .done)
  setMode metadata
  io (.call .syncAll .done)
  verifyExpected
  io (.call (.commit content) .done)

/-- `write_content`. -/
def writeContent (content : List UInt8) (snapshot expected : DirectSnapshot) :
    FileProgram Unit := do
  ask (.call .checkUsable .done)
  write content snapshot.metadata (verifyExpected resource expected)

/-- `LinuxDirectPolicy::mutation_metadata_preserved`. -/
def mutationMetadataPreserved (before after : Option DirectFileMetadata) : Bool :=
  before.all fun before => after.any fun after => decide (before = after)

/-- `apply_snapshot`. -/
def applySnapshot (current : DirectSnapshot) (plan : NormalizedConfig) : FileProgram Unit := do
  let desired := ResolvConf.buildResolvConfContent plan
  writeContent resource desired current current
  let observed ← readCurrent resource
  if observed.content ≠ some desired ∨
      mutationMetadataPreserved current.metadata observed.metadata = false then
    throw (.resourcePlatform .resolvConfFile resource
      (if observed.content = some desired then
        "resolv.conf metadata changed before write verification completed"
      else "resolv.conf changed before write verification completed"))

/-- `remove_current`. -/
def removeCurrent : FileProgram Unit := do
  ask (.call .checkUsable .done)
  match ← value (.call .removeFile .done) with
  | .ok _ => io (.call .syncDirectory .done)
  | .error .notFound => return
  | .error (.failed message) => throw (ioError message)

/-- `from_platform`. -/
def fromPlatform (snapshot : PlatformSnapshot SnapshotData) : Except FileError DirectSnapshot :=
  match snapshot.data with
  | .resolvConfFile data => do
      data.validate.mapError .other
      return data
  | _ => .error (.other (.journalCorrupt "resolv.conf snapshot has the wrong backend data"))

/-- `resource_status`. -/
def resourceStatus (identity : ResourceIdentity IdentityData) : Except FileError ResourceStatus :=
  match identity.data with
  | .untracked =>
      if identity.backend = .resolvConfFile ∧ identity.resource = resource then .ok .same
      else .error (.other (.journalCorrupt
        "resolver identity does not name this backend's file resource"))
  | _ => .error (.other (.journalCorrupt
      "resolver identity does not name this backend's file resource"))

/-- `MutationAttempt`, of which this backend produces no proof. -/
inductive FileAttempt
  | performed
  | rejected (error : FileError)
  | indeterminate (error : FileError)

/-- `MutationAttempt::from_apply_result`. -/
def FileAttempt.fromApplyResult : Except FileError Unit → FileAttempt
  | .ok _ => .performed
  | .error error => if error.isExternalModification then .rejected error else .indeterminate error

/-- The snapshot is one of this resource. -/
def targets (snapshot : PlatformSnapshot SnapshotData) : Except FileError Unit :=
  if snapshot.resource = resource ∧ snapshot.backend = .resolvConfFile then .ok ()
  else .error (.other (.journalCorrupt "resolver snapshot targets a different resource"))

/-- `apply_bound`. -/
def applyBound (identity : ResourceIdentity IdentityData) (expected : PlatformSnapshot SnapshotData)
    (plan : NormalizedConfig) : Program FileRet FileAttempt :=
  let preparation : FileProgram DirectSnapshot := do
    let _ ← known (resourceStatus resource identity)
    known (targets resource expected)
    let expected ← known (fromPlatform expected)
    verifyExpected resource expected
    return expected
  preparation.run.bind fun prepared =>
    match prepared with
    | .ok expected =>
        (applySnapshot resource expected plan).run.bind fun result =>
          .done (.fromApplyResult result)
    | .error error => .done (.rejected error)

/-- What a restore does, from the target and the expected state. -/
def restoreContent (target expected : DirectSnapshot) : FileProgram Unit :=
  match target.content with
  | some content => writeContent resource content target expected
  | none => do
      verifyExpected resource expected
      removeCurrent

/-- The outcome of a restore. -/
def FileAttempt.fromRestoreResult : Except FileError Unit → FileAttempt
  | .ok _ => .performed
  | .error error => .indeterminate error

/-- `restore_bound`. -/
def restoreBound (identity : ResourceIdentity IdentityData)
    (expected target : PlatformSnapshot SnapshotData) : Program FileRet FileAttempt :=
  let preparation : FileProgram (DirectSnapshot × DirectSnapshot) := do
    let _ ← known (resourceStatus resource identity)
    known (targets resource expected)
    known (targets resource target)
    let expected ← known (fromPlatform expected)
    let target ← known (fromPlatform target)
    verifyExpected resource expected
    return (expected, target)
  preparation.run.bind fun prepared =>
    match prepared with
    | .ok (expected, target) =>
        (restoreContent resource target expected).run.bind fun result =>
          .done (.fromRestoreResult result)
    | .error error => .done (.rejected error)

end Programs

/-! ## What the calls do -/

/-- What other programs may do between two calls. -/
structure Disk.Later (s t : Disk) : Prop where
  changed : ∀ file, (s.files file).changed ≤ (t.files file).changed
  same : ∀ file, (t.files file).changed = (s.files file).changed → t.files file = s.files file
  history : s.history <:+ t.history
  published : t.published = s.published

/-- What this program puts under the name. -/
structure Disk.Publishes (s t : Disk) (content : Option (List UInt8)) : Prop where
  changed : ∀ file, (s.files file).changed ≤ (t.files file).changed
  same : ∀ file, (t.files file).changed = (s.files file).changed → t.files file = s.files file
  history : t.history = t.name.map t.files :: s.history
  put : (t.name.map t.files).map File.content = content
  published : t.published = content :: s.published

/-- The answers of the file system. -/
def fileCalls : Handler FileRet Disk
  | .checkUsable, s, r, t => t = s ∧ ∀ e, r = .error e → e.isExternalModification = false
  | .openFile, s, r, t => t = s ∧
      (∀ file, r = .ok file → s.name = some file) ∧ (r = .error .notFound → s.name = none)
  | .stat file, s, r, t => t = s ∧ ∀ stat, r = .ok stat → stat = s.stat file
  | .read file offset limit, s, r, t => t = s ∧ ∀ bytes, r = .ok bytes →
      bytes <+: ((s.files file).content.drop offset).take limit ∧
      (bytes = [] → ((s.files file).content.drop offset).take limit = [])
  | .commit content, s, r, t => s.Publishes t (some content) ∨ (∃ e, r = .error e) ∧ t = s
  | .removeFile, s, r, t => (s.Publishes t none ∧ r ≠ .error .notFound) ∨
      (∃ e, r = .error e ∧ (e = .notFound → s.name = none)) ∧ t = s
  | _, s, _, t => t = s

/-- Other programs. -/
def others : Rely Disk where
  rel := Disk.Later
  refl _ := ⟨fun _ => le_rfl, fun _ _ => rfl, List.suffix_rfl, rfl⟩
  trans {s t u} h h' := by
    refine ⟨fun file => (h.changed file).trans (h'.changed file), fun file heq => ?_,
      h.history.trans h'.history, h'.published.trans h.published⟩
    have hst : (t.files file).changed = (s.files file).changed :=
      le_antisymm (heq ▸ h'.changed file) (h.changed file)
    exact (h'.same file (heq.trans hst.symm)).trans (h.same file hst)

end Direct

end Osdns
