import Osdns.Framework.Durable
import Osdns.Framework.Loops
import Osdns.Journal.Records

/-!
# The journal directory

`JournalStore` of `journal.rs`: the programs that write, remove and scan the files of the records,
over the calls of the `private-fs` crate.  What the crate does is a handler: a replacement of a file
is atomic, and flushed when it succeeds; a failure says whether the change may have been made.

A directory is a disk of bytes and a ledger is a disk of records.  `Holds C dir ledger` says that
the `.json` files of `dir` are the records of `ledger`, each readable and under its own name.
-/

namespace Osdns.Journal

open Durable Interaction Interaction.Fallible

/-! ## Files -/

/-- `private_fs::Error`. -/
inductive FsError
  | notFound (message : String)
  | io (message : String)
  | atomicCommit (mayHavePublished : Bool) (source : String)
  | removal (mayHaveRemoved : Bool) (source : String)
  | refused (message : String)

def FsError.text : FsError → String
  | notFound message => message
  | io message => message
  | atomicCommit _ source => s!"atomic commit failed: {source}"
  | removal _ source => s!"removal failed: {source}"
  | refused message => message

/-- `private_error`. -/
def privateError : FsError → StoreError
  | .notFound message => .error (.io message)
  | .io message => .error (.io message)
  | error => .unsafeFilesystem error.text

/-- `publication_error`. -/
def publicationError : FsError → StoreError
  | .atomicCommit mayHavePublished source => .error (.journalPublication mayHavePublished source)
  | error => privateError error

/-- The calls on the directory of a store. -/
inductive FileOp
  /-- `JournalStore::directory`. -/
  | directory
  | entries
  /-- `open_file` and the reading of at most `limit` bytes. -/
  | readFile (name : FileName) (limit : Nat)
  | writeAtomic (name : FileName) (bytes : List UInt8)
  | removeFile (name : FileName)
  | syncAll

abbrev FileRet : FileOp → Type
  | .directory => Except StoreError Unit
  | .entries => Except FsError (List FileName)
  | .readFile _ _ => Except FsError (List UInt8)
  | .writeAtomic _ _ => Except FsError Unit
  | .removeFile _ => Except FsError Unit
  | .syncAll => Except FsError Unit

abbrev StoreProgram : Type → Type := Fallible StoreError FileRet

/-! ## The store -/

structure JournalStore where
  dir : String
  crates : Crates

namespace JournalStore

variable (store : JournalStore)

def path (name : FileName) : String := s!"{store.dir}/{String.ofList name}"

def fileName (record : Record) : FileName :=
  recordFileName store.crates.hash record.leaseId record.resource

def directory : StoreProgram Unit := ask (.call .directory .done)

/-- `JournalStore::write`. -/
def write (record : Record) : StoreProgram Unit := do
  let bytes := recordBytes store.crates record
  known (reject (maxRecordBytes < bytes.length)
    (.error (.journalCorrupt "journal record exceeds the 16 MiB storage budget")))
  directory
  ask (.call (.writeAtomic (store.fileName record) bytes) fun result =>
    .done (result.mapError publicationError))

/-- What `JournalStore::remove` does with the outcome of the removal. -/
def removed : Except FsError Unit → StoreProgram Unit
  | .ok () => return ()
  | .error (.notFound _) =>
      -- absence can follow a removal whose flush failed
      ask (.call .syncAll fun result =>
        .done (result.mapError fun source => .error (.journalRemoval true source.text)))
  | .error (.removal mayHaveRemoved source) =>
      throw (.error (.journalRemoval mayHaveRemoved source))
  | .error error => throw (privateError error)

/-- `JournalStore::remove`. -/
def remove (lease : LeaseId) (resource : ResourceId) : StoreProgram Unit := do
  directory
  removed (← value (.call (.removeFile (recordFileName store.crates.hash lease resource)) .done))

/-- Takes the record of a file into a scan. -/
def addRecord (out : List Record) (name : FileName) (bytes : List UInt8) :
    Except StoreError (List Record) := do
  reject (maxRecordBytes < bytes.length)
    (.error (.journalCorrupt
      s!"{store.path name}: journal record exceeds the 16 MiB storage budget"))
  let record ← decodeRecord store.crates (store.path name) bytes
  reject (name ≠ store.fileName record)
    (.error (.journalCorrupt
      s!"{store.path name}: filename does not match the lease and resource"))
  reject (out.any (·.resource == record.resource) = true)
    (.error (.journalCorrupt s!"{store.path name}: multiple records claim one resource"))
  return out ++ [record]

/-- The body of the loop of `JournalStore::records`. -/
def scan (out : List Record) (name : FileName) : StoreProgram (List Record) := do
  if extension name ≠ some ['j', 's', 'o', 'n'] then
    return out
  let bytes ← ask (.call (.readFile name (maxRecordBytes + 1)) fun result =>
    .done (result.mapError privateError))
  known (store.addRecord out name bytes)

/-- `JournalStore::records`. -/
def records : StoreProgram (List Record) := do
  directory
  let names ← ask (.call .entries fun result => .done (result.mapError privateError))
  names.foldlM store.scan []

end JournalStore

/-! ## What the calls do -/

abbrev Directory := Disk FileName (List UInt8)

/-- The errors of `ensure_private_dir`. -/
inductive Opening : StoreError → Prop
  | file (error : FsError) : Opening (privateError error)
  | path (message : String) : Opening (.error (.invalidConfig message))

/-- How an atomic replacement goes. -/
inductive Replaces (bytes : List UInt8) (slot : Slot (List UInt8)) :
    Except FsError Unit → Slot (List UInt8) → Prop
  | done : Replaces bytes slot (.ok ()) (.flushed (some bytes))
  | unchanged (error : FsError) : Replaces bytes slot (.error error) slot
  | unflushed (source : String) :
      Replaces bytes slot (.error (.atomicCommit true source)) (slot.mark (some bytes))

/-- How a removal goes. -/
inductive Removes (slot : Slot (List UInt8)) : Except FsError Unit → Slot (List UInt8) → Prop
  | done : Removes slot (.ok ()) (.flushed none)
  | missing (message : String) (h : slot.content = none) :
      Removes slot (.error (.notFound message)) slot
  | unchanged (error : FsError) (h : ∀ message, error ≠ .notFound message) :
      Removes slot (.error error) slot
  | unflushed (source : String) : Removes slot (.error (.removal true source)) (slot.mark none)

/-- What is read of a file. -/
inductive Reads (content : Option (List UInt8)) (limit : Nat) :
    Except FsError (List UInt8) → Prop
  | done {bytes : List UInt8} (h : content = some bytes) : Reads content limit (.ok (bytes.take limit))
  | failed (error : FsError) : Reads content limit (.error error)

/-- The names of the files that there are. -/
structure Lists (d : Directory) (names : List FileName) : Prop where
  nodup : names.Nodup
  mem_iff : ∀ name, name ∈ names ↔ (d name).content ≠ none

/-- The answers of `private-fs`. -/
def fileCalls : Handler FileRet Directory
  | .directory, d, r, d' => d' = d ∧ ∀ e, r = .error e → Opening e
  | .entries, d, r, d' => d' = d ∧ ∀ names, r = .ok names → Lists d names
  | .readFile name limit, d, r, d' => d' = d ∧ Reads (d name).content limit r
  | .writeAtomic name bytes, d, r, d' =>
      ∃ slot, Replaces bytes (d name) r slot ∧ d' = Function.update d name slot
  | .removeFile name, d, r, d' =>
      ∃ slot, Removes (d name) r slot ∧ d' = Function.update d name slot
  | .syncAll, d, r, d' =>
      (r = .ok () ∧ d' = fun name => (d name).flush) ∨ ∃ error, r = .error error ∧ d' = d

end Osdns.Journal
