import Osdns.Model.Config

/-!
# Snapshots of the resolver file

The snapshot of a directly edited `resolv.conf` (`platform/unix/direct.rs`): the content of the file
and the metadata a writer has to preserve.
-/

namespace Osdns

/-- `FileOwner`. -/
structure FileOwner where
  uid : UInt32
  gid : UInt32
  deriving DecidableEq

/-- `FileTime`. -/
structure FileTime where
  seconds : Int64
  nanoseconds : UInt32
  deriving DecidableEq

/-- `DirectFileMetadata`. -/
structure DirectFileMetadata where
  mode : UInt32
  owner : Option FileOwner
  flags : Option UInt64
  links : Option UInt64
  modified : Option FileTime
  deriving DecidableEq

/-- `DirectSnapshot`. -/
structure DirectSnapshot where
  content : Option (List UInt8)
  metadata : Option DirectFileMetadata
  deriving DecidableEq

/-- `DirectSnapshot::validate`: a file has metadata with a proper time, no file has none. -/
def DirectSnapshot.validate (self : DirectSnapshot) : Except Error Unit :=
  let valid : Bool :=
    match self.content, self.metadata with
    | none, none => true
    | some _, some metadata =>
        metadata.modified.all fun time => decide (time.nanoseconds < 1000000000)
    | _, _ => false
  if valid then .ok ()
  else .error (.journalCorrupt "resolver file snapshot has inconsistent content or metadata")

end Osdns
