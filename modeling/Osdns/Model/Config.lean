import Mathlib.Data.Char
import Mathlib.Data.List.Dedup
import Mathlib.Data.List.Lex
import Mathlib.Data.Nat.Basic

/-!
# Configuration, resources and errors

The vocabulary every other module uses: backend kinds and capabilities (`capability.rs`), the
public configuration and its validated form (`config.rs`, `normalize.rs`), resource ids
(`ownership.rs`) and the error type (`error.rs`).

Texts of errors are kept, since callers read them back (`RecoveryOutcome.failed` carries the
rendered error).  Errors of the file layer (`private_fs::Error`, `std::io::Error`) are their
texts.
-/

namespace Osdns

/-! ## Backends -/

inductive BackendKind
  | systemdResolved
  | networkManager
  | resolvconf
  | resolvConfFile
  | windowsIpHelper
  | macosSystemConfiguration
  | fake
  deriving DecidableEq

/-- The `Display` form of a backend kind. -/
def BackendKind.text : BackendKind → String
  | .systemdResolved => "systemd-resolved"
  | .networkManager => "network-manager"
  | .resolvconf => "resolvconf"
  | .resolvConfFile => "resolv-conf-file"
  | .windowsIpHelper => "windows-ip-helper"
  | .macosSystemConfiguration => "macos-system-configuration"
  | .fake => "fake"

/-- How a backend conditions mutations on observed state. -/
inductive MutationGuard
  | compareAndMutate
  | unconditional
  deriving DecidableEq

/-- Whether a backend can name the state produced by a mutation. -/
inductive OwnershipIdentity
  | durable
  | bestEffort
  deriving DecidableEq

/-- What the active backend can guarantee. -/
structure Capabilities where
  backend : BackendKind
  globalDns : Bool
  perInterfaceDns : Bool
  searchDomains : Bool
  splitDns : Bool
  defaultRoute : Bool
  watch : Bool
  mutationGuard : MutationGuard
  ownershipIdentity : OwnershipIdentity

/-- A backend of the given kind that can do everything. -/
def Capabilities.full (backend : BackendKind) : Capabilities where
  backend
  globalDns := true
  perInterfaceDns := true
  searchDomains := true
  splitDns := true
  defaultRoute := true
  watch := true
  mutationGuard := .compareAndMutate
  ownershipIdentity := .durable

/-! ## Resources -/

/-- The characters of a resource id. -/
def resourceIdChar (c : Char) : Bool :=
  c.isLower || c.isDigit || c == ':' || c == '-' || c == '_' || c == '.'

/-- `validate_resource_id`: allowed characters only, and no empty `:`-separated segment. -/
def validResourceId (value : List Char) : Bool :=
  !value.isEmpty && value.all resourceIdChar && (value.splitOn ':').all (fun s => !s.isEmpty)

/-- The locking and mutation target for one OS DNS resource.  Only valid ids exist. -/
structure ResourceId where
  text : List Char
  valid : validResourceId text = true
  deriving DecidableEq

/-- `ResourceId::as_str`. -/
def ResourceId.asStr (r : ResourceId) : String := String.ofList r.text

/-- The resources of two interfaces, for concrete runs. -/
def ResourceId.loopback : ResourceId := ⟨['l', 'o'], by decide⟩

def ResourceId.ethernet : ResourceId := ⟨['e', 't', 'h'], by decide⟩

/-! ## Configurations -/

inductive IpAddr
  | v4 (bits : BitVec 32)
  | v6 (bits : BitVec 128)
  deriving DecidableEq

def IpAddr.isUnspecified : IpAddr → Bool
  | .v4 bits => bits == 0
  | .v6 bits => bits == 0

/-- A canonical DNS domain suffix; the root domain is the empty text. -/
structure DnsSuffix where
  text : List Char
  deriving DecidableEq

inductive InterfaceSelector
  | default
  | index (index : UInt32)
  | name (name : String)
  deriving DecidableEq

inductive DnsScope
  | global
  | interface (selector : InterfaceSelector)
  deriving DecidableEq

structure DnsConfig where
  scope : DnsScope
  nameservers : List IpAddr
  searchDomains : List DnsSuffix
  routingDomains : List DnsSuffix
  defaultRoute : Option Bool

/-- The validated form of a configuration, as journals record it. -/
structure NormalizedConfig where
  nameservers : List IpAddr
  searchDomains : List DnsSuffix
  routingDomains : List DnsSuffix
  defaultRoute : Option Bool
  deriving DecidableEq

/-! ## Errors -/

inductive ConflictReason
  | alreadyLeasedInProcess
  | staleJournalUnresolved (detail : String)
  | leaseNotActive
  | resourceOccupied (detail : String)

inductive Error
  | journalPublication (mayHavePublished : Bool) (source : String)
  | journalRemoval (mayHaveRemoved : Bool) (source : String)
  | transactionFailed (primary : Error) (cleanup : List Error)
  | indeterminateMutation (backend : BackendKind) (message : String)
  | leaseEnding
  | resourceGone (backend : BackendKind) (resource : ResourceId) (message : String)
  | resourceIdentity (backend : BackendKind) (resource : ResourceId) (message : String)
  | unsupported (backend : BackendKind) (reason : String)
  | backendUnavailable (message : String)
  | timeout (resource : ResourceId) (operation : String)
  | conflict (resource : ResourceId) (reason : ConflictReason)
  | externalModification (resource : ResourceId) (detail : String)
  | invalidConfig (message : String)
  | updateRequiresRebind (owned requested : List ResourceId)
  | verificationFailed (resource : ResourceId) (detail : String)
  | journalCorrupt (message : String)
  | io (message : String)
  | platform (backend : BackendKind) (message : String)
  /-- Not an error of the source: a branch the source declares `unreachable!`. -/
  | panicked (message : String)

/-- The `Display` form of a conflict reason. -/
def ConflictReason.text : ConflictReason → String
  | .alreadyLeasedInProcess =>
      "the resource is already owned by an active lease in this process"
  | .staleJournalUnresolved detail =>
      "an unresolved journal record from a previous lease blocks this operation: " ++ detail
  | .leaseNotActive => "the lease is no longer active"
  | .resourceOccupied detail =>
      "the resource is already occupied and is not owned by this lease: " ++ detail

/-- The `Debug` form of a list of resource ids. -/
def debugResources (resources : List ResourceId) : String :=
  "[" ++ String.intercalate ", " (resources.map fun r => "ResourceId(\"" ++ r.asStr ++ "\")") ++ "]"

namespace Error

/-- `Error::is_external_modification`. -/
def isExternalModification : Error → Bool
  | externalModification .. => true
  | _ => false

/-- The `Display` form of an error. -/
def text : Error → String
  | journalPublication mayHavePublished source =>
      s!"journal publication failed; publication may have occurred: {mayHavePublished}: {source}"
  | journalRemoval mayHaveRemoved source =>
      s!"journal removal failed; removal may have occurred: {mayHaveRemoved}: {source}"
  | transactionFailed primary cleanup =>
      "transaction failed: " ++ primary.text ++
        s!"; {cleanup.length} recovery or cleanup operation(s) also failed"
  | indeterminateMutation backend message =>
      s!"indeterminate mutation on {backend.text}: {message}"
  | leaseEnding =>
      "lease teardown has started; retry restore or abandon the remaining resources"
  | resourceGone backend resource message =>
      s!"resource is gone on {backend.text}: {resource.asStr}: {message}"
  | resourceIdentity backend resource message =>
      s!"resource identity mismatch on {backend.text} for {resource.asStr}: {message}"
  | unsupported backend reason => s!"unsupported operation on {backend.text}: {reason}"
  | backendUnavailable message => s!"backend is unavailable: {message}"
  | timeout resource operation => s!"operation timed out on {resource.asStr}: {operation}"
  | conflict resource reason => s!"resource conflict on {resource.asStr}: {reason.text}"
  | externalModification resource detail =>
      s!"external modification detected on {resource.asStr}: {detail}"
  | invalidConfig message => s!"invalid configuration: {message}"
  | updateRequiresRebind owned requested =>
      "update requires a fresh lease: owned " ++ debugResources owned ++ " vs requested " ++
        debugResources requested
  | verificationFailed resource detail =>
      s!"verification failed on {resource.asStr}: {detail}"
  | journalCorrupt message => s!"journal is corrupt: {message}"
  | io message => message
  | platform backend message => s!"platform error on {backend.text}: {message}"
  | panicked message => s!"internal error: entered unreachable code: {message}"

end Error

/-! ## Validation against capabilities -/

/-- `validate_against`: rejects what the backend cannot represent, and passes the rest on. -/
def validateAgainst (config : DnsConfig) (caps : Capabilities) :
    Except Error NormalizedConfig := do
  match config.scope with
  | .global =>
      if !caps.globalDns then
        throw (.unsupported caps.backend "this backend cannot configure global DNS")
  | .interface _ =>
      if !caps.perInterfaceDns then
        throw (.unsupported caps.backend "this backend cannot configure per-interface DNS")
      if !config.routingDomains.isEmpty && !caps.splitDns then
        throw (.unsupported caps.backend
          "this backend cannot configure split DNS routing domains")
  if !config.searchDomains.isEmpty && !caps.searchDomains then
    throw (.unsupported caps.backend "this backend cannot configure search domains")
  if config.defaultRoute.isSome && !caps.defaultRoute then
    throw (.unsupported caps.backend
      "this backend cannot represent explicit default-route semantics")
  return {
    nameservers := config.nameservers
    searchDomains := config.searchDomains
    routingDomains := config.routingDomains
    defaultRoute := config.defaultRoute }

end Osdns
