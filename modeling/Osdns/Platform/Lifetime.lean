import Osdns.Framework.Evolution
import Osdns.Model.Record
import Osdns.Platform.Text

/-!
# Lifetime identities

How the systemd-resolved, NetworkManager and Windows backends capture the identity of a resource
(`observe`) and tell later whether it still denotes the same native object (`resource_status`):
`platform/linux/resolved.rs`, `platform/linux/network_manager.rs` and `platform/windows/mod.rs`.

Each is a program over the questions it asks the operating system.  Of an observation only the
identity is kept; the DNS settings read with it are one question whose answer nothing here uses.
-/

namespace Osdns

open Interaction
open Interaction.Fallible (ask value)

/-! ## Identities -/

/-- An inode of `/sys/class/net`, which stands for a kernel link. -/
abbrev Inode := Nat

abbrev LinkName := List Char

abbrev ObjectPath := List Char

/-- A 128-bit UUID. -/
abbrev Uuid := Nat

/-- A GUID in its canonical text. -/
abbrev Guid := List Char

/-- `ResolvedIdentity`. -/
structure ResolvedIdentity where
  bootId : Uuid
  netns : List Char
  ifindex : Nat
  ifname : LinkName
  iflink : Option Nat
  address : Option (List Char)
  uevent : Option (List Char)
  deriving DecidableEq

/-- `NmResourceIdentity`. -/
structure NmResourceIdentity where
  ifname : List Char
  devicePath : ObjectPath
  activePath : ObjectPath
  connectionUuid : Uuid
  serviceOwner : List Char
  deriving DecidableEq

inductive IdentityData
  | untracked
  | systemdResolved (data : ResolvedIdentity)
  | networkManager (data : NmResourceIdentity)
  deriving DecidableEq

/-- `ResourceIdentity` with its process-local live handle: the inode of the held directory. -/
structure HeldIdentity extends ResourceIdentity IdentityData where
  liveHandle : Option Inode
  deriving DecidableEq

/-! ## Questions -/

inductive DbusError
  | unknownObject (message : String)
  | other (message : String)

def DbusError.message : DbusError → String
  | .unknownObject message => message
  | .other message => message

inductive LinkAttribute
  | iflink
  | address
  | uevent

inductive NativeOp
  | bootId
  | netns
  | verifyNamespace
  | readDir
  | readIfindex (name : LinkName)
  | readAttribute (name : LinkName) (item : LinkAttribute)
  | openLink (name : LinkName)
  | inodeOf (handle : Inode)
  | deviceByIpIface (name : List Char)
  | serviceOwner
  | activeConnection (path : ObjectPath)
  | appliedUuid (path : ObjectPath)
  | listAdapters
  | dnsSettings (resource : ResourceId)

@[reducible] def NativeRet : NativeOp → Type
  | .bootId => Except Error Uuid
  | .netns => Except Error (List Char)
  | .verifyNamespace => Except Error Unit
  | .readDir => Except Error (List LinkName)
  | .readIfindex _ => Option Nat
  | .readAttribute _ _ => Option (List Char)
  | .openLink _ => Except Error Inode
  | .inodeOf _ => Except Error Inode
  | .deviceByIpIface _ => Except DbusError ObjectPath
  | .serviceOwner => Except DbusError (List Char)
  | .activeConnection _ => Except DbusError ObjectPath
  | .appliedUuid _ => Except DbusError (Option Uuid)
  | .listAdapters => Except Error (List Guid)
  | .dnsSettings _ => Except Error Unit

abbrev Native (α : Type) : Type := Program NativeRet α

abbrev NativeResult (α : Type) : Type := Fallible Error NativeRet α

/-- One question. -/
def asking (o : NativeOp) : Native (NativeRet o) := .call o .done

/-! ## Texts -/

/-- `str::strip_prefix`. -/
def stripPrefix (front text : List Char) : Option (List Char) :=
  if front.isPrefixOf text then some (text.drop front.length) else none

/-- `str::strip_suffix` for one character. -/
def stripLast (c : Char) (text : List Char) : Option (List Char) :=
  if text.getLast? = some c then some text.dropLast else none

/-- `str::parse::<u32>`. -/
def parseU32 (text : List Char) : Option Nat :=
  let digits := (stripPrefix ['+'] text).getD text
  if digits.isEmpty || !digits.all Char.isDigit then none
  else
    let value := digits.foldl (fun value c => value * 10 + (c.toNat - '0'.toNat)) 0
    if value < 4294967296 then some value else none

/-- The form of a network namespace link, `net:[digits]`. -/
def validNetns (netns : List Char) : Bool :=
  match (stripPrefix "net:[".toList netns).bind (stripLast ']') with
  | some digits => !digits.isEmpty && digits.all Char.isDigit
  | none => false

/-! ## systemd-resolved -/

namespace Resolved

/-- `ObservationContext`. -/
structure ObservationContext where
  bootId : Uuid
  netns : List Char

/-- `ObservationContext::current`. -/
def ObservationContext.current : NativeResult ObservationContext := do
  let bootId ← ask (asking .bootId)
  let netns ← ask (asking .netns)
  if validNetns netns then return ⟨bootId, netns⟩
  else throw (.platform .systemdResolved "cannot establish the current network namespace identity")

/-- `ifindex_of`. -/
def ifindexOf (resource : ResourceId) : Option Nat :=
  (stripPrefix "linux:resolved:ifindex:".toList resource.text).bind parseU32

/-- `ResolvedIdentity::validate`. -/
def validate (data : ResolvedIdentity) (resource : ResourceId) : Except Error Unit :=
  match ifindexOf resource with
  | none => .error (.journalCorrupt "invalid systemd-resolved resource selector")
  | some ifindex =>
      if data.ifindex = 0 || data.ifindex ≠ ifindex || data.ifname.isEmpty ||
          !validNetns data.netns then
        .error (.journalCorrupt "invalid systemd-resolved resource identity")
      else .ok ()

/-- `ResolvedIdentity::decode`. -/
def decode (identity : HeldIdentity) : Except Error ResolvedIdentity :=
  if identity.backend ≠ .systemdResolved then
    .error (.journalCorrupt "resolved identity has the wrong backend")
  else
    match identity.data with
    | .systemdResolved data =>
        match validate data identity.resource with
        | .ok _ => .ok data
        | .error error => .error error
    | _ => .error (.journalCorrupt "resolved identity has the wrong backend data")

/-- `classify_observation_context`. -/
def classifyObservationContext (recorded : ResolvedIdentity) (context : ObservationContext) :
    Option ResourceStatus :=
  if context.bootId ≠ recorded.bootId then some .gone
  else if context.netns ≠ recorded.netns then some .ambiguous
  else none

/-- `classify_identity`. -/
def classifyIdentity (recorded : ResolvedIdentity) (context : ObservationContext)
    (current : Option ResolvedIdentity) (liveInodes : Option (Inode × Inode)) : ResourceStatus :=
  match classifyObservationContext recorded context with
  | some status => status
  | none =>
      match current with
      | none => .gone
      | some _ =>
          match liveInodes with
          | some (old, now) => if old = now then .same else .replaced
          | none => .ambiguous

/-- The search of `identity_data`: an entry whose index cannot be read is passed over. -/
def findLink (ifindex : Nat) : List LinkName → Native (Option LinkName)
  | [] => .done none
  | name :: names => do
      if (← asking (.readIfindex name)) = some ifindex then .done (some name)
      else findLink ifindex names

/-- `identity_data`. -/
def identityData (context : ObservationContext) (ifindex : Nat) :
    NativeResult (Option (ResolvedIdentity × Inode)) := do
  let names ← ask (asking .readDir)
  let found ← value (findLink ifindex names)
  match found with
  | none => return none
  | some name =>
      let file ← ask (asking (.openLink name))
      let iflink ← value (asking (.readAttribute name .iflink))
      let address ← value (asking (.readAttribute name .address))
      let uevent ← value (asking (.readAttribute name .uevent))
      return some (⟨context.bootId, context.netns, ifindex, name,
        iflink.bind fun text => parseU32 (trim text), address.map trim, uevent.map trim⟩, file)

/-- `link_identity`. -/
def linkIdentity (resource : ResourceId) : NativeResult HeldIdentity := do
  match ifindexOf resource with
  | none =>
      throw (.invalidConfig ("resource " ++ resource.asStr ++ " is not a resolved link"))
  | some ifindex =>
      let context ← ObservationContext.current
      let data ← identityData context ifindex
      match data with
      | none => throw (.resourceGone .systemdResolved resource "the kernel link is absent")
      | some (data, file) =>
          ask (.done (validate data resource))
          return ⟨⟨.systemdResolved, resource, .systemdResolved data⟩, some file⟩

/-- `SystemdResolved::identify`. -/
def identify (resource : ResourceId) : NativeResult HeldIdentity := do
  ask (asking .verifyNamespace)
  linkIdentity resource

/-- The inodes of the held handle and of the link found now. -/
def liveInodes (identity : HeldIdentity) (current : Inode) :
    NativeResult (Option (Inode × Inode)) := do
  match identity.liveHandle with
  | none => return none
  | some original =>
      let old ← ask (asking (.inodeOf original))
      let now ← ask (asking (.inodeOf current))
      return some (old, now)

/-- `SystemdResolved::resource_status`. -/
def resourceStatus (identity : HeldIdentity) : NativeResult ResourceStatus := do
  let old ← ask (.done (decode identity))
  let context ← ObservationContext.current
  match classifyObservationContext old context with
  | some status => return status
  | none =>
      ask (asking .verifyNamespace)
      let found ← identityData context old.ifindex
      match found with
      | none => return .gone
      | some (current, file) =>
          let inodes ← liveInodes identity file
          return classifyIdentity old context (some current) inodes

end Resolved

/-! ## NetworkManager -/

namespace NetworkManager

/-- `ifname_of`. -/
def ifnameOf (resource : ResourceId) : Option (List Char) :=
  stripPrefix "linux:network-manager:ifname:".toList resource.text

/-- `native_object_path`. -/
def nativeObjectPath (path kind : List Char) : Bool :=
  match stripPrefix ("/org/freedesktop/NetworkManager/".toList ++ kind ++ ['/']) path with
  | some id => !id.isEmpty && id.all Char.isDigit
  | none => false

/-- The form of a unique bus name: two or more elements after a colon. -/
def validUniqueName (name : List Char) : Bool :=
  match name with
  | ':' :: rest =>
      let elements := rest.splitOn '.'
      decide (2 ≤ elements.length) && decide (name.length ≤ 255) &&
        elements.all fun element =>
          !element.isEmpty && element.all fun c => c.isAlphanum || c == '_' || c == '-'
  | _ => false

/-- `NmResourceIdentity::decode`. -/
def decode (identity : HeldIdentity) : Except Error NmResourceIdentity :=
  if identity.backend ≠ .networkManager then
    .error (.journalCorrupt "NetworkManager identity has the wrong backend")
  else
    match ifnameOf identity.resource with
    | none => .error (.journalCorrupt "invalid NetworkManager resource selector")
    | some selector =>
        match identity.data with
        | .networkManager data =>
            if data.ifname ≠ selector || !validUniqueName data.serviceOwner ||
                !nativeObjectPath data.devicePath "Devices".toList ||
                !nativeObjectPath data.activePath "ActiveConnection".toList then
              .error (.journalCorrupt "invalid NetworkManager resource identity fields")
            else .ok data
        | _ => .error (.journalCorrupt "NetworkManager identity has the wrong backend data")

/-- `nm_resource_error`.  Other errors of the bus are platform errors here. -/
def nmResourceError (resource : ResourceId) : DbusError → Error
  | .unknownObject message => .resourceGone .networkManager resource message
  | .other message => .platform .networkManager message

/-- A call on an object of a resource. -/
def onResource {α : Type} (resource : ResourceId) (p : Native (Except DbusError α)) :
    NativeResult α :=
  ask (p.bind fun answer => .done (answer.mapError (nmResourceError resource)))

/-- A call that concerns no resource (`dbus_error`). -/
def onObject {α : Type} (p : Native (Except DbusError α)) : NativeResult α :=
  ask (p.bind fun answer => .done (answer.mapError fun error =>
    .platform .networkManager error.message))

/-- `classify_nm_activation`. -/
def classifyNmActivation (recorded : NmResourceIdentity) (serviceOwner activePath : List Char)
    (connectionUuid : Uuid) : ResourceStatus :=
  if recorded.serviceOwner ≠ serviceOwner then .ambiguous
  else if recorded.activePath ≠ activePath || recorded.connectionUuid ≠ connectionUuid then
    .replaced
  else .same

/-- `classify_lifetime_result`. -/
def classifyLifetimeResult (resource : ResourceId) :
    Except Error ResourceStatus → Except Error ResourceStatus
  | .error (.resourceGone .networkManager gone message) =>
      if gone = resource then .ok .gone else .error (.resourceGone .networkManager gone message)
  | other => other

/-- The closure of `resource_status`. -/
def activationStatus (identity : HeldIdentity) : NativeResult ResourceStatus := do
  let recorded ← ask (.done (decode identity))
  let serviceOwner ← onObject (asking .serviceOwner)
  if recorded.serviceOwner ≠ serviceOwner then return .ambiguous
  else
  let active ← onResource identity.resource (asking (.activeConnection recorded.devicePath))
  if active ≠ recorded.activePath then return .replaced
  else
  let uuid ← onResource identity.resource (asking (.appliedUuid recorded.devicePath))
  match uuid with
  | none =>
      throw (.platform .networkManager "the applied connection has no valid UUID")
  | some currentUuid => return classifyNmActivation recorded serviceOwner active currentUuid

/-- `NetworkManager::resource_status`. -/
def resourceStatus (identity : HeldIdentity) : NativeResult ResourceStatus :=
  ask ((activationStatus identity).run.bind fun result =>
    .done (classifyLifetimeResult identity.resource result))

/-- `NetworkManager::observe`. -/
def observe (resource : ResourceId) : NativeResult HeldIdentity := do
  match ifnameOf resource with
  | none =>
      throw (.invalidConfig ("resource " ++ resource.asStr ++ " is not a NetworkManager device"))
  | some name =>
      let device ← onObject (asking (.deviceByIpIface name))
      let owner ← onObject (asking .serviceOwner)
      let active ← onResource resource (asking (.activeConnection device))
      let applied ← onObject (asking (.appliedUuid device))
      match applied with
      | none => throw (.platform .networkManager "the device has no active connection UUID")
      | some uuid =>
          let ownerNow ← onObject (asking .serviceOwner)
          let activeNow ← onResource resource (asking (.activeConnection device))
          if owner ≠ ownerNow || active ≠ activeNow then
            throw (.resourceIdentity .networkManager resource
              "NetworkManager activation changed while it was being observed")
          else
          return ⟨⟨.networkManager, resource,
            .networkManager ⟨name, device, active, uuid, owner⟩⟩, none⟩

end NetworkManager

/-! ## Windows -/

namespace Windows

/-- `ResourceKind`. -/
inductive ResourceKind
  | interface (guid : Guid)
  | nrpt (key : List Char)

/-- `parse_guid`: 32 hexadecimal digits in groups of 8, 4, 4, 4 and 12. -/
def parseGuid (text : List Char) : Option Guid :=
  let bare := ((stripPrefix ['{'] text).bind (stripLast '}')).getD text
  let groups := bare.splitOn '-'
  if groups.map List.length = [8, 4, 4, 4, 12] &&
      groups.all (fun group => group.all fun c => (AddressText.digitValue 16 c).isSome) then
    some (bare.map Char.toLower)
  else none

/-- `WindowsBackend::parse_resource`. -/
def parseResource (resource : ResourceId) : Except Error ResourceKind :=
  match stripPrefix "windows:interface:".toList resource.text with
  | some text =>
      match parseGuid text with
      | some guid => .ok (.interface guid)
      | none => .error (.invalidConfig "invalid interface GUID")
  | none =>
      match stripPrefix "windows:nrpt:".toList resource.text with
      | some key =>
          match parseGuid key with
          | some guid =>
              if guid = key then .ok (.nrpt key)
              else .error (.journalCorrupt "noncanonical NRPT resource key")
          | none => .error (.invalidConfig "invalid interface GUID")
      | none =>
          .error (.invalidConfig ("resource " ++ resource.asStr ++ " is not a Windows DNS resource"))

/-- `interface_present`. -/
def interfacePresent (guid : Guid) : NativeResult Bool := do
  let adapters ← ask (asking .listAdapters)
  return decide (guid ∈ adapters)

/-- `WindowsBackend::resource_status`. -/
def resourceStatus (identity : HeldIdentity) : NativeResult ResourceStatus := do
  if identity.backend ≠ .windowsIpHelper || identity.resource.text.isEmpty then
    throw (.journalCorrupt "resource identity backend/resource mismatch")
  else
  let kind ← ask (.done (parseResource identity.resource))
  match kind with
  | .interface guid =>
      let present ← interfacePresent guid
      return if present then .same else .gone
  | .nrpt _ => return .same

/-- The identity of `Backend::identify`, which tracks nothing. -/
def identify (resource : ResourceId) : NativeResult HeldIdentity :=
  return ⟨⟨.windowsIpHelper, resource, .untracked⟩, none⟩

/-- `WindowsBackend::capture`, without what it reads. -/
def capture (resource : ResourceId) : NativeResult Unit := do
  let kind ← ask (.done (parseResource resource))
  match kind with
  | .interface guid =>
      let present ← interfacePresent guid
      if !present then
        throw (.resourceGone .windowsIpHelper resource
          "the adapter is absent from GetAdaptersAddresses")
      else ask (asking (.dnsSettings resource))
  | .nrpt _ => ask (asking (.dnsSettings resource))

end Windows

/-! ## Backends -/

inductive NativeBackend
  | systemdResolved
  | networkManager
  | windows
  deriving DecidableEq

namespace NativeBackend

/-- `Backend::kind`. -/
def kind : NativeBackend → BackendKind
  | .systemdResolved => .systemdResolved
  | .networkManager => .networkManager
  | .windows => .windowsIpHelper

/-- `Backend::resource_status`. -/
def resourceStatus : NativeBackend → HeldIdentity → NativeResult ResourceStatus
  | .systemdResolved => Resolved.resourceStatus
  | .networkManager => NetworkManager.resourceStatus
  | .windows => Windows.resourceStatus

/-- The default `Backend::observe`. -/
def observeWith (backend : NativeBackend) (resource : ResourceId)
    (identify : NativeResult HeldIdentity) (capture : NativeResult Unit) :
    NativeResult HeldIdentity := do
  let identity ← identify
  capture
  let status ← backend.resourceStatus identity
  if status ≠ .same then
    throw (.resourceIdentity backend.kind resource
      "resource incarnation changed while it was being observed")
  else return identity

/-- `Backend::observe`. -/
def observe : NativeBackend → ResourceId → NativeResult HeldIdentity
  | .systemdResolved, resource =>
      observeWith .systemdResolved resource (Resolved.identify resource)
        (ask (asking (.dnsSettings resource)))
  | .networkManager, resource => NetworkManager.observe resource
  | .windows, resource =>
      observeWith .windows resource (Windows.identify resource) (Windows.capture resource)

end NativeBackend

end Osdns
