import Osdns.Framework.Formats
import Osdns.Journal.Names
import Osdns.Model.Backend
import Osdns.Platform.DirectFile
import Osdns.Platform.Domains
import Osdns.Platform.Lifetime
import Osdns.Platform.NetworkManager
import Osdns.Platform.Resolved

/-!
# What journal records are made of

The serialised forms of the parts of a journal record: configurations, identities and the snapshots
of the backends of the Linux build, with the fake backend of the tests.  Each is the derived
`Serialize`/`Deserialize` pair of the type, or the one the source writes by hand, and comes with the
values that it reads and writes back (`Exact`).

`encode_snapshot` and `decode_snapshot` go through a JSON tree, whose objects are sorted by key.
-/

namespace Osdns.Journal

open Json Json.Format

variable {toAscii : List Char → Option (List Char)}

/-! ## Payloads -/

/-- `ResolvconfAttributes`. -/
structure ResolvconfAttributes where
  metric : Option (List Char)
  isPrivate : Bool
  nosearch : Bool
  deprecated : Bool
  deriving DecidableEq

/-- `ResolvconfSnapshot`. -/
structure ResolvconfSnapshot where
  content : Option (List UInt8)
  attributes : ResolvconfAttributes
  live : Option (List UInt8)
  deriving DecidableEq

/-- `NmSnapshotData`. -/
structure NmSnapshotData where
  fields : NetworkManager.NmDnsFields
  version : UInt64

/-- `SnapshotData`. -/
inductive SnapshotData
  | fake (data : FakeSnapshotData)
  | systemdResolved (data : Resolved.ResolvedSnapshot)
  | networkManager (data : NmSnapshotData)
  | resolvconf (data : ResolvconfSnapshot)
  | resolvConfFile (data : DirectSnapshot)

/-- `IdentityData`, with the fake backend. -/
inductive IdentityData
  | untracked
  | fake (data : FakeIdentity)
  | systemdResolved (data : ResolvedIdentity)
  | networkManager (data : NmResourceIdentity)

/-- The backend whose snapshots have this payload. -/
def SnapshotData.kind : SnapshotData → BackendKind
  | .fake _ => .fake
  | .systemdResolved _ => .systemdResolved
  | .networkManager _ => .networkManager
  | .resolvconf _ => .resolvconf
  | .resolvConfFile _ => .resolvConfFile

/-! ## Texts -/

/-- A parser without error texts, as a deserializer. -/
def orError {α : Type} (message : String) : Option α → Except String α
  | some a => .ok a
  | none => .error message

lemma orError_eq_ok {α : Type} {message : String} {o : Option α} {a : α} :
    orError message o = .ok a ↔ o = some a := by
  cases o <;> simp [orError]

def ipAddr : Format IpAddr :=
  viaText IpAddr.toText fun text => orError "invalid IP address syntax" (IpAddr.parse text)

def dnsSuffix (toAscii : List Char → Option (List Char)) : Format DnsSuffix :=
  viaText DnsSuffix.serialize fun text =>
    orError "invalid DNS domain" (DnsSuffix.deserialize toAscii text)

def uuid : Format Nat := viaText hyphenated fun text => orError "invalid UUID" (parseUuid text)

/-- `Deserialize for ResourceId` validates the id. -/
def resourceId : Format ResourceId :=
  viaText ResourceId.text fun text =>
    if h : validResourceId text = true then .ok ⟨text, h⟩ else .error "invalid resource id"

/-- The names of the kinds are in kebab case. -/
def backendKind : Format BackendKind :=
  variant BackendKind.text [.systemdResolved, .networkManager, .resolvconf, .resolvConfFile,
    .windowsIpHelper, .macosSystemConfiguration, .fake]

def Phase.name : Phase → String
  | .prepared => "Prepared"
  | .applied => "Applied"

def phase : Format Phase := variant Phase.name [.prepared, .applied]

/-- A domain that was parsed, as every `DnsSuffix` is. -/
def Parsed (toAscii : List Char → Option (List Char)) (s : DnsSuffix) : Prop :=
  ∃ input, DnsSuffix.parse toAscii input = some s

lemma exact_ipAddr : ipAddr.Exact 0 fun _ => True :=
  exact_viaText (fun _ _ _ => trivial) fun a _ => orError_eq_ok.mpr (IpAddr.parse_toText a)

lemma exact_dnsSuffix (h : IdempotentAscii toAscii) :
    (dnsSuffix toAscii).Exact 0 (Parsed toAscii) :=
  exact_viaText (fun text _ hs => ⟨text, orError_eq_ok.mp hs⟩) fun _ ⟨_, hs⟩ =>
    orError_eq_ok.mpr (DnsSuffix.normal h (.inl hs)).2.2.2.1

lemma exact_uuid : uuid.Exact 0 (· < 2 ^ 128) :=
  exact_viaText (fun _ _ h => parseUuid_lt (orError_eq_ok.mp h)) fun _ h =>
    orError_eq_ok.mpr (parseUuid_hyphenated h)

lemma exact_resourceId : resourceId.Exact 0 fun _ => True :=
  exact_viaText (fun _ _ _ => trivial) fun r _ => dif_pos r.valid

lemma exact_backendKind : backendKind.Exact 0 fun _ => True :=
  exact_variant fun kind => by cases kind <;> decide

lemma exact_phase : phase.Exact 0 fun _ => True := exact_variant fun p => by cases p <;> decide

/-! ## Configurations -/

def normalizedConfig (toAscii : List Char → Option (List Char)) : Format NormalizedConfig where
  encode c := .object [
    ("nameservers", ipAddr.list.encode c.nameservers),
    ("search_domains", (dnsSuffix toAscii).list.encode c.searchDomains),
    ("routing_domains", (dnsSuffix toAscii).list.encode c.routingDomains),
    ("default_route", flag.option.encode c.defaultRoute)]
  decode value := do
    let fields ← fieldsOf value
    let nameservers ← field fields "nameservers" ipAddr.list
    let searchDomains ← field fields "search_domains" (dnsSuffix toAscii).list
    let routingDomains ← field fields "routing_domains" (dnsSuffix toAscii).list
    let defaultRoute ← optionalField fields "default_route" flag
    return ⟨nameservers, searchDomains, routingDomains, defaultRoute⟩

/-- The domains of a configuration were parsed. -/
structure DomainsParsed (toAscii : List Char → Option (List Char))
    (searchDomains routingDomains : List DnsSuffix) : Prop where
  search : ∀ s ∈ searchDomains, Parsed toAscii s
  routing : ∀ s ∈ routingDomains, Parsed toAscii s

lemma exact_addresses : ipAddr.list.Exact 1 fun _ => True :=
  exact_ipAddr.list.congr fun _ => by simp

lemma exact_optionalFlag : flag.option.Exact 0 fun _ => True :=
  (exact_flag.option fun _ => by simp [flag]).congr fun _ => by simp

lemma exact_normalizedConfig (h : IdempotentAscii toAscii) :
    (normalizedConfig toAscii).Exact 2 fun c =>
      DomainsParsed toAscii c.searchDomains c.routingDomains where
  sound hd := by
    simp only [normalizedConfig, bind_eq_ok] at hd
    obtain ⟨fields, -, nameservers, -, search, hs, routing, hr, route, -, hd⟩ := hd
    obtain rfl := Except.ok.inj hd
    exact ⟨(exact_dnsSuffix h).list.field hs, (exact_dnsSuffix h).list.field hr⟩
  reads {c} hc := by
    simp [normalizedConfig, fieldsOf_object, field, optionalField, List.lookup_cons, bind_eq_ok,
      exact_addresses.reads trivial, (exact_dnsSuffix h).list.reads hc.search,
      (exact_dnsSuffix h).list.reads hc.routing, exact_optionalFlag.reads trivial]
  fits hc := by
    simp [normalizedConfig, exact_addresses.fits trivial, (exact_dnsSuffix h).list.fits hc.search,
      (exact_dnsSuffix h).list.fits hc.routing, (exact_optionalFlag.mono (Nat.zero_le 1)).fits trivial]

/-! ## The fake backend -/

def fakeState (toAscii : List Char → Option (List Char)) : Format FakeState where
  encode
    | .empty => .string "Empty".toList
    | .configured nameservers searchDomains routingDomains defaultRoute => .object [("Configured",
        .object [
          ("default_route", flag.option.encode defaultRoute),
          ("nameservers", ipAddr.list.encode nameservers),
          ("routing_domains", (dnsSuffix toAscii).list.encode routingDomains),
          ("search_domains", (dnsSuffix toAscii).list.encode searchDomains)])]
  decode
    | .object [("Configured", value)] => do
        let fields ← fieldsOf value
        let nameservers ← field fields "nameservers" ipAddr.list
        let searchDomains ← field fields "search_domains" (dnsSuffix toAscii).list
        let routingDomains ← field fields "routing_domains" (dnsSuffix toAscii).list
        let defaultRoute ← optionalField fields "default_route" flag
        return .configured nameservers searchDomains routingDomains defaultRoute
    | value => do
        let _ ← (variant (fun _ : Unit => "Empty") [()]).decode value
        return .empty

def fakeSnapshotData (toAscii : List Char → Option (List Char)) : Format FakeSnapshotData where
  encode data := .object [
    ("generation", (unsigned 64).encode data.generation),
    ("state", (fakeState toAscii).encode data.state)]
  decode value := do
    let fields ← fieldsOf value
    let state ← field fields "state" (fakeState toAscii)
    let generation ← field fields "generation" (unsigned 64)
    return ⟨state, generation⟩

def fakeIdentity : Format FakeIdentity where
  encode data := .object [("incarnation", (unsigned 64).encode data.incarnation)]
  decode value := do
    let fields ← fieldsOf value
    onlyFields ["incarnation"] fields
    let incarnation ← field fields "incarnation" (unsigned 64)
    return ⟨incarnation⟩

/-- The domains of a state were parsed. -/
def StateParsed (toAscii : List Char → Option (List Char)) : FakeState → Prop
  | .empty => True
  | .configured _ searchDomains routingDomains _ =>
      DomainsParsed toAscii searchDomains routingDomains

lemma exact_fakeState (h : IdempotentAscii toAscii) :
    (fakeState toAscii).Exact 3 (StateParsed toAscii) where
  sound {v state} hd := by
    simp only [fakeState] at hd
    split at hd
    · simp only [bind_eq_ok] at hd
      obtain ⟨fields, -, nameservers, -, search, hs, routing, hr, route, -, hd⟩ := hd
      obtain rfl := Except.ok.inj hd
      exact ⟨(exact_dnsSuffix h).list.field hs, (exact_dnsSuffix h).list.field hr⟩
    · simp only [bind_eq_ok] at hd
      obtain ⟨-, -, hd⟩ := hd
      obtain rfl := Except.ok.inj hd
      trivial
  reads {state} hc := by
    cases state with
    | empty => rfl
    | configured nameservers search routing route =>
        simp [fakeState, fieldsOf_object, field, optionalField, List.lookup_cons, bind_eq_ok,
          exact_addresses.reads trivial, (exact_dnsSuffix h).list.reads hc.search,
          (exact_dnsSuffix h).list.reads hc.routing, exact_optionalFlag.reads trivial]
  fits {state} hc := by
    cases state with
    | empty => trivial
    | configured nameservers search routing route =>
        simp [fakeState, exact_addresses.fits trivial, (exact_dnsSuffix h).list.fits hc.search,
          (exact_dnsSuffix h).list.fits hc.routing,
          (exact_optionalFlag.mono (Nat.zero_le 1)).fits trivial]

lemma exact_fakeSnapshotData (h : IdempotentAscii toAscii) :
    (fakeSnapshotData toAscii).Exact 4 fun data =>
      StateParsed toAscii data.state ∧ data.generation < 2 ^ 64 where
  sound hd := by
    simp only [fakeSnapshotData, bind_eq_ok] at hd
    obtain ⟨fields, -, state, hs, generation, hg, hd⟩ := hd
    obtain rfl := Except.ok.inj hd
    exact ⟨(exact_fakeState h).field hs, (exact_unsigned (by omega)).field hg⟩
  reads hc := by
    simp [fakeSnapshotData, fieldsOf_object, field, List.lookup_cons, bind_eq_ok,
      (exact_fakeState h).reads hc.1, (exact_unsigned (by omega)).reads hc.2]
  fits hc := by
    simp [fakeSnapshotData, (exact_fakeState h).fits hc.1,
      ((exact_unsigned (show 64 ≤ 64 by omega)).mono (Nat.zero_le 3)).fits hc.2]

lemma exact_fakeIdentity : fakeIdentity.Exact 1 fun data => data.incarnation < 2 ^ 64 where
  sound hd := by
    simp only [fakeIdentity, bind_eq_ok] at hd
    obtain ⟨fields, -, -, -, incarnation, hi, hd⟩ := hd
    obtain rfl := Except.ok.inj hd
    exact (exact_unsigned (by omega)).field hi
  reads hc := by
    simp [fakeIdentity, fieldsOf_object, field, onlyFields, bind_eq_ok,
      (exact_unsigned (by omega)).reads hc]
  fits hc := by
    simp [fakeIdentity, (exact_unsigned (show 64 ≤ 64 by omega)).fits hc]

/-! ## systemd-resolved -/

def resolvedSnapshot : Format Resolved.ResolvedSnapshot where
  encode data := .object [
    ("default_route", flag.encode data.defaultRoute),
    ("dns", ((signed 31).pair byte.list).list.encode data.dns),
    ("domains", (text.pair flag).list.encode data.domains)]
  decode value := do
    let fields ← fieldsOf value
    let dns ← field fields "dns" ((signed 31).pair byte.list).list
    let domains ← field fields "domains" (text.pair flag).list
    let defaultRoute ← field fields "default_route" flag
    return ⟨dns, domains, defaultRoute⟩

def resolvedIdentity : Format ResolvedIdentity where
  encode data := .object [
    ("address", text.option.encode data.address),
    ("boot_id", uuid.encode data.bootId),
    ("ifindex", (unsigned 32).encode data.ifindex),
    ("iflink", (unsigned 32).option.encode data.iflink),
    ("ifname", text.encode data.ifname),
    ("netns", text.encode data.netns),
    ("uevent", text.option.encode data.uevent)]
  decode value := do
    let fields ← fieldsOf value
    onlyFields ["boot_id", "netns", "ifindex", "ifname", "iflink", "address", "uevent"] fields
    let bootId ← field fields "boot_id" uuid
    let netns ← field fields "netns" text
    let ifindex ← field fields "ifindex" (unsigned 32)
    let ifname ← field fields "ifname" text
    let iflink ← optionalField fields "iflink" (unsigned 32)
    let address ← optionalField fields "address" text
    let uevent ← optionalField fields "uevent" text
    return ⟨bootId, netns, ifindex, ifname, iflink, address, uevent⟩

/-- The address families are 32-bit numbers. -/
def FamiliesFit (data : Resolved.ResolvedSnapshot) : Prop :=
  ∀ entry ∈ data.dns, -2 ^ 31 ≤ entry.1 ∧ entry.1 < 2 ^ 31

/-- The numbers of an identity have their width. -/
structure ResolvedFits (data : ResolvedIdentity) : Prop where
  boot : data.bootId < 2 ^ 128
  ifindex : data.ifindex < 2 ^ 32
  iflink : ∀ iflink ∈ data.iflink, iflink < 2 ^ 32

lemma exact_bytes : byte.list.Exact 1 fun _ => True := exact_byte.list.congr fun _ => by simp

lemma exact_optionalText : text.option.Exact 0 fun _ => True :=
  (exact_text.option fun _ => by simp [text]).congr fun _ => by simp

lemma exact_optionalWord : (unsigned 32).option.Exact 0 fun o => ∀ n ∈ o, n < 2 ^ 32 :=
  (exact_unsigned (by omega)).option fun _ => by simp [unsigned]

lemma exact_linkDns : ((signed 31).pair byte.list).list.Exact 3 fun dns =>
    ∀ entry ∈ dns, -2 ^ 31 ≤ entry.1 ∧ entry.1 < 2 ^ 31 :=
  (((exact_signed (by omega)).mono (Nat.zero_le 1)).pair exact_bytes).list.congr fun _ => by simp

lemma exact_linkDomains : (text.pair flag).list.Exact 2 fun _ => True :=
  (exact_text.pair exact_flag).list.congr fun _ => by simp

lemma exact_resolvedSnapshot : resolvedSnapshot.Exact 4 FamiliesFit where
  sound hd := by
    simp only [resolvedSnapshot, bind_eq_ok] at hd
    obtain ⟨fields, -, dns, hdns, domains, -, route, -, hd⟩ := hd
    obtain rfl := Except.ok.inj hd
    exact exact_linkDns.field hdns
  reads hc := by
    simp [resolvedSnapshot, fieldsOf_object, field, List.lookup_cons, bind_eq_ok,
      exact_linkDns.reads hc, exact_linkDomains.reads trivial, exact_flag.reads trivial]
  fits hc := by
    simp [resolvedSnapshot, exact_linkDns.fits hc,
      (exact_linkDomains.mono (show 2 ≤ 3 by omega)).fits trivial,
      (exact_flag.mono (Nat.zero_le 3)).fits trivial]

lemma exact_resolvedIdentity : resolvedIdentity.Exact 1 ResolvedFits where
  sound hd := by
    simp only [resolvedIdentity, bind_eq_ok] at hd
    obtain ⟨fields, -, -, -, boot, hb, netns, -, ifindex, hi, ifname, -, iflink, hl, address, -,
      uevent, -, hd⟩ := hd
    obtain rfl := Except.ok.inj hd
    exact ⟨exact_uuid.field hb, (exact_unsigned (by omega)).field hi,
      (exact_unsigned (by omega)).optionalField (fun _ => by simp [unsigned]) hl⟩
  reads hc := by
    simp [resolvedIdentity, fieldsOf_object, field, optionalField, onlyFields, List.lookup_cons,
      bind_eq_ok, exact_text.reads trivial, exact_optionalText.reads trivial,
      exact_uuid.reads hc.boot, (exact_unsigned (show 32 ≤ 64 by omega)).reads hc.ifindex,
      exact_optionalWord.reads hc.iflink]
  fits hc := by
    simp [resolvedIdentity, exact_text.fits trivial, exact_optionalText.fits trivial,
      exact_uuid.fits hc.boot, (exact_unsigned (show 32 ≤ 64 by omega)).fits hc.ifindex,
      exact_optionalWord.fits hc.iflink]

/-! ## NetworkManager -/

def nmDnsFields : Format NetworkManager.NmDnsFields where
  encode data := .object [
    ("ipv4_dns", word32.list.encode data.ipv4Dns),
    ("ipv4_dns_search", text.list.encode data.ipv4DnsSearch),
    ("ipv4_ignore_auto_dns", flag.encode data.ipv4IgnoreAutoDns),
    ("ipv6_dns", byte.list.list.encode data.ipv6Dns),
    ("ipv6_dns_search", text.list.encode data.ipv6DnsSearch),
    ("ipv6_ignore_auto_dns", flag.encode data.ipv6IgnoreAutoDns)]
  decode value := do
    let fields ← fieldsOf value
    let ipv4Dns ← field fields "ipv4_dns" word32.list
    let ipv4DnsSearch ← field fields "ipv4_dns_search" text.list
    let ipv4IgnoreAutoDns ← field fields "ipv4_ignore_auto_dns" flag
    let ipv6Dns ← field fields "ipv6_dns" byte.list.list
    let ipv6DnsSearch ← field fields "ipv6_dns_search" text.list
    let ipv6IgnoreAutoDns ← field fields "ipv6_ignore_auto_dns" flag
    return ⟨ipv4Dns, ipv4DnsSearch, ipv4IgnoreAutoDns, ipv6Dns, ipv6DnsSearch, ipv6IgnoreAutoDns⟩

def nmSnapshotData : Format NmSnapshotData where
  encode data := .object [
    ("fields", nmDnsFields.encode data.fields), ("version", word64.encode data.version)]
  decode value := do
    let fields ← fieldsOf value
    let dns ← field fields "fields" nmDnsFields
    let version ← field fields "version" word64
    return ⟨dns, version⟩

def nmResourceIdentity : Format NmResourceIdentity where
  encode data := .object [
    ("active_path", text.encode data.activePath),
    ("connection_uuid", uuid.encode data.connectionUuid),
    ("device_path", text.encode data.devicePath),
    ("ifname", text.encode data.ifname),
    ("service_owner", text.encode data.serviceOwner)]
  decode value := do
    let fields ← fieldsOf value
    onlyFields ["ifname", "device_path", "active_path", "connection_uuid", "service_owner"] fields
    let ifname ← field fields "ifname" text
    let devicePath ← field fields "device_path" text
    let activePath ← field fields "active_path" text
    let connectionUuid ← field fields "connection_uuid" uuid
    let serviceOwner ← field fields "service_owner" text
    return ⟨ifname, devicePath, activePath, connectionUuid, serviceOwner⟩

lemma exact_words : word32.list.Exact 1 fun _ => True := exact_word32.list.congr fun _ => by simp

lemma exact_texts : text.list.Exact 1 fun _ => True := exact_text.list.congr fun _ => by simp

lemma exact_byteLists : byte.list.list.Exact 2 fun _ => True :=
  exact_bytes.list.congr fun _ => by simp

lemma exact_nmDnsFields : nmDnsFields.Exact 3 fun _ => True where
  sound _ := trivial
  reads _ := by
    simp [-Bool.exists_bool, nmDnsFields, fieldsOf_object, field, List.lookup_cons, bind_eq_ok,
      exact_words.reads trivial, exact_texts.reads trivial, exact_flag.reads trivial,
      exact_byteLists.reads trivial]
  fits _ := by
    simp [nmDnsFields, (exact_words.mono (show 1 ≤ 2 by omega)).fits trivial,
      (exact_texts.mono (show 1 ≤ 2 by omega)).fits trivial, exact_byteLists.fits trivial,
      (exact_flag.mono (Nat.zero_le 2)).fits trivial]

lemma exact_nmSnapshotData : nmSnapshotData.Exact 4 fun _ => True where
  sound _ := trivial
  reads _ := by
    simp [nmSnapshotData, fieldsOf_object, field, List.lookup_cons, bind_eq_ok,
      exact_nmDnsFields.reads trivial, exact_word64.reads trivial]
  fits _ := by
    simp [nmSnapshotData, exact_nmDnsFields.fits trivial,
      (exact_word64.mono (Nat.zero_le 3)).fits trivial]

lemma exact_nmResourceIdentity :
    nmResourceIdentity.Exact 1 fun data => data.connectionUuid < 2 ^ 128 where
  sound hd := by
    simp only [nmResourceIdentity, bind_eq_ok] at hd
    obtain ⟨fields, -, -, -, ifname, -, device, -, active, -, connection, hc, owner, -, hd⟩ := hd
    obtain rfl := Except.ok.inj hd
    exact exact_uuid.field hc
  reads hc := by
    simp [nmResourceIdentity, fieldsOf_object, field, onlyFields, List.lookup_cons, bind_eq_ok,
      exact_text.reads trivial, exact_uuid.reads hc]
  fits hc := by
    simp [nmResourceIdentity, exact_text.fits trivial, exact_uuid.fits hc]

/-! ## resolvconf -/

def resolvconfAttributes : Format ResolvconfAttributes where
  encode data := .object [
    ("deprecated", flag.encode data.deprecated),
    ("metric", text.option.encode data.metric),
    ("nosearch", flag.encode data.nosearch),
    ("private", flag.encode data.isPrivate)]
  decode value := do
    let fields ← fieldsOf value
    let metric ← optionalField fields "metric" text
    let isPrivate ← defaultField fields "private" flag false
    let nosearch ← defaultField fields "nosearch" flag false
    let deprecated ← defaultField fields "deprecated" flag false
    return ⟨metric, isPrivate, nosearch, deprecated⟩

/-- `content` has to be there (`deserialize_required_content`). -/
def resolvconfSnapshot : Format ResolvconfSnapshot where
  encode data := .object (
    [("attributes", resolvconfAttributes.encode data.attributes),
      ("content", byte.list.option.encode data.content)] ++ omitNone "live" byte.list data.live)
  decode value := do
    let fields ← fieldsOf value
    let content ← field fields "content" byte.list.option
    let attributes ← field fields "attributes" resolvconfAttributes
    let live ← optionalField fields "live" byte.list
    return ⟨content, attributes, live⟩

lemma exact_resolvconfAttributes : resolvconfAttributes.Exact 1 fun _ => True where
  sound _ := trivial
  reads _ := by
    simp [-Bool.exists_bool, resolvconfAttributes, fieldsOf_object, optionalField, defaultField,
      List.lookup_cons, bind_eq_ok, exact_optionalText.reads trivial, exact_flag.reads trivial]
  fits _ := by
    simp [resolvconfAttributes, exact_optionalText.fits trivial, exact_flag.fits trivial]

lemma exact_optionalBytes : byte.list.option.Exact 1 fun _ => True :=
  (exact_bytes.option fun _ => by simp [Format.list]).congr fun _ => by simp

lemma exact_resolvconfSnapshot : resolvconfSnapshot.Exact 2 fun _ => True where
  sound _ := trivial
  reads {data} _ := by
    obtain ⟨content, attributes, live⟩ := data
    have hlive := fun bytes => exact_bytes.reads_some (a := bytes) (fun _ => by simp [Format.list])
      trivial
    cases live <;>
      simp [resolvconfSnapshot, fieldsOf_object, field, optionalField, omitNone, List.lookup_cons,
        bind_eq_ok, exact_resolvconfAttributes.reads trivial, exact_optionalBytes.reads trivial,
        hlive]
  fits {data} _ := by
    obtain ⟨content, attributes, live⟩ := data
    cases live <;>
      simp [resolvconfSnapshot, omitNone, exact_resolvconfAttributes.fits trivial,
        exact_optionalBytes.fits trivial, exact_bytes.fits trivial]

/-! ## The resolver file -/

def fileOwner : Format FileOwner where
  encode data := .object [("gid", word32.encode data.gid), ("uid", word32.encode data.uid)]
  decode value := do
    let fields ← fieldsOf value
    let uid ← field fields "uid" word32
    let gid ← field fields "gid" word32
    return ⟨uid, gid⟩

def fileTime : Format FileTime where
  encode data := .object [
    ("nanoseconds", word32.encode data.nanoseconds), ("seconds", int64.encode data.seconds)]
  decode value := do
    let fields ← fieldsOf value
    let seconds ← field fields "seconds" int64
    let nanoseconds ← field fields "nanoseconds" word32
    return ⟨seconds, nanoseconds⟩

def directFileMetadata : Format DirectFileMetadata where
  encode data := .object (
    omitNone "flags" word64 data.flags ++ omitNone "links" word64 data.links ++
      [("mode", word32.encode data.mode)] ++ omitNone "modified" fileTime data.modified ++
        omitNone "owner" fileOwner data.owner)
  decode value := do
    let fields ← fieldsOf value
    let mode ← field fields "mode" word32
    let owner ← optionalField fields "owner" fileOwner
    let flags ← optionalField fields "flags" word64
    let links ← optionalField fields "links" word64
    let modified ← optionalField fields "modified" fileTime
    return ⟨mode, owner, flags, links, modified⟩

def directSnapshot : Format DirectSnapshot where
  encode data := .object (
    [("content", byte.list.option.encode data.content)] ++
      omitNone "metadata" directFileMetadata data.metadata)
  decode value := do
    let fields ← fieldsOf value
    onlyFields ["content", "metadata"] fields
    let content ← optionalField fields "content" byte.list
    let metadata ← optionalField fields "metadata" directFileMetadata
    return ⟨content, metadata⟩

lemma exact_fileOwner : fileOwner.Exact 1 fun _ => True where
  sound _ := trivial
  reads _ := by
    simp [fileOwner, fieldsOf_object, field, List.lookup_cons, bind_eq_ok, exact_word32.reads trivial]
  fits _ := by simp [fileOwner, exact_word32.fits trivial]

lemma exact_fileTime : fileTime.Exact 1 fun _ => True where
  sound _ := trivial
  reads _ := by
    simp [fileTime, fieldsOf_object, field, List.lookup_cons, bind_eq_ok, exact_word32.reads trivial,
      exact_int64.reads trivial]
  fits _ := by simp [fileTime, exact_word32.fits trivial, exact_int64.fits trivial]

lemma exact_directFileMetadata : directFileMetadata.Exact 2 fun _ => True where
  sound _ := trivial
  reads {data} _ := by
    obtain ⟨mode, owner, flags, links, modified⟩ := data
    have howner := fun owner => exact_fileOwner.reads_some (a := owner)
      (fun _ => by simp [fileOwner]) trivial
    have htime := fun time => exact_fileTime.reads_some (a := time)
      (fun _ => by simp [fileTime]) trivial
    have hword := fun word => exact_word64.reads_some (a := word)
      (fun _ => by simp [word64, unsigned, Format.via]) trivial
    cases owner <;> cases flags <;> cases links <;> cases modified <;>
      simp [directFileMetadata, fieldsOf_object, field, optionalField, omitNone, List.lookup_cons,
        bind_eq_ok, exact_word32.reads trivial, howner, htime, hword]
  fits {data} _ := by
    obtain ⟨mode, owner, flags, links, modified⟩ := data
    cases owner <;> cases flags <;> cases links <;> cases modified <;>
      simp [directFileMetadata, omitNone, exact_fileOwner.fits trivial, exact_fileTime.fits trivial,
        (exact_word32.mono (Nat.zero_le 1)).fits trivial,
        (exact_word64.mono (Nat.zero_le 1)).fits trivial]

lemma exact_directSnapshot : directSnapshot.Exact 3 fun _ => True where
  sound _ := trivial
  reads {data} _ := by
    obtain ⟨content, metadata⟩ := data
    have hmetadata := fun metadata => exact_directFileMetadata.reads_some (a := metadata)
      (fun _ => by simp [directFileMetadata]) trivial
    cases metadata <;>
      simp [directSnapshot, fieldsOf_object, onlyFields, optionalField, omitNone, List.lookup_cons,
        bind_eq_ok, exact_optionalBytes.reads trivial, hmetadata]
  fits {data} _ := by
    obtain ⟨content, metadata⟩ := data
    cases metadata <;>
      simp [directSnapshot, omitNone, exact_directFileMetadata.fits trivial,
        (exact_optionalBytes.mono (show 1 ≤ 2 by omega)).fits trivial]

/-! ## Snapshots and identities -/

/-- `encode_snapshot`. -/
def encodeSnapshot (toAscii : List Char → Option (List Char)) : SnapshotData → Value
  | .fake data => (fakeSnapshotData toAscii).encode data
  | .systemdResolved data => resolvedSnapshot.encode data
  | .networkManager data => nmSnapshotData.encode data
  | .resolvconf data => resolvconfSnapshot.encode data
  | .resolvConfFile data => directSnapshot.encode data

/-- `decode_snapshot`: the backend says which payload is read. -/
def decodeSnapshot (toAscii : List Char → Option (List Char)) (backend : BackendKind)
    (data : Value) : Except String SnapshotData :=
  match backend with
  | .fake => .fake <$> (fakeSnapshotData toAscii).decode data
  | .systemdResolved => .systemdResolved <$> resolvedSnapshot.decode data
  | .networkManager => .networkManager <$> nmSnapshotData.decode data
  | .resolvconf => .resolvconf <$> resolvconfSnapshot.decode data
  | .resolvConfFile => .resolvConfFile <$> directSnapshot.decode data
  | backend => .error s!"backend {backend.text} is unavailable on this platform"

/-- `encode_identity`. -/
def encodeIdentity : IdentityData → Value
  | .untracked => .null
  | .fake data => fakeIdentity.encode data
  | .systemdResolved data => resolvedIdentity.encode data
  | .networkManager data => nmResourceIdentity.encode data

/-- `decode_identity`. -/
def decodeIdentity (backend : BackendKind) (data : Value) : Except String IdentityData :=
  match backend, data with
  | .fake, data => .fake <$> fakeIdentity.decode data
  | .systemdResolved, data => .systemdResolved <$> resolvedIdentity.decode data
  | .networkManager, data => .networkManager <$> nmResourceIdentity.decode data
  | .resolvconf, .null => .ok .untracked
  | .resolvConfFile, .null => .ok .untracked
  | .windowsIpHelper, .null => .ok .untracked
  | .macosSystemConfiguration, .null => .ok .untracked
  | backend, _ => .error s!"invalid identity data for backend {backend.text}"

/-- The values of a payload that their formats are for. -/
def SnapshotData.Storable (toAscii : List Char → Option (List Char)) : SnapshotData → Prop
  | .fake data => StateParsed toAscii data.state ∧ data.generation < 2 ^ 64
  | .systemdResolved data => FamiliesFit data
  | _ => True

def IdentityData.Storable : IdentityData → Prop
  | .untracked => True
  | .fake data => data.incarnation < 2 ^ 64
  | .systemdResolved data => ResolvedFits data
  | .networkManager data => data.connectionUuid < 2 ^ 128

/-- The identities a backend has. -/
def IdentityData.Of : IdentityData → BackendKind → Prop
  | .untracked, kind => kind ∈ [.resolvconf, .resolvConfFile, .windowsIpHelper,
      .macosSystemConfiguration]
  | .fake _, kind => kind = .fake
  | .systemdResolved _, kind => kind = .systemdResolved
  | .networkManager _, kind => kind = .networkManager

lemma map_eq_ok {α β ε : Type} {f : α → β} {x : Except ε α} {b : β} :
    f <$> x = .ok b ↔ ∃ a, x = .ok a ∧ f a = b := by
  cases x <;> simp [Functor.map, Except.map]

/-- A snapshot is read back under its own kind. -/
lemma decodeSnapshot_encodeSnapshot (h : IdempotentAscii toAscii) {data : SnapshotData}
    (hdata : data.Storable toAscii) :
    decodeSnapshot toAscii data.kind (encodeSnapshot toAscii data) = .ok data := by
  cases data with
  | fake data => exact map_eq_ok.mpr ⟨data, (exact_fakeSnapshotData h).reads hdata, rfl⟩
  | systemdResolved data => exact map_eq_ok.mpr ⟨data, exact_resolvedSnapshot.reads hdata, rfl⟩
  | networkManager data => exact map_eq_ok.mpr ⟨data, exact_nmSnapshotData.reads trivial, rfl⟩
  | resolvconf data => exact map_eq_ok.mpr ⟨data, exact_resolvconfSnapshot.reads trivial, rfl⟩
  | resolvConfFile data => exact map_eq_ok.mpr ⟨data, exact_directSnapshot.reads trivial, rfl⟩

/-- What is read under a kind is of that kind. -/
lemma decodeSnapshot_sound (h : IdempotentAscii toAscii) {backend : BackendKind} {value : Value}
    {data : SnapshotData} (hd : decodeSnapshot toAscii backend value = .ok data) :
    data.kind = backend ∧ data.Storable toAscii := by
  cases backend with
  | windowsIpHelper => exact absurd hd (by simp [decodeSnapshot])
  | macosSystemConfiguration => exact absurd hd (by simp [decodeSnapshot])
  | fake =>
      obtain ⟨data, hdata, rfl⟩ := map_eq_ok.mp hd
      exact ⟨rfl, (exact_fakeSnapshotData h).sound hdata⟩
  | systemdResolved =>
      obtain ⟨data, hdata, rfl⟩ := map_eq_ok.mp hd
      exact ⟨rfl, exact_resolvedSnapshot.sound hdata⟩
  | networkManager =>
      obtain ⟨data, -, rfl⟩ := map_eq_ok.mp hd
      exact ⟨rfl, trivial⟩
  | resolvconf =>
      obtain ⟨data, -, rfl⟩ := map_eq_ok.mp hd
      exact ⟨rfl, trivial⟩
  | resolvConfFile =>
      obtain ⟨data, -, rfl⟩ := map_eq_ok.mp hd
      exact ⟨rfl, trivial⟩

lemma fits_encodeSnapshot (h : IdempotentAscii toAscii) {data : SnapshotData}
    (hdata : data.Storable toAscii) : Fits 4 (encodeSnapshot toAscii data) := by
  cases data with
  | fake data => exact (exact_fakeSnapshotData h).fits hdata
  | systemdResolved data => exact exact_resolvedSnapshot.fits hdata
  | networkManager data => exact exact_nmSnapshotData.fits trivial
  | resolvconf data => exact (exact_resolvconfSnapshot.mono (show 2 ≤ 4 by omega)).fits trivial
  | resolvConfFile data => exact (exact_directSnapshot.mono (show 3 ≤ 4 by omega)).fits trivial

/-- An identity is read back under every backend that has such identities. -/
lemma decodeIdentity_encodeIdentity {backend : BackendKind} {data : IdentityData}
    (hdata : data.Storable) (hof : data.Of backend) :
    decodeIdentity backend (encodeIdentity data) = .ok data := by
  cases data with
  | untracked =>
      simp only [IdentityData.Of, List.mem_cons, List.not_mem_nil, or_false] at hof
      rcases hof with rfl | rfl | rfl | rfl <;> rfl
  | fake data =>
      obtain rfl : backend = .fake := hof
      exact map_eq_ok.mpr ⟨data, exact_fakeIdentity.reads hdata, rfl⟩
  | systemdResolved data =>
      obtain rfl : backend = .systemdResolved := hof
      exact map_eq_ok.mpr ⟨data, exact_resolvedIdentity.reads hdata, rfl⟩
  | networkManager data =>
      obtain rfl : backend = .networkManager := hof
      exact map_eq_ok.mpr ⟨data, exact_nmResourceIdentity.reads hdata, rfl⟩

/-- What is read under a backend is an identity that the backend has. -/
lemma decodeIdentity_sound {backend : BackendKind} {value : Value} {data : IdentityData}
    (hd : decodeIdentity backend value = .ok data) : data.Of backend ∧ data.Storable := by
  unfold decodeIdentity at hd
  split at hd
  case h_1 =>
    obtain ⟨data, hdata, rfl⟩ := map_eq_ok.mp hd
    exact ⟨rfl, exact_fakeIdentity.sound hdata⟩
  case h_2 =>
    obtain ⟨data, hdata, rfl⟩ := map_eq_ok.mp hd
    exact ⟨rfl, exact_resolvedIdentity.sound hdata⟩
  case h_3 =>
    obtain ⟨data, hdata, rfl⟩ := map_eq_ok.mp hd
    exact ⟨rfl, exact_nmResourceIdentity.sound hdata⟩
  case h_8 => exact absurd hd (by simp)
  all_goals
    obtain rfl := Except.ok.inj hd
    exact ⟨by simp [IdentityData.Of], trivial⟩

lemma fits_encodeIdentity {data : IdentityData} (hdata : data.Storable) :
    Fits 1 (encodeIdentity data) := by
  cases data with
  | untracked => trivial
  | fake data => exact exact_fakeIdentity.fits hdata
  | systemdResolved data => exact exact_resolvedIdentity.fits hdata
  | networkManager data => exact exact_nmResourceIdentity.fits hdata

end Osdns.Journal
