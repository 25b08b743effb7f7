import Osdns.Framework.Lists
import Osdns.Platform.Text

/-!
# The Windows interface backend

`platform/windows/mod.rs` and `platform/windows/interface.rs`: the DNS settings of an interface are
four texts, a nameserver list and a search list for each of the two stacks.  The backend captures
them as typed lists and writes typed lists back as texts.

The operating system is modelled by `NativeInterface`, which holds the texts that were written last.
-/

namespace Osdns

open Listing (collectNew)

namespace Windows

/-- `RawDnsSettings`. -/
structure RawDnsSettings where
  nameserver : Option (List Char)
  searchlist : Option (List Char)

/-- The settings of an interface, per stack. -/
structure NativeInterface where
  ipv4 : RawDnsSettings
  ipv6 : RawDnsSettings

/-- `InterfaceState`. -/
structure InterfaceState where
  ipv4Nameservers : Option (List IpAddr)
  ipv4Search : Option (List DnsSuffix)
  ipv6Nameservers : Option (List IpAddr)
  ipv6Search : Option (List DnsSuffix)

/-! ## Texts -/

/-- The characters that end an entry of a list. -/
def isSeparator (c : Char) : Bool := c == ',' || c == ' ' || c == ';'

/-- The entries of a list, trimmed; empty ones do not count. -/
def listEntries (text : List Char) : List (List Char) :=
  ((text.splitOnP isSeparator).map trim).filter fun entry => !entry.isEmpty

/-- `parse_address_list`. -/
def parseAddressList (text : List Char) : List IpAddr := (listEntries text).filterMap IpAddr.parse

/-- `parse_suffix_list`. -/
def parseSuffixList (toAscii : List Char → Option (List Char)) (text : List Char) :
    List DnsSuffix :=
  (listEntries text).filterMap (DnsSuffix.parse toAscii)

/-- `join_addresses`. -/
def joinAddresses (list : List IpAddr) : List Char := [','].intercalate (list.map IpAddr.toText)

/-- `join_suffixes`. -/
def joinSuffixes (list : List DnsSuffix) : List Char :=
  [','].intercalate ((list.filter fun suffix => !suffix.isRoot).map DnsSuffix.toText)

/-! ## Capture, apply and restore -/

/-- `read_interface_state`. -/
def readInterfaceState (toAscii : List Char → Option (List Char)) (native : NativeInterface) :
    InterfaceState where
  ipv4Nameservers :=
    (native.ipv4.nameserver.map parseAddressList).map fun list => list.filter IpAddr.isIpv4
  ipv6Nameservers := native.ipv6.nameserver.map parseAddressList
  ipv4Search := native.ipv4.searchlist.map (parseSuffixList toAscii)
  ipv6Search := native.ipv6.searchlist.map (parseSuffixList toAscii)

/-- `set_dns_settings` on one stack: a text that is not given stays. -/
def RawDnsSettings.set (raw : RawDnsSettings) (nameserver searchlist : Option (List Char)) :
    RawDnsSettings where
  nameserver := nameserver.or raw.nameserver
  searchlist := searchlist.or raw.searchlist

/-- `apply_interface`. -/
def applyInterface (native : NativeInterface) (state : InterfaceState) : NativeInterface where
  ipv4 := native.ipv4.set (state.ipv4Nameservers.map joinAddresses)
    (state.ipv4Search.map joinSuffixes)
  ipv6 := native.ipv6.set (state.ipv6Nameservers.map joinAddresses)
    (state.ipv6Search.map joinSuffixes)

/-- `restore_interface`. -/
def restoreInterface (native : NativeInterface) (before : InterfaceState) : NativeInterface where
  ipv4 := native.ipv4.set (some (joinAddresses (before.ipv4Nameservers.getD [])))
    (some (joinSuffixes (before.ipv4Search.getD [])))
  ipv6 := native.ipv6.set (some (joinAddresses (before.ipv6Nameservers.getD [])))
    (some (joinSuffixes (before.ipv6Search.getD [])))

/-- `expected_interface_state`. -/
def expectedInterfaceState (plan : NormalizedConfig) : InterfaceState :=
  let search := plan.searchDomains.filter fun suffix => !suffix.isRoot
  { ipv4Nameservers := some (plan.nameservers.filter IpAddr.isIpv4)
    ipv4Search := some search
    ipv6Nameservers := some (plan.nameservers.filter fun a => !a.isIpv4)
    ipv6Search := some search }

/-- `WindowsBackend::apply` on an interface. -/
def apply (native : NativeInterface) (plan : NormalizedConfig) : NativeInterface :=
  applyInterface native (expectedInterfaceState plan)

/-- `WindowsBackend::equivalent` on interfaces. -/
def equivalent (x y : InterfaceState) : Bool :=
  x.ipv4Nameservers.getD [] == y.ipv4Nameservers.getD [] &&
    x.ipv6Nameservers.getD [] == y.ipv6Nameservers.getD [] &&
    x.ipv4Search.getD [] == y.ipv4Search.getD [] &&
    x.ipv6Search.getD [] == y.ipv6Search.getD []

/-! ## Verification and the public view -/

/-- `WindowsBackend::matches_desired` on an interface. -/
def matchesDesired (current : InterfaceState) (plan : NormalizedConfig) : Bool :=
  let expected := expectedInterfaceState plan
  current.ipv4Nameservers.getD [] == expected.ipv4Nameservers.getD [] &&
    current.ipv6Nameservers.getD [] == expected.ipv6Nameservers.getD [] &&
    current.ipv4Search.getD [] == expected.ipv4Search.getD [] &&
    current.ipv6Search.getD [] == expected.ipv6Search.getD []

/-- `WindowsBackend::public_state` on an interface. -/
def publicState (state : InterfaceState) (scope : DnsScope) : DnsConfig where
  scope
  nameservers := state.ipv4Nameservers.getD [] ++ state.ipv6Nameservers.getD []
  searchDomains := collectNew (state.ipv4Search.getD []) (state.ipv6Search.getD [])
  routingDomains := []
  defaultRoute := none

end Windows

end Osdns
