import Osdns.Platform.Lossless

/-!
# Windows interface writes verify

What `apply_interface` writes for a plan is, read back by `read_interface_state`, what
`matches_desired` and `public_state` expect of that plan.  The operating system returns the texts
that were written last; it may return none for an empty one.
-/

namespace Osdns

open Listing (collectNew_of_subset)

namespace Windows

/-- The operating system returns what was written. -/
structure Returned (written readback : NativeInterface) : Prop where
  ipv4Nameserver : readback.ipv4.nameserver.getD [] = written.ipv4.nameserver.getD []
  ipv4Searchlist : readback.ipv4.searchlist.getD [] = written.ipv4.searchlist.getD []
  ipv6Nameserver : readback.ipv6.nameserver.getD [] = written.ipv6.nameserver.getD []
  ipv6Searchlist : readback.ipv6.searchlist.getD [] = written.ipv6.searchlist.getD []

/-- Two captures hold the same lists; an unset list is an empty one. -/
structure SameLists (x y : InterfaceState) : Prop where
  ipv4Nameservers : x.ipv4Nameservers.getD [] = y.ipv4Nameservers.getD []
  ipv4Search : x.ipv4Search.getD [] = y.ipv4Search.getD []
  ipv6Nameservers : x.ipv6Nameservers.getD [] = y.ipv6Nameservers.getD []
  ipv6Search : x.ipv6Search.getD [] = y.ipv6Search.getD []

/-- `matches_desired` compares the lists with the expected ones. -/
lemma matchesDesired_iff {current : InterfaceState} {plan : NormalizedConfig} :
    matchesDesired current plan = true ↔ SameLists current (expectedInterfaceState plan) := by
  simp only [matchesDesired, Bool.and_eq_true, beq_iff_eq]
  constructor
  · rintro ⟨⟨⟨servers4, servers6⟩, search4⟩, search6⟩
    exact ⟨servers4, search4, servers6, search6⟩
  · rintro ⟨servers4, search4, servers6, search6⟩
    exact ⟨⟨⟨servers4, servers6⟩, search4⟩, search6⟩

/-! ## Lists -/

lemma parseAddressList_joinAddresses (list : List IpAddr) :
    parseAddressList (joinAddresses list) = list := by
  rw [parseAddressList, listEntries_joinAddresses, List.filterMap_map]
  refine (List.filterMap_congr fun a _ => ?_).trans List.filterMap_some
  exact a.parse_toText

variable {toAscii : List Char → Option (List Char)}

lemma parseSuffixList_joinSuffixes (idempotent : IdempotentAscii toAscii) {list : List DnsSuffix}
    (parsed : ∀ s ∈ list, ∃ input, DnsSuffix.parse toAscii input = some s) :
    parseSuffixList toAscii (joinSuffixes list) = list.filter fun suffix => !suffix.isRoot := by
  rw [parseSuffixList, listEntries_joinSuffixes parsed, List.filterMap_map]
  refine (List.filterMap_congr fun s hs => ?_).trans List.filterMap_some
  exact parse_joined idempotent parsed s hs

/-! ## Writes and reads -/

variable {plan : NormalizedConfig} {native readback : NativeInterface}

/-- The lists of a plan come back. -/
lemma sameLists_readback (idempotent : IdempotentAscii toAscii)
    (parsed : ∀ s ∈ plan.searchDomains, ∃ input, DnsSuffix.parse toAscii input = some s)
    (returned : Returned (apply native plan) readback) :
    SameLists (readInterfaceState toAscii readback) (expectedInterfaceState plan) := by
  have search : parseSuffixList toAscii
      (joinSuffixes (plan.searchDomains.filter fun suffix => !suffix.isRoot)) =
        plan.searchDomains.filter fun suffix => !suffix.isRoot := by
    rw [parseSuffixList_joinSuffixes idempotent fun s hs => parsed s (List.mem_of_mem_filter hs),
      List.filter_filter]
    simp only [Bool.and_self]
  refine ⟨?_, ?_, ?_, ?_⟩
  · rw [captured_ipv4Nameservers, returned.ipv4Nameserver]
    change (parseAddressList (joinAddresses (plan.nameservers.filter IpAddr.isIpv4))).filter _ = _
    rw [parseAddressList_joinAddresses, List.filter_filter]
    simp only [Bool.and_self]
    rfl
  · rw [captured_ipv4Search, returned.ipv4Searchlist]
    exact search
  · rw [captured_ipv6Nameservers, returned.ipv6Nameserver]
    exact parseAddressList_joinAddresses _
  · rw [captured_ipv6Search, returned.ipv6Searchlist]
    exact search

/-- What an apply wrote is read back as the lists of the plan, verifies, and is shown as the plan's
addresses, those of IPv4 first, and its proper search domains, each as often as the plan has it. -/
theorem readback_verifies (idempotent : IdempotentAscii toAscii) (scope : DnsScope)
    (parsed : ∀ s ∈ plan.searchDomains, ∃ input, DnsSuffix.parse toAscii input = some s)
    (returned : Returned (apply native plan) readback) :
    let state := readInterfaceState toAscii readback
    SameLists state (expectedInterfaceState plan) ∧
      matchesDesired state plan = true ∧
      publicState state scope =
        { scope
          nameservers := plan.nameservers.filter IpAddr.isIpv4 ++
            plan.nameservers.filter fun a => !a.isIpv4
          searchDomains := plan.searchDomains.filter fun suffix => !suffix.isRoot
          routingDomains := []
          defaultRoute := none } := by
  have same := sameLists_readback idempotent parsed returned
  refine ⟨same, matchesDesired_iff.mpr same, ?_⟩
  rw [publicState, same.ipv4Nameservers, same.ipv6Nameservers, same.ipv4Search, same.ipv6Search]
  exact congrArg (fun search => (⟨scope, _, search, [], none⟩ : DnsConfig))
    (collectNew_of_subset (List.Subset.refl _))

/-- A plan for one stack, with the root among its search domains. -/
def ipv4Plan : NormalizedConfig where
  nameservers := [.v4 167772161]
  searchDomains := [⟨[]⟩, ⟨"corp.example".toList⟩]
  routingDomains := []
  defaultRoute := none

/-- The empty list of the other stack comes back unset. -/
def ipv4Readback : NativeInterface where
  ipv4 := (apply readable ipv4Plan).ipv4
  ipv6 := ⟨none, (apply readable ipv4Plan).ipv6.searchlist⟩

theorem readback_verifies_ipv4Plan :
    matchesDesired (readInterfaceState lowercaseAscii ipv4Readback) ipv4Plan = true ∧
      (publicState (readInterfaceState lowercaseAscii ipv4Readback) .global).searchDomains =
        [⟨"corp.example".toList⟩] := by
  have parsed : ∀ s ∈ ipv4Plan.searchDomains,
      ∃ input, DnsSuffix.parse lowercaseAscii input = some s := by
    intro s hs
    simp only [ipv4Plan, List.mem_cons, List.not_mem_nil, or_false] at hs
    rcases hs with rfl | rfl
    · exact ⟨[], rfl⟩
    · exact ⟨"corp.example".toList, by decide⟩
  have returned : Returned (apply readable ipv4Plan) ipv4Readback := ⟨rfl, rfl, rfl, rfl⟩
  obtain ⟨_, verified, shown⟩ :=
    readback_verifies idempotent_lowercaseAscii .global parsed returned
  exact ⟨verified, by rw [shown]; decide⟩

end Windows

end Osdns
