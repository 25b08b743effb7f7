import Osdns.Platform.NetworkManager

/-!
# What NetworkManager is given for a plan

The settings of a connection after an accepted plan was written to them: what
`parse_nm_dns_fields` and `public_state` find there, and which addresses the integers of `ipv4.dns`
are for NetworkManager.  Only a plan for which no server and no domain is written is read back
(`codec_iff`), and the integers are those of a big-endian host (`wire_iff`).
-/

namespace Osdns

open Bytes Listing

namespace NetworkManager

/-! ## The wire format -/

inductive ByteOrder
  | little
  | big
  deriving DecidableEq

/-- The integer whose bytes in the memory of a host are the given octets, in their order. -/
def networkInteger : ByteOrder → List UInt8 → UInt32
  | .little, octets => UInt32.ofNat (ofLittleEndian octets)
  | .big, octets => UInt32.ofNat (ofBigEndian octets)

/-- `u32::from_be_bytes` gives the integer whose bytes a big-endian host would hold. -/
lemma filterMap_ipv4Integer (nameservers : List IpAddr) :
    nameservers.filterMap ipv4Integer =
      (nameservers.filter IpAddr.isIpv4).map fun a => networkInteger .big a.octets := by
  induction nameservers with
  | nil => rfl
  | cons a nameservers ih =>
      cases a with
      | v4 bits => exact congrArg (networkInteger .big (IpAddr.v4 bits).octets :: ·) ih
      | v6 bits => exact ih

lemma length_octets {a : IpAddr} (h : a.isIpv4 = true) : a.octets.length = 4 := by
  cases a with
  | v4 bits => exact length_bigEndian
  | v6 bits => cases h

/-- Both byte orders agree on an address that reads the same backwards. -/
lemma networkInteger_eq_iff {octets : List UInt8} (h : octets.length = 4) :
    networkInteger .big octets = networkInteger .little octets ↔ octets.reverse = octets := by
  have hbig : ofBigEndian octets < UInt32.size := by
    have := ofLittleEndian_lt octets.reverse
    rwa [List.length_reverse, h] at this
  have hlittle : ofLittleEndian octets < UInt32.size := by
    have := ofLittleEndian_lt octets
    rwa [h] at this
  have hnat : networkInteger .big octets = networkInteger .little octets ↔
      ofBigEndian octets = ofLittleEndian octets := by
    rw [← UInt32.toNat_inj]
    simp only [networkInteger, UInt32.toNat_ofNat_of_lt' hbig, UInt32.toNat_ofNat_of_lt' hlittle]
  rw [hnat, ofBigEndian, ofLittleEndian_inj (by simp)]

/-! ## Addresses -/

lemma map_ipv4Integer (nameservers : List IpAddr) :
    (nameservers.filterMap ipv4Integer).map (fun raw => ipv4OfOctets (bigEndian 4 raw.toNat)) =
      nameservers.filter IpAddr.isIpv4 := by
  induction nameservers with
  | nil => rfl
  | cons a nameservers ih =>
      cases a with
      | v4 bits =>
          have hlt : bits.toNat < UInt32.size := bits.isLt
          have hint : ipv4Integer (.v4 bits) = some (UInt32.ofNat bits.toNat) := by
            rw [ipv4Integer, IpAddr.octets, ofBigEndian_bigEndian hlt]
          have hback : ipv4OfOctets (bigEndian 4 (UInt32.ofNat bits.toNat).toNat) = .v4 bits := by
            rw [UInt32.toNat_ofNat_of_lt' hlt]
            exact ipv4OfOctets_octets bits
          rw [List.filterMap_cons_some hint, List.map_cons, hback, ih]
          rfl
      | v6 bits => exact ih

lemma map_ipv6Octets (nameservers : List IpAddr) :
    ((nameservers.filterMap ipv6Octets).filter fun bytes => bytes.length = 16).map ipv6OfOctets =
      nameservers.filter fun a => !a.isIpv4 := by
  induction nameservers with
  | nil => rfl
  | cons a nameservers ih =>
      cases a with
      | v4 bits => exact ih
      | v6 bits =>
          have hoctets : ipv6Octets (.v6 bits) = some (IpAddr.v6 bits).octets := rfl
          have hlen : (IpAddr.v6 bits).octets.length = 16 := length_bigEndian
          rw [List.filterMap_cons_some hoctets, List.filter_cons_of_pos (by simpa using hlen),
            List.map_cons, ipv6OfOctets_octets, ih]
          rfl

/-! ## Domains -/

section Domains

variable {toAscii : List Char → Option (List Char)} {plan : NormalizedConfig} {s : DnsSuffix}
  {input : List Char}

/-- The search domains of a plan that are written. -/
def properSearch (plan : NormalizedConfig) : List DnsSuffix :=
  plan.searchDomains.filter fun domain => !domain.isRoot

/-- The routing domains that are not written as search domains. -/
def routeOnly (plan : NormalizedConfig) : List DnsSuffix :=
  plan.routingDomains.filter fun domain => domain ∉ properSearch plan

lemma proper_of_mem (hs : s ∈ properSearch plan) :
    s ∈ plan.searchDomains ∧ s.isRoot = false ∧ s.toText = s.text := by
  obtain ⟨hmem, hroot⟩ := List.mem_filter.mp hs
  have proper : s.isRoot = false := by simpa using hroot
  exact ⟨hmem, proper, by simp [DnsSuffix.toText, proper]⟩

lemma searchEntries_eq (h : plan.searchDomains.Nodup) :
    searchEntries plan = (properSearch plan).map DnsSuffix.toText := by
  have htext : (properSearch plan).map DnsSuffix.toText = (properSearch plan).map DnsSuffix.text :=
    List.map_congr_left fun s hs => (proper_of_mem hs).2.2
  have hinj : Function.Injective DnsSuffix.text := by
    rintro ⟨_⟩ ⟨_⟩ rfl
    rfl
  rw [htext]
  exact dedupe_of_nodup ((h.filter _).map hinj)

/-- The loop over the routing domains pushes the names that are not search entries. -/
lemma foldl_routing (search routing : List (List Char)) (domains : List DnsSuffix) :
    domains.foldl (fun routing domain =>
      if !search.contains domain.toText && !routing.contains domain.toText then
        routing ++ [domain.toText]
      else routing) routing =
      collectNew routing ((domains.map DnsSuffix.toText).filter fun name => name ∉ search) := by
  induction domains generalizing routing with
  | nil => rfl
  | cons domain domains ih =>
      rw [List.foldl_cons, ih, List.map_cons]
      by_cases hsearch : domain.toText ∈ search
      · rw [List.filter_cons_of_neg (by simpa), if_neg (by simp [hsearch])]
      · rw [List.filter_cons_of_pos (by simpa), collectNew_cons, pushNew]
        by_cases hrouting : domain.toText ∈ routing
        · simp [hrouting]
        · simp [hsearch, hrouting]

lemma routingEntries_eq (idempotent : IdempotentAscii toAscii) (h : plan.Deduplicated toAscii) :
    routingEntries (searchEntries plan) plan.routingDomains =
      (routeOnly plan).map DnsSuffix.toText := by
  have hiff : ∀ d ∈ plan.routingDomains,
      (d.toText ∈ (properSearch plan).map DnsSuffix.toText ↔ d ∈ properSearch plan) := by
    intro d hd
    obtain ⟨_, hparse⟩ := h.routing_parsed d hd
    constructor
    · intro hm
      obtain ⟨s, hs, heq⟩ := List.mem_map.mp hm
      obtain ⟨_, hsparse⟩ := h.search_parsed s (proper_of_mem hs).1
      exact DnsSuffix.toText_inj idempotent hsparse hparse heq ▸ hs
    · exact List.mem_map_of_mem
  have hfilter : ((plan.routingDomains.map DnsSuffix.toText).filter fun name =>
      name ∉ (properSearch plan).map DnsSuffix.toText) = (routeOnly plan).map DnsSuffix.toText := by
    rw [List.filter_map, routeOnly]
    refine congrArg _ (List.filter_congr fun d hd => ?_)
    simp only [Function.comp_apply, hiff d hd]
  have hnodup : ((routeOnly plan).map DnsSuffix.toText).Nodup :=
    Resolved.nodup_toText idempotent (h.routingDomains.filter _) fun s hs =>
      h.routing_parsed s (List.mem_filter.mp hs).1
  rw [routingEntries, foldl_routing, searchEntries_eq h.searchDomains, hfilter]
  exact dedupe_of_nodup hnodup

/-- A search entry is read as a search domain, since no label starts with a tilde. -/
lemma readEntry_search (idempotent : IdempotentAscii toAscii) {search routing : List DnsSuffix}
    (hparse : DnsSuffix.parse toAscii input = some s) (proper : s.isRoot = false) :
    readEntry toAscii (search, routing) s.toText = (pushNew search s, routing) := by
  have hread := DnsSuffix.parse_toText idempotent hparse
  obtain ⟨_, valid, htext⟩ := DnsSuffix.proper_text hparse proper
  have htilde : '~' ∉ s.toText := by
    rw [htext]
    intro hmem
    rcases validDomain_chars valid '~' hmem with hdot | hlabel
    · exact absurd hdot (by decide)
    · exact absurd hlabel (by decide)
  unfold readEntry
  split
  · next rest heq => exact absurd (heq ▸ List.mem_cons_self) htilde
  · rw [hread]

lemma readEntry_routing (idempotent : IdempotentAscii toAscii) {search routing : List DnsSuffix}
    (hparse : DnsSuffix.parse toAscii input = some s) :
    readEntry toAscii (search, routing) ('~' :: s.toText) = (search, pushNew routing s) := by
  have hne : s.toText.isEmpty = false := by
    unfold DnsSuffix.toText
    split
    · rfl
    · next hroot => simpa [DnsSuffix.isRoot] using hroot
  simp only [readEntry, hne, Bool.false_eq_true, if_false, DnsSuffix.parse_toText idempotent hparse]

lemma foldl_readEntry_search (idempotent : IdempotentAscii toAscii)
    {list search routing : List DnsSuffix} (proper : ∀ s ∈ list, s.isRoot = false)
    (parsed : ∀ s ∈ list, ∃ input, DnsSuffix.parse toAscii input = some s) :
    (list.map DnsSuffix.toText).foldl (readEntry toAscii) (search, routing) =
      (collectNew search list, routing) := by
  induction list generalizing search with
  | nil => rfl
  | cons s list ih =>
      obtain ⟨_, hparse⟩ := parsed s List.mem_cons_self
      rw [List.map_cons, List.foldl_cons,
        readEntry_search idempotent hparse (proper s List.mem_cons_self)]
      exact ih (fun s hs => proper s (List.mem_cons_of_mem _ hs))
        (fun s hs => parsed s (List.mem_cons_of_mem _ hs))

lemma foldl_readEntry_routing (idempotent : IdempotentAscii toAscii)
    {list search routing : List DnsSuffix}
    (parsed : ∀ s ∈ list, ∃ input, DnsSuffix.parse toAscii input = some s) :
    (list.map fun s => '~' :: s.toText).foldl (readEntry toAscii) (search, routing) =
      (search, collectNew routing list) := by
  induction list generalizing routing with
  | nil => rfl
  | cons s list ih =>
      obtain ⟨_, hparse⟩ := parsed s List.mem_cons_self
      rw [List.map_cons, List.foldl_cons, readEntry_routing idempotent hparse]
      exact ih fun s hs => parsed s (List.mem_cons_of_mem _ hs)

/-- The entries that are written for a plan, whose routing domains are left out without split
DNS. -/
lemma ipv4DnsSearch_fromPlan (idempotent : IdempotentAscii toAscii)
    (h : plan.Deduplicated toAscii) {splitDns : Bool}
    (hsplit : splitDns = false → plan.routingDomains = []) :
    (NmDnsFields.fromPlan plan splitDns).ipv4DnsSearch =
      (properSearch plan).map DnsSuffix.toText ++
        (routeOnly plan).map fun s => '~' :: s.toText := by
  have hrouting : (if splitDns then routingEntries (searchEntries plan) plan.routingDomains else []) =
      (routeOnly plan).map DnsSuffix.toText := by
    cases splitDns with
    | true => exact routingEntries_eq idempotent h
    | false => simp [routeOnly, hsplit rfl]
  simp only [NmDnsFields.fromPlan, hrouting, List.map_map, Function.comp_def]
  rw [searchEntries_eq h.searchDomains]

/-- The domains are read back. -/
lemma parseNmSearchEntries_fromPlan (idempotent : IdempotentAscii toAscii)
    (h : plan.Deduplicated toAscii) {splitDns : Bool}
    (hsplit : splitDns = false → plan.routingDomains = []) :
    parseNmSearchEntries toAscii (NmDnsFields.fromPlan plan splitDns).ipv4DnsSearch =
      (properSearch plan, routeOnly plan) := by
  have hproper : ∀ s ∈ properSearch plan, ∃ input, DnsSuffix.parse toAscii input = some s :=
    fun s hs => h.search_parsed s (proper_of_mem hs).1
  have hroute : ∀ s ∈ routeOnly plan, ∃ input, DnsSuffix.parse toAscii input = some s :=
    fun s hs => h.routing_parsed s (List.mem_filter.mp hs).1
  rw [parseNmSearchEntries, ipv4DnsSearch_fromPlan idempotent h hsplit, List.foldl_append,
    foldl_readEntry_search idempotent (fun s hs => (proper_of_mem hs).2.1) hproper,
    foldl_readEntry_routing idempotent hroute]
  have hsearch : collectNew [] (properSearch plan) = properSearch plan :=
    dedupe_of_nodup (h.searchDomains.filter _)
  have hrouting : collectNew [] (routeOnly plan) = routeOnly plan :=
    dedupe_of_nodup (h.routingDomains.filter _)
  rw [hsearch, hrouting]

end Domains

/-! ## The codec -/

/-- What is read back from the settings of a connection that a plan was written to. -/
structure ReadBack (toAscii : List Char → Option (List Char)) (splitDns : Bool)
    (plan : NormalizedConfig) : Prop where
  fields : ∀ settings,
    parseNmDnsFields (convertSettings (withDnsFields settings (.fromPlan plan splitDns))) =
      .fromPlan plan splitDns
  sections : ∀ settings name, name ≠ "ipv4" → name ≠ "ipv6" →
    withDnsFields settings (.fromPlan plan splitDns) name = settings name
  keys : ∀ settings name key, key ∉ dnsKeys →
    entriesOf (withDnsFields settings (.fromPlan plan splitDns)) name key =
      entriesOf settings name key
  public_state : ∀ settings scope,
    publicState toAscii
        (parseNmDnsFields (convertSettings (withDnsFields settings (.fromPlan plan splitDns))))
        scope =
      { scope
        nameservers := plan.nameservers.filter IpAddr.isIpv4 ++
          plan.nameservers.filter fun a => !a.isIpv4
        searchDomains := properSearch plan
        routingDomains := routeOnly plan
        defaultRoute := none }

/-- The settings say the same to NetworkManager on a host with the given byte order. -/
structure Codec (toAscii : List Char → Option (List Char)) (splitDns : Bool) (host : ByteOrder)
    (plan : NormalizedConfig) : Prop extends ReadBack toAscii splitDns plan where
  wire : ∀ settings,
    entriesOf (withDnsFields settings (.fromPlan plan splitDns)) "ipv4" "dns" =
      some (u32Array ((plan.nameservers.filter IpAddr.isIpv4).map fun a =>
        networkInteger host a.octets))

/-- A plan for which neither a server nor a domain is written. -/
structure Unwritten (plan : NormalizedConfig) : Prop where
  nameservers : plan.nameservers = []
  search : ∀ s ∈ plan.searchDomains, s.isRoot = true
  routing : plan.routingDomains = []

section Codec

variable {toAscii : List Char → Option (List Char)} {builder : DnsConfigBuilder}
  {plan : NormalizedConfig} {splitDns : Bool} {host : ByteOrder}

/-- The public state of the fields of a plan. -/
lemma publicState_fromPlan (idempotent : IdempotentAscii toAscii)
    (accepted : Accepted toAscii (capabilities splitDns) acceptEveryPlan builder plan)
    (scope : DnsScope) :
    publicState toAscii (.fromPlan plan splitDns) scope =
      { scope
        nameservers := plan.nameservers.filter IpAddr.isIpv4 ++
          plan.nameservers.filter fun a => !a.isIpv4
        searchDomains := properSearch plan
        routingDomains := routeOnly plan
        defaultRoute := none } := by
  have hnone : splitDns = false → plan.routingDomains = [] := accepted.routingDomains_eq_nil
  have hsearch := parseNmSearchEntries_fromPlan idempotent accepted.canonical.toDeduplicated hnone
  rw [publicState, hsearch]
  simp only [NmDnsFields.fromPlan, map_ipv4Integer, map_ipv6Octets]

/-- The integers that are written are those of a big-endian host. -/
lemma wire_iff :
    (∀ settings, entriesOf (withDnsFields settings (.fromPlan plan splitDns)) "ipv4" "dns" =
      some (u32Array ((plan.nameservers.filter IpAddr.isIpv4).map fun a =>
        networkInteger host a.octets))) ↔
      host = .big ∨ ∀ a ∈ plan.nameservers, a.isIpv4 = true → a.octets.reverse = a.octets := by
  have hwritten : ∀ settings,
      entriesOf (withDnsFields settings (.fromPlan plan splitDns)) "ipv4" "dns" =
        some (u32Array ((plan.nameservers.filter IpAddr.isIpv4).map fun a =>
          networkInteger .big a.octets)) := by
    intro settings
    rw [(ipv4_withDnsFields settings _).1, ← filterMap_ipv4Integer]
    rfl
  have harray : ∀ values values' : List UInt32,
      some (u32Array values) = some (u32Array values') ↔ values = values' := by
    intro values values'
    have hinj : Function.Injective Value.u32 := fun _ _ heq => Value.u32.inj heq
    have hvariant : Function.Injective Value.variant := fun _ _ heq => Value.variant.inj heq
    simp only [Option.some.injEq, u32Array, arrayFrom, Value.array.injEq]
    rw [(List.map_injective_iff.mpr hvariant).eq_iff, (List.map_injective_iff.mpr hinj).eq_iff]
  simp only [hwritten, harray, List.map_inj_left, List.mem_filter, and_imp, forall_const]
  cases host with
  | big => simp
  | little =>
      simp only [reduceCtorEq, false_or]
      constructor
      · intro h a ha hv4
        exact (networkInteger_eq_iff (length_octets hv4)).mp (h a ha hv4)
      · intro h a ha hv4
        exact (networkInteger_eq_iff (length_octets hv4)).mpr (h a ha hv4)

/-- The fields of a plan have no servers and no domains only if the plan has none. -/
lemma unwritten_of_fromPlan (idempotent : IdempotentAscii toAscii)
    (accepted : Accepted toAscii (capabilities splitDns) acceptEveryPlan builder plan)
    (hdns4 : (NmDnsFields.fromPlan plan splitDns).ipv4Dns = [])
    (hdns6 : (NmDnsFields.fromPlan plan splitDns).ipv6Dns = [])
    (hsearch : (NmDnsFields.fromPlan plan splitDns).ipv4DnsSearch = []) : Unwritten plan := by
  have hnone : splitDns = false → plan.routingDomains = [] := accepted.routingDomains_eq_nil
  have hentries := ipv4DnsSearch_fromPlan idempotent accepted.canonical.toDeduplicated hnone
  rw [hsearch, eq_comm, List.append_eq_nil_iff, List.map_eq_nil_iff, List.map_eq_nil_iff] at hentries
  obtain ⟨hproper, hroute⟩ := hentries
  refine ⟨List.eq_nil_iff_forall_not_mem.mpr fun a ha => ?_, fun s hs => ?_, ?_⟩
  · cases a with
    | v4 bits => exact absurd rfl (List.filterMap_eq_nil_iff.mp hdns4 _ ha ▸ Option.some_ne_none _)
    | v6 bits => exact absurd rfl (List.filterMap_eq_nil_iff.mp hdns6 _ ha ▸ Option.some_ne_none _)
  · simpa using List.filter_eq_nil_iff.mp hproper s hs
  · refine List.eq_nil_iff_forall_not_mem.mpr fun s hs => ?_
    simpa [hproper] using List.filter_eq_nil_iff.mp hroute s hs

/-- The fields of a plan without servers and domains are the two flags. -/
lemma fromPlan_unwritten (h : Unwritten plan) :
    NmDnsFields.fromPlan plan splitDns = ⟨[], [], true, [], [], true⟩ := by
  have hsearch : searchEntries plan = [] := by
    have hproper : plan.searchDomains.filter (fun domain => !domain.isRoot) = [] :=
      List.filter_eq_nil_iff.mpr fun s hs => by simp [h.search s hs]
    rw [searchEntries, hproper]
    rfl
  have hrouting : routingEntries [] plan.routingDomains = [] := by
    rw [h.routing]
    rfl
  simp [NmDnsFields.fromPlan, h.nameservers, hsearch, hrouting]

/-- An accepted plan is read back as it was written, with the other keys left alone and the same
meaning for NetworkManager, exactly when neither a server nor a domain is written for it. -/
theorem codec_iff (idempotent : IdempotentAscii toAscii)
    (accepted : Accepted toAscii (capabilities splitDns) acceptEveryPlan builder plan) :
    Codec toAscii splitDns host plan ↔ Unwritten plan := by
  constructor
  · intro h
    have hfields := h.fields fun _ => none
    rw [parseNmDnsFields_withDnsFields] at hfields
    exact unwritten_of_fromPlan idempotent accepted (congrArg NmDnsFields.ipv4Dns hfields).symm
      (congrArg NmDnsFields.ipv6Dns hfields).symm (congrArg NmDnsFields.ipv4DnsSearch hfields).symm
  · intro h
    have hfields : ∀ settings,
        parseNmDnsFields (convertSettings (withDnsFields settings (.fromPlan plan splitDns))) =
          .fromPlan plan splitDns := by
      intro settings
      rw [parseNmDnsFields_withDnsFields, fromPlan_unwritten h]
    refine ⟨⟨hfields, fun settings => withDnsFields_frame.1,
      fun settings => withDnsFields_frame.2, fun settings scope => ?_⟩, ?_⟩
    · rw [hfields]
      exact publicState_fromPlan idempotent accepted scope
    · exact wire_iff.mpr (.inr fun a ha => absurd (h.nameservers ▸ ha) List.not_mem_nil)

end Codec

/-- A configuration of one interface with a search and a routing domain. -/
def corporate (nameservers : List IpAddr) : DnsConfigBuilder where
  scope := .interface (.name "eth0")
  nameservers
  searchDomains := ["corp.example".toList, ".".toList]
  routingDomains := [".".toList]
  defaultRoute := none

def corporatePlan (nameservers : List IpAddr) : NormalizedConfig where
  nameservers
  searchDomains := [⟨"corp.example".toList⟩, ⟨[]⟩]
  routingDomains := [⟨[]⟩]
  defaultRoute := none

lemma accepted_corporate (nameservers : List IpAddr)
    (h : buildNameservers nameservers = some nameservers) :
    Accepted Windows.lowercaseAscii (capabilities true) acceptEveryPlan (corporate nameservers)
      (corporatePlan nameservers) := by
  have hs : buildDomains Windows.lowercaseAscii ["corp.example".toList, ".".toList] =
      some [⟨"corp.example".toList⟩, ⟨[]⟩] := by decide
  have hr : buildDomains Windows.lowercaseAscii [".".toList] = some [⟨[]⟩] := by decide
  refine ⟨⟨.interface (.name "eth0"), nameservers, [⟨"corp.example".toList⟩, ⟨[]⟩], [⟨[]⟩], none⟩,
    ?_, rfl, rfl⟩
  simp only [DnsConfigBuilder.build, corporate, h, hs, hr]
  rfl

/-- A configuration of one interface that only asks for the root as search domain. -/
def rootSearch : DnsConfigBuilder where
  scope := .interface (.name "eth0")
  nameservers := []
  searchDomains := [".".toList]
  routingDomains := []
  defaultRoute := none

def rootSearchPlan : NormalizedConfig where
  nameservers := []
  searchDomains := [⟨[]⟩]
  routingDomains := []
  defaultRoute := none

lemma accepted_rootSearch :
    Accepted Windows.lowercaseAscii (capabilities true) acceptEveryPlan rootSearch
      rootSearchPlan := by
  have hs : buildDomains Windows.lowercaseAscii [".".toList] = some [⟨[]⟩] := by decide
  refine ⟨⟨.interface (.name "eth0"), [], [⟨[]⟩], [], none⟩, ?_, rfl, rfl⟩
  simp only [DnsConfigBuilder.build, rootSearch, hs]
  rfl

/-- A root search domain is not written; the servers and domains of the other plan are, and are not
read back, on a big-endian host either. -/
theorem codec_iff_corporate :
    Codec Windows.lowercaseAscii true .little rootSearchPlan ∧
      ¬ Codec Windows.lowercaseAscii true .big (corporatePlan [.v4 134744072, .v6 1]) := by
  refine ⟨(codec_iff Windows.idempotent_lowercaseAscii accepted_rootSearch).mpr
    ⟨rfl, by decide, rfl⟩, fun h => ?_⟩
  have hnone := (codec_iff Windows.idempotent_lowercaseAscii
    (accepted_corporate [.v4 134744072, .v6 1] (by decide))).mp h
  exact absurd hnone.nameservers (by decide)

/-- The server 1.2.3.4 and the domains of a plan are not read back, and the server is written as
4.3.2.1 of a little-endian host. -/
theorem not_codec_corporate :
    Accepted Windows.lowercaseAscii (capabilities true) acceptEveryPlan
        (corporate [.v4 16909060]) (corporatePlan [.v4 16909060]) ∧
      ¬ ReadBack Windows.lowercaseAscii true (corporatePlan [.v4 16909060]) ∧
      ¬ ∀ settings,
        entriesOf (withDnsFields settings (.fromPlan (corporatePlan [.v4 16909060]) true)) "ipv4"
          "dns" = some (u32Array [networkInteger .little (IpAddr.v4 16909060).octets]) := by
  refine ⟨accepted_corporate [.v4 16909060] (by decide), fun h => ?_, fun h => ?_⟩
  · have hfields := h.fields fun _ => none
    rw [parseNmDnsFields_withDnsFields] at hfields
    exact absurd (congrArg NmDnsFields.ipv4Dns hfields) (by decide)
  · have hbytes := wire_iff.mp h
    exact absurd hbytes (by decide)

end NetworkManager

end Osdns
