import Osdns.Framework.Bytes
import Osdns.Platform.Lossless
import Osdns.Platform.Validation

/-!
# systemd-resolved

`resolved_dns_from_plan`, `resolved_domains_from_plan` and their readers of
`platform/text_config.rs`, and the snapshots of `platform/linux/resolved.rs` that are merged,
validated and verified over them.
-/

namespace Osdns

open Bytes Listing

/-! ## Octets -/

/-- `Ipv4Addr::octets` and `Ipv6Addr::octets`. -/
def IpAddr.octets : IpAddr → List UInt8
  | .v4 bits => bigEndian 4 bits.toNat
  | .v6 bits => bigEndian 16 bits.toNat

/-- `Ipv4Addr::from` four octets. -/
def ipv4OfOctets (octets : List UInt8) : IpAddr := .v4 (BitVec.ofNat 32 (ofBigEndian octets))

/-- `Ipv6Addr::from` sixteen octets. -/
def ipv6OfOctets (octets : List UInt8) : IpAddr := .v6 (BitVec.ofNat 128 (ofBigEndian octets))

lemma ipv4OfOctets_octets (bits : BitVec 32) :
    ipv4OfOctets (IpAddr.v4 bits).octets = .v4 bits := by
  rw [ipv4OfOctets, IpAddr.octets, ofBigEndian_bigEndian (by simpa using bits.isLt),
    BitVec.ofNat_toNat, BitVec.setWidth_eq]

lemma ipv6OfOctets_octets (bits : BitVec 128) :
    ipv6OfOctets (IpAddr.v6 bits).octets = .v6 bits := by
  rw [ipv6OfOctets, IpAddr.octets, ofBigEndian_bigEndian (by simpa using bits.isLt),
    BitVec.ofNat_toNat, BitVec.setWidth_eq]

namespace Resolved

/-! ## The model -/

/-- An address as the D-Bus interface takes it: the address family and the octets. -/
abbrev LinkDns := Int × List UInt8

/-- A domain and whether it is for routing only. -/
abbrev LinkDomain := List Char × Bool

/-- The body of `resolved_dns_from_plan`. -/
def linkDns : IpAddr → LinkDns
  | .v4 bits => (2, (IpAddr.v4 bits).octets)
  | .v6 bits => (10, (IpAddr.v6 bits).octets)

/-- `resolved_dns_from_plan`. -/
def resolvedDnsFromPlan (plan : NormalizedConfig) : List LinkDns := plan.nameservers.map linkDns

/-- The body of `resolved_dns_to_nameservers`. -/
def nameserverOf : LinkDns → Option IpAddr
  | (2, [a, b, c, d]) => some (ipv4OfOctets [a, b, c, d])
  | (10, octets) => if octets.length = 16 then some (ipv6OfOctets octets) else none
  | _ => none

/-- `resolved_dns_to_nameservers`. -/
def resolvedDnsToNameservers (dns : List LinkDns) : List IpAddr := dns.filterMap nameserverOf

/-- The body of the loops of `resolved_domains_from_plan`: the domains and the names `seen`. -/
def pushDomain (routeOnly : Bool) (state : List LinkDomain × List (List Char)) (domain : DnsSuffix) :
    List LinkDomain × List (List Char) :=
  let name := domain.toText
  if state.2.contains name then state else (state.1 ++ [(name, routeOnly)], state.2 ++ [name])

/-- `resolved_domains_from_plan`. -/
def resolvedDomainsFromPlan (plan : NormalizedConfig) : List LinkDomain :=
  (plan.routingDomains.foldl (pushDomain true)
    (plan.searchDomains.foldl (pushDomain false) ([], []))).1

/-- The body of the loop of `resolved_domains_to_public`. -/
def readDomain (toAscii : List Char → Option (List Char)) (state : List DnsSuffix × List DnsSuffix)
    (domain : LinkDomain) : List DnsSuffix × List DnsSuffix :=
  match DnsSuffix.parse toAscii domain.1 with
  | none => state
  | some suffix =>
      if !domain.2 then (pushNew state.1 suffix, state.2) else (state.1, pushNew state.2 suffix)

/-- `resolved_domains_to_public`. -/
def resolvedDomainsToPublic (toAscii : List Char → Option (List Char)) (domains : List LinkDomain) :
    List DnsSuffix × List DnsSuffix :=
  domains.foldl (readDomain toAscii) ([], [])

/-- `ResolvedSnapshot`. -/
structure ResolvedSnapshot where
  dns : List LinkDns
  domains : List LinkDomain
  defaultRoute : Bool
  deriving DecidableEq

namespace ResolvedSnapshot

/-- `ResolvedSnapshot::validate`. -/
def validate (toAscii : List Char → Option (List Char)) (self : ResolvedSnapshot) :
    Except Error Unit :=
  if self.dns.any (fun entry =>
        !(entry.1 == 2 && entry.2.length == 4 || entry.1 == 10 && entry.2.length == 16)) ||
      self.domains.any (fun entry => (DnsSuffix.parse toAscii entry.1).isNone) then
    .error (.journalCorrupt "resolved snapshot contains invalid DNS addresses or domains")
  else .ok ()

/-- `ResolvedSnapshot::from_plan`. -/
def fromPlan (plan : NormalizedConfig) : ResolvedSnapshot where
  dns := resolvedDnsFromPlan plan
  domains := resolvedDomainsFromPlan plan
  defaultRoute := plan.defaultRoute.getD false

/-- `ResolvedSnapshot::merged_from_plan`. -/
def mergedFromPlan (current : ResolvedSnapshot) (plan : NormalizedConfig) : ResolvedSnapshot where
  dns := resolvedDnsFromPlan plan
  domains := resolvedDomainsFromPlan plan
  defaultRoute := plan.defaultRoute.getD current.defaultRoute

/-- `SystemdResolved::matches_desired` on the state of a snapshot. -/
def matchesDesired (state : ResolvedSnapshot) (plan : NormalizedConfig) : Bool :=
  let expected := fromPlan plan
  if plan.defaultRoute.isNone then
    state.dns == expected.dns && state.domains == expected.domains
  else state == expected

end ResolvedSnapshot

/-! ## Addresses -/

lemma nameserverOf_linkDns (a : IpAddr) : nameserverOf (linkDns a) = some a := by
  cases a with
  | v4 bits =>
      have hoctets := ipv4OfOctets_octets bits
      have hlen : (IpAddr.v4 bits).octets.length = 4 := length_bigEndian
      show nameserverOf (2, (IpAddr.v4 bits).octets) = _
      generalize (IpAddr.v4 bits).octets = octets at hoctets hlen
      obtain ⟨a, b, c, d, rfl⟩ : ∃ a b c d, octets = [a, b, c, d] := by
        rcases octets with _ | ⟨a, _ | ⟨b, _ | ⟨c, _ | ⟨d, _ | ⟨e, octets⟩⟩⟩⟩⟩ <;> simp at hlen
        exact ⟨a, b, c, d, rfl⟩
      exact congrArg some hoctets
  | v6 bits =>
      have hlen : (IpAddr.v6 bits).octets.length = 16 := length_bigEndian
      have hread : ∀ octets : List UInt8, nameserverOf (10, octets) =
          if octets.length = 16 then some (ipv6OfOctets octets) else none := fun _ => rfl
      rw [linkDns, hread, if_pos hlen, ipv6OfOctets_octets]

/-- The nameservers are read back. -/
lemma resolvedDnsToNameservers_fromPlan (plan : NormalizedConfig) :
    resolvedDnsToNameservers (resolvedDnsFromPlan plan) = plan.nameservers := by
  rw [resolvedDnsToNameservers, resolvedDnsFromPlan, List.filterMap_map]
  have hid : nameserverOf ∘ linkDns = some := funext nameserverOf_linkDns
  rw [hid, List.filterMap_some]

lemma nodup_resolvedDnsFromPlan {plan : NormalizedConfig} (h : plan.nameservers.Nodup) :
    (resolvedDnsFromPlan plan).Nodup := by
  refine h.map fun a b heq => ?_
  have := nameserverOf_linkDns a
  rw [heq, nameserverOf_linkDns b] at this
  exact (Option.some.inj this).symm

/-! ## Domains -/

section Domains

variable {toAscii : List Char → Option (List Char)} {plan : NormalizedConfig}

/-- A loop over domains with different names pushes those it has not seen. -/
lemma foldl_pushDomain {routeOnly : Bool} {list : List DnsSuffix} {domains : List LinkDomain}
    {seen : List (List Char)} (h : (list.map DnsSuffix.toText).Nodup) :
    list.foldl (pushDomain routeOnly) (domains, seen) =
      (domains ++ (list.filter fun d => d.toText ∉ seen).map fun d => (d.toText, routeOnly),
        seen ++ (list.filter fun d => d.toText ∉ seen).map DnsSuffix.toText) := by
  induction list generalizing domains seen with
  | nil => simp
  | cons d list ih =>
      obtain ⟨hd, hrest⟩ := List.nodup_cons.mp h
      by_cases hseen : d.toText ∈ seen
      · rw [List.foldl_cons, pushDomain, if_pos (by simpa), ih hrest, List.filter_cons_of_neg (by simpa)]
      · have hother : (list.filter fun e => e.toText ∉ seen ++ [d.toText]) =
            list.filter fun e => e.toText ∉ seen := by
          refine List.filter_congr fun e he => ?_
          have hne : e.toText ≠ d.toText := fun heq => hd (List.mem_map.mpr ⟨e, he, heq⟩)
          simp [hne]
        rw [List.foldl_cons, pushDomain, if_neg (by simpa), ih hrest, hother,
          List.filter_cons_of_pos (by simpa)]
        simp

/-- The texts of parsed domains without duplicates have none. -/
lemma nodup_toText (idempotent : IdempotentAscii toAscii) {list : List DnsSuffix}
    (h : list.Nodup) (parsed : ∀ s ∈ list, ∃ input, DnsSuffix.parse toAscii input = some s) :
    (list.map DnsSuffix.toText).Nodup := by
  refine h.map_on fun s hs t ht heq => ?_
  obtain ⟨_, hs⟩ := parsed s hs
  obtain ⟨_, ht⟩ := parsed t ht
  exact DnsSuffix.toText_inj idempotent hs ht heq

/-- The routing domains that are not search domains. -/
def routeOnlyDomains (plan : NormalizedConfig) : List DnsSuffix :=
  plan.routingDomains.filter fun d => d ∉ plan.searchDomains

/-- Search domains come first, then the routing domains that are not among them. -/
lemma resolvedDomainsFromPlan_eq (idempotent : IdempotentAscii toAscii)
    (h : plan.Deduplicated toAscii) :
    resolvedDomainsFromPlan plan = plan.searchDomains.map (fun d => (d.toText, false)) ++
      (routeOnlyDomains plan).map fun d => (d.toText, true) := by
  have hmem : (plan.routingDomains.filter fun d =>
      d.toText ∉ plan.searchDomains.map DnsSuffix.toText) = routeOnlyDomains plan := by
    refine List.filter_congr fun d hd => ?_
    obtain ⟨_, hparse⟩ := h.routing_parsed d hd
    have hiff : d.toText ∈ plan.searchDomains.map DnsSuffix.toText ↔ d ∈ plan.searchDomains := by
      constructor
      · intro hm
        obtain ⟨s, hs, heq⟩ := List.mem_map.mp hm
        obtain ⟨_, hsparse⟩ := h.search_parsed s hs
        exact DnsSuffix.toText_inj idempotent hsparse hparse heq ▸ hs
      · exact List.mem_map_of_mem
    simp only [hiff]
  rw [resolvedDomainsFromPlan,
    foldl_pushDomain (nodup_toText idempotent h.searchDomains h.search_parsed),
    foldl_pushDomain (nodup_toText idempotent h.routingDomains h.routing_parsed)]
  simp only [List.not_mem_nil, not_false_eq_true, decide_true, List.filter_true, List.nil_append,
    hmem]

lemma nodup_resolvedDomainsFromPlan (idempotent : IdempotentAscii toAscii)
    (h : plan.Deduplicated toAscii) : ((resolvedDomainsFromPlan plan).map Prod.fst).Nodup := by
  have hroute : (routeOnlyDomains plan).Nodup := h.routingDomains.filter _
  have hparsed : ∀ s ∈ routeOnlyDomains plan, ∃ input, DnsSuffix.parse toAscii input = some s :=
    fun s hs => h.routing_parsed s (List.mem_filter.mp hs).1
  have hnames : (resolvedDomainsFromPlan plan).map Prod.fst =
      (plan.searchDomains ++ routeOnlyDomains plan).map DnsSuffix.toText := by
    rw [resolvedDomainsFromPlan_eq idempotent h]
    simp [Function.comp_def]
  rw [hnames]
  refine nodup_toText idempotent ?_ fun s hs => ?_
  · refine List.nodup_append.mpr ⟨h.searchDomains, hroute, fun s hs t ht heq => ?_⟩
    exact absurd (heq ▸ hs) (by simpa using (List.mem_filter.mp ht).2)
  · rcases List.mem_append.mp hs with hs | hs
    · exact h.search_parsed s hs
    · exact hparsed s hs

/-- A run of the reader over domains of one kind. -/
lemma foldl_readDomain (idempotent : IdempotentAscii toAscii) {routeOnly : Bool}
    {list search routing : List DnsSuffix}
    (parsed : ∀ s ∈ list, ∃ input, DnsSuffix.parse toAscii input = some s) :
    (list.map fun d => (d.toText, routeOnly)).foldl (readDomain toAscii) (search, routing) =
      if !routeOnly then (collectNew search list, routing) else (search, collectNew routing list) := by
  induction list generalizing search routing with
  | nil => simp
  | cons d list ih =>
      obtain ⟨_, hparse⟩ := parsed d List.mem_cons_self
      have hrest := fun s hs => parsed s (List.mem_cons_of_mem d hs)
      rw [List.map_cons, List.foldl_cons, readDomain, DnsSuffix.parse_toText idempotent hparse]
      cases routeOnly with
      | false => exact ih hrest
      | true => exact ih hrest

/-- The domains are read back. -/
lemma resolvedDomainsToPublic_fromPlan (idempotent : IdempotentAscii toAscii)
    (h : plan.Deduplicated toAscii) :
    resolvedDomainsToPublic toAscii (resolvedDomainsFromPlan plan) =
      (plan.searchDomains, routeOnlyDomains plan) := by
  have hparsed : ∀ s ∈ routeOnlyDomains plan, ∃ input, DnsSuffix.parse toAscii input = some s :=
    fun s hs => h.routing_parsed s (List.mem_filter.mp hs).1
  rw [resolvedDomainsToPublic, resolvedDomainsFromPlan_eq idempotent h, List.foldl_append,
    foldl_readDomain idempotent h.search_parsed]
  simp only [Bool.not_false, if_true]
  rw [foldl_readDomain idempotent hparsed]
  have hsearch : collectNew [] plan.searchDomains = plan.searchDomains :=
    dedupe_of_nodup h.searchDomains
  have hrouting : collectNew [] (routeOnlyDomains plan) = routeOnlyDomains plan :=
    dedupe_of_nodup (h.routingDomains.filter _)
  simp [hsearch, hrouting]

/-! ## Snapshots -/

/-- A merged snapshot is valid. -/
lemma validate_mergedFromPlan (idempotent : IdempotentAscii toAscii)
    (h : plan.Deduplicated toAscii) (current : ResolvedSnapshot) :
    (ResolvedSnapshot.mergedFromPlan current plan).validate toAscii = .ok () := by
  have hdns : (resolvedDnsFromPlan plan).any (fun entry =>
      !(entry.1 == 2 && entry.2.length == 4 || entry.1 == 10 && entry.2.length == 16)) = false := by
    rw [List.any_eq_false]
    intro entry he
    obtain ⟨a, _, rfl⟩ := List.mem_map.mp he
    cases a <;> simp [linkDns, IpAddr.octets]
  have hdomains : (resolvedDomainsFromPlan plan).any
      (fun entry => (DnsSuffix.parse toAscii entry.1).isNone) = false := by
    rw [List.any_eq_false]
    intro entry he
    have hparsed : ∃ s input, DnsSuffix.parse toAscii input = some s ∧ entry.1 = s.toText := by
      rw [resolvedDomainsFromPlan_eq idempotent h] at he
      rcases List.mem_append.mp he with he | he
      · obtain ⟨s, hs, rfl⟩ := List.mem_map.mp he
        obtain ⟨input, hparse⟩ := h.search_parsed s hs
        exact ⟨s, input, hparse, rfl⟩
      · obtain ⟨s, hs, rfl⟩ := List.mem_map.mp he
        obtain ⟨input, hparse⟩ := h.routing_parsed s (List.mem_filter.mp hs).1
        exact ⟨s, input, hparse, rfl⟩
    obtain ⟨s, input, hparse, heq⟩ := hparsed
    simp [heq, DnsSuffix.parse_toText idempotent hparse]
  simp only [ResolvedSnapshot.validate, ResolvedSnapshot.mergedFromPlan, hdns, hdomains]
  rfl

/-- A merged snapshot is what the plan asks for. -/
lemma matchesDesired_mergedFromPlan (current : ResolvedSnapshot) :
    (ResolvedSnapshot.mergedFromPlan current plan).matchesDesired plan = true := by
  unfold ResolvedSnapshot.matchesDesired
  cases hd : plan.defaultRoute with
  | none => simp [ResolvedSnapshot.mergedFromPlan, ResolvedSnapshot.fromPlan]
  | some b => simp [ResolvedSnapshot.mergedFromPlan, ResolvedSnapshot.fromPlan, hd]

/-- The default-route flag is kept for every link exactly when the plan leaves it unset. -/
lemma defaultRoute_mergedFromPlan :
    (∀ current, (ResolvedSnapshot.mergedFromPlan current plan).defaultRoute =
      current.defaultRoute) ↔ plan.defaultRoute = none := by
  constructor
  · intro hkeep
    cases hd : plan.defaultRoute with
    | none => rfl
    | some b =>
        have := hkeep ⟨[], [], !b⟩
        simp [ResolvedSnapshot.mergedFromPlan, hd] at this
  · intro hd current
    simp [ResolvedSnapshot.mergedFromPlan, hd]

lemma mergedFromPlan_idempotent (current : ResolvedSnapshot) :
    ResolvedSnapshot.mergedFromPlan (ResolvedSnapshot.mergedFromPlan current plan) plan =
      ResolvedSnapshot.mergedFromPlan current plan := by
  cases hd : plan.defaultRoute <;> simp [ResolvedSnapshot.mergedFromPlan, hd]

/-- The image of a plan with deduplicated lists has different entries and is read back as the plan;
merged onto any link state it is valid, verified, keeps the default-route flag exactly when the plan
leaves it unset, and stays as it is when the plan is merged again. -/
theorem resolved_roundTrip (idempotent : IdempotentAscii toAscii) (h : plan.Deduplicated toAscii) :
    (resolvedDnsFromPlan plan).Nodup ∧ ((resolvedDomainsFromPlan plan).map Prod.fst).Nodup ∧
    resolvedDnsToNameservers (resolvedDnsFromPlan plan) = plan.nameservers ∧
    resolvedDomainsToPublic toAscii (resolvedDomainsFromPlan plan) =
      (plan.searchDomains, plan.routingDomains.filter fun d => d ∉ plan.searchDomains) ∧
    (∀ current, (ResolvedSnapshot.mergedFromPlan current plan).validate toAscii = .ok () ∧
      (ResolvedSnapshot.mergedFromPlan current plan).matchesDesired plan = true ∧
      ResolvedSnapshot.mergedFromPlan (ResolvedSnapshot.mergedFromPlan current plan) plan =
        ResolvedSnapshot.mergedFromPlan current plan) ∧
    ((∀ current, (ResolvedSnapshot.mergedFromPlan current plan).defaultRoute =
      current.defaultRoute) ↔ plan.defaultRoute = none) :=
  ⟨nodup_resolvedDnsFromPlan h.nameservers, nodup_resolvedDomainsFromPlan idempotent h,
    resolvedDnsToNameservers_fromPlan plan, resolvedDomainsToPublic_fromPlan idempotent h,
    fun current => ⟨validate_mergedFromPlan idempotent h current,
      matchesDesired_mergedFromPlan current, mergedFromPlan_idempotent current⟩,
    defaultRoute_mergedFromPlan⟩

end Domains

/-- A search domain that is routed too, next to the root. -/
def overlapping : NormalizedConfig where
  nameservers := [.v4 16843009, .v6 1]
  searchDomains := [⟨"corp.example".toList⟩]
  routingDomains := [⟨"corp.example".toList⟩, ⟨[]⟩]
  defaultRoute := none

theorem resolved_roundTrip_overlapping :
    resolvedDomainsToPublic Windows.lowercaseAscii (resolvedDomainsFromPlan overlapping) =
      ([⟨"corp.example".toList⟩], [⟨[]⟩]) := by
  have hcorp : DnsSuffix.parse Windows.lowercaseAscii "corp.example".toList =
      some ⟨"corp.example".toList⟩ := by decide
  have h : overlapping.Deduplicated Windows.lowercaseAscii := by
    refine ⟨by decide, by decide, by decide, ?_, ?_⟩
    · intro s hs
      exact ⟨_, (List.mem_singleton.mp hs).symm ▸ hcorp⟩
    · intro s hs
      simp only [overlapping, List.mem_cons, List.not_mem_nil, or_false] at hs
      rcases hs with rfl | rfl
      · exact ⟨_, hcorp⟩
      · exact ⟨['.'], rfl⟩
  exact (resolved_roundTrip Windows.idempotent_lowercaseAscii h).2.2.2.1

end Resolved

end Osdns
