import Osdns.Platform.Lossless
import Osdns.Platform.Validation

/-!
# NRPT rules

`platform/windows/nrpt.rs`: the namespaces of a plan are cut into rules of at most fifty, and the
registry key of a rule is the UUID of its owner and its namespaces.  The UUID as text is a parameter
`uuid` (`Uuid::new_v5` over the fixed seed namespace and its `Display` form); what is used of it is
that the names of the rules at hand do not collide.
-/

namespace Osdns

open Listing

namespace Nrpt

/-! ## The model -/

/-- `MAX_NAMESPACES_PER_RULE`. -/
def maxNamespacesPerRule : Nat := 50

/-- `CONFIG_OPTIONS_OVERRIDE`. -/
def configOptionsOverride : UInt32 := 8

/-- `NrptRule`. -/
structure NrptRule where
  key : List Char
  version : UInt32
  configOptions : UInt32
  namespaces : List (List Char)
  servers : List IpAddr
  displayName : List Char
  comment : List Char
  deriving DecidableEq

/-- `marker_for`. -/
def markerFor (owner : List Char) : List Char := "osdns owner=".toList ++ owner

/-- The name of a rule; its UUID is taken of it. -/
def ruleName (owner : List Char) (namespaces : List (List Char)) : List Char :=
  "osdns-nrpt\x00".toList ++ owner ++ ['\x00'] ++ ['\x1f'].intercalate namespaces

/-- `rule_key`, as text. -/
def ruleKey (uuid : List Char → List Char) (owner : List Char) (namespaces : List (List Char)) :
    List Char :=
  uuid (ruleName owner namespaces)

/-- The namespace of a routing domain. -/
def namespaceOf (domain : DnsSuffix) : List Char :=
  if domain.isRoot then ['.'] else '.' :: domain.text

/-- `namespaces_from_plan`. -/
def namespacesFromPlan (plan : NormalizedConfig) : List (List (List Char)) :=
  let namespaces := if plan.defaultRoute = some true then [['.']] else []
  chunks maxNamespacesPerRule (collectNew namespaces (plan.routingDomains.map namespaceOf))

/-- `rules_from_plan`. -/
def rulesFromPlan (uuid : List Char → List Char) (plan : NormalizedConfig) (owner : List Char) :
    List NrptRule :=
  (namespacesFromPlan plan).map fun chunk =>
    { key := ruleKey uuid owner chunk
      version := 1
      configOptions := configOptionsOverride
      namespaces := chunk
      servers := plan.nameservers
      displayName := "osdns".toList
      comment := markerFor owner }

/-- The check of `validate_rule` on one namespace. -/
def validNamespace (toAscii : List Char → Option (List Char)) (name : List Char) : Bool :=
  name == ['.'] ||
    match name with
    | '.' :: domain =>
        match DnsSuffix.parse toAscii domain with
        | some suffix => !suffix.isRoot && name == '.' :: suffix.toText
        | none => false
    | _ => false

/-- `validate_rule`. -/
def validateRule (toAscii : List Char → Option (List Char)) (uuid : List Char → List Char)
    (rule : NrptRule) (owner : List Char) : Except Error Unit :=
  let validNamespaces := !rule.namespaces.isEmpty &&
    decide (rule.namespaces.length ≤ maxNamespacesPerRule) &&
    rule.namespaces.all (validNamespace toAscii)
  if !validNamespaces || rule.key != ruleKey uuid owner rule.namespaces ||
      rule.comment != markerFor owner || rule.servers.isEmpty ||
      rule.servers.any IpAddr.isUnspecified || rule.version != 1 ||
      rule.configOptions != configOptionsOverride || rule.displayName != "osdns".toList then
    .error (.journalCorrupt "NRPT rule has invalid policy fields or resource binding")
  else .ok ()

/-- `WindowsBackend::public_state` on the rule of a snapshot. -/
def publicState (toAscii : List Char → Option (List Char)) (scope : DnsScope) (rule : NrptRule) :
    DnsConfig where
  scope
  nameservers := rule.servers
  searchDomains := []
  routingDomains := dedupe (rule.namespaces.filterMap (DnsSuffix.parse toAscii))
  defaultRoute := none

/-- The capabilities of the Windows backend. -/
def capabilities : Capabilities where
  backend := .windowsIpHelper
  globalDns := false
  perInterfaceDns := true
  searchDomains := true
  splitDns := true
  defaultRoute := true
  watch := true
  mutationGuard := .unconditional
  ownershipIdentity := .bestEffort

/-! ## Namespaces -/

/-- The root and the routing domains a plan asks for, as namespaces. -/
def entriesOf (plan : NormalizedConfig) : List (List Char) :=
  (if plan.defaultRoute = some true then [['.']] else []) ++ plan.routingDomains.map namespaceOf

lemma namespacesFromPlan_eq (plan : NormalizedConfig) :
    namespacesFromPlan plan = chunks maxNamespacesPerRule (dedupe (entriesOf plan)) := by
  have hroot : collectNew [] (if plan.defaultRoute = some true then [['.']] else []) =
      if plan.defaultRoute = some true then [['.']] else [] := by
    split <;> rfl
  rw [dedupe, entriesOf, collectNew_append, hroot]
  rfl

section Namespaces

variable {toAscii : List Char → Option (List Char)} {plan : NormalizedConfig} {s : DnsSuffix}
  {input name : List Char}

lemma parse_root : DnsSuffix.parse toAscii ['.'] = some ⟨[]⟩ := rfl

lemma validNamespace_namespaceOf (idempotent : IdempotentAscii toAscii)
    (h : DnsSuffix.parse toAscii input = some s) :
    validNamespace toAscii (namespaceOf s) = true := by
  unfold namespaceOf
  by_cases hr : s.isRoot = true
  · rw [if_pos hr]
    rfl
  · have proper : s.isRoot = false := by simpa using hr
    have again := DnsSuffix.parse_text idempotent h proper
    simp [validNamespace, proper, again, (DnsSuffix.proper_text h proper).2.2]

/-- The characters of a namespace are those of a domain. -/
lemma mem_namespaceOf {c : Char} (h : DnsSuffix.parse toAscii input = some s)
    (hc : c ∈ namespaceOf s) : c = '.' ∨ isLabelChar c = true := by
  unfold namespaceOf at hc
  split at hc
  · exact .inl (List.mem_singleton.mp hc)
  · next hr =>
      rcases List.mem_cons.mp hc with rfl | hc
      · exact .inl rfl
      · exact validDomain_chars (DnsSuffix.proper_text h (by simpa using hr)).2.1 c hc

/-- Control characters are in no namespace. -/
lemma not_mem_namespaceOf {c : Char} (h : DnsSuffix.parse toAscii input = some s) (hdot : c ≠ '.')
    (hlabel : isLabelChar c = false) : c ∉ namespaceOf s := by
  intro hc
  rcases mem_namespaceOf h hc with heq | heq
  · exact hdot heq
  · exact absurd (hlabel.symm.trans heq) (by decide)

/-- A valid namespace is the root or that of a parsed domain. -/
lemma exists_of_validNamespace (h : validNamespace toAscii name = true) :
    ∃ s input, DnsSuffix.parse toAscii input = some s ∧ name = namespaceOf s := by
  simp only [validNamespace, Bool.or_eq_true, beq_iff_eq] at h
  rcases h with rfl | h
  · exact ⟨⟨[]⟩, ['.'], parse_root, rfl⟩
  · split at h
    · next domain =>
        split at h
        · next suffix hparse =>
            simp only [Bool.and_eq_true, Bool.not_eq_true', beq_iff_eq] at h
            obtain ⟨proper, heq⟩ := h
            refine ⟨suffix, domain, hparse, ?_⟩
            rw [heq, namespaceOf, proper, (DnsSuffix.proper_text hparse proper).2.2]
            rfl
        · cases h
    · cases h

/-- A namespace of a canonical plan is the root or that of a parsed domain. -/
lemma mem_entriesOf (canonical : plan.Canonical toAscii) (h : name ∈ entriesOf plan) :
    ∃ s input, DnsSuffix.parse toAscii input = some s ∧ name = namespaceOf s := by
  rcases List.mem_append.mp h with h | h
  · refine ⟨⟨[]⟩, ['.'], parse_root, ?_⟩
    split at h
    · exact List.mem_singleton.mp h
    · cases h
  · obtain ⟨s, hs, rfl⟩ := List.mem_map.mp h
    obtain ⟨input, hparse⟩ := canonical.routing_parsed s hs
    exact ⟨s, input, hparse, rfl⟩

end Namespaces

/-! ## Rules -/

section Rules

variable {toAscii : List Char → Option (List Char)} {uuid : List Char → List Char}
  {plan : NormalizedConfig} {owner : List Char} {rule : NrptRule}

lemma maxNamespacesPerRule_pos : 0 < maxNamespacesPerRule := by decide

lemma mem_rulesFromPlan :
    rule ∈ rulesFromPlan uuid plan owner ↔ ∃ chunk ∈ namespacesFromPlan plan,
      rule = ⟨ruleKey uuid owner chunk, 1, configOptionsOverride, chunk, plan.nameservers,
        "osdns".toList, markerFor owner⟩ := by
  simp only [rulesFromPlan, List.mem_map, eq_comm]

/-- The namespaces of a rule are entries of the plan. -/
lemma mem_entriesOf_of_rule {name : List Char} (h : rule ∈ rulesFromPlan uuid plan owner)
    (hname : name ∈ rule.namespaces) : name ∈ entriesOf plan := by
  obtain ⟨chunk, hchunk, rfl⟩ := mem_rulesFromPlan.mp h
  rw [namespacesFromPlan_eq] at hchunk
  exact mem_dedupe.mp ((exists_mem_chunks maxNamespacesPerRule_pos).mpr ⟨chunk, hchunk, hname⟩)

lemma length_namespaces (h : rule ∈ rulesFromPlan uuid plan owner) :
    1 ≤ rule.namespaces.length ∧ rule.namespaces.length ≤ maxNamespacesPerRule := by
  obtain ⟨chunk, hchunk, rfl⟩ := mem_rulesFromPlan.mp h
  rw [namespacesFromPlan_eq] at hchunk
  exact length_mem_chunks maxNamespacesPerRule_pos hchunk

/-- What `validate_rule` checks. -/
lemma validateRule_eq_ok :
    validateRule toAscii uuid rule owner = .ok () ↔
      (rule.namespaces ≠ [] ∧ rule.namespaces.length ≤ maxNamespacesPerRule ∧
        ∀ name ∈ rule.namespaces, validNamespace toAscii name = true) ∧
      rule.key = ruleKey uuid owner rule.namespaces ∧ rule.comment = markerFor owner ∧
      rule.servers ≠ [] ∧ (∀ a ∈ rule.servers, a.isUnspecified = false) ∧ rule.version = 1 ∧
      rule.configOptions = configOptionsOverride ∧ rule.displayName = "osdns".toList := by
  have hok : ∀ b : Bool, (if b then Except.error
      (Error.journalCorrupt "NRPT rule has invalid policy fields or resource binding")
      else .ok ()) = .ok () ↔ b = false := by
    intro b
    cases b <;> simp
  rw [validateRule, hok]
  simp only [Bool.or_eq_false_iff, Bool.not_eq_false', Bool.and_eq_true, Bool.not_eq_true',
    List.isEmpty_eq_false_iff, decide_eq_true_eq, List.all_eq_true, bne_eq_false_iff_eq,
    List.any_eq_false, Bool.not_eq_true, and_assoc]

/-- A rule of a canonical plan is valid as soon as the plan has a nameserver. -/
lemma validateRule_iff (idempotent : IdempotentAscii toAscii) (canonical : plan.Canonical toAscii)
    (h : rule ∈ rulesFromPlan uuid plan owner) :
    validateRule toAscii uuid rule owner = .ok () ↔ plan.nameservers ≠ [] := by
  have hlen := length_namespaces h
  have hall : ∀ name ∈ rule.namespaces, validNamespace toAscii name = true := by
    intro name hname
    obtain ⟨s, input, hparse, rfl⟩ := mem_entriesOf canonical (mem_entriesOf_of_rule h hname)
    exact validNamespace_namespaceOf idempotent hparse
  have hne : rule.namespaces ≠ [] := List.ne_nil_of_length_pos hlen.1
  obtain ⟨chunk, hchunk, rfl⟩ := mem_rulesFromPlan.mp h
  rw [validateRule_eq_ok]
  constructor
  · exact fun hvalid => hvalid.2.2.2.1
  · exact fun hservers =>
      ⟨⟨hne, hlen.2, hall⟩, rfl, rfl, hservers, canonical.specified, rfl, rfl, rfl⟩

/-- No rule is asked for exactly when the plan names no namespace. -/
lemma rulesFromPlan_eq_nil :
    rulesFromPlan uuid plan owner = [] ↔
      plan.routingDomains = [] ∧ plan.defaultRoute ≠ some true := by
  have hchunks : namespacesFromPlan plan = [] ↔ entriesOf plan = [] := by
    rw [namespacesFromPlan_eq]
    constructor
    · intro hnil
      refine List.eq_nil_iff_forall_not_mem.mpr fun name hname => ?_
      obtain ⟨chunk, hchunk, _⟩ :=
        (exists_mem_chunks maxNamespacesPerRule_pos).mp (mem_dedupe.mpr hname)
      rw [hnil] at hchunk
      cases hchunk
    · intro hnil
      rw [hnil]
      rfl
  rw [rulesFromPlan, List.map_eq_nil_iff, hchunks, entriesOf]
  simp only [List.append_eq_nil_iff, List.map_eq_nil_iff, and_comm]
  split
  · next hroot => simp [hroot]
  · next hroot => simp [hroot]

/-- The rules of an accepted plan can be written exactly when the plan has a nameserver or asks for
no namespace. -/
theorem validateRule_of_accepted_iff (idempotent : IdempotentAscii toAscii)
    {builder : DnsConfigBuilder}
    (accepted : Accepted toAscii capabilities acceptEveryPlan builder plan) :
    (∀ rule ∈ rulesFromPlan uuid plan owner, validateRule toAscii uuid rule owner = .ok ()) ↔
      builder.nameservers ≠ [] ∨ builder.routingDomains = [] ∧ builder.defaultRoute ≠ some true := by
  obtain ⟨hn, hr, hd⟩ := accepted.empty_iff
  have hnil : rulesFromPlan uuid plan owner = [] ↔
      plan.routingDomains = [] ∧ plan.defaultRoute ≠ some true := rulesFromPlan_eq_nil
  rw [← hr, ← hd, ne_eq, ← hn, ← hnil]
  constructor
  · intro hvalid
    rcases hrules : rulesFromPlan uuid plan owner with _ | ⟨rule, rules⟩
    · exact .inr rfl
    · have hmem : rule ∈ rulesFromPlan uuid plan owner := by simp [hrules]
      exact .inl ((validateRule_iff idempotent accepted.canonical hmem).mp (hvalid rule hmem))
  · rintro (hne | hnil) rule hmem
    · exact (validateRule_iff idempotent accepted.canonical hmem).mpr hne
    · rw [hnil] at hmem
      cases hmem

end Rules

/-- A split-DNS configuration of one interface. -/
def splitDns (nameservers : List IpAddr) : DnsConfigBuilder where
  scope := .interface (.index 7)
  nameservers
  searchDomains := []
  routingDomains := ["corp.example".toList]
  defaultRoute := none

def splitDnsPlan (nameservers : List IpAddr) : NormalizedConfig where
  nameservers
  searchDomains := []
  routingDomains := [⟨"corp.example".toList⟩]
  defaultRoute := none

lemma accepted_splitDns (nameservers : List IpAddr)
    (h : buildNameservers nameservers = some nameservers) :
    Accepted Windows.lowercaseAscii capabilities acceptEveryPlan (splitDns nameservers)
      (splitDnsPlan nameservers) := by
  have hr : buildDomains Windows.lowercaseAscii ["corp.example".toList] =
      some [⟨"corp.example".toList⟩] := by decide
  refine ⟨⟨.interface (.index 7), nameservers, [], [⟨"corp.example".toList⟩], none⟩, ?_, rfl, rfl⟩
  simp only [DnsConfigBuilder.build, splitDns, h, hr]
  rfl

theorem validateRule_of_accepted_split :
    rulesFromPlan id (splitDnsPlan [.v4 16843009]) "io.test".toList ≠ [] ∧
      ∀ rule ∈ rulesFromPlan id (splitDnsPlan [.v4 16843009]) "io.test".toList,
        validateRule Windows.lowercaseAscii id rule "io.test".toList = .ok () := by
  refine ⟨by decide, ?_⟩
  exact (validateRule_of_accepted_iff Windows.idempotent_lowercaseAscii
    (accepted_splitDns [.v4 16843009] (by decide))).mpr (.inl (by decide))

/-- Routing domains without a nameserver are accepted, and their rule is not valid. -/
theorem not_validateRule_of_accepted_serverless :
    ¬ ∀ builder plan, Accepted Windows.lowercaseAscii capabilities acceptEveryPlan builder plan →
      ∀ rule ∈ rulesFromPlan id plan "io.test".toList,
        validateRule Windows.lowercaseAscii id rule "io.test".toList = .ok () := by
  intro h
  have hrules := h (splitDns []) (splitDnsPlan []) (accepted_splitDns [] rfl)
  have hmem : rulesFromPlan id (splitDnsPlan []) "io.test".toList ≠ [] := by decide
  obtain ⟨rule, hrule⟩ := List.exists_mem_of_ne_nil _ hmem
  have hcanonical := (accepted_splitDns [] rfl).canonical
  exact absurd rfl
    ((validateRule_iff Windows.idempotent_lowercaseAscii hcanonical hrule).mp (hrules rule hrule))

end Nrpt

end Osdns
