import Osdns.Platform.Nrpt

/-!
# What the NRPT rules of a plan say

The rules of a plan encode its namespaces without loss (`Encodes`).  The public view of a rule reads
a namespace with `DnsSuffix::parse`, which refuses the leading dot of every namespace but the root, so
the public view of the rules is that of the plan only for plans that route the root alone
(`faithful_iff`).
-/

namespace Osdns

open Listing

namespace Nrpt

/-- The IDNA conversion keeps an empty first label. -/
def KeepsLeadingDot (toAscii : List Char → Option (List Char)) : Prop :=
  ∀ text ascii, toAscii ('.' :: text) = some ascii → ascii.head? = some '.'

/-- The names of the rules of a plan have different UUIDs. -/
def NoCollision (uuid : List Char → List Char) (owner : List Char) (plan : NormalizedConfig) : Prop :=
  ∀ x ∈ namespacesFromPlan plan, ∀ y ∈ namespacesFromPlan plan,
    uuid (ruleName owner x) = uuid (ruleName owner y) → ruleName owner x = ruleName owner y

/-- The rules of a plan are keyed apart, of bounded size, valid, and hold each of its namespaces
once. -/
structure Encodes (toAscii : List Char → Option (List Char)) (uuid : List Char → List Char)
    (owner : List Char) (plan : NormalizedConfig) : Prop where
  keys : ((rulesFromPlan uuid plan owner).map NrptRule.key).Nodup
  sizes : ∀ rule ∈ rulesFromPlan uuid plan owner,
    1 ≤ rule.namespaces.length ∧ rule.namespaces.length ≤ 50
  namespaces : (rulesFromPlan uuid plan owner).flatMap NrptRule.namespaces =
    dedupe (entriesOf plan)
  valid : ∀ rule ∈ rulesFromPlan uuid plan owner, validateRule toAscii uuid rule owner = .ok ()

/-- The public view of the rules is that of the plan: its servers and its routing domains, a default
route counted as the root. -/
structure Faithful (toAscii : List Char → Option (List Char)) (uuid : List Char → List Char)
    (owner : List Char) (scope : DnsScope) (plan : NormalizedConfig) : Prop
    extends Encodes toAscii uuid owner plan where
  servers : ∀ a, a ∈ plan.nameservers ↔
    ∃ rule ∈ rulesFromPlan uuid plan owner, a ∈ (publicState toAscii scope rule).nameservers
  routing : ∀ d, d ∈ plan.routingDomains ∨ plan.defaultRoute = some true ∧ d.isRoot = true ↔
    ∃ rule ∈ rulesFromPlan uuid plan owner, d ∈ (publicState toAscii scope rule).routingDomains

section Encoding

variable {toAscii : List Char → Option (List Char)} {uuid : List Char → List Char}
  {owner : List Char} {scope : DnsScope} {plan : NormalizedConfig} {s d : DnsSuffix}
  {input : List Char}

/-! ## The rules -/

lemma flatMap_namespaces :
    (rulesFromPlan uuid plan owner).flatMap NrptRule.namespaces = dedupe (entriesOf plan) := by
  rw [rulesFromPlan, List.flatMap_map]
  show (namespacesFromPlan plan).flatMap id = _
  rw [List.flatMap_id, namespacesFromPlan_eq, flatten_chunks maxNamespacesPerRule_pos]

/-- The separator of a rule's name is in no namespace. -/
lemma separator_not_mem (canonical : plan.Canonical toAscii) {chunk : List (List Char)}
    (h : chunk ∈ namespacesFromPlan plan) : ∀ name ∈ chunk, '\x1f' ∉ name := by
  intro name hname
  rw [namespacesFromPlan_eq] at h
  have hentry := mem_dedupe.mp ((exists_mem_chunks maxNamespacesPerRule_pos).mpr ⟨chunk, h, hname⟩)
  obtain ⟨s, input, hparse, rfl⟩ := mem_entriesOf canonical hentry
  exact not_mem_namespaceOf hparse (by decide) (by decide)

lemma ruleName_inj (canonical : plan.Canonical toAscii) {x y : List (List Char)}
    (hx : x ∈ namespacesFromPlan plan) (hy : y ∈ namespacesFromPlan plan)
    (h : ruleName owner x = ruleName owner y) : x = y := by
  have hne : ∀ {chunk}, chunk ∈ namespacesFromPlan plan → chunk ≠ [] := fun hc => by
    rw [namespacesFromPlan_eq] at hc
    exact ne_nil_of_mem_chunks maxNamespacesPerRule_pos hc
  exact intercalate_inj (hne hx) (hne hy) (separator_not_mem canonical hx)
    (separator_not_mem canonical hy) (List.append_cancel_left h)

lemma nodup_keys (canonical : plan.Canonical toAscii) (distinct : NoCollision uuid owner plan) :
    ((rulesFromPlan uuid plan owner).map NrptRule.key).Nodup := by
  rw [rulesFromPlan, List.map_map]
  have hchunks : (namespacesFromPlan plan).Nodup := by
    rw [namespacesFromPlan_eq]
    exact nodup_chunks maxNamespacesPerRule_pos nodup_dedupe
  exact hchunks.map_on fun x hx y hy heq =>
    ruleName_inj canonical hx hy (distinct x hx y hy heq)

/-- The rules of a canonical plan with a nameserver encode its namespaces. -/
lemma encodes (idempotent : IdempotentAscii toAscii) (canonical : plan.Canonical toAscii)
    (distinct : NoCollision uuid owner plan) (hne : plan.nameservers ≠ []) :
    Encodes toAscii uuid owner plan where
  keys := nodup_keys canonical distinct
  sizes := fun _ h => length_namespaces h
  namespaces := flatMap_namespaces
  valid := fun _ h => (validateRule_iff idempotent canonical h).mpr hne

/-! ## Their public view -/

/-- A proper domain behind a dot has an empty first label. -/
lemma parse_dotted (keeps : KeepsLeadingDot toAscii) (h : DnsSuffix.parse toAscii input = some s)
    (proper : s.isRoot = false) : DnsSuffix.parse toAscii ('.' :: s.text) = none := by
  obtain ⟨nonempty, valid, _⟩ := DnsSuffix.proper_text h proper
  have plain : ∀ c ∈ '.' :: s.text, isWhitespace c = false := by
    intro c hc
    rcases List.mem_cons.mp hc with rfl | hc
    · decide
    · exact (isEntryChar_domain valid c hc).1
  have last : ('.' :: s.text).getLast? ≠ some '.' := by
    rw [List.getLast?_cons_of_ne_nil nonempty]
    exact validDomain_last valid
  simp only [DnsSuffix.parse, normalizeDomain, trim_of_plain plain, last, if_false, List.isEmpty_cons,
    Bool.false_eq_true, Option.map_eq_none_iff]
  cases hascii : toAscii ('.' :: s.text) with
  | none => rfl
  | some ascii =>
      have hinvalid : ¬ validDomain ascii = true := by
        intro habs
        obtain ⟨rest, rfl⟩ := List.head?_eq_some_iff.mp (keeps _ _ hascii)
        have labels := validDomain_labels habs
        rw [show '.' :: rest = [] ++ '.' :: rest from rfl, List.splitOn_append_cons_self] at labels
        have := labels [] (by simp)
        simp [validLabel] at this
      exact if_neg hinvalid

lemma isRoot_iff : d.isRoot = true ↔ d = ⟨[]⟩ := by
  cases d
  simp [DnsSuffix.isRoot]

/-- Of the entries of a plan only the root is read back. -/
lemma parse_namespaceOf (keeps : KeepsLeadingDot toAscii)
    (h : DnsSuffix.parse toAscii input = some s) :
    DnsSuffix.parse toAscii (namespaceOf s) = some d ↔ s.isRoot = true ∧ d.isRoot = true := by
  unfold namespaceOf
  by_cases hr : s.isRoot = true
  · rw [if_pos hr, parse_root, isRoot_iff (d := d)]
    exact ⟨fun heq => ⟨hr, (Option.some.inj heq).symm⟩, fun heq => heq.2 ▸ rfl⟩
  · rw [if_neg hr, parse_dotted keeps h (by simpa using hr)]
    simp [hr]

/-- The public view reads the entries of the plan. -/
lemma exists_mem_publicState :
    (∃ rule ∈ rulesFromPlan uuid plan owner, d ∈ (publicState toAscii scope rule).routingDomains) ↔
      ∃ name ∈ entriesOf plan, DnsSuffix.parse toAscii name = some d := by
  simp only [publicState, mem_dedupe, List.mem_filterMap]
  constructor
  · rintro ⟨rule, hrule, name, hname, hparse⟩
    exact ⟨name, mem_entriesOf_of_rule hrule hname, hparse⟩
  · rintro ⟨name, hname, hparse⟩
    have hall : name ∈ (rulesFromPlan uuid plan owner).flatMap NrptRule.namespaces := by
      rw [flatMap_namespaces]
      exact mem_dedupe.mpr hname
    obtain ⟨rule, hrule, hmem⟩ := List.mem_flatMap.mp hall
    exact ⟨rule, hrule, name, hmem, hparse⟩

/-- It sees the root if the plan asks for it, and nothing else. -/
lemma exists_parse_entriesOf (keeps : KeepsLeadingDot toAscii) (canonical : plan.Canonical toAscii) :
    (∃ name ∈ entriesOf plan, DnsSuffix.parse toAscii name = some d) ↔
      d.isRoot = true ∧ (plan.defaultRoute = some true ∨ ∃ s ∈ plan.routingDomains,
        s.isRoot = true) := by
  constructor
  · rintro ⟨name, hname, hparse⟩
    rcases List.mem_append.mp hname with hname | hname
    · split at hname
      · next hd =>
          rw [List.mem_singleton.mp hname, parse_root] at hparse
          exact ⟨isRoot_iff.mpr (Option.some.inj hparse).symm, .inl hd⟩
      · cases hname
    · obtain ⟨s, hs, rfl⟩ := List.mem_map.mp hname
      obtain ⟨input, hinput⟩ := canonical.routing_parsed s hs
      obtain ⟨hroot, hd⟩ := (parse_namespaceOf keeps hinput).mp hparse
      exact ⟨hd, .inr ⟨s, hs, hroot⟩⟩
  · rintro ⟨hd, hdefault | ⟨s, hs, hroot⟩⟩
    · refine ⟨['.'], List.mem_append_left _ ?_, isRoot_iff.mp hd ▸ parse_root⟩
      rw [if_pos hdefault]
      exact List.mem_singleton_self _
    · refine ⟨namespaceOf s, List.mem_append_right _ (List.mem_map_of_mem hs), ?_⟩
      obtain ⟨input, hinput⟩ := canonical.routing_parsed s hs
      exact (parse_namespaceOf keeps hinput).mpr ⟨hroot, hd⟩

/-- For every canonical plan with a nameserver the rules encode its namespaces; their public view is
that of the plan exactly when the plan asks for a namespace and routes no domain but the root. -/
theorem faithful_iff (idempotent : IdempotentAscii toAscii) (keeps : KeepsLeadingDot toAscii)
    (canonical : plan.Canonical toAscii) (distinct : NoCollision uuid owner plan)
    (hne : plan.nameservers ≠ []) :
    Encodes toAscii uuid owner plan ∧
      (Faithful toAscii uuid owner scope plan ↔
        (plan.routingDomains ≠ [] ∨ plan.defaultRoute = some true) ∧
          ∀ d ∈ plan.routingDomains, d.isRoot = true) := by
  have hencodes := encodes idempotent canonical distinct hne
  refine ⟨hencodes, ?_⟩
  have hrules : rulesFromPlan uuid plan owner ≠ [] ↔
      plan.routingDomains ≠ [] ∨ plan.defaultRoute = some true := by
    rw [ne_eq, rulesFromPlan_eq_nil]
    tauto
  constructor
  · intro h
    constructor
    · obtain ⟨a, ha⟩ := List.exists_mem_of_ne_nil _ hne
      obtain ⟨rule, hrule, _⟩ := (h.servers a).mp ha
      exact hrules.mp (List.ne_nil_of_mem hrule)
    · intro d hd
      have hview := (h.routing d).mp (.inl hd)
      exact ((exists_parse_entriesOf keeps canonical).mp (exists_mem_publicState.mp hview)).1
  · rintro ⟨hask, hroots⟩
    refine { hencodes with servers := fun a => ?_, routing := fun d => ?_ }
    · constructor
      · intro ha
        obtain ⟨rule, hrule⟩ := List.exists_mem_of_ne_nil _ (hrules.mpr hask)
        obtain ⟨chunk, _, rfl⟩ := mem_rulesFromPlan.mp hrule
        exact ⟨_, hrule, ha⟩
      · rintro ⟨rule, hrule, ha⟩
        obtain ⟨chunk, _, rfl⟩ := mem_rulesFromPlan.mp hrule
        exact ha
    · rw [exists_mem_publicState, exists_parse_entriesOf keeps canonical]
      constructor
      · rintro (hd | ⟨hdefault, hd⟩)
        · exact ⟨hroots d hd, .inr ⟨d, hd, hroots d hd⟩⟩
        · exact ⟨hd, .inl hdefault⟩
      · rintro ⟨hd, hdefault | ⟨s, hs, hroot⟩⟩
        · exact .inr ⟨hdefault, hd⟩
        · rw [isRoot_iff.mp hroot, ← isRoot_iff.mp hd] at hs
          exact .inl hs

end Encoding

/-! ## Two plans -/

lemma keepsLeadingDot_lowercaseAscii : KeepsLeadingDot Windows.lowercaseAscii := by
  intro text ascii h
  unfold Windows.lowercaseAscii at h
  split at h
  · cases h
    rfl
  · cases h

/-- A plan that sends every query to one server. -/
def rootPlan : NormalizedConfig where
  nameservers := [.v4 16843009]
  searchDomains := []
  routingDomains := [⟨[]⟩]
  defaultRoute := some true

theorem faithful_root :
    Faithful Windows.lowercaseAscii id "io.test".toList (.interface (.index 7)) rootPlan := by
  have hcanonical : rootPlan.Canonical Windows.lowercaseAscii := by
    refine ⟨⟨by decide, by decide, by decide, by simp [rootPlan], ?_⟩, by decide⟩
    intro s hs
    exact ⟨['.'], (List.mem_singleton.mp hs).symm ▸ parse_root⟩
  have hdistinct : NoCollision id "io.test".toList rootPlan := fun _ _ _ _ heq => heq
  exact (faithful_iff Windows.idempotent_lowercaseAscii keepsLeadingDot_lowercaseAscii hcanonical
    hdistinct (by decide)).2.mpr ⟨.inr rfl, by decide⟩

/-- The plan of a split-DNS configuration is accepted, and the public view of its rules has no
routing domain. -/
theorem not_faithful_split :
    Accepted Windows.lowercaseAscii capabilities acceptEveryPlan (splitDns [.v4 16843009])
        (splitDnsPlan [.v4 16843009]) ∧
      NoCollision id "io.test".toList (splitDnsPlan [.v4 16843009]) ∧
      ¬ Faithful Windows.lowercaseAscii id "io.test".toList (.interface (.index 7))
        (splitDnsPlan [.v4 16843009]) := by
  refine ⟨accepted_splitDns _ (by decide), fun _ _ _ _ heq => heq, fun h => ?_⟩
  obtain ⟨rule, hrule, hd⟩ := (h.routing ⟨"corp.example".toList⟩).mp (.inl (by decide))
  have hview : ∀ rule ∈ rulesFromPlan id (splitDnsPlan [.v4 16843009]) "io.test".toList,
      (publicState Windows.lowercaseAscii (.interface (.index 7)) rule).routingDomains = [] := by
    decide
  rw [hview rule hrule] at hd
  cases hd

end Nrpt

end Osdns
