import Osdns.Framework.Lists
import Osdns.Platform.Text

/-!
# What validation promises about a plan

`DnsConfigBuilder::build` of `config.rs`, followed by `validate_against`.  A plan that came through
both is `Canonical`: its addresses are specified, its lists have no duplicates and every domain is
one that `DnsSuffix::parse` answered.
-/

namespace Osdns

open Listing

/-- `DnsConfigBuilder`: the domains are not parsed yet. -/
structure DnsConfigBuilder where
  scope : DnsScope
  nameservers : List IpAddr
  searchDomains : List (List Char)
  routingDomains : List (List Char)
  defaultRoute : Option Bool

/-- The loop of `build` over a list of domains. -/
def buildDomains (toAscii : List Char → Option (List Char)) (domains : List (List Char)) :
    Option (List DnsSuffix) :=
  domains.foldlM (fun found domain => (DnsSuffix.parse toAscii domain).map (pushNew found)) []

/-- The loop of `build` over the nameservers. -/
def buildNameservers (nameservers : List IpAddr) : Option (List IpAddr) :=
  nameservers.foldlM (fun found ip => if ip.isUnspecified then none else some (pushNew found ip)) []

/-- `DnsConfigBuilder::build`, without the texts of its errors. -/
def DnsConfigBuilder.build (toAscii : List Char → Option (List Char)) (self : DnsConfigBuilder) :
    Option DnsConfig := do
  let nameservers ← buildNameservers self.nameservers
  let searchDomains ← buildDomains toAscii self.searchDomains
  let routingDomains ← buildDomains toAscii self.routingDomains
  match self.scope with
  | .global =>
      if !routingDomains.isEmpty then none
      else if self.defaultRoute.isSome then none
      else some ⟨self.scope, nameservers, searchDomains, routingDomains, self.defaultRoute⟩
  | .interface _ =>
      some ⟨self.scope, nameservers, searchDomains, routingDomains, self.defaultRoute⟩

/-- The plan of a configuration that `build`, `validate_against` and the backend accepted. -/
def Accepted (toAscii : List Char → Option (List Char)) (caps : Capabilities)
    (validatePlan : DnsScope → NormalizedConfig → Except Error Unit) (builder : DnsConfigBuilder)
    (plan : NormalizedConfig) : Prop :=
  ∃ config, builder.build toAscii = some config ∧ validateAgainst config caps = .ok plan ∧
    validatePlan config.scope plan = .ok ()

/-- `Backend::validate_plan` of a backend that does not override it. -/
def acceptEveryPlan (_ : DnsScope) (_ : NormalizedConfig) : Except Error Unit := .ok ()

/-- A plan whose lists have no duplicates.  Its domains were parsed, as every `DnsSuffix` is. -/
structure NormalizedConfig.Deduplicated (toAscii : List Char → Option (List Char))
    (plan : NormalizedConfig) : Prop where
  nameservers : plan.nameservers.Nodup
  searchDomains : plan.searchDomains.Nodup
  routingDomains : plan.routingDomains.Nodup
  search_parsed : ∀ s ∈ plan.searchDomains, ∃ input, DnsSuffix.parse toAscii input = some s
  routing_parsed : ∀ s ∈ plan.routingDomains, ∃ input, DnsSuffix.parse toAscii input = some s

/-- A plan as validation leaves it. -/
structure NormalizedConfig.Canonical (toAscii : List Char → Option (List Char))
    (plan : NormalizedConfig) : Prop extends plan.Deduplicated toAscii where
  specified : ∀ a ∈ plan.nameservers, a.isUnspecified = false

/-! ## Parsed domains -/

section Domains

variable {toAscii : List Char → Option (List Char)} {s t : DnsSuffix} {input input' : List Char}

/-- A parsed domain is printed as a text that is parsed to it. -/
lemma DnsSuffix.parse_toText (idempotent : IdempotentAscii toAscii)
    (h : DnsSuffix.parse toAscii input = some s) : DnsSuffix.parse toAscii s.toText = some s := by
  by_cases root : s.isRoot = true
  · have empty : s = ⟨[]⟩ := by
      cases s
      simpa [isRoot] using root
    rw [empty]
    rfl
  · have proper : s.isRoot = false := by simpa using root
    rw [toText, if_neg root]
    exact parse_text idempotent h proper

/-- A proper domain that was parsed is its own valid text. -/
lemma DnsSuffix.proper_text (h : DnsSuffix.parse toAscii input = some s) (proper : s.isRoot = false) :
    s.text ≠ [] ∧ validDomain s.text = true ∧ s.toText = s.text := by
  have nonempty : s.text ≠ [] := by simpa [isRoot] using proper
  refine ⟨nonempty, ?_, by simp [toText, proper]⟩
  rcases parse_eq_some h with empty | ⟨valid, _⟩
  · exact absurd empty nonempty
  · exact valid

/-- Different parsed domains are printed differently. -/
lemma DnsSuffix.toText_inj (idempotent : IdempotentAscii toAscii)
    (hs : DnsSuffix.parse toAscii input = some s) (ht : DnsSuffix.parse toAscii input' = some t)
    (h : s.toText = t.toText) : s = t := by
  have := parse_toText idempotent hs
  rw [h, parse_toText idempotent ht] at this
  exact (Option.some.inj this).symm

end Domains

/-! ## Accepted plans are canonical -/

section Build

variable {toAscii : List Char → Option (List Char)}

lemma buildDomains_spec {domains : List (List Char)} {built : List DnsSuffix}
    (h : buildDomains toAscii domains = some built) :
    built.Nodup ∧ (∀ s ∈ built, ∃ input, DnsSuffix.parse toAscii input = some s) ∧
      (built = [] ↔ domains = []) := by
  obtain ⟨hnodup, hmem, hall⟩ := collectM_spec h
  refine ⟨hnodup List.nodup_nil, fun s hs => ?_, ?_⟩
  · rcases (hmem s).mp hs with hs | ⟨input, _, hparse⟩
    · cases hs
    · exact ⟨input, hparse⟩
  · constructor
    · rintro rfl
      refine List.eq_nil_iff_forall_not_mem.mpr fun domain hd => ?_
      obtain ⟨s, hparse⟩ := hall domain hd
      exact absurd ((hmem s).mpr (.inr ⟨domain, hd, hparse⟩)) (by simp)
    · rintro rfl
      cases h
      rfl

lemma buildNameservers_spec {nameservers built : List IpAddr}
    (h : buildNameservers nameservers = some built) :
    built.Nodup ∧ (∀ a ∈ built, a.isUnspecified = false) ∧ (built = [] ↔ nameservers = []) := by
  have hstep : (fun (found : List IpAddr) ip =>
      if ip.isUnspecified then none else some (pushNew found ip)) =
      fun found ip => (if ip.isUnspecified then none else some ip).map (pushNew found) := by
    funext found ip
    split <;> rfl
  rw [buildNameservers, hstep] at h
  obtain ⟨hnodup, hmem, hall⟩ := collectM_spec h
  have hsome : ∀ x a : IpAddr, (if x.isUnspecified then none else some x) = some a →
      x = a ∧ a.isUnspecified = false := by
    intro x a hx
    split at hx
    · cases hx
    · next hspec =>
        cases hx
        exact ⟨rfl, by simpa using hspec⟩
  refine ⟨hnodup List.nodup_nil, fun a ha => ?_, ?_⟩
  · rcases (hmem a).mp ha with ha | ⟨x, _, hx⟩
    · cases ha
    · exact (hsome x a hx).2
  · constructor
    · rintro rfl
      refine List.eq_nil_iff_forall_not_mem.mpr fun ip hip => ?_
      obtain ⟨a, ha⟩ := hall ip hip
      exact absurd ((hmem a).mpr (.inr ⟨ip, hip, ha⟩)) (by simp)
    · rintro rfl
      cases h
      rfl

/-- A computation behind a guard that throws. -/
lemma guard_eq_ok {α ε : Type} {b : Bool} {e : ε} {x : Except ε α} {a : α} :
    (if b then throw e else x : Except ε α) = .ok a ↔ b = false ∧ x = .ok a := by
  cases b with
  | false => simp
  | true =>
      constructor
      · intro h
        cases h
      · rintro ⟨h, _⟩
        cases h

/-- `validate_against` passes the lists on, and routing domains only to a backend that can have
them. -/
lemma validateAgainst_eq_ok {config : DnsConfig} {caps : Capabilities} {plan : NormalizedConfig}
    (h : validateAgainst config caps = .ok plan) :
    plan = ⟨config.nameservers, config.searchDomains, config.routingDomains,
      config.defaultRoute⟩ ∧
      (caps.splitDns = false → config.scope ≠ .global → config.routingDomains = []) := by
  unfold validateAgainst at h
  dsimp only at h
  cases hscope : config.scope with
  | global =>
      rw [hscope] at h
      obtain ⟨_, h⟩ := guard_eq_ok.mp h
      obtain ⟨_, h⟩ := guard_eq_ok.mp h
      obtain ⟨_, h⟩ := guard_eq_ok.mp h
      cases h
      exact ⟨rfl, fun _ hne => absurd rfl hne⟩
  | interface selector =>
      rw [hscope] at h
      obtain ⟨_, h⟩ := guard_eq_ok.mp h
      obtain ⟨hsplit, h⟩ := guard_eq_ok.mp h
      obtain ⟨_, h⟩ := guard_eq_ok.mp h
      obtain ⟨_, h⟩ := guard_eq_ok.mp h
      cases h
      exact ⟨rfl, fun hcaps _ => by simpa [hcaps] using hsplit⟩

/-- What `build` answers has the lists its loops collected. -/
lemma DnsConfigBuilder.build_eq_some {builder : DnsConfigBuilder} {config : DnsConfig}
    (h : builder.build toAscii = some config) :
    buildNameservers builder.nameservers = some config.nameservers ∧
      buildDomains toAscii builder.searchDomains = some config.searchDomains ∧
      buildDomains toAscii builder.routingDomains = some config.routingDomains ∧
      config.defaultRoute = builder.defaultRoute ∧
      (config.scope = .global → config.routingDomains = []) := by
  unfold build at h
  obtain ⟨nameservers, hn, h⟩ := Option.bind_eq_some_iff.mp h
  obtain ⟨searchDomains, hs, h⟩ := Option.bind_eq_some_iff.mp h
  obtain ⟨routingDomains, hr, h⟩ := Option.bind_eq_some_iff.mp h
  split at h
  · simp only [Option.ite_none_left_eq_some, Option.some.injEq] at h
    obtain ⟨hempty, _, rfl⟩ := h
    exact ⟨hn, hs, hr, rfl, fun _ => by simpa using hempty⟩
  · next hscope =>
      cases h
      exact ⟨hn, hs, hr, rfl, fun hglobal => absurd (hscope.symm.trans hglobal) (by simp)⟩

variable {caps : Capabilities} {validatePlan : DnsScope → NormalizedConfig → Except Error Unit}
  {builder : DnsConfigBuilder} {plan : NormalizedConfig}

/-- Validation promises a canonical plan. -/
lemma Accepted.canonical (h : Accepted toAscii caps validatePlan builder plan) :
    plan.Canonical toAscii := by
  obtain ⟨config, hbuild, hvalid, _⟩ := h
  obtain ⟨rfl, _⟩ := validateAgainst_eq_ok hvalid
  obtain ⟨hn, hs, hr, _⟩ := DnsConfigBuilder.build_eq_some hbuild
  obtain ⟨nameservers, specified, _⟩ := buildNameservers_spec hn
  obtain ⟨searchDomains, search_parsed, _⟩ := buildDomains_spec hs
  obtain ⟨routingDomains, routing_parsed, _⟩ := buildDomains_spec hr
  exact ⟨⟨nameservers, searchDomains, routingDomains, search_parsed, routing_parsed⟩, specified⟩

/-- The plan asks for what the builder asked for. -/
lemma Accepted.empty_iff (h : Accepted toAscii caps validatePlan builder plan) :
    (plan.nameservers = [] ↔ builder.nameservers = []) ∧
      (plan.routingDomains = [] ↔ builder.routingDomains = []) ∧
      plan.defaultRoute = builder.defaultRoute := by
  obtain ⟨config, hbuild, hvalid, _⟩ := h
  obtain ⟨rfl, _⟩ := validateAgainst_eq_ok hvalid
  obtain ⟨hn, _, hr, hd, _⟩ := DnsConfigBuilder.build_eq_some hbuild
  exact ⟨(buildNameservers_spec hn).2.2, (buildDomains_spec hr).2.2, hd⟩

/-- Without split DNS an accepted plan has no routing domains. -/
lemma Accepted.routingDomains_eq_nil (h : Accepted toAscii caps validatePlan builder plan)
    (hcaps : caps.splitDns = false) : plan.routingDomains = [] := by
  obtain ⟨config, hbuild, hvalid, _⟩ := h
  obtain ⟨rfl, hsplit⟩ := validateAgainst_eq_ok hvalid
  by_cases hscope : config.scope = .global
  · exact (DnsConfigBuilder.build_eq_some hbuild).2.2.2.2 hscope
  · exact hsplit hcaps hscope

end Build

end Osdns
