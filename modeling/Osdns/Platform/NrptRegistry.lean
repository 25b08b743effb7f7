import Mathlib.Logic.Function.Basic
import Osdns.Platform.Nrpt

/-!
# NRPT rules in the registry

`write_rule_values_with` and `read_rule_values` of `platform/windows/nrpt.rs`.  A rule is six values
of one registry key, written one after another.  A write may be refused at any value, and what was
written before stays (`Interruption`); a process that dies leaves the same values behind.

The encoding of a multi-string and the texts of errors belong to the `windows-registry` and
`windows-result` crates and are parameters (`RegistryApi`).
-/

namespace Osdns

open Listing

namespace Nrpt

/-! ## The registry -/

/-- What a registry call fails with. -/
inductive Fault
  | notFound
  | wrongType
  | malformed
  | status (code : UInt32)

structure RegistryApi where
  /-- The data of a `REG_MULTI_SZ` value. -/
  encodeMulti : List (List Char) → List Char
  decodeMulti : List Char → Option (List (List Char))
  mapError : Fault → String → Error

/-- A multi-string of one or more texts that are not empty and have no NUL is read back as it was
written. -/
def RegistryApi.RoundTrips (api : RegistryApi) : Prop :=
  ∀ texts, texts ≠ [] → (∀ text ∈ texts, text ≠ [] ∧ '\x00' ∉ text) →
    api.decodeMulti (api.encodeMulti texts) = some texts

/-- The values of a rule. -/
inductive ValueName
  | comment
  | version
  | name
  | genericDnsServers
  | displayName
  | configOptions
  deriving DecidableEq

def ValueName.text : ValueName → String
  | comment => "Comment"
  | version => "Version"
  | name => "Name"
  | genericDnsServers => "GenericDNSServers"
  | displayName => "DisplayName"
  | configOptions => "ConfigOptions"

inductive RegistryValue
  | string (text : List Char)
  | dword (n : UInt32)
  | multi (data : List Char)

/-- The values of a registry key. -/
abbrev RegistryKey := ValueName → Option RegistryValue

/-- A key that was just created. -/
def RegistryKey.empty : RegistryKey := fun _ => none

/-- `Key::get_string`. -/
def RegistryKey.getString (key : RegistryKey) (field : ValueName) : Except Fault (List Char) :=
  match key field with
  | some (.string text) => .ok text
  | some _ => .error .wrongType
  | none => .error .notFound

/-- `Key::get_u32`. -/
def RegistryKey.getU32 (key : RegistryKey) (field : ValueName) : Except Fault UInt32 :=
  match key field with
  | some (.dword n) => .ok n
  | some _ => .error .wrongType
  | none => .error .notFound

/-- `Key::get_multi_string`. -/
def RegistryKey.getMultiString (api : RegistryApi) (key : RegistryKey) (field : ValueName) :
    Except Fault (List (List Char)) :=
  match key field with
  | some (.multi data) =>
      match api.decodeMulti data with
      | some texts => .ok texts
      | none => .error .malformed
  | some _ => .error .wrongType
  | none => .error .notFound

/-! ## Reading and writing a rule -/

/-- The characters that end an entry of a server list. -/
def isServerSeparator (c : Char) : Bool := c == ';' || c == ','

/-- The server list of a rule. -/
def parseServers (text : List Char) : Except Error (List IpAddr) :=
  (text.splitOnP isServerSeparator).mapM fun entry =>
    match IpAddr.parse (trim entry) with
    | some a => .ok a
    | none => .error (.platform .windowsIpHelper "invalid IP address syntax")

/-- `read_rule_values`. -/
def readRuleValues (api : RegistryApi) (ruleKey : RegistryKey) (key comment : List Char) :
    Except Error NrptRule := do
  let namespaces ← (ruleKey.getMultiString api .name).mapError (api.mapError · "NRPT read Name")
  if namespaces.isEmpty then
    throw (.platform .windowsIpHelper "owned NRPT rule has no namespaces")
  let rawServers ← (ruleKey.getString .genericDnsServers).mapError
    (api.mapError · "NRPT read GenericDNSServers")
  let servers ← parseServers rawServers
  if servers.isEmpty then
    throw (.platform .windowsIpHelper "owned NRPT rule has no DNS servers")
  let version ← (ruleKey.getU32 .version).mapError (api.mapError · "NRPT read Version")
  let configOptions ← (ruleKey.getU32 .configOptions).mapError
    (api.mapError · "NRPT read ConfigOptions")
  let displayName ← (ruleKey.getString .displayName).mapError
    (api.mapError · "NRPT read DisplayName")
  return { key, version, configOptions, namespaces, servers, displayName, comment }

/-- Where a sequence of writes is cut: by `before_write` or by the registry. -/
structure Interruption where
  beforeWrite : String → Except Error Unit
  set : ValueName → Except Fault Unit

/-- Nothing is cut. -/
def Interruption.none : Interruption := ⟨fun _ => .ok (), fun _ => .ok ()⟩

/-- A computation that writes to a key. -/
abbrev Writing := ExceptT Error (StateM RegistryKey)

/-- A result without a write. -/
def Writing.lift {α : Type} (result : Except Error α) : Writing α := ExceptT.mk (pure result)

/-- One value is written. -/
def setValue (api : RegistryApi) (cut : Interruption) (field : ValueName) (operation : String)
    (value : RegistryValue) : Writing Unit := do
  Writing.lift (cut.beforeWrite field.text)
  Writing.lift ((cut.set field).mapError (api.mapError · operation))
  modify fun key => Function.update key field (some value)

/-- The server list as text. -/
def joinServers (servers : List IpAddr) : List Char := [';'].intercalate (servers.map IpAddr.toText)

/-- `write_rule_values_with`. -/
def writeRuleValuesWith (api : RegistryApi) (cut : Interruption) (rule : NrptRule)
    (previous : Option NrptRule) : Writing Unit := do
  let servers := joinServers rule.servers
  match previous with
  | some before =>
      if before.key != rule.key || before.version != rule.version ||
          before.configOptions != rule.configOptions || before.namespaces != rule.namespaces ||
          before.displayName != rule.displayName || before.comment != rule.comment then
        throw (.journalCorrupt "existing NRPT rule changes immutable policy fields")
      else if before.servers = rule.servers then return
      else
        setValue api cut .genericDnsServers "NRPT update GenericDNSServers" (.string servers)
        Writing.lift (cut.beforeWrite "AfterGenericDNSServers")
  | none =>
      setValue api cut .comment "NRPT set Comment" (.string rule.comment)
      setValue api cut .version "NRPT set Version" (.dword rule.version)
      setValue api cut .name "NRPT set Name" (.multi (api.encodeMulti rule.namespaces))
      setValue api cut .genericDnsServers "NRPT set GenericDNSServers" (.string servers)
      setValue api cut .displayName "NRPT set DisplayName" (.string rule.displayName)
      setValue api cut .configOptions "NRPT set ConfigOptions" (.dword rule.configOptions)

/-- A computation and the values it leaves. -/
def Writing.perform {α : Type} (p : Writing α) (key : RegistryKey) : Except Error α × RegistryKey :=
  p.run.run key

/-! ## What is read -/

section Reading

variable {α β ε ε' : Type} {api : RegistryApi} {key : RegistryKey} {field : ValueName}
  {ruleKey comment text data : List Char} {n : UInt32} {texts : List (List Char)} {rule : NrptRule}

lemma bind_eq_ok {x : Except ε α} {f : α → Except ε β} {b : β} :
    (x >>= f) = .ok b ↔ ∃ a, x = .ok a ∧ f a = .ok b := by
  cases x with
  | error e =>
      constructor
      · intro h
        cases h
      · rintro ⟨a, h, _⟩
        cases h
  | ok a =>
      constructor
      · exact fun h => ⟨a, rfl, h⟩
      · rintro ⟨a', h, hf⟩
        cases h
        exact hf

lemma mapError_eq_ok {x : Except ε α} {f : ε → ε'} {a : α} : x.mapError f = .ok a ↔ x = .ok a := by
  cases x <;> simp [Except.mapError]

lemma getString_eq_ok : key.getString field = .ok text ↔ key field = some (.string text) := by
  unfold RegistryKey.getString
  split
  · next h => simp [h]
  · next h => simp_all
  · next h => simp [h]

lemma getU32_eq_ok : key.getU32 field = .ok n ↔ key field = some (.dword n) := by
  unfold RegistryKey.getU32
  split
  · next h => simp [h]
  · next h => simp_all
  · next h => simp [h]

lemma getMultiString_eq_ok :
    key.getMultiString api field = .ok texts ↔
      ∃ data, key field = some (.multi data) ∧ api.decodeMulti data = some texts := by
  unfold RegistryKey.getMultiString
  split
  · next data h =>
      simp only [h, Option.some.injEq, RegistryValue.multi.injEq, exists_eq_left']
      cases api.decodeMulti data <;> simp
  · next h => simp_all
  · next h => simp [h]

/-- A rule is read exactly from the values that hold it. -/
structure Holds (api : RegistryApi) (key : RegistryKey) (rule : NrptRule) : Prop where
  namespaces : ∃ data, key .name = some (.multi data) ∧ api.decodeMulti data = some rule.namespaces
  namespaces_ne : rule.namespaces ≠ []
  servers : ∃ text, key .genericDnsServers = some (.string text) ∧ parseServers text = .ok rule.servers
  servers_ne : rule.servers ≠ []
  version : key .version = some (.dword rule.version)
  configOptions : key .configOptions = some (.dword rule.configOptions)
  displayName : key .displayName = some (.string rule.displayName)

lemma readRuleValues_eq_ok :
    readRuleValues api key ruleKey comment = .ok rule ↔
      Holds api key rule ∧ rule.key = ruleKey ∧ rule.comment = comment := by
  constructor
  · intro h
    unfold readRuleValues at h
    obtain ⟨namespaces, hnamespaces, h⟩ := bind_eq_ok.mp h
    obtain ⟨hnonempty, h⟩ := guard_eq_ok.mp h
    obtain ⟨text, htext, h⟩ := bind_eq_ok.mp h
    obtain ⟨servers, hservers, h⟩ := bind_eq_ok.mp h
    obtain ⟨hserved, h⟩ := guard_eq_ok.mp h
    obtain ⟨version, hversion, h⟩ := bind_eq_ok.mp h
    obtain ⟨configOptions, hconfigOptions, h⟩ := bind_eq_ok.mp h
    obtain ⟨displayName, hdisplayName, h⟩ := bind_eq_ok.mp h
    cases h
    rw [mapError_eq_ok] at hnamespaces htext hversion hconfigOptions hdisplayName
    refine ⟨⟨getMultiString_eq_ok.mp hnamespaces, ?_, ⟨text, getString_eq_ok.mp htext, hservers⟩, ?_,
      getU32_eq_ok.mp hversion, getU32_eq_ok.mp hconfigOptions, getString_eq_ok.mp hdisplayName⟩,
      rfl, rfl⟩
    · simpa using hnonempty
    · simpa using hserved
  · rintro ⟨h, rfl, rfl⟩
    obtain ⟨text, htext, hservers⟩ := h.servers
    unfold readRuleValues
    refine bind_eq_ok.mpr ⟨rule.namespaces, mapError_eq_ok.mpr
      (getMultiString_eq_ok.mpr h.namespaces), ?_⟩
    refine guard_eq_ok.mpr ⟨by simpa using h.namespaces_ne, ?_⟩
    refine bind_eq_ok.mpr ⟨text, mapError_eq_ok.mpr (getString_eq_ok.mpr htext), ?_⟩
    refine bind_eq_ok.mpr ⟨rule.servers, hservers, ?_⟩
    refine guard_eq_ok.mpr ⟨by simpa using h.servers_ne, ?_⟩
    refine bind_eq_ok.mpr ⟨rule.version, mapError_eq_ok.mpr (getU32_eq_ok.mpr h.version), ?_⟩
    refine bind_eq_ok.mpr ⟨rule.configOptions,
      mapError_eq_ok.mpr (getU32_eq_ok.mpr h.configOptions), ?_⟩
    exact bind_eq_ok.mpr ⟨rule.displayName,
      mapError_eq_ok.mpr (getString_eq_ok.mpr h.displayName), rfl⟩

/-- A key without options holds no rule. -/
lemma not_holds_of_unfinished (h : key .configOptions = none) :
    ∃ e, readRuleValues api key ruleKey comment = .error e := by
  cases hread : readRuleValues api key ruleKey comment with
  | error e => exact ⟨e, rfl⟩
  | ok rule =>
      have := (readRuleValues_eq_ok.mp hread).1.configOptions
      rw [h] at this
      cases this

lemma isServerSeparator_address {c : Char} (hc : IsEntryChar c) : isServerSeparator c = false := by
  obtain ⟨_, comma, semicolon⟩ := hc
  simp only [isServerSeparator, Bool.or_eq_false_iff, beq_eq_false_iff_ne]
  constructor
  · rintro rfl
    exact semicolon rfl
  · rintro rfl
    exact comma rfl

/-- A server list is read back. -/
lemma parseServers_joinServers {servers : List IpAddr} (h : servers ≠ []) :
    parseServers (joinServers servers) = .ok servers := by
  have plain : ∀ l ∈ servers.map IpAddr.toText, ∀ c ∈ l, IsEntryChar c := by
    intro l hl c hc
    obtain ⟨a, _, rfl⟩ := List.mem_map.mp hl
    exact isEntryChar_address (a.isAddressChar_toText c hc)
  rw [parseServers, joinServers, splitOnP_intercalate (by decide) (by simpa using h) fun l hl c hc =>
    isServerSeparator_address (plain l hl c hc)]
  clear h
  induction servers with
  | nil => rfl
  | cons a servers ih =>
      have htrim : trim a.toText = a.toText :=
        trim_of_plain fun c hc => (plain a.toText (by simp) c hc).1
      rw [List.map_cons, List.mapM_cons, htrim, a.parse_toText]
      refine bind_eq_ok.mpr ⟨a, rfl, bind_eq_ok.mpr ⟨servers, ih fun l hl => plain l ?_, rfl⟩⟩
      exact List.mem_map.mpr (by simpa using .inr (List.mem_map.mp hl))

end Reading

/-! ## What is left after a cut -/

section Cutting

variable {α : Type} {toAscii : List Char → Option (List Char)} {uuid : List Char → List Char}
  {owner : List Char} {api : RegistryApi} {cut : Interruption} {key : RegistryKey}
  {field : ValueName} {operation : String} {value : RegistryValue} {rule before : NrptRule}

/-- A write that is followed by something else either is cut, and nothing happens, or is done. -/
lemma perform_setValue_bind {f : Unit → Writing α} {Q : Except Error α × RegistryKey → Prop}
    (fails : ∀ e, cut ≠ .none → Q (.error e, key))
    (next : Q ((f ()).perform (Function.update key field (some value)))) :
    Q ((setValue api cut field operation value >>= f).perform key) := by
  cases hb : cut.beforeWrite field.text with
  | error e =>
      have hcut : (setValue api cut field operation value >>= f).perform key = (.error e, key) := by
        simp only [setValue, hb]
        rfl
      rw [hcut]
      exact fails e fun h => by
        rw [h] at hb
        cases hb
  | ok u =>
      cases hs : cut.set field with
      | error fault =>
          have hcut : (setValue api cut field operation value >>= f).perform key =
              (.error (api.mapError fault operation), key) := by
            simp only [setValue, hb, hs]
            rfl
          rw [hcut]
          exact fails _ fun h => by
            rw [h] at hs
            cases hs
      | ok v =>
          have hdone : (setValue api cut field operation value >>= f).perform key =
              (f ()).perform (Function.update key field (some value)) := by
            simp only [setValue, hb, hs]
            rfl
          rw [hdone]
          exact next

/-- The values of a rule after all writes. -/
def written (api : RegistryApi) (rule : NrptRule) : RegistryKey
  | .comment => some (.string rule.comment)
  | .version => some (.dword rule.version)
  | .name => some (.multi (api.encodeMulti rule.namespaces))
  | .genericDnsServers => some (.string (joinServers rule.servers))
  | .displayName => some (.string rule.displayName)
  | .configOptions => some (.dword rule.configOptions)

/-- What a write of a new rule leaves: nothing, all of it, or the owner marker and values that are no
rule. -/
structure Created (api : RegistryApi) (cut : Interruption) (rule : NrptRule)
    (result : Except Error Unit × RegistryKey) : Prop where
  finished : result.1 = .ok () → result.2 = written api rule
  unfinished : ∀ e, result.1 = .error e → result.2 .configOptions = none
  marked : result.2 ≠ .empty → result.2 .comment = some (.string rule.comment)
  uncut : cut = .none → result.1 = .ok ()

lemma Created.partly {e : Error} (hcut : cut ≠ .none) (hoptions : key .configOptions = none)
    (hmarked : key ≠ .empty → key .comment = some (.string rule.comment)) :
    Created api cut rule (.error e, key) where
  finished := by simp
  unfinished := fun _ _ => hoptions
  marked := hmarked
  uncut := fun h => absurd h hcut

/-- A new rule is finished by its last value. -/
lemma created_writeRuleValues (cut : Interruption) :
    Created api cut rule ((writeRuleValuesWith api cut rule none).perform .empty) := by
  unfold writeRuleValuesWith
  refine perform_setValue_bind (fun e hcut => .partly hcut rfl (by simp)) ?_
  refine perform_setValue_bind (fun e hcut => .partly hcut rfl fun _ => rfl) ?_
  refine perform_setValue_bind (fun e hcut => .partly hcut rfl fun _ => rfl) ?_
  refine perform_setValue_bind (fun e hcut => .partly hcut rfl fun _ => rfl) ?_
  refine perform_setValue_bind (fun e hcut => .partly hcut rfl fun _ => rfl) ?_
  rw [← bind_pure (setValue api cut .configOptions _ _)]
  refine perform_setValue_bind (fun e hcut => .partly hcut rfl fun _ => rfl) ?_
  refine ⟨fun _ => ?_, fun e habs => ?_, fun _ => rfl, fun _ => rfl⟩
  · funext field
    cases field <;> rfl
  · cases habs

/-- The new server list is the only difference. -/
lemma Holds.update (h : Holds api key before) (hne : rule.servers ≠ [])
    (hnamespaces : before.namespaces = rule.namespaces) (hversion : before.version = rule.version)
    (hoptions : before.configOptions = rule.configOptions)
    (hdisplay : before.displayName = rule.displayName) :
    Holds api (Function.update key .genericDnsServers
      (some (.string (joinServers rule.servers)))) rule where
  namespaces := hnamespaces ▸ h.namespaces
  namespaces_ne := hnamespaces ▸ h.namespaces_ne
  servers := ⟨_, rfl, parseServers_joinServers hne⟩
  servers_ne := hne
  version := hversion ▸ h.version
  configOptions := hoptions ▸ h.configOptions
  displayName := hdisplay ▸ h.displayName

/-- What an update leaves: the old rule or the new one. -/
structure Updated (api : RegistryApi) (rule before : NrptRule) (comment : List Char)
    (result : Except Error Unit × RegistryKey) : Prop where
  either : readRuleValues api result.2 rule.key comment = .ok before ∨
    readRuleValues api result.2 rule.key comment = .ok rule
  finished : result.1 = .ok () → readRuleValues api result.2 rule.key comment = .ok rule

/-- The fields that an update may not change. -/
def SameBinding (rule before : NrptRule) : Prop :=
  before.key = rule.key ∧ before.version = rule.version ∧
    before.configOptions = rule.configOptions ∧ before.namespaces = rule.namespaces ∧
    before.displayName = rule.displayName ∧ before.comment = rule.comment

lemma updated_writeRuleValues (cut : Interruption) {comment : List Char} (hne : rule.servers ≠ [])
    (hread : readRuleValues api key rule.key comment = .ok before) :
    let result := (writeRuleValuesWith api cut rule (some before)).perform key
    Updated api rule before comment result ∧
      (cut = .none → SameBinding rule before → result.1 = .ok ()) := by
  obtain ⟨hholds, hkey, hcomment⟩ := readRuleValues_eq_ok.mp hread
  unfold writeRuleValuesWith
  dsimp only
  split
  · next hdiff =>
      refine ⟨⟨.inl hread, fun habs => ?_⟩, fun _ hsame => ?_⟩
      · cases habs
      · obtain ⟨h₁, h₂, h₃, h₄, h₅, h₆⟩ := hsame
        simp [h₁, h₂, h₃, h₄, h₅, h₆] at hdiff
  · next hsame =>
      simp only [Bool.or_eq_true, bne_iff_ne, ne_eq, not_or, not_not] at hsame
      obtain ⟨⟨⟨⟨⟨_, hversion⟩, hoptions⟩, hnamespaces⟩, hdisplay⟩, hcomment'⟩ := hsame
      split
      · next hservers =>
          have heq : before = rule := by
            cases before
            cases rule
            simp_all
          exact ⟨⟨.inl hread, fun _ => heq ▸ hread⟩, fun _ _ => rfl⟩
      · have hnew : readRuleValues api (Function.update key .genericDnsServers
            (some (.string (joinServers rule.servers)))) rule.key comment = .ok rule :=
          readRuleValues_eq_ok.mpr ⟨hholds.update hne hnamespaces hversion hoptions hdisplay, rfl,
            hcomment' ▸ hcomment⟩
        refine perform_setValue_bind (Q := fun result => Updated api rule before comment result ∧
          (cut = .none → SameBinding rule before → result.1 = .ok ())) (fun e hcut => ?_) ?_
        · exact ⟨⟨.inl hread, by simp⟩, fun hnone => absurd hnone hcut⟩
        · exact ⟨⟨.inr hnew, fun _ => hnew⟩, fun hnone _ => by rw [hnone]; rfl⟩

/-- Valid rules of one owner under one key have the same binding, unless their UUIDs collide. -/
lemma sameBinding_of_valid (valid : validateRule toAscii uuid rule owner = .ok ())
    (valid' : validateRule toAscii uuid before owner = .ok ()) (hkey : before.key = rule.key)
    (distinct : uuid (ruleName owner before.namespaces) = uuid (ruleName owner rule.namespaces) →
      ruleName owner before.namespaces = ruleName owner rule.namespaces) :
    SameBinding rule before := by
  obtain ⟨⟨hne, _, hall⟩, hk, hcomment, _, _, hversion, hoptions, hdisplay⟩ :=
    validateRule_eq_ok.mp valid
  obtain ⟨⟨hne', _, hall'⟩, hk', hcomment', _, _, hversion', hoptions', hdisplay'⟩ :=
    validateRule_eq_ok.mp valid'
  have plain : ∀ {names : List (List Char)}, (∀ name ∈ names, validNamespace toAscii name = true) →
      ∀ name ∈ names, '\x1f' ∉ name := by
    intro names hnames name hname
    obtain ⟨s, input, hparse, rfl⟩ := exists_of_validNamespace (hnames name hname)
    exact not_mem_namespaceOf hparse (by decide) (by decide)
  have hname := distinct (hk'.symm.trans (hkey.trans hk))
  exact ⟨hkey, hversion'.trans hversion.symm, hoptions'.trans hoptions.symm,
    intercalate_inj hne' hne (plain hall') (plain hall) (List.append_cancel_left hname),
    hdisplay'.trans hdisplay.symm, hcomment'.trans hcomment.symm⟩

/-- The values of a valid rule hold it. -/
lemma holds_written (roundTrips : api.RoundTrips)
    (valid : validateRule toAscii uuid rule owner = .ok ()) : Holds api (written api rule) rule := by
  obtain ⟨⟨hne, _, hall⟩, _, _, hservers, _⟩ := validateRule_eq_ok.mp valid
  refine ⟨⟨_, rfl, roundTrips _ hne fun name hname => ?_⟩, hne,
    ⟨_, rfl, parseServers_joinServers hservers⟩, hservers, rfl, rfl, rfl⟩
  obtain ⟨s, input, hparse, rfl⟩ := exists_of_validNamespace (hall name hname)
  refine ⟨?_, not_mem_namespaceOf hparse (by decide) (by decide)⟩
  unfold namespaceOf
  split <;> simp

/-- Wherever the writes of a valid rule are cut, an update leaves the old rule or the new one, and a
key that was created is no rule before its last value, but has the owner marker from its first.  After
all writes the new rule is read. -/
theorem writeRuleValues_atomic (cut : Interruption) (roundTrips : api.RoundTrips)
    (valid : validateRule toAscii uuid rule owner = .ok ()) :
    (∀ key comment before, readRuleValues api key rule.key comment = .ok before →
      validateRule toAscii uuid before owner = .ok () →
      let result := (writeRuleValuesWith api cut rule (some before)).perform key
      (readRuleValues api result.2 rule.key comment = .ok before ∨
        readRuleValues api result.2 rule.key comment = .ok rule) ∧
      (result.1 = .ok () → readRuleValues api result.2 rule.key comment = .ok rule) ∧
      (cut = .none →
        (uuid (ruleName owner before.namespaces) = uuid (ruleName owner rule.namespaces) →
          ruleName owner before.namespaces = ruleName owner rule.namespaces) →
        result.1 = .ok ())) ∧
    let result := (writeRuleValuesWith api cut rule none).perform .empty
    (∀ e, result.1 = .error e → ∀ comment,
      ∃ e', readRuleValues api result.2 rule.key comment = .error e') ∧
    (result.2 ≠ .empty → result.2.getString .comment = .ok (markerFor owner)) ∧
    (result.1 = .ok () → readRuleValues api result.2 rule.key (markerFor owner) = .ok rule) ∧
    (cut = .none → result.1 = .ok ()) := by
  obtain ⟨_, _, hcomment, hservers, _⟩ := validateRule_eq_ok.mp valid
  constructor
  · intro key comment before hread valid'
    obtain ⟨hupdated, huncut⟩ := updated_writeRuleValues cut hservers hread
    have hkey : before.key = rule.key := (readRuleValues_eq_ok.mp hread).2.1
    exact ⟨hupdated.either, hupdated.finished,
      fun hnone distinct => huncut hnone (sameBinding_of_valid valid valid' hkey distinct)⟩
  · have hcreated : Created api cut rule _ := created_writeRuleValues cut
    refine ⟨fun e he comment => not_holds_of_unfinished (hcreated.unfinished e he), fun hne => ?_,
      fun hok => ?_, hcreated.uncut⟩
    · exact getString_eq_ok.mpr (hcomment ▸ hcreated.marked hne)
    · rw [hcreated.finished hok]
      exact readRuleValues_eq_ok.mpr ⟨holds_written roundTrips valid, rfl, hcomment⟩

end Cutting

/-- Multi-strings as texts that are closed by a NUL each, closed by one more. -/
def doubleNul : RegistryApi where
  encodeMulti := fun texts => ['\x00'].intercalate (texts ++ [[], []])
  decodeMulti := fun data =>
    let parts := data.splitOnP (· == '\x00')
    if parts.drop (parts.length - 2) = [[], []] then some (parts.take (parts.length - 2)) else none
  mapError := fun _ operation => .platform .windowsIpHelper operation

lemma roundTrips_doubleNul : doubleNul.RoundTrips := by
  intro texts _ plain
  have hsplit : (['\x00'].intercalate (texts ++ [[], []])).splitOnP (· == '\x00') =
      texts ++ [[], []] := by
    refine splitOnP_intercalate (by decide) (by simp) fun text ht c hc => ?_
    rcases List.mem_append.mp ht with ht | ht
    · simpa using fun heq : c = '\x00' => (plain text ht).2 (heq ▸ hc)
    · simp only [List.mem_cons, List.not_mem_nil, or_false, or_self] at ht
      rw [ht] at hc
      cases hc
  simp only [doubleNul, hsplit]
  simp

/-- The rule of one routing domain. -/
def corpRule : NrptRule where
  key := ruleKey id "io.test".toList [".corp.example".toList]
  version := 1
  configOptions := 8
  namespaces := [".corp.example".toList]
  servers := [.v4 16843009]
  displayName := "osdns".toList
  comment := markerFor "io.test".toList

/-- The registry refuses the display name of a new rule. -/
theorem writeRuleValues_atomic_refused :
    let cut : Interruption := ⟨fun _ => .ok (), fun field =>
      if field = .displayName then .error (.status 5) else .ok ()⟩
    let result := (writeRuleValuesWith doubleNul cut corpRule none).perform .empty
    (∃ e, readRuleValues doubleNul result.2 corpRule.key (markerFor "io.test".toList) = .error e) ∧
      (result.2 ≠ .empty → result.2.getString .comment = .ok (markerFor "io.test".toList)) := by
  intro cut result
  have valid : validateRule Windows.lowercaseAscii id corpRule "io.test".toList = .ok () := by
    refine validateRule_eq_ok.mpr ⟨⟨by decide, by decide, ?_⟩, rfl, rfl, by decide, ?_, rfl, rfl, rfl⟩
    · decide
    · decide
  obtain ⟨hread, hmarked, _⟩ :=
    (writeRuleValues_atomic cut roundTrips_doubleNul valid).2
  exact ⟨hread (.platform .windowsIpHelper "NRPT set DisplayName") rfl _, hmarked⟩

end Nrpt

end Osdns
