import Osdns.Platform.Lossless
import Osdns.Platform.Validation

/-!
# The text of resolv.conf

`build_resolv_conf_content` and `parse_resolv_conf_content` of `platform/text_config.rs`, and the
activity check of `platform/unix/openresolv.rs` on a live file that other providers write to as
well.  `Config::parse` of the `resolv_conf` crate is a parameter; what is used of it is its grammar
for lines with the directives `nameserver` and `search` (`Grammar`).
-/

namespace Osdns

open Listing

namespace ResolvConf

/-! ## The model -/

/-- `String::into_bytes`. -/
def utf8 (text : List Char) : List UInt8 := text.flatMap String.utf8EncodeChar

/-- `ScopedIp`, an address with the scope of a link-local one. -/
structure ScopedIp where
  address : IpAddr
  scope : Option (List Char)

/-- `Config`: the nameservers and what `get_last_search_or_domain` answers. -/
structure Config where
  nameservers : List ScopedIp
  lastSearchOrDomain : List (List Char)

/-- The line that names a server. -/
def nameserverLine (address : List Char) : List Char :=
  "nameserver ".toList ++ address ++ ['\n']

/-- The line that lists search domains. -/
def searchLine (names : List (List Char)) : List Char :=
  "search ".toList ++ [' '].intercalate names ++ ['\n']

/-- The search domains that are written. -/
def properSearch (plan : NormalizedConfig) : List DnsSuffix :=
  plan.searchDomains.filter fun domain => !domain.isRoot

/-- `build_resolv_conf_content`. -/
def buildResolvConfContent (plan : NormalizedConfig) : List UInt8 :=
  let text := plan.nameservers.flatMap fun ns => nameserverLine ns.toText
  let search := properSearch plan
  utf8 (if search.isEmpty then text else text ++ searchLine (search.map DnsSuffix.toText))

/-- `parse_resolv_conf_content`, without the texts of its errors; its loop is that of `build`. -/
def parseResolvConfContent (parse : List UInt8 → Option Config)
    (toAscii : List Char → Option (List Char)) (bytes : List UInt8) :
    Option (List IpAddr × List DnsSuffix) := do
  let config ← parse bytes
  let nameservers := config.nameservers.map ScopedIp.address
  let search ← buildDomains toAscii config.lastSearchOrDomain
  some (nameservers, search)

/-- `Iterator::any` for an equal value: what is left after the first one. -/
def anyEqual {α : Type} [DecidableEq α] (value : α) : List α → Option (List α)
  | [] => none
  | candidate :: available => if candidate = value then some available else anyEqual value available

/-- `ordered_subsequence`. -/
def orderedSubsequence {α : Type} [DecidableEq α] : List α → List α → Bool
  | [], _ => true
  | value :: wanted, available =>
      match anyEqual value available with
      | none => false
      | some available => orderedSubsequence wanted available

/-- `live_matches`. -/
def liveMatches (parse : List UInt8 → Option Config) (toAscii : List Char → Option (List Char))
    (live : List UInt8) (plan : NormalizedConfig) : Bool :=
  match parseResolvConfContent parse toAscii live with
  | none => false
  | some (nameservers, search) =>
      orderedSubsequence plan.nameservers nameservers &&
        orderedSubsequence (properSearch plan) search

/-! ## The grammar -/

/-- A word of a directive: visible ASCII characters that start no comment. -/
def IsWord (word : List Char) : Prop :=
  word ≠ [] ∧ ∀ c ∈ word, 33 ≤ c.toNat ∧ c.toNat < 127 ∧ c ≠ '#' ∧ c ≠ ';'

/-- A file that is empty or whose last line is ended. -/
def EndsLine (bytes : List UInt8) : Prop := bytes = [] ∨ ∃ front, bytes = front ++ [10]

/-- What the grammar of resolv.conf says of one more line: a `nameserver` line adds an address, and
a `search` line with words between blanks takes the place of an earlier one. -/
structure Grammar (parse : List UInt8 → Option Config) : Prop where
  empty : parse [] = some ⟨[], []⟩
  nameserver : ∀ bytes config word address, EndsLine bytes → parse bytes = some config →
    IsWord word → IpAddr.parse word = some address →
    parse (bytes ++ utf8 (nameserverLine word)) =
      some { config with nameservers := config.nameservers ++ [⟨address, none⟩] }
  search : ∀ bytes config words, EndsLine bytes → parse bytes = some config →
    words ≠ [] → (∀ word ∈ words, IsWord word) →
    parse (bytes ++ utf8 (searchLine words)) = some { config with lastSearchOrDomain := words }

/-! ## The activity check -/

section Subsequence

variable {α : Type} [DecidableEq α]

lemma cons_sublist_iff {value : α} {wanted available : List α} :
    (value :: wanted).Sublist available ↔
      ∃ rest, anyEqual value available = some rest ∧ wanted.Sublist rest := by
  induction available with
  | nil => simp [anyEqual]
  | cons candidate available ih =>
      unfold anyEqual
      by_cases heq : candidate = value
      · simp [heq]
      · rw [if_neg heq, ← ih]
        constructor
        · intro h
          cases h with
          | cons _ h => exact h
          | cons_cons _ h => exact absurd rfl heq
        · exact List.Sublist.cons candidate

/-- The greedy scan finds every subsequence. -/
lemma orderedSubsequence_iff {wanted available : List α} :
    orderedSubsequence wanted available = true ↔ wanted.Sublist available := by
  induction wanted generalizing available with
  | nil => simp [orderedSubsequence]
  | cons value wanted ih =>
      rw [cons_sublist_iff, orderedSubsequence]
      cases anyEqual value available with
      | none => simp
      | some rest => simp [ih]

end Subsequence

/-! ## Written lines are read -/

lemma utf8_append (text text' : List Char) : utf8 (text ++ text') = utf8 text ++ utf8 text' :=
  List.flatMap_append

section Reading

variable {parse : List UInt8 → Option Config} {toAscii : List Char → Option (List Char)}
  {plan : NormalizedConfig}

lemma endsLine_append {bytes : List UInt8} {text : List Char} :
    EndsLine (bytes ++ utf8 (text ++ ['\n'])) := by
  refine .inr ⟨bytes ++ utf8 text, ?_⟩
  rw [utf8_append, List.append_assoc]
  rfl

lemma isWord_toText (a : IpAddr) : IsWord a.toText := by
  constructor
  · intro hnil
    have hparse := IpAddr.parse_toText a
    have hnone : IpAddr.parse [] = none := by decide
    rw [hnil, hnone] at hparse
    cases hparse
  · intro c hc
    rcases IpAddr.isAddressChar_toText a c hc with rfl | rfl | ⟨d, hd, rfl⟩
    · decide
    · decide
    · interval_cases d <;> decide

lemma isWord_suffix {s : DnsSuffix} {input : List Char}
    (h : DnsSuffix.parse toAscii input = some s) (proper : s.isRoot = false) :
    IsWord s.toText := by
  obtain ⟨hne, valid, htext⟩ := DnsSuffix.proper_text h proper
  rw [htext]
  refine ⟨hne, fun c hc => ?_⟩
  rcases validDomain_chars valid c hc with rfl | hlabel
  · decide
  · have := isLabelChar_cases hlabel
    refine ⟨by omega, by omega, ?_, ?_⟩
    · rintro rfl
      exact absurd hlabel (by decide)
    · rintro rfl
      exact absurd hlabel (by decide)

/-- The `nameserver` lines are read one after another. -/
lemma parse_nameservers (grammar : Grammar parse) (nameservers : List IpAddr)
    {bytes : List UInt8} {config : Config} (hends : EndsLine bytes) (h : parse bytes = some config) :
    EndsLine (bytes ++ utf8 (nameservers.flatMap fun ns => nameserverLine ns.toText)) ∧
      parse (bytes ++ utf8 (nameservers.flatMap fun ns => nameserverLine ns.toText)) =
        some { config with
          nameservers := config.nameservers ++ nameservers.map fun ns => ⟨ns, none⟩ } := by
  induction nameservers generalizing bytes config with
  | nil => simpa [utf8] using ⟨hends, h⟩
  | cons ns nameservers ih =>
      have hline := grammar.nameserver bytes config ns.toText ns hends h (isWord_toText ns)
        (IpAddr.parse_toText ns)
      have hended : EndsLine (bytes ++ utf8 (nameserverLine ns.toText)) := endsLine_append
      obtain ⟨hends, hparse⟩ := ih hended hline
      rw [List.flatMap_cons, utf8_append, ← List.append_assoc]
      refine ⟨hends, ?_⟩
      rw [hparse]
      simp

/-- The search domains of a plan are collected as they are. -/
lemma buildDomains_toText (idempotent : IdempotentAscii toAscii) {list found : List DnsSuffix}
    (parsed : ∀ s ∈ list, ∃ input, DnsSuffix.parse toAscii input = some s) :
    (list.map DnsSuffix.toText).foldlM
      (fun found domain => (DnsSuffix.parse toAscii domain).map (pushNew found)) found =
        some (collectNew found list) := by
  induction list generalizing found with
  | nil => rfl
  | cons s list ih =>
      obtain ⟨_, hparse⟩ := parsed s List.mem_cons_self
      rw [List.map_cons, List.foldlM_cons, DnsSuffix.parse_toText idempotent hparse]
      exact ih fun s hs => parsed s (List.mem_cons_of_mem _ hs)

/-- What is written for a plan is read back. -/
lemma parseResolvConfContent_build (grammar : Grammar parse) (idempotent : IdempotentAscii toAscii)
    (hnodup : plan.searchDomains.Nodup)
    (parsed : ∀ s ∈ plan.searchDomains, ∃ input, DnsSuffix.parse toAscii input = some s) :
    parseResolvConfContent parse toAscii (buildResolvConfContent plan) =
      some (plan.nameservers, properSearch plan) := by
  have hproper : ∀ s ∈ properSearch plan, s ∈ plan.searchDomains ∧ s.isRoot = false := by
    intro s hs
    simpa using List.mem_filter.mp hs
  have hconfig : parse (buildResolvConfContent plan) =
      some ⟨plan.nameservers.map fun ns => ⟨ns, none⟩, (properSearch plan).map DnsSuffix.toText⟩ := by
    obtain ⟨hends, hservers⟩ := parse_nameservers grammar plan.nameservers (.inl rfl) grammar.empty
    unfold buildResolvConfContent
    dsimp only
    cases hsearch : properSearch plan with
    | nil => simpa using hservers
    | cons s list =>
        rw [← hsearch, if_neg (by simp [hsearch]), utf8_append]
        have hwords : ∀ word ∈ (properSearch plan).map DnsSuffix.toText, IsWord word := by
          intro word hword
          obtain ⟨t, ht, rfl⟩ := List.mem_map.mp hword
          obtain ⟨_, hparse⟩ := parsed t (hproper t ht).1
          exact isWord_suffix hparse (hproper t ht).2
        simpa using grammar.search _ _ _ hends hservers (by simp [hsearch]) hwords
  have hdomains : buildDomains toAscii ((properSearch plan).map DnsSuffix.toText) =
      some (properSearch plan) := by
    rw [buildDomains, buildDomains_toText idempotent fun s hs => parsed s (hproper s hs).1]
    exact congrArg some (dedupe_of_nodup (hnodup.filter _))
  have haddresses : (plan.nameservers.map fun ns => (⟨ns, none⟩ : ScopedIp)).map ScopedIp.address =
      plan.nameservers := by
    simp [Function.comp_def]
  simp only [parseResolvConfContent, hconfig, hdomains, haddresses, Option.bind_eq_bind,
    Option.bind_some]

/-- What is written for a plan with deduplicated lists is read back without the root, and a live file
is active for a plan exactly when it has the nameservers and the proper search domains of the plan
in their order, with any others between them. -/
theorem resolvConf_roundTrip (grammar : Grammar parse) (idempotent : IdempotentAscii toAscii)
    (hnodup : plan.searchDomains.Nodup)
    (parsed : ∀ s ∈ plan.searchDomains, ∃ input, DnsSuffix.parse toAscii input = some s) :
    parseResolvConfContent parse toAscii (buildResolvConfContent plan) =
      some (plan.nameservers, plan.searchDomains.filter fun domain => !domain.isRoot) ∧
    ∀ live nameservers search,
      parseResolvConfContent parse toAscii live = some (nameservers, search) →
      (liveMatches parse toAscii live plan = true ↔
        plan.nameservers.Sublist nameservers ∧
          (plan.searchDomains.filter fun domain => !domain.isRoot).Sublist search) := by
  refine ⟨parseResolvConfContent_build grammar idempotent hnodup parsed, ?_⟩
  intro live nameservers search hlive
  simp only [liveMatches, hlive, Bool.and_eq_true, orderedSubsequence_iff]
  rfl

end Reading

/-! ## A reader of the two directives -/

/-- The text of bytes that are ASCII. -/
def asciiText (bytes : List UInt8) : List Char := bytes.map fun b => Char.ofNat b.toNat

def readText (config : Config) (text : List Char) : Option Config :=
  if text = [] then some config
  else if "nameserver ".toList.isPrefixOf text then
    (IpAddr.parse (text.drop 11)).map fun address =>
      { config with nameservers := config.nameservers ++ [⟨address, none⟩] }
  else if "search ".toList.isPrefixOf text then
    some { config with lastSearchOrDomain := (text.drop 7).splitOn ' ' }
  else none

def readLine (config : Config) (line : List UInt8) : Option Config :=
  readText config (asciiText line)

/-- A file that has `nameserver` and `search` lines only is read line by line. -/
def readConfig (bytes : List UInt8) : Option Config := (bytes.splitOn 10).foldlM readLine ⟨[], []⟩

lemma utf8_ascii {text : List Char} (h : ∀ c ∈ text, c.toNat < 128) :
    utf8 text = text.map fun c => UInt8.ofNat c.toNat := by
  induction text with
  | nil => rfl
  | cons c text ih =>
      have hc : c.toNat ≤ 127 := Nat.le_of_lt_succ (h c List.mem_cons_self)
      have hencode : String.utf8EncodeChar c = [UInt8.ofNat c.toNat] := if_pos hc
      have hrest : utf8 text = text.map fun c => UInt8.ofNat c.toNat :=
        ih fun c hc => h c (List.mem_cons_of_mem _ hc)
      calc utf8 (c :: text)
          = String.utf8EncodeChar c ++ utf8 text := List.flatMap_cons
        _ = UInt8.ofNat c.toNat :: text.map fun c => UInt8.ofNat c.toNat := by rw [hencode, hrest]; rfl

lemma asciiText_utf8 {text : List Char} (h : ∀ c ∈ text, c.toNat < 128) :
    asciiText (utf8 text) = text := by
  rw [utf8_ascii h, asciiText, List.map_map]
  refine (List.map_congr_left fun c hc => ?_).trans (List.map_id text)
  have hlt : c.toNat < 256 := (h c hc).trans (by decide)
  simp [UInt8.toNat_ofNat_of_lt' hlt]

/-- One more line is read with the configuration of the lines before it. -/
lemma readConfig_append {bytes : List UInt8} {text : List Char} {config : Config}
    (hends : EndsLine bytes) (h : readConfig bytes = some config)
    (htext : ∀ c ∈ text, c.toNat < 128 ∧ c ≠ '\n') :
    readConfig (bytes ++ utf8 (text ++ ['\n'])) = readLine config (utf8 text) := by
  have hline : ∀ b ∈ utf8 text, (b == 10) = false := by
    intro b hb
    rw [utf8_ascii fun c hc => (htext c hc).1] at hb
    obtain ⟨c, hc, rfl⟩ := List.mem_map.mp hb
    obtain ⟨hlt, hne⟩ := htext c hc
    simp only [beq_eq_false_iff_ne, ne_eq, ← UInt8.toNat_inj]
    intro heq
    have hten : c.toNat = 10 := by
      rwa [UInt8.toNat_ofNat_of_lt' (hlt.trans (by decide))] at heq
    exact hne (Char.ext (UInt32.toNat_inj.mp hten))
  have hlast : (utf8 (text ++ ['\n'])).splitOn 10 = [utf8 text, []] := by
    rw [utf8_append]
    show (utf8 text ++ 10 :: []).splitOn 10 = _
    rw [List.splitOn_eq_splitOnP, List.splitOnP_append_cons_of_forall_mem hline 10 (by simp)]
    rfl
  have hempty : ∀ config, readLine config [] = some config := fun _ => rfl
  have hfold : ∀ config, [utf8 text, []].foldlM readLine config = readLine config (utf8 text) := by
    intro config
    simp only [List.foldlM_cons, List.foldlM_nil, hempty, Option.pure_def, Option.bind_eq_bind,
      Option.bind_fun_some]
  rcases hends with rfl | ⟨front, rfl⟩
  · have hconfig : config = ⟨[], []⟩ := (Option.some.inj h).symm
    rw [List.nil_append, readConfig, hlast, hfold, hconfig]
  · have hsplit : ∀ rest : List UInt8,
        (front ++ [10] ++ rest).splitOn 10 = front.splitOn 10 ++ rest.splitOn 10 := by
      intro rest
      rw [List.append_assoc]
      exact List.splitOnP_append_cons front rest (by simp)
    have hfront : (front.splitOn 10).foldlM readLine ⟨[], []⟩ = some config := by
      rw [← List.append_nil (front ++ [10]), readConfig, hsplit, List.foldlM_append] at h
      obtain ⟨config', hfront, hrest⟩ := Option.bind_eq_some_iff.mp h
      rw [hfront]
      exact hrest
    rw [readConfig, hsplit, hlast, List.foldlM_append, hfront]
    exact hfold config

lemma readText_nameserver {config : Config} {word : List Char} :
    readText config ("nameserver ".toList ++ word) =
      (IpAddr.parse word).map fun address =>
        { config with nameservers := config.nameservers ++ [⟨address, none⟩] } := by
  have hprefix : "nameserver ".toList.isPrefixOf ("nameserver ".toList ++ word) = true :=
    List.isPrefixOf_iff_prefix.mpr (List.prefix_append _ _)
  rw [readText, if_neg (by simp), if_pos hprefix]
  rfl

lemma readText_search {config : Config} {text : List Char} :
    readText config ("search ".toList ++ text) =
      some { config with lastSearchOrDomain := text.splitOn ' ' } := by
  have hprefix : "search ".toList.isPrefixOf ("search ".toList ++ text) = true :=
    List.isPrefixOf_iff_prefix.mpr (List.prefix_append _ _)
  rw [readText, if_neg (by simp), if_neg (by simp), if_pos hprefix]
  rfl

lemma IsWord.plain {word : List Char} (h : IsWord word) :
    ∀ c ∈ word, c.toNat < 128 ∧ c ≠ '\n' ∧ c ≠ ' ' := by
  intro c hc
  obtain ⟨hlow, hhigh, _⟩ := h.2 c hc
  refine ⟨by omega, ?_, ?_⟩
  · rintro rfl
    exact absurd hlow (by decide)
  · rintro rfl
    exact absurd hlow (by decide)

lemma readConfig_nameserver {bytes : List UInt8} {config : Config} {word : List Char}
    {address : IpAddr} (hends : EndsLine bytes) (h : readConfig bytes = some config)
    (hword : IsWord word) (haddress : IpAddr.parse word = some address) :
    readConfig (bytes ++ utf8 (nameserverLine word)) =
      some { config with nameservers := config.nameservers ++ [⟨address, none⟩] } := by
  have hkey : ∀ c ∈ "nameserver ".toList, c.toNat < 128 ∧ c ≠ '\n' := by simp
  have htext : ∀ c ∈ "nameserver ".toList ++ word, c.toNat < 128 ∧ c ≠ '\n' := by
    intro c hc
    rcases List.mem_append.mp hc with hc | hc
    · exact hkey c hc
    · exact ⟨(hword.plain c hc).1, (hword.plain c hc).2.1⟩
  have hread : asciiText (utf8 ("nameserver ".toList ++ word)) = "nameserver ".toList ++ word :=
    asciiText_utf8 fun c hc => (htext c hc).1
  calc readConfig (bytes ++ utf8 (nameserverLine word))
      = readLine config (utf8 ("nameserver ".toList ++ word)) := readConfig_append hends h htext
    _ = readText config ("nameserver ".toList ++ word) := congrArg (readText config) hread
    _ = some { config with nameservers := config.nameservers ++ [⟨address, none⟩] } := by
        rw [readText_nameserver, haddress, Option.map_some]

lemma readConfig_search {bytes : List UInt8} {config : Config} {words : List (List Char)}
    (hends : EndsLine bytes) (h : readConfig bytes = some config) (hne : words ≠ [])
    (hwords : ∀ word ∈ words, IsWord word) :
    readConfig (bytes ++ utf8 (searchLine words)) =
      some { config with lastSearchOrDomain := words } := by
  have hkey : ∀ c ∈ "search ".toList, c.toNat < 128 ∧ c ≠ '\n' := by simp
  have htext : ∀ c ∈ "search ".toList ++ [' '].intercalate words, c.toNat < 128 ∧ c ≠ '\n' := by
    intro c hc
    rcases List.mem_append.mp hc with hc | hc
    · exact hkey c hc
    · rcases mem_intercalate hc with rfl | ⟨word, hword, hc⟩
      · decide
      · exact ⟨((hwords word hword).plain c hc).1, ((hwords word hword).plain c hc).2.1⟩
  have hsplit : ([' '].intercalate words).splitOn ' ' = words :=
    splitOnP_intercalate (by simp) hne fun word hword c hc => by
      simpa using ((hwords word hword).plain c hc).2.2
  have hread : asciiText (utf8 ("search ".toList ++ [' '].intercalate words)) =
      "search ".toList ++ [' '].intercalate words := asciiText_utf8 fun c hc => (htext c hc).1
  calc readConfig (bytes ++ utf8 (searchLine words))
      = readLine config (utf8 ("search ".toList ++ [' '].intercalate words)) :=
        readConfig_append hends h htext
    _ = readText config ("search ".toList ++ [' '].intercalate words) :=
        congrArg (readText config) hread
    _ = some { config with lastSearchOrDomain := words } := by rw [readText_search, hsplit]

/-- The reader keeps to the grammar. -/
lemma grammar_readConfig : Grammar readConfig where
  empty := rfl
  nameserver := fun _ _ _ _ => readConfig_nameserver
  search := fun _ _ _ => readConfig_search

/-- A plan that names the root among its search domains. -/
def withRoot : NormalizedConfig where
  nameservers := [.v4 16843009, .v6 1]
  searchDomains := [⟨"corp.example".toList⟩, ⟨[]⟩, ⟨"a.example".toList⟩]
  routingDomains := []
  defaultRoute := none

theorem resolvConf_roundTrip_withRoot :
    parseResolvConfContent readConfig Windows.lowercaseAscii (buildResolvConfContent withRoot) =
      some ([.v4 16843009, .v6 1], [⟨"corp.example".toList⟩, ⟨"a.example".toList⟩]) := by
  have hcorp : DnsSuffix.parse Windows.lowercaseAscii "corp.example".toList =
      some ⟨"corp.example".toList⟩ := by decide
  have ha : DnsSuffix.parse Windows.lowercaseAscii "a.example".toList =
      some ⟨"a.example".toList⟩ := by decide
  refine (resolvConf_roundTrip grammar_readConfig Windows.idempotent_lowercaseAscii (by decide) ?_).1
  intro s hs
  simp only [withRoot, List.mem_cons, List.not_mem_nil, or_false] at hs
  rcases hs with rfl | rfl | rfl
  · exact ⟨_, hcorp⟩
  · exact ⟨['.'], rfl⟩
  · exact ⟨_, ha⟩

end ResolvConf

end Osdns
