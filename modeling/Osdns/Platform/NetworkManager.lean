import Osdns.Platform.Resolved

/-!
# The DNS fields of NetworkManager

`NmDnsFields` of `platform/text_config.rs` and the part of `platform/linux/network_manager.rs` that
writes it into the settings of a connection and reads it back.  The D-Bus layer is taken to deliver
arrays with the element types that were written, so that a dictionary of settings is a map from
section and key to a `Value`.

What is written are arrays of variants, and `to_setting_value` makes nothing of a variant.  Arrays
with the element types of NetworkManager's own properties are read (`Delivers`).
-/

namespace Osdns

open Bytes Listing

namespace NetworkManager

/-! ## Values -/

/-- A D-Bus value, as far as `to_setting_value` tells them apart. -/
inductive Value
  | bool (b : Bool)
  | i32 (i : Int)
  | u32 (u : UInt32)
  | u8 (b : UInt8)
  | str (s : List Char)
  | array (items : List Value)
  | variant (v : Value)
  | other

/-- `SettingValue`. -/
inductive SettingValue
  | bool (b : Bool)
  | int (i : Int)
  | uint (u : UInt32)
  | str (s : List Char)
  | strList (items : List (List Char))
  | uintList (items : List UInt32)
  | byteArrayList (items : List (List UInt8))
  | other

/-- A map of sections, each a map of keys. -/
abbrev Dict (α : Type) := String → Option (String → Option α)

abbrev Settings := Dict Value

/-- The variables of the loop of `to_setting_value`. -/
structure Scan where
  strings : List (List Char)
  uints : List UInt32
  byteLists : List (List UInt8)
  allStrings : Bool
  allUints : Bool
  allBytes : Bool

def Scan.start : Scan := ⟨[], [], [], true, true, true⟩

def Value.u8? : Value → Option UInt8
  | u8 b => some b
  | _ => none

/-- The body of the loop of `to_setting_value`. -/
def Scan.item (scan : Scan) : Value → Scan
  | .str s =>
      { scan with allUints := false, allBytes := false, strings := scan.strings ++ [s] }
  | .u8 b =>
      { scan with allStrings := false, allUints := false, byteLists := scan.byteLists ++ [[b]] }
  | .u32 u =>
      { scan with allStrings := false, allBytes := false, uints := scan.uints ++ [u] }
  | .array inner =>
      { scan with
        allStrings := false
        allUints := false
        byteLists := scan.byteLists ++ [inner.filterMap Value.u8?] }
  | _ => { scan with allStrings := false, allUints := false, allBytes := false }

/-- `to_setting_value`. -/
def toSettingValue : Value → SettingValue
  | .bool b => .bool b
  | .i32 i => .int i
  | .u32 u => .uint u
  | .str s => .str s
  | .array items =>
      let scan := items.foldl Scan.item .start
      if scan.allUints then .uintList scan.uints
      else if scan.allBytes && !scan.byteLists.isEmpty then .byteArrayList scan.byteLists
      else if scan.allStrings then .strList scan.strings
      else .other
  | _ => .other

/-- `convert_settings`. -/
def convertSettings (settings : Settings) : Dict SettingValue := fun name =>
  (settings name).map fun entries key => (entries key).map toSettingValue

/-! ## Fields -/

/-- `NmDnsFields`. -/
structure NmDnsFields where
  ipv4Dns : List UInt32
  ipv4DnsSearch : List (List Char)
  ipv4IgnoreAutoDns : Bool
  ipv6Dns : List (List UInt8)
  ipv6DnsSearch : List (List Char)
  ipv6IgnoreAutoDns : Bool

/-- `u32::from_be_bytes` of the octets of an IPv4 address. -/
def ipv4Integer : IpAddr → Option UInt32
  | .v4 bits => some (UInt32.ofNat (ofBigEndian (IpAddr.v4 bits).octets))
  | .v6 _ => none

/-- The octets of an IPv6 address. -/
def ipv6Octets : IpAddr → Option (List UInt8)
  | .v4 _ => none
  | .v6 bits => some (IpAddr.v6 bits).octets

/-- The plain search entries of a plan. -/
def searchEntries (plan : NormalizedConfig) : List (List Char) :=
  collectNew [] ((plan.searchDomains.filter fun domain => !domain.isRoot).map DnsSuffix.text)

/-- The loop of `NmDnsFields::from_plan` over the routing domains. -/
def routingEntries (search : List (List Char)) (domains : List DnsSuffix) : List (List Char) :=
  domains.foldl (fun routing domain =>
    if !search.contains domain.toText && !routing.contains domain.toText then
      routing ++ [domain.toText]
    else routing) []

/-- `NmDnsFields::from_plan`. -/
def NmDnsFields.fromPlan (plan : NormalizedConfig) (splitDns : Bool) : NmDnsFields :=
  let search := searchEntries plan
  let routing := if splitDns then routingEntries search plan.routingDomains else []
  let entries := search ++ routing.map fun name => '~' :: name
  { ipv4Dns := plan.nameservers.filterMap ipv4Integer
    ipv6Dns := plan.nameservers.filterMap ipv6Octets
    ipv4DnsSearch := entries
    ipv6DnsSearch := entries
    ipv4IgnoreAutoDns := true
    ipv6IgnoreAutoDns := true }

/-- `Array::from` of a `Vec<Value>`: the signature of its elements is that of `Value`, a variant, so
that every element is put into one. -/
def arrayFrom (values : List Value) : Value := .array (values.map .variant)

/-- `u32_array`. -/
def u32Array (values : List UInt32) : Value := arrayFrom (values.map .u32)

/-- `byte_list_array`. -/
def byteListArray (values : List (List UInt8)) : Value :=
  arrayFrom (values.map fun bytes => arrayFrom (bytes.map .u8))

/-- `str_array`. -/
def strArray (values : List (List Char)) : Value := arrayFrom (values.map .str)

/-- The three values of one section are inserted; the section is made if it is not there. -/
def insertFields (settings : Settings) (name : String) (dns search : Value) (ignoreAutoDns : Bool) :
    Settings :=
  let entries := (settings name).getD fun _ => none
  let entries := Function.update entries "dns" (some dns)
  let entries := Function.update entries "dns-search" (some search)
  let entries := Function.update entries "ignore-auto-dns" (some (.bool ignoreAutoDns))
  Function.update settings name (some entries)

/-- `with_dns_fields`. -/
def withDnsFields (settings : Settings) (fields : NmDnsFields) : Settings :=
  let settings := insertFields settings "ipv4" (u32Array fields.ipv4Dns)
    (strArray fields.ipv4DnsSearch) fields.ipv4IgnoreAutoDns
  insertFields settings "ipv6" (byteListArray fields.ipv6Dns)
    (strArray fields.ipv6DnsSearch) fields.ipv6IgnoreAutoDns

/-! ## Reading -/

/-- `u32::to_string`. -/
def showU32 (u : UInt32) : List Char := Nat.toDigits 10 u.toNat

/-- `str::parse::<u32>`. -/
def parseU32 (text : List Char) : Option UInt32 :=
  let digits := if text.head? = some '+' then text.tail else text
  if digits ≠ [] ∧ digits.all Char.isDigit ∧ Nat.ofDigitChars 10 digits 0 < 4294967296 then
    some (UInt32.ofNat (Nat.ofDigitChars 10 digits 0))
  else none

/-- `string_keys`. -/
def stringKeys : Option SettingValue → List (List Char)
  | some (.uintList items) => items.map showU32
  | _ => []

/-- `string_list`. -/
def stringList : Option SettingValue → List (List Char)
  | some (.strList items) => items
  | _ => []

/-- `bool_value`. -/
def boolValue : Option SettingValue → Bool
  | some (.bool b) => b
  | _ => false

/-- `byte_array_list`. -/
def byteArrayList : Option SettingValue → List (List UInt8)
  | some (.byteArrayList items) => items
  | _ => []

/-- `parse_nm_dns_fields`; a section that is missing leaves the defaults. -/
def parseNmDnsFields (settings : Dict SettingValue) : NmDnsFields :=
  let ipv4 := (settings "ipv4").getD fun _ => none
  let ipv6 := (settings "ipv6").getD fun _ => none
  { ipv4Dns := (stringKeys (ipv4 "dns")).filterMap parseU32
    ipv4DnsSearch := stringList (ipv4 "dns-search")
    ipv4IgnoreAutoDns := boolValue (ipv4 "ignore-auto-dns")
    ipv6Dns := byteArrayList (ipv6 "dns")
    ipv6DnsSearch := stringList (ipv6 "dns-search")
    ipv6IgnoreAutoDns := boolValue (ipv6 "ignore-auto-dns") }

/-- The body of the loop of `parse_nm_search_entries`. -/
def readEntry (toAscii : List Char → Option (List Char)) (state : List DnsSuffix × List DnsSuffix)
    (entry : List Char) : List DnsSuffix × List DnsSuffix :=
  match entry with
  | '~' :: rest =>
      match DnsSuffix.parse toAscii (if rest.isEmpty then ['.'] else rest) with
      | none => state
      | some suffix => (state.1, pushNew state.2 suffix)
  | entry =>
      match DnsSuffix.parse toAscii entry with
      | none => state
      | some suffix => (pushNew state.1 suffix, state.2)

/-- `parse_nm_search_entries`. -/
def parseNmSearchEntries (toAscii : List Char → Option (List Char)) (entries : List (List Char)) :
    List DnsSuffix × List DnsSuffix :=
  entries.foldl (readEntry toAscii) ([], [])

/-- `NetworkManager::public_state` on the fields of a snapshot. -/
def publicState (toAscii : List Char → Option (List Char)) (fields : NmDnsFields)
    (scope : DnsScope) : DnsConfig :=
  let nameservers := fields.ipv4Dns.map (fun raw => ipv4OfOctets (bigEndian 4 raw.toNat)) ++
    (fields.ipv6Dns.filter fun bytes => bytes.length = 16).map ipv6OfOctets
  let (search, routing) := parseNmSearchEntries toAscii fields.ipv4DnsSearch
  { scope, nameservers, searchDomains := search, routingDomains := routing, defaultRoute := none }

/-- `capabilities`; split DNS depends on the mode NetworkManager runs in. -/
def capabilities (splitDns : Bool) : Capabilities where
  backend := .networkManager
  globalDns := false
  perInterfaceDns := true
  searchDomains := true
  splitDns
  defaultRoute := false
  watch := true
  mutationGuard := .compareAndMutate
  ownershipIdentity := .bestEffort

/-! ## Arrays of NetworkManager's types are read -/

lemma scan_u32 (values : List UInt32) (scan : Scan) :
    ((values.map Value.u32).foldl Scan.item scan).allUints = scan.allUints ∧
      ((values.map Value.u32).foldl Scan.item scan).uints = scan.uints ++ values := by
  induction values generalizing scan with
  | nil => simp
  | cons u values ih =>
      obtain ⟨hall, huints⟩ := ih _
      rw [List.map_cons, List.foldl_cons, hall, huints]
      simp [Scan.item]

lemma scan_str (values : List (List Char)) (scan : Scan) :
    ((values.map Value.str).foldl Scan.item scan).allStrings = scan.allStrings ∧
      ((values.map Value.str).foldl Scan.item scan).strings = scan.strings ++ values ∧
      ((values.map Value.str).foldl Scan.item scan).allUints =
        (scan.allUints && values.isEmpty) ∧
      ((values.map Value.str).foldl Scan.item scan).allBytes =
        (scan.allBytes && values.isEmpty) := by
  induction values generalizing scan with
  | nil => simp
  | cons s values ih =>
      obtain ⟨hall, hstrings, huints, hbytes⟩ := ih _
      rw [List.map_cons, List.foldl_cons, hall, hstrings, huints, hbytes]
      simp [Scan.item]

lemma filterMap_u8 (bytes : List UInt8) : (bytes.map Value.u8).filterMap Value.u8? = bytes := by
  rw [List.filterMap_map]
  exact List.filterMap_some

lemma scan_bytes (values : List (List UInt8)) (scan : Scan) :
    ((values.map fun bytes => Value.array (bytes.map .u8)).foldl Scan.item scan).allBytes =
        scan.allBytes ∧
      ((values.map fun bytes => Value.array (bytes.map .u8)).foldl Scan.item scan).byteLists =
        scan.byteLists ++ values ∧
      ((values.map fun bytes => Value.array (bytes.map .u8)).foldl Scan.item scan).allUints =
        (scan.allUints && values.isEmpty) := by
  induction values generalizing scan with
  | nil => simp
  | cons bytes values ih =>
      obtain ⟨hall, hlists, huints⟩ := ih _
      rw [List.map_cons, List.foldl_cons, hall, hlists, huints]
      simp only [Scan.item, filterMap_u8]
      simp

lemma toSettingValue_u32s (values : List UInt32) :
    toSettingValue (.array (values.map .u32)) = .uintList values := by
  obtain ⟨hall, huints⟩ := scan_u32 values .start
  simp only [toSettingValue, hall, huints]
  rfl

/-- An empty array has lost its element type, and is read as no strings. -/
lemma stringList_strs (values : List (List Char)) :
    stringList (some (toSettingValue (.array (values.map .str)))) = values := by
  obtain ⟨hall, hstrings, huints, hbytes⟩ := scan_str values .start
  simp only [toSettingValue, hall, hstrings, huints, hbytes]
  cases values <;> rfl

lemma byteArrayList_bytes (values : List (List UInt8)) :
    byteArrayList (some (toSettingValue (.array (values.map fun bytes => .array (bytes.map .u8))))) =
      values := by
  obtain ⟨hall, hlists, huints⟩ := scan_bytes values .start
  simp only [toSettingValue, hall, hlists, huints]
  cases values <;> rfl

lemma parseU32_showU32 (u : UInt32) : parseU32 (showU32 u) = some u := by
  have hdigits : ∀ c ∈ showU32 u, c.isDigit = true := fun c hc =>
    Nat.isDigit_of_mem_toDigits (by decide) (by decide) hc
  have hvalue : Nat.ofDigitChars 10 (showU32 u) 0 = u.toNat := Nat.ofDigitChars_ten_toDigits
  have hne : showU32 u ≠ [] := Nat.toDigits_ne_nil
  have hsign : (showU32 u).head? ≠ some '+' := fun hplus =>
    absurd (hdigits '+' (List.mem_of_mem_head? hplus)) (by decide)
  have hall : (showU32 u).all Char.isDigit = true := List.all_eq_true.mpr hdigits
  have hlt : u.toNat < 4294967296 := u.toNat_lt
  simp only [parseU32, if_neg hsign]
  rw [if_pos ⟨hne, hall, hvalue ▸ hlt⟩, hvalue, UInt32.ofNat_toNat]

/-! ## Arrays of variants are not read -/

lemma scan_variants (values : List Value) (scan : Scan) :
    ((values.map Value.variant).foldl Scan.item scan).allUints =
        (scan.allUints && values.isEmpty) ∧
      ((values.map Value.variant).foldl Scan.item scan).allBytes =
        (scan.allBytes && values.isEmpty) ∧
      ((values.map Value.variant).foldl Scan.item scan).allStrings =
        (scan.allStrings && values.isEmpty) := by
  induction values generalizing scan with
  | nil => simp
  | cons v values ih =>
      obtain ⟨huints, hbytes, hstrings⟩ := ih _
      rw [List.map_cons, List.foldl_cons, huints, hbytes, hstrings]
      simp [Scan.item]

lemma toSettingValue_arrayFrom (values : List Value) :
    toSettingValue (arrayFrom values) = if values = [] then .uintList [] else .other := by
  obtain ⟨huints, hbytes, hstrings⟩ := scan_variants values .start
  cases values with
  | nil => rfl
  | cons v values =>
      simp only [arrayFrom, toSettingValue, huints, hbytes, hstrings]
      rfl

/-- Whatever is in the array, nothing is found there. -/
lemma arrayFrom_unread (values : List Value) :
    stringKeys (some (toSettingValue (arrayFrom values))) = [] ∧
      stringList (some (toSettingValue (arrayFrom values))) = [] ∧
      byteArrayList (some (toSettingValue (arrayFrom values))) = [] := by
  rw [toSettingValue_arrayFrom]
  split
  · exact ⟨rfl, rfl, rfl⟩
  · exact ⟨rfl, rfl, rfl⟩

/-! ## Fields -/

section Fields

variable {settings : Settings} {fields : NmDnsFields} {name key : String} {dns search : Value}
  {ignoreAutoDns : Bool}

/-- The entries of a section in a dictionary. -/
def entriesOf {α : Type} (settings : Dict α) (name : String) : String → Option α :=
  (settings name).getD fun _ => none

lemma entriesOf_convertSettings :
    entriesOf (convertSettings settings) name key =
      (entriesOf settings name key).map toSettingValue := by
  unfold entriesOf convertSettings
  cases settings name <;> rfl

lemma insertFields_other {other : String} (h : other ≠ name) :
    insertFields settings name dns search ignoreAutoDns other = settings other :=
  Function.update_of_ne h _ _

/-- The keys that belong to the DNS fields. -/
def dnsKeys : List String := ["dns", "dns-search", "ignore-auto-dns"]

lemma entriesOf_insertFields_other (h : key ∉ dnsKeys) :
    entriesOf (insertFields settings name dns search ignoreAutoDns) name key =
      entriesOf settings name key := by
  simp only [dnsKeys, List.mem_cons, List.not_mem_nil, or_false, not_or] at h
  obtain ⟨hdns, hsearch, hignore⟩ := h
  simp [entriesOf, insertFields, hdns, hsearch, hignore]

lemma entriesOf_insertFields :
    entriesOf (insertFields settings name dns search ignoreAutoDns) name "dns" = some dns ∧
      entriesOf (insertFields settings name dns search ignoreAutoDns) name "dns-search" =
        some search ∧
      entriesOf (insertFields settings name dns search ignoreAutoDns) name "ignore-auto-dns" =
        some (.bool ignoreAutoDns) := by
  simp [entriesOf, insertFields]

lemma ipv4_withDnsFields (settings : Settings) (fields : NmDnsFields) :
    entriesOf (withDnsFields settings fields) "ipv4" "dns" = some (u32Array fields.ipv4Dns) ∧
      entriesOf (withDnsFields settings fields) "ipv4" "dns-search" =
        some (strArray fields.ipv4DnsSearch) ∧
      entriesOf (withDnsFields settings fields) "ipv4" "ignore-auto-dns" =
        some (.bool fields.ipv4IgnoreAutoDns) := by
  have hipv4 : entriesOf (withDnsFields settings fields) "ipv4" =
      entriesOf (insertFields settings "ipv4" (u32Array fields.ipv4Dns)
        (strArray fields.ipv4DnsSearch) fields.ipv4IgnoreAutoDns) "ipv4" := by
    unfold entriesOf withDnsFields
    rw [insertFields_other (by decide)]
  rw [hipv4]
  exact entriesOf_insertFields

lemma ipv6_withDnsFields (settings : Settings) (fields : NmDnsFields) :
    entriesOf (withDnsFields settings fields) "ipv6" "dns" = some (byteListArray fields.ipv6Dns) ∧
      entriesOf (withDnsFields settings fields) "ipv6" "dns-search" =
        some (strArray fields.ipv6DnsSearch) ∧
      entriesOf (withDnsFields settings fields) "ipv6" "ignore-auto-dns" =
        some (.bool fields.ipv6IgnoreAutoDns) := entriesOf_insertFields

lemma filterMap_stringKeys (values : List UInt32) :
    (stringKeys (some (.uintList values))).filterMap parseU32 = values := by
  have hid : parseU32 ∘ showU32 = some := funext parseU32_showU32
  rw [stringKeys, List.filterMap_map, hid, List.filterMap_some]

lemma getD_convertSettings :
    (convertSettings settings name).getD (fun _ => none) key =
      (entriesOf settings name key).map toSettingValue := entriesOf_convertSettings

/-- Settings that hold the fields in arrays of NetworkManager's types. -/
structure Delivers (settings : Settings) (fields : NmDnsFields) : Prop where
  ipv4_dns : entriesOf settings "ipv4" "dns" = some (.array (fields.ipv4Dns.map .u32))
  ipv4_search : entriesOf settings "ipv4" "dns-search" =
    some (.array (fields.ipv4DnsSearch.map .str))
  ipv4_ignore : entriesOf settings "ipv4" "ignore-auto-dns" = some (.bool fields.ipv4IgnoreAutoDns)
  ipv6_dns : entriesOf settings "ipv6" "dns" =
    some (.array (fields.ipv6Dns.map fun bytes => .array (bytes.map .u8)))
  ipv6_search : entriesOf settings "ipv6" "dns-search" =
    some (.array (fields.ipv6DnsSearch.map .str))
  ipv6_ignore : entriesOf settings "ipv6" "ignore-auto-dns" = some (.bool fields.ipv6IgnoreAutoDns)

/-- What NetworkManager itself sets is read. -/
theorem parseNmDnsFields_delivers (h : Delivers settings fields) :
    parseNmDnsFields (convertSettings settings) = fields := by
  simp only [parseNmDnsFields, getD_convertSettings, h.ipv4_dns, h.ipv4_search, h.ipv4_ignore,
    h.ipv6_dns, h.ipv6_search, h.ipv6_ignore, Option.map_some, toSettingValue_u32s,
    filterMap_stringKeys, stringList_strs, byteArrayList_bytes]
  rfl

/-- Of the fields that are written only the two flags are read back. -/
lemma parseNmDnsFields_withDnsFields :
    parseNmDnsFields (convertSettings (withDnsFields settings fields)) =
      { ipv4Dns := []
        ipv4DnsSearch := []
        ipv4IgnoreAutoDns := fields.ipv4IgnoreAutoDns
        ipv6Dns := []
        ipv6DnsSearch := []
        ipv6IgnoreAutoDns := fields.ipv6IgnoreAutoDns } := by
  obtain ⟨hdns4, hsearch4, hignore4⟩ := ipv4_withDnsFields settings fields
  obtain ⟨hdns6, hsearch6, hignore6⟩ := ipv6_withDnsFields settings fields
  have hkeys := fun values => (arrayFrom_unread values).1
  have hstrings := fun values => (arrayFrom_unread values).2.1
  have hbytes := fun values => (arrayFrom_unread values).2.2
  simp only [parseNmDnsFields, getD_convertSettings, hdns4, hsearch4, hignore4, hdns6, hsearch6,
    hignore6, Option.map_some, u32Array, strArray, byteListArray, hkeys, hstrings, hbytes]
  rfl

/-- Other keys and sections stay as they are. -/
lemma withDnsFields_frame :
    (∀ name, name ≠ "ipv4" → name ≠ "ipv6" → withDnsFields settings fields name = settings name) ∧
      ∀ name key, key ∉ dnsKeys →
        entriesOf (withDnsFields settings fields) name key = entriesOf settings name key := by
  constructor
  · intro name h4 h6
    rw [withDnsFields, insertFields_other h6, insertFields_other h4]
  · intro name key hkey
    have hinsert : ∀ (settings : Settings) (section' : String) (dns search : Value) (ignore : Bool),
        entriesOf (insertFields settings section' dns search ignore) name key =
          entriesOf settings name key := by
      intro settings section' dns search ignore
      by_cases hname : name = section'
      · rw [hname]
        exact entriesOf_insertFields_other hkey
      · unfold entriesOf
        rw [insertFields_other hname]
    rw [withDnsFields, hinsert, hinsert]

end Fields

end NetworkManager

end Osdns
