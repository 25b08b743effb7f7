import Osdns.Framework.Lists
import Osdns.Platform.Windows

/-!
# What survives capture and restore on Windows

An entry of a native list stands for an address or a domain suffix if it is one, and for itself
otherwise (`NativeEntry`).  Capture keeps the entries that are addresses or suffixes and drops the
others, so a capture is lossless exactly for the interfaces all of whose entries are understood
(`lossless_iff`).
-/

namespace Osdns

open AddressText

namespace Windows

/-! ## Entries -/

/-- What an entry of a native list stands for. -/
inductive NativeEntry
  | address (a : IpAddr)
  | suffix (s : DnsSuffix)
  | other (text : List Char)
  deriving DecidableEq

def addressEntry (text : List Char) : NativeEntry :=
  match IpAddr.parse text with
  | some a => .address a
  | none => .other text

def suffixEntry (toAscii : List Char → Option (List Char)) (text : List Char) : NativeEntry :=
  match DnsSuffix.parse toAscii text with
  | some s => .suffix s
  | none => .other text

/-- The entries of a nameserver list; an unset list is an empty one. -/
def servers (text : Option (List Char)) : List NativeEntry :=
  (listEntries (text.getD [])).map addressEntry

/-- The entries of a search list. -/
def suffixes (toAscii : List Char → Option (List Char)) (text : Option (List Char)) :
    List NativeEntry :=
  (listEntries (text.getD [])).map (suffixEntry toAscii)

/-- A statement about the four lists of an interface and those of another. -/
structure Lists (toAscii : List Char → Option (List Char))
    (rel : List NativeEntry → List NativeEntry → Prop) (x y : NativeInterface) : Prop where
  ipv4Servers : rel (servers x.ipv4.nameserver) (servers y.ipv4.nameserver)
  ipv4Suffixes : rel (suffixes toAscii x.ipv4.searchlist) (suffixes toAscii y.ipv4.searchlist)
  ipv6Servers : rel (servers x.ipv6.nameserver) (servers y.ipv6.nameserver)
  ipv6Suffixes : rel (suffixes toAscii x.ipv6.searchlist) (suffixes toAscii y.ipv6.searchlist)

/-- A capture holds every entry of the interface. -/
structure Captures (toAscii : List Char → Option (List Char)) (native : NativeInterface)
    (state : InterfaceState) : Prop where
  ipv4Servers : servers native.ipv4.nameserver = (state.ipv4Nameservers.getD []).map .address
  ipv4Suffixes : suffixes toAscii native.ipv4.searchlist = (state.ipv4Search.getD []).map .suffix
  ipv6Servers : servers native.ipv6.nameserver = (state.ipv6Nameservers.getD []).map .address
  ipv6Suffixes : suffixes toAscii native.ipv6.searchlist = (state.ipv6Search.getD []).map .suffix

/-- Capture and restore lose nothing of the interface. -/
structure Lossless (toAscii : List Char → Option (List Char)) (native : NativeInterface) : Prop where
  /-- After any applies a restore brings back the same entries in the same order. -/
  restored : ∀ plans : List NormalizedConfig, Lists toAscii (· = ·)
    (restoreInterface (plans.foldl apply native) (readInterfaceState toAscii native)) native
  captured : Captures toAscii native (readInterfaceState toAscii native)
  /-- An interface that lacks an entry is not equivalent to the capture. -/
  distinguished : ∀ later,
    equivalent (readInterfaceState toAscii native) (readInterfaceState toAscii later) = true →
      Lists toAscii (· ⊆ ·) native later

/-- Every entry of the interface is an address of its stack or a proper domain suffix. -/
structure Understood (toAscii : List Char → Option (List Char)) (native : NativeInterface) :
    Prop where
  ipv4Servers : ∀ entry ∈ listEntries (native.ipv4.nameserver.getD []),
    ∃ a, IpAddr.parse entry = some a ∧ a.isIpv4 = true
  ipv4Suffixes : ∀ entry ∈ listEntries (native.ipv4.searchlist.getD []),
    ∃ s, DnsSuffix.parse toAscii entry = some s ∧ s.isRoot = false
  ipv6Servers : ∀ entry ∈ listEntries (native.ipv6.nameserver.getD []),
    ∃ a, IpAddr.parse entry = some a
  ipv6Suffixes : ∀ entry ∈ listEntries (native.ipv6.searchlist.getD []),
    ∃ s, DnsSuffix.parse toAscii entry = some s ∧ s.isRoot = false

/-! ## Printing and parsing lists -/

lemma isSeparator_entry {c : Char} (hc : IsEntryChar c) : isSeparator c = false := by
  obtain ⟨space, comma, semicolon⟩ := hc
  simp only [isSeparator, Bool.or_eq_false_iff, beq_eq_false_iff_ne]
  refine ⟨⟨?_, ?_⟩, ?_⟩
  · rintro rfl
    exact comma rfl
  · rintro rfl
    exact absurd space (by decide)
  · rintro rfl
    exact semicolon rfl

/-- Joined entries are the entries of the joined text. -/
lemma listEntries_intercalate {ls : List (List Char)}
    (plain : ∀ l ∈ ls, l ≠ [] ∧ ∀ c ∈ l, IsEntryChar c) :
    listEntries ([','].intercalate ls) = ls := by
  cases ls with
  | nil => decide
  | cons l ls =>
      have trimmed : (l :: ls).map trim = l :: ls :=
        (List.map_congr_left fun l hl => trim_of_plain fun c hc => ((plain l hl).2 c hc).1).trans
          (List.map_id _)
      rw [listEntries, Listing.splitOnP_intercalate (by decide) (by simp) fun l hl c hc =>
        isSeparator_entry ((plain l hl).2 c hc), trimmed]
      exact List.filter_eq_self.mpr fun l hl => by simpa using (plain l hl).1

/-- The entries of joined addresses are their texts. -/
lemma listEntries_joinAddresses (list : List IpAddr) :
    listEntries (joinAddresses list) = list.map IpAddr.toText := by
  refine listEntries_intercalate fun text ht => ?_
  obtain ⟨a, _, rfl⟩ := List.mem_map.mp ht
  refine ⟨fun empty => ?_, fun c hc => isEntryChar_address (a.isAddressChar_toText c hc)⟩
  have parsed := a.parse_toText
  rw [empty] at parsed
  cases parsed

/-- Joined addresses are read back as they were. -/
lemma servers_joinAddresses (list : List IpAddr) :
    servers (some (joinAddresses list)) = list.map .address := by
  rw [servers, Option.getD_some, listEntries_joinAddresses, List.map_map]
  refine List.map_congr_left fun a _ => ?_
  simp only [Function.comp_apply, addressEntry, a.parse_toText]

variable {toAscii : List Char → Option (List Char)}

/-- The entries of joined suffixes are the texts of those that are not the root. -/
lemma listEntries_joinSuffixes {list : List DnsSuffix}
    (parsed : ∀ s ∈ list, ∃ input, DnsSuffix.parse toAscii input = some s) :
    listEntries (joinSuffixes list) =
      (list.filter fun suffix => !suffix.isRoot).map DnsSuffix.toText := by
  refine listEntries_intercalate fun text ht => ?_
  obtain ⟨s, hs, rfl⟩ := List.mem_map.mp ht
  obtain ⟨hm, hr⟩ := List.mem_filter.mp hs
  have root : s.isRoot = false := by simpa using hr
  have nonempty : s.text ≠ [] := by simpa [DnsSuffix.isRoot] using root
  obtain ⟨input, hp⟩ := parsed s hm
  rw [show s.toText = s.text by simp [DnsSuffix.toText, root]]
  obtain empty | ⟨valid, _⟩ := DnsSuffix.parse_eq_some hp
  · exact absurd empty nonempty
  · exact ⟨nonempty, isEntryChar_domain valid⟩

/-- Each of them is parsed again. -/
lemma parse_joined (idempotent : IdempotentAscii toAscii) {list : List DnsSuffix}
    (parsed : ∀ s ∈ list, ∃ input, DnsSuffix.parse toAscii input = some s) :
    ∀ s ∈ list.filter fun suffix => !suffix.isRoot,
      DnsSuffix.parse toAscii s.toText = some s := by
  intro s hs
  obtain ⟨hm, hr⟩ := List.mem_filter.mp hs
  have root : s.isRoot = false := by simpa using hr
  obtain ⟨input, hp⟩ := parsed s hm
  rw [show s.toText = s.text by simp [DnsSuffix.toText, root]]
  exact DnsSuffix.parse_text idempotent hp root

/-- Suffixes that were parsed are read back, the root apart. -/
lemma suffixes_joinSuffixes (idempotent : IdempotentAscii toAscii) {list : List DnsSuffix}
    (parsed : ∀ s ∈ list, ∃ input, DnsSuffix.parse toAscii input = some s) :
    suffixes toAscii (some (joinSuffixes list)) =
      (list.filter fun suffix => !suffix.isRoot).map .suffix := by
  rw [suffixes, Option.getD_some, listEntries_joinSuffixes parsed, List.map_map]
  refine List.map_congr_left fun s hs => ?_
  simp only [Function.comp_apply, suffixEntry, parse_joined idempotent parsed s hs]

/-! ## Lossless interfaces -/

section Lists

variable {β : Type} {parse : List Char → Option β} {kind : β → NativeEntry}
  {entry : List Char → NativeEntry}

/-- A list all of whose entries are parsed is what was parsed. -/
lemma map_entry_of_all (same : ∀ text b, parse text = some b → entry text = kind b)
    {texts : List (List Char)} (all : ∀ text ∈ texts, ∃ b, parse text = some b) :
    texts.map entry = (texts.filterMap parse).map kind := by
  induction texts with
  | nil => rfl
  | cons text texts ih =>
      obtain ⟨b, hb⟩ := all text List.mem_cons_self
      rw [List.map_cons, List.filterMap_cons_some hb, List.map_cons, same text b hb,
        ih fun text ht => all text (List.mem_cons_of_mem _ ht)]

/-- What was parsed was among the entries. -/
lemma parsed_subset (same : ∀ text b, parse text = some b → entry text = kind b)
    (texts : List (List Char)) : (texts.filterMap parse).map kind ⊆ texts.map entry := by
  intro e he
  obtain ⟨b, hb, rfl⟩ := List.mem_map.mp he
  obtain ⟨text, ht, hp⟩ := List.mem_filterMap.mp hb
  exact List.mem_map.mpr ⟨text, ht, same text b hp⟩

end Lists

lemma addressEntry_eq {text : List Char} {a : IpAddr} :
    addressEntry text = .address a ↔ IpAddr.parse text = some a := by
  unfold addressEntry
  cases IpAddr.parse text <;> simp

lemma suffixEntry_eq {text : List Char} {s : DnsSuffix} :
    suffixEntry toAscii text = .suffix s ↔ DnsSuffix.parse toAscii text = some s := by
  unfold suffixEntry
  cases DnsSuffix.parse toAscii text <;> simp

/-- An unset list is captured like an empty one. -/
lemma getD_map_list {β : Type} {f : List Char → List β} (hf : f [] = []) (o : Option (List Char)) :
    (o.map f).getD [] = f (o.getD []) := by
  cases o with
  | none => exact hf.symm
  | some text => rfl

section Capture

variable (native : NativeInterface)

lemma captured_ipv4Nameservers :
    (readInterfaceState toAscii native).ipv4Nameservers.getD [] =
      (parseAddressList (native.ipv4.nameserver.getD [])).filter IpAddr.isIpv4 := by
  rw [readInterfaceState, Option.map_map]
  exact getD_map_list (by rfl) _

lemma captured_ipv6Nameservers :
    (readInterfaceState toAscii native).ipv6Nameservers.getD [] =
      parseAddressList (native.ipv6.nameserver.getD []) :=
  getD_map_list (by rfl) _

lemma captured_ipv4Search :
    (readInterfaceState toAscii native).ipv4Search.getD [] =
      parseSuffixList toAscii (native.ipv4.searchlist.getD []) :=
  getD_map_list (by rfl) _

lemma captured_ipv6Search :
    (readInterfaceState toAscii native).ipv6Search.getD [] =
      parseSuffixList toAscii (native.ipv6.searchlist.getD []) :=
  getD_map_list (by rfl) _

end Capture

variable {native : NativeInterface}

/-- A capture of understood entries holds them all. -/
lemma Understood.captures (h : Understood toAscii native) :
    Captures toAscii native (readInterfaceState toAscii native) := by
  refine ⟨?_, ?_, ?_, ?_⟩
  · rw [captured_ipv4Nameservers, List.filter_eq_self.mpr]
    · exact map_entry_of_all (fun _ _ => addressEntry_eq.mpr) fun text ht =>
        (h.ipv4Servers text ht).imp fun _ => And.left
    · intro a ha
      obtain ⟨text, ht, hp⟩ := List.mem_filterMap.mp ha
      obtain ⟨a', hp', hv⟩ := h.ipv4Servers text ht
      rw [hp] at hp'
      exact Option.some.inj hp' ▸ hv
  · rw [captured_ipv4Search]
    exact map_entry_of_all (fun _ _ => suffixEntry_eq.mpr) fun text ht =>
      (h.ipv4Suffixes text ht).imp fun _ => And.left
  · rw [captured_ipv6Nameservers]
    exact map_entry_of_all (fun _ _ => addressEntry_eq.mpr) h.ipv6Servers
  · rw [captured_ipv6Search]
    exact map_entry_of_all (fun _ _ => suffixEntry_eq.mpr) fun text ht =>
      (h.ipv6Suffixes text ht).imp fun _ => And.left

/-- A captured suffix was parsed. -/
lemma parsed_of_mem {text : List Char} :
    ∀ s ∈ parseSuffixList toAscii text, ∃ input, DnsSuffix.parse toAscii input = some s :=
  fun _ hs => (List.mem_filterMap.mp hs).imp fun _ => And.right

/-- What a restore writes, whatever was there. -/
lemma restored_lists (idempotent : IdempotentAscii toAscii) (native present : NativeInterface) :
    let state := readInterfaceState toAscii native
    let restored := restoreInterface present state
    servers restored.ipv4.nameserver = (state.ipv4Nameservers.getD []).map .address ∧
      suffixes toAscii restored.ipv4.searchlist =
        ((state.ipv4Search.getD []).filter fun suffix => !suffix.isRoot).map .suffix ∧
      servers restored.ipv6.nameserver = (state.ipv6Nameservers.getD []).map .address ∧
      suffixes toAscii restored.ipv6.searchlist =
        ((state.ipv6Search.getD []).filter fun suffix => !suffix.isRoot).map .suffix := by
  refine ⟨servers_joinAddresses _, ?_, servers_joinAddresses _, ?_⟩
  · refine suffixes_joinSuffixes idempotent fun s hs => ?_
    rw [captured_ipv4Search] at hs
    exact parsed_of_mem s hs
  · refine suffixes_joinSuffixes idempotent fun s hs => ?_
    rw [captured_ipv6Search] at hs
    exact parsed_of_mem s hs

/-- The proper suffixes of understood entries. -/
lemma filter_understood {texts : List (List Char)}
    (all : ∀ text ∈ texts, ∃ s, DnsSuffix.parse toAscii text = some s ∧ s.isRoot = false) :
    (texts.filterMap (DnsSuffix.parse toAscii)).filter (fun suffix => !suffix.isRoot) =
      texts.filterMap (DnsSuffix.parse toAscii) := by
  refine List.filter_eq_self.mpr fun s hs => ?_
  obtain ⟨text, ht, hp⟩ := List.mem_filterMap.mp hs
  obtain ⟨s', hp', proper⟩ := all text ht
  rw [hp] at hp'
  simp [Option.some.inj hp', proper]

/-- Equal captures have the entries of either in the other, once those of the first are all
captured. -/
lemma Captures.distinguished {later : NativeInterface}
    (h : Captures toAscii native (readInterfaceState toAscii native))
    (equal : equivalent (readInterfaceState toAscii native) (readInterfaceState toAscii later) =
      true) : Lists toAscii (· ⊆ ·) native later := by
  simp only [equivalent, Bool.and_eq_true, beq_iff_eq] at equal
  obtain ⟨⟨⟨servers4, servers6⟩, search4⟩, search6⟩ := equal
  refine ⟨?_, ?_, ?_, ?_⟩
  · rw [h.ipv4Servers, servers4, captured_ipv4Nameservers]
    exact List.Subset.trans (List.map_subset _ (List.filter_subset_self _))
      (parsed_subset (fun _ _ => addressEntry_eq.mpr) _)
  · rw [h.ipv4Suffixes, search4, captured_ipv4Search]
    exact parsed_subset (fun _ _ => suffixEntry_eq.mpr) _
  · rw [h.ipv6Servers, servers6, captured_ipv6Nameservers]
    exact parsed_subset (fun _ _ => addressEntry_eq.mpr) _
  · rw [h.ipv6Suffixes, search6, captured_ipv6Search]
    exact parsed_subset (fun _ _ => suffixEntry_eq.mpr) _

lemma Understood.lossless (idempotent : IdempotentAscii toAscii) (h : Understood toAscii native) :
    Lossless toAscii native := by
  have captures := h.captures
  refine ⟨fun plans => ?_, captures, fun later => captures.distinguished⟩
  obtain ⟨servers4, search4, servers6, search6⟩ :=
    restored_lists idempotent native (plans.foldl apply native)
  refine ⟨?_, ?_, ?_, ?_⟩
  · rw [servers4, captures.ipv4Servers]
  · rw [search4, captures.ipv4Suffixes, captured_ipv4Search, parseSuffixList,
      filter_understood h.ipv4Suffixes]
  · rw [servers6, captures.ipv6Servers]
  · rw [search6, captures.ipv6Suffixes, captured_ipv6Search, parseSuffixList,
      filter_understood h.ipv6Suffixes]

/-- The entries of a list that equals the parsed one with the roots left out. -/
lemma proper_of_restored {texts : List (List Char)} {list : List DnsSuffix}
    (restored : (list.filter fun suffix => !suffix.isRoot).map NativeEntry.suffix =
      texts.map (suffixEntry toAscii)) :
    ∀ text ∈ texts, ∃ s, DnsSuffix.parse toAscii text = some s ∧ s.isRoot = false := by
  intro text ht
  have hm : suffixEntry toAscii text ∈
      (list.filter fun suffix => !suffix.isRoot).map NativeEntry.suffix := by
    rw [restored]
    exact List.mem_map.mpr ⟨text, ht, rfl⟩
  obtain ⟨s, hs, he⟩ := List.mem_map.mp hm
  exact ⟨s, suffixEntry_eq.mp he.symm, by simpa using (List.mem_filter.mp hs).2⟩

lemma Lossless.understood (idempotent : IdempotentAscii toAscii) (h : Lossless toAscii native) :
    Understood toAscii native := by
  have restored := h.restored []
  obtain ⟨_, search4, _, search6⟩ := restored_lists idempotent native native
  refine ⟨fun text ht => ?_, ?_, fun text ht => ?_, ?_⟩
  · have hm : addressEntry text ∈ servers native.ipv4.nameserver := List.mem_map.mpr ⟨text, ht, rfl⟩
    rw [h.captured.ipv4Servers, captured_ipv4Nameservers] at hm
    obtain ⟨a, ha, he⟩ := List.mem_map.mp hm
    exact ⟨a, addressEntry_eq.mp he.symm, (List.mem_filter.mp ha).2⟩
  · exact proper_of_restored (search4.symm.trans restored.ipv4Suffixes)
  · have hm : addressEntry text ∈ servers native.ipv6.nameserver := List.mem_map.mpr ⟨text, ht, rfl⟩
    rw [h.captured.ipv6Servers] at hm
    obtain ⟨a, _, he⟩ := List.mem_map.mp hm
    exact ⟨a, addressEntry_eq.mp he.symm⟩
  · exact proper_of_restored (search6.symm.trans restored.ipv6Suffixes)

/-- Capture and restore are lossless exactly for interfaces all of whose entries are understood. -/
theorem lossless_iff (idempotent : IdempotentAscii toAscii) (native : NativeInterface) :
    Lossless toAscii native ↔ Understood toAscii native :=
  ⟨Lossless.understood idempotent, Understood.lossless idempotent⟩

/-- The IDNA conversion of domains in lower case without internationalized labels. -/
def lowercaseAscii (text : List Char) : Option (List Char) :=
  if text.all fun c => isLabelChar c || c == '.' then some text else none

lemma idempotent_lowercaseAscii : IdempotentAscii lowercaseAscii := by
  intro text ascii h
  unfold lowercaseAscii at h
  split at h
  · next plain =>
      cases h
      exact if_pos plain
  · cases h

/-- An interface with an address and a suffix in each stack. -/
def readable : NativeInterface where
  ipv4 := ⟨some "10.0.0.1".toList, some "corp.example".toList⟩
  ipv6 := ⟨some "fe80::1".toList, none⟩

theorem lossless_readable : Lossless lowercaseAscii readable := by
  have servers4 : listEntries (readable.ipv4.nameserver.getD []) = ["10.0.0.1".toList] := by decide
  have search4 : listEntries (readable.ipv4.searchlist.getD []) = ["corp.example".toList] := by
    decide
  have servers6 : listEntries (readable.ipv6.nameserver.getD []) = ["fe80::1".toList] := by decide
  have search6 : listEntries (readable.ipv6.searchlist.getD []) = [] := by decide
  refine (lossless_iff idempotent_lowercaseAscii readable).mpr ⟨?_, ?_, ?_, ?_⟩
  · simp only [servers4, List.mem_singleton, forall_eq]
    exact ⟨.v4 167772161, by decide, rfl⟩
  · simp only [search4, List.mem_singleton, forall_eq]
    exact ⟨⟨"corp.example".toList⟩, by decide, by decide⟩
  · simp only [servers6, List.mem_singleton, forall_eq]
    exact ⟨.v6 0xfe800000000000000000000000000001, by decide⟩
  · simp [search6]

/-- An interface whose nameserver list has an entry that is no address. -/
def unreadable : NativeInterface where
  ipv4 := ⟨some "10.0.0.1,dns.internal".toList, none⟩
  ipv6 := ⟨none, none⟩

/-- The entry is lost. -/
theorem not_lossless_unreadable : ¬ Lossless lowercaseAscii unreadable := by
  intro h
  exact absurd h.captured.ipv4Servers (by decide)

end Windows

end Osdns
