import Mathlib.Data.List.DropRight
import Osdns.Framework.AddressText
import Osdns.Model.Config

/-!
# Addresses and domains as text

`IpAddr` and `DnsSuffix` are printed and parsed as in `normalize.rs` and the standard library.  The
IDNA conversion of a domain is a parameter `toAscii` (the `idna` crate); what is used of it is that
it leaves its own answers alone (`IdempotentAscii`).
-/

namespace Osdns

open AddressText

/-! ## White space -/

/-- `char::is_whitespace`. -/
def isWhitespace (c : Char) : Bool :=
  let n := c.toNat
  (9 ≤ n && n ≤ 13) || n == 32 || n == 133 || n == 160 || n == 5760 || (8192 ≤ n && n ≤ 8202) ||
    n == 8232 || n == 8233 || n == 8239 || n == 8287 || n == 12288

/-- `str::trim`. -/
def trim (text : List Char) : List Char := (text.dropWhile isWhitespace).rdropWhile isWhitespace

lemma trim_of_plain {text : List Char} (plain : ∀ c ∈ text, isWhitespace c = false) :
    trim text = text := by
  have front : text.dropWhile isWhitespace = text := by
    cases text with
    | nil => rfl
    | cons c text => rw [List.dropWhile_cons_of_neg (by simp [plain c List.mem_cons_self])]
  rw [trim, front, List.rdropWhile_eq_self_iff]
  intro hn
  simp [plain _ (List.getLast_mem hn)]

/-! ## Addresses -/

namespace IpAddr

/-- `Ipv4Addr::octets` and `Ipv6Addr::segments`. -/
def numbers : IpAddr → List Nat
  | .v4 bits =>
      let n := bits.toNat
      [n / 16777216, n / 65536 % 256, n / 256 % 256, n % 256]
  | .v6 bits =>
      let n := bits.toNat
      [n / 2 ^ 112, n / 2 ^ 96 % 65536, n / 2 ^ 80 % 65536, n / 2 ^ 64 % 65536, n / 2 ^ 48 % 65536,
        n / 2 ^ 32 % 65536, n / 65536 % 65536, n % 65536]

def ofOctets (octets : List Nat) : IpAddr :=
  .v4 (BitVec.ofNat 32 (octets.foldl (fun value octet => value * 256 + octet) 0))

def ofGroups (groups : List Nat) : IpAddr :=
  .v6 (BitVec.ofNat 128 (groups.foldl (fun value group => value * 65536 + group) 0))

/-- `Display for IpAddr`. -/
def toText : IpAddr → List Char
  | .v4 bits => showIpv4 (IpAddr.v4 bits).numbers
  | .v6 bits => showIpv6 (IpAddr.v6 bits).numbers

/-- `IpAddr::from_str`. -/
def parse (text : List Char) : Option IpAddr :=
  match readIpv4 text with
  | some (octets, rest) => if rest.isEmpty then some (ofOctets octets) else none
  | none =>
      match readIpv6 text with
      | some (groups, rest) => if rest.isEmpty then some (ofGroups groups) else none
      | none => none

/-- `IpAddr::is_ipv4`. -/
def isIpv4 : IpAddr → Bool
  | .v4 _ => true
  | .v6 _ => false

/-- What is printed is parsed back. -/
lemma parse_toText (a : IpAddr) : parse a.toText = some a := by
  cases a with
  | v4 bits =>
      have small : bits.toNat < 4294967296 := bits.isLt
      have read := readIpv4_showIpv4 (a := bits.toNat / 16777216) (b := bits.toNat / 65536 % 256)
        (c := bits.toNat / 256 % 256) (d := bits.toNat % 256) (by omega) (by omega) (by omega)
        (by omega) (show Stops 10 [] by simp [Stops])
      rw [List.append_nil] at read
      have whole : ((bits.toNat / 16777216 * 256 + bits.toNat / 65536 % 256) * 256 +
          bits.toNat / 256 % 256) * 256 + bits.toNat % 256 = bits.toNat := by omega
      simp only [parse, toText, numbers, read, List.isEmpty_nil, if_true, ofOctets, List.foldl_cons,
        List.foldl_nil, Nat.zero_mul, Nat.zero_add, whole, BitVec.ofNat_toNat, BitVec.setWidth_eq]
  | v6 bits =>
      have small : bits.toNat < 2 ^ 128 := bits.isLt
      have read : readIpv6 (showIpv6 (IpAddr.v6 bits).numbers) = some ((IpAddr.v6 bits).numbers, []) := by
        apply readIpv6_showIpv6
        · rfl
        · intro group hg
          simp only [numbers, List.mem_cons, List.not_mem_nil, or_false] at hg
          omega
      have whole : (IpAddr.v6 bits).numbers.foldl (fun value group => value * 65536 + group) 0 =
          bits.toNat := by
        simp only [numbers, List.foldl_cons, List.foldl_nil]
        omega
      simp only [parse, toText, readIpv4_showIpv6, read, List.isEmpty_nil, if_true, ofGroups, whole,
        BitVec.ofNat_toNat, BitVec.setWidth_eq]

/-- The characters of a printed address. -/
lemma isAddressChar_toText (a : IpAddr) : ∀ c ∈ a.toText, IsAddressChar c := by
  cases a with
  | v4 bits => exact isAddressChar_showIpv4 _
  | v6 bits => exact isAddressChar_showIpv6 _

end IpAddr

/-! ## Domains -/

/-- The letters, digits and hyphens of a label. -/
def isLabelChar (c : Char) : Bool := c.isLower || c.isDigit || c == '-'

/-- The checks of `normalize_domain` on one label. -/
def validLabel (label : List Char) : Bool :=
  !label.isEmpty && decide (label.length ≤ 63) && label.all isLabelChar &&
    label.head? != some '-' && label.getLast? != some '-' &&
    !(decide (4 ≤ label.length) && label[2]? == some '-' && label[3]? == some '-' &&
      label.take 4 != ['x', 'n', '-', '-'])

/-- The checks of `normalize_domain` on the ASCII form of a domain. -/
def validDomain (ascii : List Char) : Bool :=
  (ascii.splitOn '.').all validLabel &&
    decide (((ascii.splitOn '.').map fun label => label.length + 1).sum - 1 ≤ 253)

/-- `normalize_domain`, without the texts of its errors. -/
def normalizeDomain (toAscii : List Char → Option (List Char)) (input : List Char) :
    Option (List Char) :=
  let trimmed := trim input
  let core := if trimmed.getLast? = some '.' then trimmed.dropLast else trimmed
  if core.isEmpty then some []
  else
    match toAscii core with
    | none => none
    | some ascii => if validDomain ascii then some ascii else none

/-- An answer of the IDNA conversion is converted to itself. -/
def IdempotentAscii (toAscii : List Char → Option (List Char)) : Prop :=
  ∀ text ascii, toAscii text = some ascii → toAscii ascii = some ascii

namespace DnsSuffix

/-- `DnsSuffix::is_root`. -/
def isRoot (s : DnsSuffix) : Bool := s.text.isEmpty

/-- `Display for DnsSuffix`. -/
def toText (s : DnsSuffix) : List Char := if s.isRoot then ['.'] else s.text

/-- `DnsSuffix::parse`. -/
def parse (toAscii : List Char → Option (List Char)) (input : List Char) : Option DnsSuffix :=
  (normalizeDomain toAscii input).map DnsSuffix.mk

variable {toAscii : List Char → Option (List Char)} {s : DnsSuffix} {input : List Char}

/-- What `parse` answers is the root or a domain that passed the checks. -/
lemma parse_eq_some (h : parse toAscii input = some s) :
    s.text = [] ∨ validDomain s.text = true ∧ ∃ core, toAscii core = some s.text := by
  simp only [parse, normalizeDomain, Option.map_eq_some_iff] at h
  obtain ⟨text, h, rfl⟩ := h
  generalize (if (trim input).getLast? = some '.' then (trim input).dropLast else trim input) = core
    at h
  by_cases hr : core.isEmpty = true
  · rw [if_pos hr] at h
    exact .inl (Option.some.inj h).symm
  · rw [if_neg hr] at h
    cases hc : toAscii core with
    | none =>
        rw [hc] at h
        cases h
    | some ascii =>
        rw [hc] at h
        by_cases valid : validDomain ascii = true
        · simp only [valid, if_true, Option.some.injEq] at h
          exact .inr (h ▸ ⟨valid, core, hc⟩)
        · simp [valid] at h

end DnsSuffix

lemma validLabel_chars {label : List Char} (valid : validLabel label = true) :
    ∀ c ∈ label, isLabelChar c = true := by
  simp only [validLabel, Bool.and_eq_true] at valid
  exact List.all_eq_true.mp valid.1.1.1.2

lemma mem_intercalate {x c : Char} {ls : List (List Char)} (hc : c ∈ [x].intercalate ls) :
    c = x ∨ ∃ l ∈ ls, c ∈ l := by
  induction ls with
  | nil => simp at hc
  | cons l ls ih =>
      cases ls with
      | nil => exact .inr ⟨l, List.mem_cons_self, by simpa using hc⟩
      | cons l' ls =>
          rw [List.intercalate_cons_cons, List.append_assoc] at hc
          rcases List.mem_append.mp hc with hc | hc
          · exact .inr ⟨l, List.mem_cons_self, hc⟩
          · rcases List.mem_append.mp hc with hc | hc
            · exact .inl (List.mem_singleton.mp hc)
            · exact (ih hc).imp_right fun ⟨l, hl, h⟩ => ⟨l, List.mem_cons_of_mem _ hl, h⟩

lemma validDomain_labels {ascii : List Char} (valid : validDomain ascii = true) :
    ∀ label ∈ ascii.splitOn '.', validLabel label = true := by
  simp only [validDomain, Bool.and_eq_true] at valid
  exact List.all_eq_true.mp valid.1

/-- The characters of a valid domain. -/
lemma validDomain_chars {ascii : List Char} (valid : validDomain ascii = true) :
    ∀ c ∈ ascii, c = '.' ∨ isLabelChar c = true := by
  intro c hc
  have parts : ['.'].intercalate (ascii.splitOn '.') = ascii := List.intercalate_splitOn '.'
  rw [← parts] at hc
  rcases mem_intercalate hc with rfl | ⟨label, hl, hc⟩
  · exact .inl rfl
  · exact .inr (validLabel_chars (validDomain_labels valid label hl) c hc)

/-- A valid domain does not end in a dot. -/
lemma validDomain_last {ascii : List Char} (valid : validDomain ascii = true) :
    ascii.getLast? ≠ some '.' := by
  intro last
  obtain ⟨front, rfl⟩ := List.getLast?_eq_some_iff.mp last
  have labels := validDomain_labels valid
  rw [List.splitOn_append_cons_self] at labels
  have := labels [] (by simp)
  simp [validLabel] at this

lemma isLabelChar_cases {c : Char} (hc : isLabelChar c = true) :
    (97 ≤ c.toNat ∧ c.toNat ≤ 122) ∨ (48 ≤ c.toNat ∧ c.toNat ≤ 57) ∨ c.toNat = 45 := by
  delta isLabelChar Char.isLower Char.isDigit at hc
  simp only [Bool.or_eq_true, Bool.and_eq_true, decide_eq_true_eq, beq_iff_eq, ge_iff_le,
    UInt32.le_iff_toNat_le] at hc
  rcases hc with (hc | hc) | rfl
  · exact .inl hc
  · exact .inr (.inl hc)
  · exact .inr (.inr rfl)

/-- A character that neither ends an entry of a list nor is trimmed off one. -/
def IsEntryChar (c : Char) : Prop := isWhitespace c = false ∧ c.toNat ≠ 44 ∧ c.toNat ≠ 59

lemma isEntryChar_label {c : Char} (hc : isLabelChar c = true) : IsEntryChar c := by
  have := isLabelChar_cases hc
  refine ⟨?_, by omega, by omega⟩
  simp only [isWhitespace, Bool.or_eq_false_iff, Bool.and_eq_false_iff, decide_eq_false_iff_not,
    beq_eq_false_iff_ne]
  omega

lemma isEntryChar_address {c : Char} (hc : IsAddressChar c) : IsEntryChar c := by
  rcases hc with rfl | rfl | ⟨d, hd, rfl⟩
  · exact ⟨by decide, by decide, by decide⟩
  · exact ⟨by decide, by decide, by decide⟩
  · interval_cases d <;> exact ⟨by decide, by decide, by decide⟩

/-- The characters of a valid domain in a list. -/
lemma isEntryChar_domain {ascii : List Char} (valid : validDomain ascii = true) :
    ∀ c ∈ ascii, IsEntryChar c := by
  intro c hc
  rcases validDomain_chars valid c hc with rfl | hc
  · exact ⟨by decide, by decide, by decide⟩
  · exact isEntryChar_label hc

/-- A domain that passed the checks is parsed to itself. -/
lemma DnsSuffix.parse_text {toAscii : List Char → Option (List Char)}
    (idempotent : IdempotentAscii toAscii) {input : List Char} {s : DnsSuffix}
    (h : parse toAscii input = some s) (proper : s.isRoot = false) :
    parse toAscii s.text = some s := by
  have nonempty : s.text ≠ [] := by simpa [isRoot] using proper
  obtain hr | ⟨valid, core, hc⟩ := parse_eq_some h
  · exact absurd hr nonempty
  · have plain : ∀ c ∈ s.text, isWhitespace c = false :=
      fun c hc => (isEntryChar_domain valid c hc).1
    simp only [parse, normalizeDomain, trim_of_plain plain, validDomain_last valid, if_false,
      List.isEmpty_iff, nonempty, idempotent _ _ hc, valid, if_true, Option.map_some]

end Osdns
