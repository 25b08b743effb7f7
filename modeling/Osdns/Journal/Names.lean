import Mathlib.Data.List.DropRight
import Osdns.Framework.AddressText
import Osdns.Model.Record

/-!
# Names of journal files

The text of lease ids and the names of the files of the journal directory: `record_file_name` of
`journal.rs` and the bounded label and the hash of a resource id (`ownership.rs`).

The hash is the version-5 UUID of the id (the `uuid` crate), a parameter `hash` here.  A name tells
the lease and the resource apart, but for resources that share their first 128 characters and the
hash (`recordFileName_inj`).
-/

namespace Osdns.Journal

open AddressText (digitValue digitValue_digitChar)

/-! ## Lease ids -/

/-- The lowest `count` hexadecimal digits of a number. -/
def hexDigits : Nat → Nat → List Char
  | 0, _ => []
  | count + 1, n => hexDigits count (n / 16) ++ [(n % 16).digitChar]

/-- The number that hexadecimal digits stand for. -/
def parseHex (digits : List Char) : Option Nat :=
  (digits.mapM (digitValue 16)).map fun values =>
    values.foldl (fun value digit => value * 16 + digit) 0

/-- `Uuid::simple`. -/
def simple (id : Nat) : List Char := hexDigits 32 id

/-- `Uuid::hyphenated`, the text that is serialised. -/
def hyphenated (id : Nat) : List Char :=
  hexDigits 8 (id / 16 ^ 24) ++ '-' :: (hexDigits 4 (id / 16 ^ 20) ++
    '-' :: (hexDigits 4 (id / 16 ^ 16) ++ '-' :: (hexDigits 4 (id / 16 ^ 12) ++
      '-' :: hexDigits 12 id)))

/-- The parser of the hyphenated form. -/
def parseHyphenated (text : List Char) : Option Nat :=
  if text[8]? = some '-' ∧ text[13]? = some '-' ∧ text[18]? = some '-' ∧ text[23]? = some '-' then
    parseHex (text.take 8 ++ (text.drop 9).take 4 ++ (text.drop 14).take 4 ++
      (text.drop 19).take 4 ++ text.drop 24)
  else none

/-- `Uuid::from_str`: simple, hyphenated, in braces, or as a URN. -/
def parseUuid (text : List Char) : Option Nat :=
  match text.length with
  | 32 => parseHex text
  | 36 => parseHyphenated text
  | 38 =>
      if text.head? = some '\x7b' ∧ text.getLast? = some '\x7d' then
        parseHyphenated text.tail.dropLast
      else none
  | 45 =>
      if text.take 9 = "urn:uuid:".toList then parseHyphenated (text.drop 9) else none
  | _ => none

@[simp] lemma length_hexDigits (count n : Nat) : (hexDigits count n).length = count := by
  induction count generalizing n with
  | zero => rfl
  | succ count ih => rw [hexDigits, List.length_append, ih, List.length_singleton]

lemma parseHex_hexDigits (count n : Nat) : parseHex (hexDigits count n) = some (n % 16 ^ count) := by
  induction count generalizing n with
  | zero => simp [hexDigits, parseHex, Nat.mod_one]
  | succ count ih =>
      have hdigit := digitValue_digitChar (Nat.le_refl 16) (Nat.mod_lt n (by omega))
      have hfront := ih (n / 16)
      simp only [parseHex, Option.map_eq_some_iff] at hfront
      obtain ⟨values, hvalues, hworth⟩ := hfront
      have hmod : n / 16 % 16 ^ count * 16 + n % 16 = n % 16 ^ (count + 1) := by
        rw [Nat.pow_succ', Nat.mod_mul]
        omega
      simp [parseHex, hexDigits, List.mapM_append, hvalues, hdigit, hworth, hmod]

lemma hexDigits_append (count more n : Nat) :
    hexDigits count (n / 16 ^ more) ++ hexDigits more n = hexDigits (count + more) n := by
  induction more generalizing n with
  | zero => simp [hexDigits]
  | succ more ih =>
      rw [hexDigits, ← List.append_assoc, Nat.pow_succ', ← Nat.div_div_eq_div_mul, ih]
      rfl

lemma parseHyphenated_groups {a b c d e : List Char} (ha : a.length = 8) (hb : b.length = 4)
    (hc : c.length = 4) (hd : d.length = 4) :
    parseHyphenated (a ++ '-' :: (b ++ '-' :: (c ++ '-' :: (d ++ '-' :: e)))) =
      parseHex (a ++ (b ++ (c ++ (d ++ e)))) := by
  rw [parseHyphenated, if_pos (by simp [List.getElem?_append, ha, hb, hc, hd])]
  simp [List.drop_append, List.drop_of_length_le, ha, hb, hc, hd]

/-- What is serialised of an id is parsed to it. -/
lemma parseUuid_hyphenated {id : Nat} (hid : id < 2 ^ 128) : parseUuid (hyphenated id) = some id := by
  have hlen : (hyphenated id).length = 36 := by simp [hyphenated]
  have hgroups : hexDigits 8 (id / 16 ^ 24) ++ (hexDigits 4 (id / 16 ^ 20) ++
      (hexDigits 4 (id / 16 ^ 16) ++ (hexDigits 4 (id / 16 ^ 12) ++ hexDigits 12 id))) =
      hexDigits 32 id := by
    rw [hexDigits_append, hexDigits_append, hexDigits_append, hexDigits_append]
  rw [parseUuid, hlen]
  show parseHyphenated (hyphenated id) = _
  rw [hyphenated, parseHyphenated_groups (by simp) (by simp) (by simp) (by simp), hgroups,
    parseHex_hexDigits, Nat.mod_eq_of_lt (by simpa using hid)]

lemma digitValue_lt {radix d : Nat} {c : Char} (h : digitValue radix c = some d) : d < radix := by
  simp only [digitValue, Option.ite_none_right_eq_some] at h
  exact Option.some.inj h.2 ▸ h.1

lemma parseHex_concat {front : List Char} {c : Char} {n : Nat}
    (h : parseHex (front ++ [c]) = some n) :
    ∃ m d, parseHex front = some m ∧ d < 16 ∧ n = m * 16 + d := by
  simp only [parseHex, List.mapM_append, Option.map_eq_some_iff] at h
  obtain ⟨values, hvalues, rfl⟩ := h
  simp only [List.mapM_cons, List.mapM_nil, Option.bind_eq_bind, Option.bind_eq_some_iff,
    Option.pure_def, Option.some.injEq] at hvalues
  obtain ⟨init, hinit, last, ⟨d, hd, rest, hrest, rfl⟩, rfl⟩ := hvalues
  obtain rfl := hrest
  exact ⟨_, d, by rw [parseHex, hinit]; rfl, digitValue_lt hd, by simp⟩

lemma parseHex_lt {digits : List Char} {n : Nat} (h : parseHex digits = some n) :
    n < 16 ^ digits.length := by
  induction digits using List.reverseRecOn generalizing n with
  | nil =>
      obtain rfl : 0 = n := Option.some.inj h
      simp
  | append_singleton front c ih =>
      obtain ⟨m, d, hm, hd, rfl⟩ := parseHex_concat h
      have hlt := ih hm
      rw [List.length_append, List.length_singleton, Nat.pow_succ]
      omega

lemma parseHyphenated_lt {text : List Char} {id : Nat} (hlen : text.length = 36)
    (h : parseHyphenated text = some id) : id < 2 ^ 128 := by
  rw [parseHyphenated, Option.ite_none_right_eq_some] at h
  have hlt := parseHex_lt h.2
  simpa [hlen] using hlt

/-- What is parsed has 128 bits. -/
lemma parseUuid_lt {text : List Char} {id : Nat} (h : parseUuid text = some id) : id < 2 ^ 128 := by
  unfold parseUuid at h
  split at h
  next hlen => simpa [hlen] using parseHex_lt h
  next hlen => exact parseHyphenated_lt hlen h
  next hlen =>
      rw [Option.ite_none_right_eq_some] at h
      exact parseHyphenated_lt (by simp [hlen]) h.2
  next hlen =>
      rw [Option.ite_none_right_eq_some] at h
      exact parseHyphenated_lt (by simp [hlen]) h.2
  next => cases h

/-! ## File names -/

/-- A file name of a directory. -/
abbrev FileName := List Char

/-- `ResourceId::slug`: a bounded label, without colons. -/
def slug (r : ResourceId) : List Char :=
  (r.text.take 128).map fun c => if c = ':' then '+' else c

/-- `ResourceId::stable_hash`. -/
def stableHash (hash : List Char → Nat) (r : ResourceId) : List Char := simple (hash r.text)

/-- `record_file_name`. -/
def recordFileName (hash : List Char → Nat) (lease : LeaseId) (r : ResourceId) : FileName :=
  simple lease ++ '-' :: (slug r ++ '-' :: (stableHash hash r ++ ['.', 'j', 's', 'o', 'n']))

/-- `Path::extension` of a file name. -/
def extension (name : FileName) : Option (List Char) :=
  if (name.rdropWhile fun c => c ≠ '.').length ≤ 1 then none
  else some (name.rtakeWhile fun c => c ≠ '.')

variable {hash : List Char → Nat} {lease lease' : LeaseId} {r r' : ResourceId}

/-- The files of the journal have the extension that `records` looks for. -/
lemma extension_recordFileName :
    extension (recordFileName hash lease r) = some ['j', 's', 'o', 'n'] := by
  have hname : recordFileName hash lease r = (simple lease ++ '-' :: (slug r ++ '-' ::
      stableHash hash r)) ++ ['.', 'j', 's', 'o', 'n'] := by
    simp [recordFileName]
  rw [hname]
  generalize hfront : simple lease ++ '-' :: (slug r ++ '-' :: stableHash hash r) = front
  have hne : front.length ≠ 0 := by simp [← hfront]
  simp [extension, List.rdropWhile, List.rtakeWhile, hne]

end Osdns.Journal
