import Osdns.Platform.Validation

/-!
# Normal domains

What `normalize_domain` of `normalize.rs` promises about the texts it lets through, in the terms of
the grammar of DNS names, and that the printed and the serialised form of a suffix name it.
-/

namespace Osdns

/-! ## Serde -/

namespace DnsSuffix

/-- `Serialize for DnsSuffix`. -/
def serialize (s : DnsSuffix) : List Char := if s.isRoot then ['.'] else s.text

/-- `Deserialize for DnsSuffix`, on the string that was read. -/
def deserialize (toAscii : List Char → Option (List Char)) (raw : List Char) : Option DnsSuffix :=
  parse toAscii raw

/-- The serialised form is the printed one. -/
lemma serialize_eq_toText (s : DnsSuffix) : s.serialize = s.toText := rfl

end DnsSuffix

/-! ## The grammar -/

/-- A label: 1 to 63 lowercase letters, digits or hyphens, with no hyphen at an end. -/
structure IsLabel (label : List Char) : Prop where
  nonempty : 1 ≤ label.length
  short : label.length ≤ 63
  chars : ∀ c ∈ label, isLabelChar c = true
  first : label.head? ≠ some '-'
  last : label.getLast? ≠ some '-'

/-- A name: labels joined by dots, at most 253 characters together. -/
structure IsName (text : List Char) : Prop where
  labels : ∃ labels, labels ≠ [] ∧ (∀ label ∈ labels, IsLabel label) ∧
    text = ['.'].intercalate labels
  short : text.length ≤ 253

lemma isLabel_of_validLabel {label : List Char} (valid : validLabel label = true) :
    IsLabel label := by
  have chars := validLabel_chars valid
  simp only [validLabel, Bool.and_eq_true, Bool.not_eq_true', List.isEmpty_eq_false_iff,
    decide_eq_true_eq, bne_iff_ne] at valid
  obtain ⟨⟨⟨⟨⟨nonempty, short⟩, _⟩, first⟩, last⟩, _⟩ := valid
  exact ⟨List.length_pos_iff.mpr nonempty, short, chars, first, last⟩

/-- The length that `normalize_domain` adds up, one more for each label than the label has. -/
lemma length_intercalate {x : Char} {ls : List (List Char)} (nonempty : ls ≠ []) :
    ([x].intercalate ls).length + 1 = (ls.map fun l => l.length + 1).sum := by
  induction ls with
  | nil => exact absurd rfl nonempty
  | cons l ls ih =>
      cases ls with
      | nil => simp
      | cons l' ls =>
          have rest := ih (List.cons_ne_nil l' ls)
          rw [List.intercalate_cons_cons, List.map_cons, List.sum_cons, ← rest]
          simp only [List.length_append, List.length_singleton]
          omega

/-- The checks of `normalize_domain` let only names through. -/
lemma isName_of_validDomain {ascii : List Char} (valid : validDomain ascii = true) :
    IsName ascii := by
  have nonempty : ascii.splitOn '.' ≠ [] := List.splitOn_ne_nil _ _
  have parts : ['.'].intercalate (ascii.splitOn '.') = ascii := List.intercalate_splitOn '.'
  refine ⟨⟨ascii.splitOn '.', nonempty, fun label hl => ?_, parts.symm⟩, ?_⟩
  · exact isLabel_of_validLabel (validDomain_labels valid label hl)
  · have total := length_intercalate (x := '.') nonempty
    rw [parts] at total
    simp only [validDomain, Bool.and_eq_true, decide_eq_true_eq] at valid
    omega

/-! ## Stability -/

section Stability

variable {toAscii : List Char → Option (List Char)} {s : DnsSuffix} {input : List Char}

/-- What is parsed is the root or a name. -/
lemma DnsSuffix.text_of_parse (h : DnsSuffix.parse toAscii input = some s) :
    s.text = [] ∨ IsName s.text := by
  rcases DnsSuffix.parse_eq_some h with root | ⟨valid, _⟩
  · exact .inl root
  · exact .inr (isName_of_validDomain valid)

/-- A parsed domain is also parsed from the text it holds, which is empty for the root. -/
lemma DnsSuffix.parse_of_parse (idempotent : IdempotentAscii toAscii)
    (h : DnsSuffix.parse toAscii input = some s) : DnsSuffix.parse toAscii s.text = some s := by
  by_cases root : s.isRoot = true
  · have empty : s = ⟨[]⟩ := by
      cases s
      simpa [isRoot] using root
    rw [empty]
    rfl
  · exact parse_text idempotent h (by simpa using root)

/-- A domain that is parsed or deserialised is the root or a name; it is read again from what is
displayed, serialised or held as its text, and two such domains are equal when these are. -/
theorem DnsSuffix.normal (idempotent : IdempotentAscii toAscii)
    (h : DnsSuffix.parse toAscii input = some s ∨ DnsSuffix.deserialize toAscii input = some s) :
    (s.text = [] ∨ IsName s.text) ∧
      DnsSuffix.parse toAscii s.toText = some s ∧
      DnsSuffix.parse toAscii s.text = some s ∧
      DnsSuffix.deserialize toAscii s.serialize = some s ∧
      ∀ input' t, DnsSuffix.parse toAscii input' = some t →
        (s = t ↔ s.toText = t.toText) ∧ (s = t ↔ s.serialize = t.serialize) := by
  have hs : DnsSuffix.parse toAscii input = some s := h.elim id id
  refine ⟨text_of_parse hs, parse_toText idempotent hs, parse_of_parse idempotent hs,
    parse_toText idempotent hs, fun input' t ht => ?_⟩
  have key : s = t ↔ s.toText = t.toText :=
    ⟨congrArg DnsSuffix.toText, toText_inj idempotent hs ht⟩
  rw [serialize_eq_toText, serialize_eq_toText]
  exact ⟨key, key⟩

end Stability

/-- The IDNA conversion of names in ASCII letters, digits and hyphens: letters are lowered. -/
def lowerAscii (text : List Char) : Option (List Char) :=
  let lowered := text.map Char.toLower
  if lowered.all fun c => isLabelChar c || c == '.' then some lowered else none

lemma toLower_of_label {c : Char} (hc : isLabelChar c = true) : c.toLower = c := by
  have := isLabelChar_cases hc
  unfold Char.toLower
  rw [dif_neg]
  rintro ⟨low, high⟩
  have low : 65 ≤ c.toNat := UInt32.le_iff_toNat_le.mp low
  have high : c.toNat ≤ 90 := UInt32.le_iff_toNat_le.mp high
  omega

lemma idempotent_lowerAscii : IdempotentAscii lowerAscii := by
  intro text ascii h
  unfold lowerAscii at h
  dsimp only at h
  split at h
  · next plain =>
      cases h
      have same : (text.map Char.toLower).map Char.toLower = text.map Char.toLower := by
        refine (List.map_congr_left fun c hc => ?_).trans (List.map_id _)
        have kept := List.all_eq_true.mp plain c hc
        rw [Bool.or_eq_true, beq_iff_eq] at kept
        rcases kept with label | rfl
        · exact toLower_of_label label
        · rfl
      unfold lowerAscii
      rw [same]
      exact if_pos plain
  · cases h

/-- The suffix of the documentation, from a string with blanks and a trailing dot. -/
theorem DnsSuffix.normal_corp :
    IsName "corp.example".toList ∧
      DnsSuffix.deserialize lowerAscii (DnsSuffix.serialize ⟨"corp.example".toList⟩) =
        some ⟨"corp.example".toList⟩ := by
  have parsed : DnsSuffix.parse lowerAscii " Corp.EXAMPLE. ".toList =
      some ⟨"corp.example".toList⟩ := by decide
  obtain ⟨text, _, _, serde, _⟩ := DnsSuffix.normal idempotent_lowerAscii (.inl parsed)
  exact ⟨text.resolve_left (by decide), serde⟩

end Osdns
