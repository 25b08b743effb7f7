import Osdns.Framework.AddressText

/-!
# JSON

Values, the compact text they are written as, and a reader of such texts.  Numbers are integers;
strings are written with the short escapes where there is one and `\u00XX` for the other control
characters.

`read_write`: what is written is read back in full.
-/

namespace Json

inductive Value
  | null
  | bool (b : Bool)
  | number (n : Int)
  | string (text : List Char)
  | array (items : List Value)
  | object (fields : List (String × Value))

/-- The text of the `Display` form of a number. -/
def showInt : Int → List Char
  | .ofNat n => Nat.toDigits 10 n
  | .negSucc n => '-' :: Nat.toDigits 10 (n + 1)

/-! ## Writing -/

/-- A character inside a string. -/
def escape (c : Char) : List Char :=
  if c = '"' then ['\\', '"']
  else if c = '\\' then ['\\', '\\']
  else if c = '\n' then ['\\', 'n']
  else if c = '\r' then ['\\', 'r']
  else if c = '\t' then ['\\', 't']
  else if c.toNat = 8 then ['\\', 'b']
  else if c.toNat = 12 then ['\\', 'f']
  else if c.toNat < 32 then ['\\', 'u', '0', '0', (c.toNat / 16).digitChar, (c.toNat % 16).digitChar]
  else [c]

/-- A string in quotes. -/
def quote (text : List Char) : List Char := '"' :: text.flatMap escape ++ ['"']

mutual

/-- The compact text of a value. -/
def render : Value → List Char
  | .null => ['n', 'u', 'l', 'l']
  | .bool true => ['t', 'r', 'u', 'e']
  | .bool false => ['f', 'a', 'l', 's', 'e']
  | .number n => showInt n
  | .string text => quote text
  | .array [] => ['[', ']']
  | .array (item :: items) => '[' :: render item ++ renderItems items
  | .object [] => ['\x7b', '\x7d']
  | .object ((name, value) :: fields) =>
      '\x7b' :: quote name.toList ++ ':' :: render value ++ renderFields fields

/-- The items after the first one, and the bracket. -/
def renderItems : List Value → List Char
  | [] => [']']
  | item :: items => ',' :: render item ++ renderItems items

/-- The fields after the first one, and the brace. -/
def renderFields : List (String × Value) → List Char
  | [] => ['\x7d']
  | (name, value) :: fields =>
      ',' :: quote name.toList ++ ':' :: render value ++ renderFields fields

end

/-! ## Reading -/

/-- Digits, at least one. -/
def readNat (text : List Char) : Option (Nat × List Char) :=
  if (text.takeWhile Char.isDigit).isEmpty then none
  else some (Nat.ofDigitChars 10 (text.takeWhile Char.isDigit) 0, text.dropWhile Char.isDigit)

/-- A number. -/
def readInt (text : List Char) : Option (Int × List Char) :=
  if text.head? = some '-' then (readNat text.tail).map fun (n, rest) => (-n, rest)
  else (readNat text).map fun (n, rest) => (n, rest)

/-- The character of a short escape. -/
def unescape (c : Char) : Option Char :=
  if c = '"' ∨ c = '\\' ∨ c = '/' then some c
  else if c = 'n' then some '\n'
  else if c = 'r' then some '\r'
  else if c = 't' then some '\t'
  else if c = 'b' then some (Char.ofNat 8)
  else if c = 'f' then some (Char.ofNat 12)
  else none

/-- The character of a `\u` escape, if it is one by itself. -/
def fromHex (digits : List Char) : Option Char := do
  let values ← digits.mapM (AddressText.digitValue 16)
  let code := values.foldl (fun code digit => code * 16 + digit) 0
  if code.isValidChar then some (Char.ofNat code) else none

/-- A character inside a string. -/
def readChar : List Char → Option (Char × List Char)
  | '\\' :: 'u' :: h₁ :: h₂ :: h₃ :: h₄ :: rest =>
      (fromHex [h₁, h₂, h₃, h₄]).map fun c => (c, rest)
  | '\\' :: e :: rest => (unescape e).map fun c => (c, rest)
  | c :: rest => if c.toNat < 32 then none else some (c, rest)
  | [] => none

/-- The rest of a string, after the opening quote, of at most as many characters as the first
argument says. -/
def readChars : Nat → List Char → Option (List Char × List Char)
  | 0, _ => none
  | n + 1, text =>
      if text.head? = some '"' then some ([], text.tail)
      else do
        let (c, rest) ← readChar text
        let (chars, rest) ← readChars n rest
        some (c :: chars, rest)

/-- The rest of a text after what it starts with. -/
def readPrefix (expected text : List Char) : Option (List Char) :=
  if expected.isPrefixOf text then some (text.drop expected.length) else none

mutual

/-- A value, in at most as many nested steps as the first argument says. -/
def readValue : Nat → List Char → Option (Value × List Char)
  | 0, _ => none
  | _, [] => none
  | n + 1, c :: text =>
      if c = 'n' then do
        let rest ← readPrefix ['u', 'l', 'l'] text
        some (.null, rest)
      else if c = 't' then do
        let rest ← readPrefix ['r', 'u', 'e'] text
        some (.bool true, rest)
      else if c = 'f' then do
        let rest ← readPrefix ['a', 'l', 's', 'e'] text
        some (.bool false, rest)
      else if c = '"' then do
        let (chars, rest) ← readChars text.length text
        some (.string chars, rest)
      else if c = '[' then
        if text.head? = some ']' then some (.array [], text.tail)
        else do
          let (item, rest) ← readValue n text
          let (items, rest) ← readItems n rest
          some (.array (item :: items), rest)
      else if c = '\x7b' then
        if text.head? = some '\x7d' then some (.object [], text.tail)
        else do
          let (field, rest) ← readField n text
          let (fields, rest) ← readFields n rest
          some (.object (field :: fields), rest)
      else do
        let (number, rest) ← readInt (c :: text)
        some (.number number, rest)

/-- The items after the first one. -/
def readItems : Nat → List Char → Option (List Value × List Char)
  | 0, _ => none
  | _, [] => none
  | n + 1, c :: text =>
      if c = ']' then some ([], text)
      else if c = ',' then do
        let (item, rest) ← readValue n text
        let (items, rest) ← readItems n rest
        some (item :: items, rest)
      else none

/-- A name and its value. -/
def readField : Nat → List Char → Option ((String × Value) × List Char)
  | 0, _ => none
  | n + 1, text => do
      let rest ← readPrefix ['"'] text
      let (chars, rest) ← readChars rest.length rest
      let rest ← readPrefix [':'] rest
      let (value, rest) ← readValue n rest
      some ((String.ofList chars, value), rest)

/-- The fields after the first one. -/
def readFields : Nat → List Char → Option (List (String × Value) × List Char)
  | 0, _ => none
  | _, [] => none
  | n + 1, c :: text =>
      if c = '\x7d' then some ([], text)
      else if c = ',' then do
        let (field, rest) ← readField n text
        let (fields, rest) ← readFields n rest
        some (field :: fields, rest)
      else none

end

/-- A whole text. -/
def parse (text : List Char) : Option Value := do
  let (value, rest) ← readValue text.length text
  if rest.isEmpty then some value else none

/-! ## What is written is read back -/

/-- The text does not go on with a digit. -/
def Ends (rest : List Char) : Prop := ∀ c ∈ rest.head?, c.isDigit = false

lemma readNat_toDigits (n : Nat) {rest : List Char} (h : Ends rest) :
    readNat (Nat.toDigits 10 n ++ rest) = some (n, rest) := by
  have hdigits : ∀ c ∈ Nat.toDigits 10 n, c.isDigit = true := fun c hc =>
    Nat.isDigit_of_mem_toDigits (by omega) (by omega) hc
  have htake : rest.takeWhile Char.isDigit = [] := by
    cases rest with
    | nil => rfl
    | cons c rest => exact List.takeWhile_cons_of_neg (by simp [h c (by simp)])
  have hdrop : rest.dropWhile Char.isDigit = rest := by
    cases rest with
    | nil => rfl
    | cons c rest => exact List.dropWhile_cons_of_neg (by simp [h c (by simp)])
  rw [readNat, List.takeWhile_append_of_pos hdigits, List.dropWhile_append_of_pos hdigits, htake,
    hdrop, List.append_nil, if_neg (by simp [Nat.toDigits_ne_nil]),
    Nat.ofDigitChars_toDigits (by omega) (by omega)]

lemma head_toDigits (n : Nat) (rest : List Char) :
    ∃ d ∈ (Nat.toDigits 10 n ++ rest).head?, d.isDigit = true := by
  obtain ⟨d, digits, hd⟩ := List.exists_cons_of_ne_nil (Nat.toDigits_ne_nil (n := n) (b := 10))
  exact ⟨d, by simp [hd], Nat.isDigit_of_mem_toDigits (by omega) (by omega) (n := n) (b := 10)
    (by simp [hd])⟩

lemma readInt_showInt (n : Int) {rest : List Char} (h : Ends rest) :
    readInt (showInt n ++ rest) = some (n, rest) := by
  cases n with
  | ofNat n =>
      obtain ⟨d, hd, hdigit⟩ := head_toDigits n rest
      have hne : (showInt (.ofNat n) ++ rest).head? ≠ some '-' := by
        intro hm
        obtain rfl := Option.some.inj (hd.symm.trans hm)
        exact absurd hdigit (by decide)
      rw [readInt, if_neg hne, showInt, readNat_toDigits n h]
      rfl
  | negSucc n =>
      rw [showInt, List.cons_append, readInt, if_pos List.head?_cons, List.tail_cons,
        readNat_toDigits (n + 1) h]
      rfl

lemma fromHex_escape {c : Char} (h : c.toNat < 32) :
    fromHex ['0', '0', (c.toNat / 16).digitChar, (c.toNat % 16).digitChar] = some c := by
  have hzero : AddressText.digitValue 16 '0' = some 0 := by decide
  have hhigh := AddressText.digitValue_digitChar (Nat.le_refl 16)
    (show c.toNat / 16 < 16 by omega)
  have hlow := AddressText.digitValue_digitChar (Nat.le_refl 16) (show c.toNat % 16 < 16 by omega)
  have hcode : c.toNat / 16 * 16 + c.toNat % 16 = c.toNat := by omega
  have hvalid : (c.toNat).isValidChar := c.valid
  simp [fromHex, hzero, hhigh, hlow, hcode, hvalid, Char.ofNat_toNat]

lemma toNat_injective {c d : Char} (h : c.toNat = d.toNat) : c = d := by
  rw [← Char.ofNat_toNat c, h, Char.ofNat_toNat]

lemma readChar_escape (c : Char) (text : List Char) :
    readChar (escape c ++ text) = some (c, text) := by
  unfold escape
  split_ifs with hquote hslash hn hr ht hb hf hcontrol
  · rw [hquote]; rfl
  · rw [hslash]; rfl
  · rw [hn]; rfl
  · rw [hr]; rfl
  · rw [ht]; rfl
  · obtain rfl := toNat_injective (d := Char.ofNat 8) hb
    rfl
  · obtain rfl := toNat_injective (d := Char.ofNat 12) hf
    rfl
  · show Option.map _ (fromHex _) = _
    rw [fromHex_escape hcontrol]
    rfl
  · simp [readChar, hslash, hcontrol]

lemma head_escape (c : Char) (text : List Char) : (escape c ++ text).head? ≠ some '"' := by
  unfold escape
  split_ifs with hquote
  all_goals first | exact fun h => absurd (Option.some.inj h) (by decide) | skip
  exact fun h => hquote (Option.some.inj h)

lemma readChars_quoted (text : List Char) {rest : List Char} {n : Nat} (hn : text.length < n) :
    readChars n (text.flatMap escape ++ '"' :: rest) = some (text, rest) := by
  induction text generalizing n with
  | nil =>
      obtain ⟨n, rfl⟩ : ∃ m, n = m + 1 := ⟨n - 1, by grind⟩
      rfl
  | cons c text ih =>
      obtain ⟨n, rfl⟩ : ∃ m, n = m + 1 := ⟨n - 1, by grind⟩
      rw [List.flatMap_cons, List.append_assoc, readChars, if_neg (head_escape c _)]
      have hrest := ih (n := n) (by simpa using hn)
      simp [readChar_escape, hrest]

lemma length_flatMap_escape (text : List Char) : text.length ≤ (text.flatMap escape).length := by
  induction text with
  | nil => exact Nat.le_refl 0
  | cons c text ih =>
      have hc : 1 ≤ (escape c).length := by
        unfold escape
        split_ifs <;> simp
      rw [List.flatMap_cons, List.length_append, List.length_cons]
      omega

lemma readChars_quote (text rest : List Char) :
    readChars (text.flatMap escape ++ '"' :: rest).length (text.flatMap escape ++ '"' :: rest) =
      some (text, rest) := by
  apply readChars_quoted
  have := length_flatMap_escape text
  simp only [List.length_append, List.length_cons]
  omega

lemma readPrefix_append (expected rest : List Char) :
    readPrefix expected (expected ++ rest) = some rest := by
  rw [readPrefix, if_pos (List.isPrefixOf_iff_prefix.mpr (List.prefix_append _ _)),
    List.drop_left]

/-- A number starts with a digit or a minus sign. -/
lemma head_showInt (n : Int) :
    ∃ c text, showInt n = c :: text ∧ (c.isDigit = true ∨ c = '-') := by
  cases n with
  | ofNat n =>
      obtain ⟨d, digits, hd⟩ :=
        List.exists_cons_of_ne_nil (Nat.toDigits_ne_nil (n := n) (b := 10))
      exact ⟨d, digits, hd, .inl (Nat.isDigit_of_mem_toDigits (b := 10) (n := n) (by omega)
        (by omega) (by simp [hd]))⟩
  | negSucc n => exact ⟨'-', _, rfl, .inr rfl⟩

/-- No value starts like the end of what it stands in. -/
lemma head_render (v : Value) : ∃ c text, render v = c :: text ∧ c ≠ ']' ∧ c ≠ '\x7d' := by
  cases v with
  | null => exact ⟨_, _, rfl, by decide, by decide⟩
  | bool b => cases b <;> exact ⟨_, _, rfl, by decide, by decide⟩
  | number n =>
      obtain ⟨c, text, htext, hc⟩ := head_showInt n
      refine ⟨c, text, htext, ?_, ?_⟩ <;> rintro rfl <;> exact absurd hc (by decide)
  | string text => exact ⟨_, _, rfl, by decide, by decide⟩
  | array items => cases items <;> exact ⟨_, _, rfl, by decide, by decide⟩
  | object fields =>
      rcases fields with - | ⟨⟨name, value⟩, fields⟩ <;> exact ⟨_, _, rfl, by decide, by decide⟩

lemma ends_renderItems (items : List Value) (rest : List Char) :
    Ends (renderItems items ++ rest) := by
  cases items with
  | nil => simp [Ends, renderItems]
  | cons item items => simp [Ends, renderItems]

lemma ends_renderFields (fields : List (String × Value)) (rest : List Char) :
    Ends (renderFields fields ++ rest) := by
  cases fields with
  | nil => simp [Ends, renderFields]
  | cons field fields => simp [Ends, renderFields]

lemma readField_render {name : String} {value : Value} {n : Nat} {rest : List Char}
    (hvalue : ∀ n, (render value).length ≤ n →
      readValue n (render value ++ rest) = some (value, rest))
    (hn : (quote name.toList ++ ':' :: render value).length ≤ n) :
    readField n (quote name.toList ++ ':' :: render value ++ rest) = some ((name, value), rest) := by
  obtain ⟨n, rfl⟩ : ∃ m, n = m + 1 := ⟨n - 1, by grind⟩
  have hquote : quote name.toList ++ ':' :: render value ++ rest =
      ['"'] ++ (name.toList.flatMap escape ++ '"' :: ([':'] ++ (render value ++ rest))) := by
    simp [quote]
  have hlen : (render value).length ≤ n := by
    simp only [quote, List.length_append, List.length_cons] at hn
    omega
  rw [readField, hquote, readPrefix_append]
  simp only [Option.bind_eq_bind, Option.bind_some, readChars_quote, readPrefix_append,
    hvalue n hlen, String.ofList_toList]

mutual

lemma readValue_render : ∀ (v : Value) (n : Nat) (rest : List Char), (render v).length ≤ n →
    Ends rest → readValue n (render v ++ rest) = some (v, rest)
  | .null, n + 1, rest, _, _ => by simp [render, readValue, readPrefix]
  | .bool true, n + 1, rest, _, _ => by simp [render, readValue, readPrefix]
  | .bool false, n + 1, rest, _, _ => by simp [render, readValue, readPrefix]
  | .number k, n + 1, rest, _, hrest => by
      obtain ⟨c, text, htext, hc⟩ := head_showInt k
      have hread := readInt_showInt k hrest
      have hne : c ≠ 'n' ∧ c ≠ 't' ∧ c ≠ 'f' ∧ c ≠ '"' ∧ c ≠ '[' ∧ c ≠ '\x7b' := by
        refine ⟨?_, ?_, ?_, ?_, ?_, ?_⟩ <;> rintro rfl <;> exact absurd hc (by decide)
      rw [htext] at hread
      rw [render, htext, List.cons_append, readValue]
      simp only [hne, if_false, Option.bind_eq_bind, ← List.cons_append, hread, Option.bind_some]
  | .string text, n + 1, rest, _, _ => by
      have hchars := readChars_quote text rest
      rw [render, quote, List.append_assoc, List.singleton_append, List.cons_append, readValue]
      simp only [Char.reduceEq, if_false, if_true, Option.bind_eq_bind, hchars, Option.bind_some]
  | .array [], n + 1, rest, _, _ => by simp [render, readValue]
  | .array (item :: items), n + 1, rest, hn, hrest => by
      obtain ⟨c, text, htext, hc, -⟩ := head_render item
      rw [render, List.cons_append, List.length_cons, List.length_append] at hn
      have hitem := readValue_render item n (renderItems items ++ rest) (by omega)
        (ends_renderItems items rest)
      have hitems := readItems_render items n rest (by omega)
      have hhead : (render item ++ (renderItems items ++ rest)).head? ≠ some ']' := by
        simpa [htext] using hc
      rw [render, List.cons_append, List.cons_append, List.append_assoc, readValue]
      simp only [Char.reduceEq, if_false, if_true, hhead, Option.bind_eq_bind, hitem, hitems,
        Option.bind_some]
  | .object [], n + 1, rest, _, _ => by simp [render, readValue]
  | .object ((name, value) :: fields), n + 1, rest, hn, hrest => by
      have hsplit : render (.object ((name, value) :: fields)) =
          '\x7b' :: ((quote name.toList ++ ':' :: render value) ++ renderFields fields) := by
        simp [render]
      rw [hsplit, List.length_cons, List.length_append] at hn
      have hfield := readField_render
        (fun n h => readValue_render value n _ h (ends_renderFields fields rest))
        (show (quote name.toList ++ ':' :: render value).length ≤ n by omega)
      have hfields := readFields_render fields n rest (by omega)
      have hhead : (quote name.toList ++ ':' :: render value ++
          (renderFields fields ++ rest)).head? ≠ some '\x7d' := by
        simp [quote]
      rw [hsplit, List.cons_append, List.append_assoc, readValue]
      simp only [Char.reduceEq, if_false, if_true, hhead, Option.bind_eq_bind, hfield, hfields,
        Option.bind_some]
  | v, 0, rest, hn, hrest => by
      obtain ⟨c, text, hv, -⟩ := head_render v
      simp [hv] at hn

lemma readItems_render : ∀ (items : List Value) (n : Nat) (rest : List Char),
    (renderItems items).length ≤ n → readItems n (renderItems items ++ rest) = some (items, rest)
  | [], n + 1, rest, _ => by simp [renderItems, readItems]
  | item :: items, n + 1, rest, hn => by
      rw [renderItems, List.cons_append, List.length_cons, List.length_append] at hn
      have hitem := readValue_render item n (renderItems items ++ rest) (by omega)
        (ends_renderItems items rest)
      have hitems := readItems_render items n rest (by omega)
      rw [renderItems, List.cons_append, List.cons_append, List.append_assoc, readItems]
      simp only [Char.reduceEq, if_false, if_true, Option.bind_eq_bind, hitem, hitems,
        Option.bind_some]
  | items, 0, rest, hn => by
      cases items <;> simp [renderItems] at hn

lemma readFields_render : ∀ (fields : List (String × Value)) (n : Nat) (rest : List Char),
    (renderFields fields).length ≤ n →
      readFields n (renderFields fields ++ rest) = some (fields, rest)
  | [], n + 1, rest, _ => by simp [renderFields, readFields]
  | (name, value) :: fields, n + 1, rest, hn => by
      have hsplit : renderFields ((name, value) :: fields) =
          ',' :: ((quote name.toList ++ ':' :: render value) ++ renderFields fields) := by
        simp [renderFields]
      rw [hsplit, List.length_cons, List.length_append] at hn
      have hfield := readField_render
        (fun n h => readValue_render value n _ h (ends_renderFields fields rest))
        (show (quote name.toList ++ ':' :: render value).length ≤ n by omega)
      have hfields := readFields_render fields n rest (by omega)
      rw [hsplit, List.cons_append, List.append_assoc, readFields]
      simp only [Char.reduceEq, if_false, if_true, Option.bind_eq_bind, hfield, hfields,
        Option.bind_some]
  | fields, 0, rest, hn => by
      rcases fields with - | ⟨⟨name, value⟩, fields⟩ <;> simp [renderFields] at hn

end

lemma parse_render (v : Value) : parse (render v) = some v := by
  have hread := readValue_render v (render v).length [] (Nat.le_refl _) (by simp [Ends])
  rw [List.append_nil] at hread
  simp only [parse, hread, Option.bind_eq_bind, Option.bind_some, List.isEmpty_nil, if_true]

/-! ## Bytes -/

/-- The UTF-8 bytes of the text of a value. -/
def write (v : Value) : List UInt8 := (String.ofList (render v)).toByteArray.data.toList

/-- The value of a text in UTF-8. -/
def read (bytes : List UInt8) : Option Value := do
  let text ← String.fromUTF8? ⟨bytes.toArray⟩
  parse text.toList

/-- What is written is read back in full. -/
theorem read_write (v : Value) : read (write v) = some v := by
  have hbytes : ByteArray.mk (write v).toArray = (String.ofList (render v)).toByteArray := by
    simp [write]
  have htext : String.fromUTF8? (String.ofList (render v)).toByteArray =
      some (String.ofList (render v)) :=
    dif_pos (String.ofList (render v)).isValidUTF8
  rw [read, hbytes, htext]
  simp only [Option.bind_eq_bind, Option.bind_some, String.toList_ofList, parse_render]

lemma length_utf8Encode_le (text : List Char) : text.utf8Encode.size ≤ 4 * text.length := by
  induction text with
  | nil => simp
  | cons c text ih =>
      have hc := c.utf8Size_le_four
      have hsplit : (c :: text).utf8Encode.size = c.utf8Size + text.utf8Encode.size := by
        rw [List.utf8Encode_cons, ByteArray.size_append]
        simp [List.utf8Encode_singleton]
      rw [hsplit, List.length_cons]
      omega

/-- A character takes at most four bytes. -/
lemma length_write_le (v : Value) : (write v).length ≤ 4 * (render v).length := by
  have hbytes := length_utf8Encode_le (render v)
  simpa [write] using hbytes

end Json
