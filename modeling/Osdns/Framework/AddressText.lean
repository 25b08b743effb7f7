import Mathlib.Data.List.TakeDrop
import Mathlib.Tactic.IntervalCases
import Mathlib.Tactic.NormNum

/-!
# The text form of internet addresses

Printing and parsing of IPv4 and IPv6 addresses as the Rust standard library does it
(`core::net::parser` and the `Display` instances), over the lists of octets and of 16-bit groups an
address is made of.  A reader takes the text that is left and answers with a value and the rest of
the text.

The results are the round trips `readIpv4_showIpv4` and `readIpv6_showIpv6`: what is printed is
read back in full.
-/

namespace AddressText

/-! ## Numbers -/

/-- `char::to_digit`. -/
def digitValue (radix : Nat) (c : Char) : Option Nat :=
  let value :=
    if '0' ≤ c ∧ c ≤ '9' then c.toNat - 48
    else if 'a' ≤ c ∧ c ≤ 'z' then c.toNat - 87
    else if 'A' ≤ c ∧ c ≤ 'Z' then c.toNat - 55
    else radix
  if value < radix then some value else none

/-- The loop of `Parser::read_number`: how many digits there are and what they are worth. -/
def readDigits (radix most : Nat) : List Char → Nat → Nat → Option (Nat × Nat × List Char)
  | [], count, value => some (count, value, [])
  | c :: text, count, value =>
      match digitValue radix c with
      | none => some (count, value, c :: text)
      | some digit =>
          if most < count + 1 then none
          else readDigits radix most text (count + 1) (value * radix + digit)

/-- `Parser::read_number`, for numbers up to `limit`. -/
def readNumber (radix most limit : Nat) (allowZeroPrefix : Bool) (text : List Char) :
    Option (Nat × List Char) :=
  match readDigits radix most text 0 0 with
  | none => none
  | some (count, value, rest) =>
      if limit < value then none
      else if count = 0 then none
      else if !allowZeroPrefix && text.head? == some '0' && decide (1 < count) then none
      else some (value, rest)

/-- `Parser::read_separator`. -/
def readSeparator {β : Type} (sep : Char) (index : Nat)
    (inner : List Char → Option (β × List Char)) (text : List Char) : Option (β × List Char) :=
  if index = 0 then inner text
  else
    match text with
    | [] => none
    | c :: text => if c = sep then inner text else none

/-! ## Addresses -/

/-- The loop of `Parser::read_ipv4_addr`. -/
def readOctets : Nat → Nat → List Char → Option (List Nat × List Char)
  | 0, _, text => some ([], text)
  | left + 1, index, text =>
      match readSeparator '.' index (readNumber 10 3 255 false) text with
      | none => none
      | some (octet, text) =>
          match readOctets left (index + 1) text with
          | none => none
          | some (octets, text) => some (octet :: octets, text)

/-- `Parser::read_ipv4_addr`. -/
def readIpv4 (text : List Char) : Option (List Nat × List Char) := readOctets 4 0 text

/-- Pairs of octets as 16-bit groups. -/
def groupsOfOctets : List Nat → List Nat
  | high :: low :: octets => (high * 256 + low) :: groupsOfOctets octets
  | _ => []

/-- `read_groups`, with `left` groups still to fill: the groups, whether they end in an embedded
IPv4 address, and the rest of the text. -/
def readGroups : Nat → Nat → List Char → List Nat × Bool × List Char
  | 0, _, text => ([], false, text)
  | left + 1, index, text =>
      match if 0 < left then readSeparator ':' index readIpv4 text else none with
      | some (octets, text) => (groupsOfOctets octets, true, text)
      | none =>
          match readSeparator ':' index (readNumber 16 4 65535 true) text with
          | none => ([], false, text)
          | some (group, text) =>
              let (groups, ipv4, text) := readGroups left (index + 1) text
              (group :: groups, ipv4, text)

/-- `Parser::read_ipv6_addr`. -/
def readIpv6 (text : List Char) : Option (List Nat × List Char) :=
  let (head, headIpv4, text) := readGroups 8 0 text
  if head.length = 8 then some (head, text)
  else if headIpv4 then none
  else
    match text with
    | ':' :: ':' :: text =>
        let (tail, _, text) := readGroups (8 - (head.length + 1)) 0 text
        some (head ++ List.replicate (8 - head.length - tail.length) 0 ++ tail, text)
    | _ => none

/-- Numbers with a separator between them (`fmt_subslice`). -/
def showNumbers (sep : Char) (radix : Nat) : List Nat → List Char
  | [] => []
  | first :: tail =>
      Nat.toDigits radix first ++ tail.flatMap fun number => sep :: Nat.toDigits radix number

/-- `Display for Ipv4Addr`. -/
def showIpv4 (octets : List Nat) : List Char := showNumbers '.' 10 octets

structure Span where
  start : Nat
  len : Nat

/-- The longest run of zero groups, the first of them if there are several. -/
def zeroes : List Nat → Nat → Span → Span → Span
  | [], _, longest, _ => longest
  | group :: groups, index, longest, current =>
      if group = 0 then
        let current : Span := ⟨if current.len = 0 then index else current.start, current.len + 1⟩
        zeroes groups (index + 1) (if longest.len < current.len then current else longest) current
      else zeroes groups (index + 1) longest ⟨0, 0⟩

/-- Groups with the longest run of zeroes cut out, if it is longer than one. -/
def showGroups (groups : List Nat) : List Char :=
  let span := zeroes groups 0 ⟨0, 0⟩ ⟨0, 0⟩
  if 1 < span.len then
    showNumbers ':' 16 (groups.take span.start) ++ [':', ':'] ++
      showNumbers ':' 16 (groups.drop (span.start + span.len))
  else showNumbers ':' 16 groups

/-- `Display for Ipv6Addr`: an IPv4-mapped address shows the IPv4 address. -/
def showIpv6 : List Nat → List Char
  | [0, 0, 0, 0, 0, 65535, high, low] =>
      [':', ':', 'f', 'f', 'f', 'f', ':'] ++
        showIpv4 [high / 256, high % 256, low / 256, low % 256]
  | groups => showGroups groups

/-! ## Reading numbers back -/

variable {radix : Nat}

/-- The text does not go on with a digit. -/
def Stops (radix : Nat) (text : List Char) : Prop := ∀ c ∈ text.head?, digitValue radix c = none

lemma digitValue_digitChar {d : Nat} (hr : radix ≤ 16) (hd : d < radix) :
    digitValue radix d.digitChar = some d := by
  have small : d < 16 := by omega
  interval_cases d <;> simp [digitValue, Nat.digitChar, hd]

/-- The last digit comes off the end. -/
lemma toDigits_induction {motive : Nat → Prop} (hb : 1 < radix)
    (small : ∀ n, n < radix → motive n)
    (large : ∀ n, radix ≤ n → motive (n / radix) → motive n) (n : Nat) : motive n := by
  induction n using Nat.strong_induction_on with
  | _ n ih =>
      by_cases hn : n < radix
      · exact small n hn
      · exact large n (by omega) (ih _ (Nat.div_lt_self (by omega) hb))

lemma digits_of_toDigits (hb : 1 < radix) (n : Nat) :
    ∀ c ∈ Nat.toDigits radix n, ∃ d < radix, c = d.digitChar := by
  induction n using toDigits_induction hb with
  | small n hn =>
      rw [Nat.toDigits_of_lt_base hn]
      intro c hc
      exact ⟨n, hn, List.mem_singleton.mp hc⟩
  | large n hn ih =>
      rw [Nat.toDigits_of_base_le hb hn]
      intro c hc
      rcases List.mem_append.mp hc with hc | hc
      · exact ih c hc
      · exact ⟨n % radix, Nat.mod_lt _ (by omega), List.mem_singleton.mp hc⟩

/-- Only zero is printed with a leading zero. -/
lemma head_toDigits (hb : 1 < radix) (hr : radix ≤ 16) (n : Nat) (hn : radix ≤ n) (text : List Char) :
    (Nat.toDigits radix n ++ text).head? ≠ some '0' := by
  induction n using toDigits_induction hb generalizing text with
  | small n hs => omega
  | large n _ ih =>
      rw [Nat.toDigits_of_base_le hb hn, List.append_assoc]
      by_cases hq : radix ≤ n / radix
      · exact ih hq _
      · have positive : 0 < n / radix := Nat.div_pos hn (by omega)
        rw [Nat.toDigits_of_lt_base (by omega)]
        simp only [List.cons_append, List.head?_cons, ne_eq, Option.some.injEq,
          Nat.digitChar_eq_zero]
        omega

/-- Reading over digits. -/
lemma readDigits_append {most : Nat} (ds : List Nat) (hr : radix ≤ 16) (hd : ∀ d ∈ ds, d < radix)
    (text : List Char) (count value : Nat) (fits : count + ds.length ≤ most) :
    readDigits radix most (ds.map Nat.digitChar ++ text) count value =
      readDigits radix most text (count + ds.length)
        (ds.foldl (fun value d => value * radix + d) value) := by
  induction ds generalizing count value with
  | nil => rfl
  | cons d ds ih =>
      simp only [List.map_cons, List.cons_append, readDigits, List.length_cons] at fits ⊢
      rw [digitValue_digitChar hr (hd d List.mem_cons_self)]
      simp only [if_neg (show ¬ most < count + 1 by omega)]
      rw [ih (fun d' h' => hd d' (List.mem_cons_of_mem _ h')) _ _ (by omega)]
      rw [show count + 1 + ds.length = count + (ds.length + 1) by omega]
      rfl

/-- A number is worth what its digits say. -/
lemma toDigits_eq_map (hb : 1 < radix) (n : Nat) :
    ∃ ds : List Nat, Nat.toDigits radix n = ds.map Nat.digitChar ∧ (∀ d ∈ ds, d < radix) ∧
      ds.foldl (fun value d => value * radix + d) 0 = n := by
  induction n using toDigits_induction hb with
  | small n hn =>
      refine ⟨[n], Nat.toDigits_of_lt_base hn, ?_, by simp⟩
      simpa using hn
  | large n hn ih =>
      obtain ⟨ds, digits, small, worth⟩ := ih
      refine ⟨ds ++ [n % radix], ?_, ?_, ?_⟩
      · rw [Nat.toDigits_of_base_le hb hn, digits]
        simp
      · intro d hd
        rcases List.mem_append.mp hd with hd | hd
        · exact small d hd
        · obtain rfl := List.mem_singleton.mp hd
          exact Nat.mod_lt _ (by omega)
      · rw [List.foldl_append, worth]
        exact Nat.div_add_mod' n radix

lemma readDigits_toDigits {most n : Nat} {text : List Char} (hb : 1 < radix) (hr : radix ≤ 16)
    (fits : (Nat.toDigits radix n).length ≤ most) (stops : Stops radix text) :
    readDigits radix most (Nat.toDigits radix n ++ text) 0 0 =
      some ((Nat.toDigits radix n).length, n, text) := by
  obtain ⟨ds, digits, small, worth⟩ := toDigits_eq_map hb n
  rw [digits, List.length_map] at fits ⊢
  rw [readDigits_append ds hr small text 0 0 (by omega), worth, Nat.zero_add]
  cases text with
  | nil => rfl
  | cons c text => simp only [readDigits, stops c rfl]

/-- What is printed is read back. -/
lemma readNumber_toDigits {most limit n : Nat} (zero : Bool) {text : List Char} (hb : 1 < radix)
    (hr : radix ≤ 16) (hn : n ≤ limit) (fits : (Nat.toDigits radix n).length ≤ most)
    (stops : Stops radix text) :
    readNumber radix most limit zero (Nat.toDigits radix n ++ text) = some (n, text) := by
  have positive : (Nat.toDigits radix n).length ≠ 0 := by simp
  have plain : ¬ (!zero && (Nat.toDigits radix n ++ text).head? == some '0' &&
      decide (1 < (Nat.toDigits radix n).length)) = true := by
    by_cases small : n < radix
    · simp [Nat.toDigits_of_lt_base small]
    · rw [beq_eq_false_iff_ne.mpr (head_toDigits hb hr n (by omega) text)]
      simp
  simp only [readNumber, readDigits_toDigits hb hr fits stops, if_neg (show ¬ limit < n by omega),
    if_neg positive, if_neg plain]

/-! ## IPv4 -/

lemma length_octet {n : Nat} (hn : n ≤ 255) : (Nat.toDigits 10 n).length ≤ 3 :=
  (Nat.length_toDigits_le_iff (by decide) (by decide)).mpr (by omega)

lemma length_group {n : Nat} (hn : n ≤ 65535) : (Nat.toDigits 16 n).length ≤ 4 :=
  (Nat.length_toDigits_le_iff (by decide) (by decide)).mpr (by omega)

/-- A separator or the end follows the numbers of a list. -/
lemma stops_tail (sep : Char) (hs : digitValue radix sep = none) (tail : List Nat)
    {text : List Char} (stops : Stops radix text) :
    Stops radix ((tail.flatMap fun number => sep :: Nat.toDigits radix number) ++ text) := by
  cases tail with
  | nil => exact stops
  | cons number tail =>
      intro c hc
      simp only [List.flatMap_cons, List.cons_append, List.head?_cons, Option.mem_some_iff] at hc
      exact hc ▸ hs

lemma readOctets_tail (tail : List Nat) (index : Nat) (small : ∀ octet ∈ tail, octet ≤ 255)
    {text : List Char} (stops : Stops 10 text) :
    readOctets tail.length (index + 1)
      ((tail.flatMap fun octet => '.' :: Nat.toDigits 10 octet) ++ text) = some (tail, text) := by
  induction tail generalizing index with
  | nil => rfl
  | cons octet tail ih =>
      have octetSmall := small octet List.mem_cons_self
      have first := readNumber_toDigits false (by decide) (by decide) octetSmall
        (length_octet octetSmall) (stops_tail '.' (by decide) tail stops)
      simp only [List.length_cons, List.flatMap_cons, List.cons_append, List.append_assoc,
        readOctets, readSeparator, Nat.add_one_ne_zero, if_false, if_true, first]
      rw [ih (index + 1) fun octet ho => small octet (List.mem_cons_of_mem _ ho)]

/-- A printed IPv4 address is read back. -/
theorem readIpv4_showIpv4 {a b c d : Nat} (ha : a ≤ 255) (hb : b ≤ 255) (hc : c ≤ 255)
    (hd : d ≤ 255) {text : List Char} (stops : Stops 10 text) :
    readIpv4 (showIpv4 [a, b, c, d] ++ text) = some ([a, b, c, d], text) := by
  have small : ∀ octet ∈ [b, c, d], octet ≤ 255 := by simp [hb, hc, hd]
  have first := readNumber_toDigits false (by decide) (by decide) ha (length_octet ha)
    (stops_tail '.' (by decide) [b, c, d] stops)
  have rest : readOctets 3 1 _ = _ := readOctets_tail [b, c, d] 0 small stops
  unfold readIpv4 readOctets showIpv4 showNumbers
  simp only [readSeparator, if_true, List.append_assoc, first, rest]

/-! ## IPv6 -/

/-- A text that does not go on like an IPv4 address after a number. -/
def Undotted (text : List Char) : Prop := Stops 10 text ∧ text.head? ≠ some '.'

lemma readDigits_undotted {most count value count' value' : Nat} (ds : List Char)
    (plain : '.' ∉ ds) {text rest : List Char} (undotted : Undotted text)
    (read : readDigits 10 most (ds ++ text) count value = some (count', value', rest)) :
    rest.head? ≠ some '.' := by
  induction ds generalizing count value with
  | nil =>
      cases text with
      | nil =>
          cases read
          simp
      | cons c text =>
          simp only [List.nil_append, readDigits, undotted.1 c rfl] at read
          cases read
          exact undotted.2
  | cons c ds ih =>
      simp only [List.cons_append, readDigits] at read
      split at read
      · cases read
        intro h
        obtain rfl : c = '.' := by simpa using h
        exact plain List.mem_cons_self
      · split at read
        · cases read
        · exact ih (fun h => plain (List.mem_cons_of_mem _ h)) read

/-- No IPv4 address starts with a plain run of characters that no dot ends. -/
lemma readIpv4_undotted (ds : List Char) (plain : '.' ∉ ds) {text : List Char}
    (undotted : Undotted text) : readIpv4 (ds ++ text) = none := by
  unfold readIpv4 readOctets
  simp only [readSeparator, if_true, readNumber]
  cases read : readDigits 10 3 (ds ++ text) 0 0 with
  | none => rfl
  | some answer =>
      obtain ⟨count, value, rest⟩ := answer
      have head := readDigits_undotted ds plain undotted read
      dsimp only
      split_ifs with _ _ _
      · rfl
      · rfl
      · rfl
      · cases rest with
        | nil => rfl
        | cons c rest =>
            have other : c ≠ '.' := by simpa using head
            simp [readOctets, readSeparator, other]

lemma not_dot_of_toDigits (n : Nat) : '.' ∉ Nat.toDigits 16 n := by
  intro h
  obtain ⟨d, hd, hc⟩ := digits_of_toDigits (by decide) n _ h
  interval_cases d <;> simp [Nat.digitChar] at hc

/-- Where a list of groups ends: at the end of the text or at a double colon. -/
def Ends (text : List Char) : Prop := text = [] ∨ ∃ rest, text = ':' :: ':' :: rest

lemma Ends.undotted {text : List Char} (ends : Ends text) (tail : List Nat) :
    Undotted ((tail.flatMap fun group => ':' :: Nat.toDigits 16 group) ++ text) ∧
      Stops 16 ((tail.flatMap fun group => ':' :: Nat.toDigits 16 group) ++ text) := by
  cases tail with
  | nil =>
      rcases ends with rfl | ⟨rest, rfl⟩
      · simp [Undotted, Stops]
      · simp [Undotted, Stops, digitValue]
  | cons group tail => simp [Undotted, Stops, digitValue]

lemma readNumber_colon (text : List Char) : readNumber 16 4 65535 true (':' :: text) = none := by
  simp [readNumber, readDigits, digitValue]

lemma readIpv4_colon (text : List Char) : readIpv4 (':' :: text) = none :=
  readIpv4_undotted [] (by simp) ⟨by simp [Stops, digitValue], by simp⟩

/-- Nothing is read where the groups end. -/
lemma readGroups_ends (left index : Nat) {text : List Char} (ends : Ends text) :
    readGroups left index text = ([], false, text) := by
  have ipv4 : readSeparator ':' index readIpv4 text = none := by
    rcases ends with rfl | ⟨rest, rfl⟩ <;> simp [readSeparator, readIpv4_colon]
    exact fun _ => by decide
  have number : readSeparator ':' index (readNumber 16 4 65535 true) text = none := by
    rcases ends with rfl | ⟨rest, rfl⟩ <;> simp [readSeparator, readNumber_colon]
    exact fun _ => by decide
  cases left with
  | zero => rfl
  | succ left => simp only [readGroups, ipv4, ite_self, number]

/-- One group, and then the others. -/
lemma readGroups_cons (left index : Nat) {group : Nat} {text : List Char} (sep : List Char)
    (hsep : ∀ {β : Type} (inner : List Char → Option (β × List Char)) (t : List Char),
      readSeparator ':' index inner (sep ++ t) = inner t)
    (small : group ≤ 65535) (undotted : Undotted text) (stops : Stops 16 text) :
    readGroups (left + 1) index (sep ++ (Nat.toDigits 16 group ++ text)) =
      (group :: (readGroups left (index + 1) text).1, (readGroups left (index + 1) text).2) := by
  have read := readNumber_toDigits true (by decide) (by decide) small
    (length_group small) stops
  rw [readGroups]
  simp only [hsep, readIpv4_undotted _ (not_dot_of_toDigits group) undotted, ite_self, read]

lemma readGroups_tail (left index : Nat) (tail : List Nat) (fits : tail.length ≤ left)
    (small : ∀ group ∈ tail, group ≤ 65535) {text : List Char} (ends : Ends text) :
    readGroups left (index + 1)
      ((tail.flatMap fun group => ':' :: Nat.toDigits 16 group) ++ text) = (tail, false, text) := by
  induction tail generalizing left index with
  | nil => exact readGroups_ends left (index + 1) ends
  | cons group tail ih =>
      cases left with
      | zero => simp at fits
      | succ left =>
          obtain ⟨undotted, stops⟩ := ends.undotted tail
          have rest := ih left (index + 1) (by simpa using fits)
            fun g hg => small g (List.mem_cons_of_mem _ hg)
          have first := readGroups_cons left (index + 1) [':']
            (fun inner t => by simp [readSeparator]) (small group List.mem_cons_self) undotted stops
          rw [rest] at first
          simpa only [List.flatMap_cons, List.cons_append, List.append_assoc,
            List.nil_append] using first

lemma readGroups_showNumbers (left : Nat) (groups : List Nat) (fits : groups.length ≤ left)
    (small : ∀ group ∈ groups, group ≤ 65535) {text : List Char} (ends : Ends text) :
    readGroups left 0 (showNumbers ':' 16 groups ++ text) = (groups, false, text) := by
  cases groups with
  | nil => exact readGroups_ends left 0 ends
  | cons group tail =>
      cases left with
      | zero => simp at fits
      | succ left =>
          obtain ⟨undotted, stops⟩ := ends.undotted tail
          have rest := readGroups_tail left 0 tail (by simpa using fits)
            (fun g hg => small g (List.mem_cons_of_mem _ hg)) ends
          have first := readGroups_cons left 0 []
            (fun inner t => by simp [readSeparator]) (small group List.mem_cons_self) undotted stops
          rw [rest] at first
          simpa only [showNumbers, List.append_assoc, List.nil_append] using first

/-- A run of zero groups. -/
def Run (groups : List Nat) (span : Span) : Prop :=
  ∃ before after, groups = before ++ List.replicate span.len 0 ++ after ∧
    before.length = span.start

/-- The run that ends where the search has come to. -/
def Current (done : List Nat) (span : Span) : Prop :=
  span.len ≠ 0 → ∃ before, done = before ++ List.replicate span.len 0 ∧ before.length = span.start

lemma run_zeroes (groups done : List Nat) {longest current : Span}
    (hl : Run (done ++ groups) longest) (hc : Current done current) :
    Run (done ++ groups) (zeroes groups done.length longest current) := by
  induction groups generalizing done longest current with
  | nil => exact hl
  | cons group groups ih =>
      have split : done ++ group :: groups = (done ++ [group]) ++ groups := by simp
      have length : done.length + 1 = (done ++ [group]).length := by simp
      rw [split] at hl ⊢
      rw [zeroes]
      by_cases zero : group = 0
      · subst zero
        have extended : ∃ before, done ++ [0] = before ++ List.replicate (current.len + 1) 0 ∧
            before.length = if current.len = 0 then done.length else current.start := by
          by_cases hn : current.len = 0
          · exact ⟨done, by simp [hn], by simp [hn]⟩
          · obtain ⟨before, hd, hb⟩ := hc hn
            exact ⟨before, by rw [hd, List.replicate_succ']; simp, by simp [hn, hb]⟩
        rw [if_pos rfl, length]
        refine ih _ ?_ fun _ => extended
        obtain ⟨before, hd, hb⟩ := extended
        by_cases longer : longest.len < current.len + 1
        · rw [if_pos longer]
          exact ⟨before, groups, by rw [hd], hb⟩
        · rw [if_neg longer]
          exact hl
      · rw [if_neg zero, length]
        exact ih _ hl fun h => absurd rfl h

lemma readIpv6_showGroups {groups : List Nat} (hlen : groups.length = 8)
    (small : ∀ group ∈ groups, group ≤ 65535) :
    readIpv6 (showGroups groups) = some (groups, []) := by
  have run : Run ([] ++ groups) (zeroes groups ([] : List Nat).length ⟨0, 0⟩ ⟨0, 0⟩) :=
    run_zeroes groups [] ⟨[], groups, by simp, rfl⟩ fun h => absurd rfl h
  obtain ⟨before, after, split, start⟩ := run
  simp only [List.nil_append, List.length_nil] at split start
  unfold showGroups
  dsimp only
  generalize zeroes groups 0 ⟨0, 0⟩ ⟨0, 0⟩ = span at split start ⊢
  split_ifs with long
  · have lengths : before.length + span.len + after.length = 8 := by
      rw [← hlen, split]
      simp [Nat.add_assoc]
    have front : groups.take span.start = before := by
      rw [split, ← start, List.append_assoc]
      exact List.take_left
    have back : groups.drop (span.start + span.len) = after := by
      rw [split, ← start]
      exact List.drop_left' (by simp)
    have head := readGroups_showNumbers 8 before (by omega)
      (fun g hg => small g (by rw [split]; simp [hg])) (.inr ⟨showNumbers ':' 16 after, rfl⟩)
    have tail := readGroups_showNumbers (8 - (before.length + 1)) after (by omega)
      (fun g hg => small g (by rw [split]; simp [hg])) (.inl rfl)
    rw [List.append_nil] at tail
    rw [front, back, List.append_assoc]
    simp only [readIpv6, List.cons_append, List.nil_append, head, tail]
    rw [if_neg (by omega)]
    simp only [Bool.false_eq_true, if_false]
    rw [split, show 8 - before.length - after.length = span.len by omega]
  · have read := readGroups_showNumbers 8 groups (by omega) small (.inl rfl)
    rw [List.append_nil] at read
    simp only [readIpv6, read, hlen, if_true]

/-- An embedded IPv4 address after a group. -/
lemma readGroups_embedded {high low : Nat} (hh : high ≤ 65535) (hl : low ≤ 65535) :
    readGroups 7 0 (Nat.toDigits 16 65535 ++
        ':' :: showIpv4 [high / 256, high % 256, low / 256, low % 256]) =
      ([65535, high, low], true, []) := by
  generalize he : showIpv4 [high / 256, high % 256, low / 256, low % 256] = dotted
  have embedded : readIpv4 (dotted ++ []) =
      some ([high / 256, high % 256, low / 256, low % 256], []) :=
    he ▸ readIpv4_showIpv4 (by omega) (by omega) (by omega) (by omega) (by simp [Stops])
  have undotted : Undotted (':' :: dotted) := by simp [Undotted, Stops, digitValue]
  have first := readGroups_cons 6 0 [] (fun inner t => by simp [readSeparator])
    (show 65535 ≤ 65535 by decide) undotted (by simp [Stops, digitValue])
  rw [List.nil_append] at first
  rw [List.append_nil] at embedded
  rw [first, readGroups]
  simp only [Nat.reduceLT, if_true, readSeparator, Nat.add_one_ne_zero, if_false, embedded,
    groupsOfOctets]
  rw [show high / 256 * 256 + high % 256 = high by omega,
    show low / 256 * 256 + low % 256 = low by omega]

/-- A printed IPv6 address is read back. -/
theorem readIpv6_showIpv6 {groups : List Nat} (hlen : groups.length = 8)
    (small : ∀ group ∈ groups, group ≤ 65535) :
    readIpv6 (showIpv6 groups) = some (groups, []) := by
  unfold showIpv6
  split
  · next high low =>
      have tail := readGroups_embedded (small high (by simp)) (small low (by simp))
      have digits : Nat.toDigits 16 65535 = ['f', 'f', 'f', 'f'] := by decide
      rw [digits] at tail
      simp only [List.cons_append, List.nil_append] at tail ⊢
      simp [readIpv6, readGroups_ends 8 0 (.inr ⟨_, rfl⟩), tail]
  · exact readIpv6_showGroups hlen small

lemma readIpv4_showNumbers (groups : List Nat) {text : List Char} (ends : Ends text) :
    readIpv4 (showNumbers ':' 16 groups ++ text) = none := by
  cases groups with
  | nil =>
      rcases ends with rfl | ⟨rest, rfl⟩
      · rfl
      · exact readIpv4_colon _
  | cons group tail =>
      rw [showNumbers, List.append_assoc]
      exact readIpv4_undotted _ (not_dot_of_toDigits group) (ends.undotted tail).1

/-- An IPv6 address is not mistaken for an IPv4 address. -/
theorem readIpv4_showIpv6 (groups : List Nat) : readIpv4 (showIpv6 groups) = none := by
  unfold showIpv6
  split
  · exact readIpv4_colon _
  · unfold showGroups
    dsimp only
    split_ifs with _
    · rw [List.append_assoc]
      exact readIpv4_showNumbers _ (.inr ⟨_, rfl⟩)
    · simpa using readIpv4_showNumbers groups (.inl rfl)

/-! ## The characters of an address -/

/-- The characters that occur in addresses. -/
def IsAddressChar (c : Char) : Prop := c = '.' ∨ c = ':' ∨ ∃ d < 16, c = Nat.digitChar d

lemma isAddressChar_toDigits (hb : 1 < radix) (hr : radix ≤ 16) (n : Nat) :
    ∀ c ∈ Nat.toDigits radix n, IsAddressChar c := by
  intro c hc
  obtain ⟨d, hd, rfl⟩ := digits_of_toDigits hb n c hc
  exact .inr (.inr ⟨d, by omega, rfl⟩)

lemma isAddressChar_showNumbers {sep : Char} (hs : IsAddressChar sep) (hb : 1 < radix)
    (hr : radix ≤ 16) (numbers : List Nat) :
    ∀ c ∈ showNumbers sep radix numbers, IsAddressChar c := by
  cases numbers with
  | nil => simp [showNumbers]
  | cons first tail =>
      intro c hc
      rcases List.mem_append.mp hc with hc | hc
      · exact isAddressChar_toDigits hb hr first c hc
      · obtain ⟨number, _, hc⟩ := List.mem_flatMap.mp hc
        rcases List.mem_cons.mp hc with rfl | hc
        · exact hs
        · exact isAddressChar_toDigits hb hr number c hc

lemma isAddressChar_showIpv4 (octets : List Nat) : ∀ c ∈ showIpv4 octets, IsAddressChar c :=
  isAddressChar_showNumbers (.inl rfl) (by decide) (by decide) octets

lemma isAddressChar_showIpv6 (groups : List Nat) : ∀ c ∈ showIpv6 groups, IsAddressChar c := by
  have groupChar : ∀ groups : List Nat, ∀ c ∈ showNumbers ':' 16 groups, IsAddressChar c :=
    isAddressChar_showNumbers (.inr (.inl rfl)) (by decide) (by decide)
  unfold showIpv6
  split
  · intro c hc
    rcases List.mem_append.mp hc with hc | hc
    · simp only [List.mem_cons, List.not_mem_nil, or_false] at hc
      rcases hc with rfl | rfl | rfl | rfl | rfl | rfl | rfl
      all_goals first | exact .inr (.inl rfl) | exact .inr (.inr ⟨15, by decide, rfl⟩)
    · exact isAddressChar_showIpv4 _ c hc
  · unfold showGroups
    dsimp only
    split_ifs with _
    · intro c hc
      rcases List.mem_append.mp hc with hc | hc
      · rcases List.mem_append.mp hc with hc | hc
        · exact groupChar _ c hc
        · simp only [List.mem_cons, List.not_mem_nil, or_false, or_self] at hc
          exact .inr (.inl hc)
      · exact groupChar _ c hc
    · exact groupChar groups

end AddressText
