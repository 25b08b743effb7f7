import Osdns.Framework.Json

/-!
# Typed values in JSON

A `Format` writes the values of a type as JSON and reads them back, the way derived serializers do.
`Exact f n P` says which values a format is for: whatever it reads is in `P`, and what it writes for
a value in `P` is read back, has numbers of 64 bits only and is nested at most `n` deep, as far as a
text reader can be relied on.  It follows the structure of a format.
-/

namespace Json

/-! ## Values within bounds -/

/-- Numbers fit into 64 bits, and arrays and objects are nested at most as deep as stated. -/
def Fits : Nat → Value → Prop
  | _, .null => True
  | _, .bool _ => True
  | _, .number n => -2 ^ 63 ≤ n ∧ n < 2 ^ 64
  | _, .string _ => True
  | 0, .array _ => False
  | n + 1, .array items => ∀ item ∈ items, Fits n item
  | 0, .object _ => False
  | n + 1, .object fields => ∀ field ∈ fields, Fits n field.2

/-! ## Formats -/

structure Format (α : Type) where
  encode : α → Value
  decode : Value → Except String α

namespace Format

variable {α β : Type}

def flag : Format Bool where
  encode := .bool
  decode
    | .bool b => .ok b
    | _ => .error "invalid type, expected a boolean"

/-- Numbers of the given width. -/
def unsigned (bits : Nat) : Format Nat where
  encode n := .number n
  decode
    | .number (.ofNat n) => if n < 2 ^ bits then .ok n else .error "number out of range"
    | _ => .error "invalid type, expected an unsigned integer"

/-- Numbers of the given width and a sign. -/
def signed (bits : Nat) : Format Int where
  encode := .number
  decode
    | .number n =>
        if -2 ^ bits ≤ n ∧ n < 2 ^ bits then .ok n else .error "number out of range"
    | _ => .error "invalid type, expected an integer"

def text : Format (List Char) where
  encode := .string
  decode
    | .string text => .ok text
    | _ => .error "invalid type, expected a string"

/-- Values with a text form. -/
def viaText (show_ : α → List Char) (parse : List Char → Except String α) : Format α where
  encode a := .string (show_ a)
  decode value := text.decode value >>= parse

/-- Values that stand for others. -/
def via (f : Format β) (view : α → β) (back : β → Except String α) : Format α where
  encode a := f.encode (view a)
  decode value := f.decode value >>= back

/-- Bytes. -/
def byte : Format UInt8 := (unsigned 8).via UInt8.toNat fun n => .ok (UInt8.ofNat n)

def word32 : Format UInt32 := (unsigned 32).via UInt32.toNat fun n => .ok (UInt32.ofNat n)

def word64 : Format UInt64 := (unsigned 64).via UInt64.toNat fun n => .ok (UInt64.ofNat n)

def int64 : Format Int64 := (signed 63).via Int64.toInt fun n => .ok (Int64.ofInt n)

def list (f : Format α) : Format (List α) where
  encode items := .array (items.map f.encode)
  decode
    | .array items => items.mapM f.decode
    | _ => .error "invalid type, expected a sequence"

/-- `null`, or a value. -/
def option (f : Format α) : Format (Option α) where
  encode
    | none => .null
    | some a => f.encode a
  decode
    | .null => .ok none
    | value => f.decode value >>= fun a => .ok (some a)

def pair (f : Format α) (g : Format β) : Format (α × β) where
  encode p := .array [f.encode p.1, g.encode p.2]
  decode
    | .array [x, y] => do
        let a ← f.decode x
        let b ← g.decode y
        return (a, b)
    | _ => .error "invalid type, expected a tuple of size 2"

/-- The unit variants of an enumeration, by their names. -/
def variant (name : α → String) (all : List α) : Format α where
  encode a := .string (name a).toList
  decode value :=
    let text :=
      match value with
      | .string text => some text
      | .object [(text, .null)] => some text.toList
      | _ => none
    match text.bind fun text => all.find? fun a => (name a).toList = text with
    | some a => .ok a
    | none => .error "unknown variant"

/-! ### Objects -/

/-- The fields of an object, none of them twice. -/
def fieldsOf : Value → Except String (List (String × Value))
  | .object fields =>
      if (fields.map Prod.fst).Nodup then .ok fields else .error "duplicate field"
  | _ => .error "invalid type, expected a struct"

/-- A field that has to be there. -/
def field (fields : List (String × Value)) (name : String) (f : Format α) : Except String α :=
  match fields.lookup name with
  | some value => f.decode value
  | none => .error s!"missing field {name}"

/-- A field that may be left out. -/
def optionalField (fields : List (String × Value)) (name : String) (f : Format α) :
    Except String (Option α) :=
  match fields.lookup name with
  | some value => f.option.decode value
  | none => .ok none

/-- A field with a default. -/
def defaultField (fields : List (String × Value)) (name : String) (f : Format α) (default : α) :
    Except String α :=
  match fields.lookup name with
  | some value => f.decode value
  | none => .ok default

/-- A field that is left out when there is no value. -/
def omitNone (name : String) (f : Format α) : Option α → List (String × Value)
  | none => []
  | some a => [(name, f.encode a)]

/-- No other fields than the given ones. -/
def onlyFields (names : List String) (fields : List (String × Value)) : Except String Unit :=
  match fields.find? fun field => !names.contains field.1 with
  | some field => .error s!"unknown field {field.1}"
  | none => .ok ()

/-! ### Exactness -/

/-- The format reads values in `P` only, and writes them so that they are read back. -/
structure Exact (f : Format α) (n : Nat) (P : α → Prop) : Prop where
  sound : ∀ {v a}, f.decode v = .ok a → P a
  reads : ∀ {a}, P a → f.decode (f.encode a) = .ok a
  fits : ∀ {a}, P a → Fits n (f.encode a)

lemma fits_mono {v : Value} {n m : Nat} (h : Fits n v) (hnm : n ≤ m) : Fits m v := by
  induction n generalizing m v with
  | zero => cases v <;> first | exact absurd h id | (cases m <;> exact h)
  | succ n ih =>
      obtain ⟨m, rfl⟩ : ∃ k, m = k + 1 := ⟨m - 1, by omega⟩
      cases v with
      | array items => exact fun item hi => ih (h item hi) (by omega)
      | object fields => exact fun field hf => ih (h field hf) (by omega)
      | _ => exact h

@[simp] lemma fits_object_nil {n : Nat} : Fits (n + 1) (.object []) :=
  fun _ h => absurd h (by simp)

@[simp] lemma fits_object_cons {n : Nat} {name : String} {v : Value}
    {fields : List (String × Value)} : Fits (n + 1) (.object ((name, v) :: fields)) ↔
      Fits n v ∧ Fits (n + 1) (.object fields) := List.forall_mem_cons

/-- A successful sequence of two steps. -/
lemma bind_eq_ok {ε γ : Type} {x : Except ε α} {k : α → Except ε γ} {c : γ} :
    x >>= k = .ok c ↔ ∃ a, x = .ok a ∧ k a = .ok c := by
  cases x with
  | error e => simp [bind, Except.bind]
  | ok a => simp [bind, Except.bind]

section Exact

variable {f : Format α} {g : Format β} {n m : Nat} {P P' : α → Prop} {Q : β → Prop}

lemma Exact.mono (h : f.Exact n P) (hnm : n ≤ m) : f.Exact m P :=
  ⟨h.sound, h.reads, fun ha => fits_mono (h.fits ha) hnm⟩

lemma Exact.congr (h : f.Exact n P) (hP : ∀ a, P a ↔ P' a) : f.Exact n P' :=
  ⟨fun hd => (hP _).mp (h.sound hd), fun ha => h.reads ((hP _).mpr ha), fun ha =>
    h.fits ((hP _).mpr ha)⟩

lemma exact_flag : flag.Exact 0 fun _ => True := ⟨fun _ => trivial, fun _ => rfl, fun _ => trivial⟩

lemma exact_text : text.Exact 0 fun _ => True := ⟨fun _ => trivial, fun _ => rfl, fun _ => trivial⟩

lemma exact_unsigned {bits : Nat} (hbits : bits ≤ 64) : (unsigned bits).Exact 0 (· < 2 ^ bits) where
  sound {v a} h := by
    cases v with
    | number k =>
        cases k with
        | ofNat k =>
            by_cases hk : k < 2 ^ bits
            · obtain rfl := Except.ok.inj ((if_pos hk).symm.trans h)
              exact hk
            · exact absurd ((if_neg hk).symm.trans h) (by simp)
        | negSucc k => exact absurd h (by simp [unsigned])
    | _ => exact absurd h (by simp [unsigned])
  reads h := if_pos h
  fits {a} h := by
    have hpow : (2 : Nat) ^ bits ≤ 2 ^ 64 := Nat.pow_le_pow_right (by omega) hbits
    show -2 ^ 63 ≤ (a : Int) ∧ (a : Int) < 2 ^ 64
    omega

lemma exact_signed {bits : Nat} (hbits : bits ≤ 63) :
    (signed bits).Exact 0 fun k => -2 ^ bits ≤ k ∧ k < 2 ^ bits where
  sound {v a} h := by
    cases v with
    | number k =>
        by_cases hk : -2 ^ bits ≤ k ∧ k < 2 ^ bits
        · obtain rfl := Except.ok.inj ((if_pos hk).symm.trans h)
          exact hk
        · exact absurd ((if_neg hk).symm.trans h) (by simp)
    | _ => exact absurd h (by simp [signed])
  reads h := if_pos h
  fits {a} h := by
    have hpow : (2 : Int) ^ bits ≤ 2 ^ 63 := by
      exact_mod_cast Nat.pow_le_pow_right (by omega) hbits
    show -2 ^ 63 ≤ a ∧ a < 2 ^ 64
    omega

lemma exact_viaText {show_ : α → List Char} {parse : List Char → Except String α}
    (sound : ∀ chars a, parse chars = .ok a → P a) (reads : ∀ a, P a → parse (show_ a) = .ok a) :
    (viaText show_ parse).Exact 0 P where
  sound {v a} h := by
    obtain ⟨chars, -, hparse⟩ := bind_eq_ok.mp h
    exact sound chars a hparse
  reads ha := reads _ ha
  fits _ := trivial

lemma Exact.via (h : g.Exact n Q) {view : α → β} {back : β → Except String α}
    (sound : ∀ b a, Q b → back b = .ok a → P a)
    (reads : ∀ a, P a → Q (view a) ∧ back (view a) = .ok a) : (g.via view back).Exact n P where
  sound {v a} hd := by
    obtain ⟨b, hb, hback⟩ := bind_eq_ok.mp hd
    exact sound b a (h.sound hb) hback
  reads ha := bind_eq_ok.mpr ⟨_, h.reads (reads _ ha).1, (reads _ ha).2⟩
  fits ha := h.fits (reads _ ha).1

lemma exact_variant {name : α → String} {all : List α}
    (h : ∀ a, all.find? (fun b => (name b).toList = (name a).toList) = some a) :
    (variant name all).Exact 0 fun _ => True where
  sound _ := trivial
  reads {a} _ := by simp [variant, h a]
  fits _ := trivial

lemma exact_byte : byte.Exact 0 fun _ => True :=
  (exact_unsigned (by omega)).via (fun _ _ _ _ => trivial) fun b _ =>
    ⟨b.toNat_lt, by rw [UInt8.ofNat_toNat]⟩

lemma exact_word32 : word32.Exact 0 fun _ => True :=
  (exact_unsigned (by omega)).via (fun _ _ _ _ => trivial) fun b _ =>
    ⟨b.toNat_lt, by rw [UInt32.ofNat_toNat]⟩

lemma exact_word64 : word64.Exact 0 fun _ => True :=
  (exact_unsigned (by omega)).via (fun _ _ _ _ => trivial) fun b _ =>
    ⟨b.toNat_lt, by rw [UInt64.ofNat_toNat]⟩

lemma exact_int64 : int64.Exact 0 fun _ => True :=
  (exact_signed (by omega)).via (fun _ _ _ _ => trivial) fun k _ =>
    ⟨⟨k.le_toInt, k.toInt_lt⟩, by rw [Int64.ofInt_toInt]⟩

lemma Exact.list (h : f.Exact n P) : f.list.Exact (n + 1) fun items => ∀ a ∈ items, P a where
  sound {v items} hd := by
    cases v with
    | array values =>
        replace hd : values.mapM f.decode = .ok items := hd
        induction values generalizing items with
        | nil =>
            obtain rfl : [] = items := Except.ok.inj hd
            exact fun a ha => absurd ha (by simp)
        | cons v values ih =>
            rw [List.mapM_cons] at hd
            obtain ⟨a, ha, hd⟩ := bind_eq_ok.mp hd
            obtain ⟨rest, hrest, hd⟩ := bind_eq_ok.mp hd
            obtain rfl : a :: rest = items := Except.ok.inj hd
            exact List.forall_mem_cons.mpr ⟨h.sound ha, ih hrest⟩
    | _ => exact absurd hd (by simp [Format.list])
  reads {items} hP := by
    show (items.map f.encode).mapM f.decode = .ok items
    induction items with
    | nil => rfl
    | cons a items ih =>
        obtain ⟨ha, hitems⟩ := List.forall_mem_cons.mp hP
        rw [List.map_cons, List.mapM_cons]
        exact bind_eq_ok.mpr ⟨a, h.reads ha, bind_eq_ok.mpr ⟨items, ih hitems, rfl⟩⟩
  fits {items} hP := by
    intro v hv
    obtain ⟨a, ha, rfl⟩ := List.mem_map.mp hv
    exact h.fits (hP a ha)

lemma Exact.option (h : f.Exact n P) (hne : ∀ a, f.encode a ≠ .null) :
    f.option.Exact n fun o => ∀ a ∈ o, P a where
  sound {v o} hd := by
    have hsome : ∀ v, (f.decode v >>= fun a => Except.ok (some a)) = .ok o → ∀ a ∈ o, P a := by
      intro v hd
      obtain ⟨a, ha, hd⟩ := bind_eq_ok.mp hd
      obtain rfl := Except.ok.inj hd
      intro a' ha'
      obtain rfl := Option.some.inj ha'
      exact h.sound ha
    cases v with
    | null =>
        obtain rfl : none = o := Except.ok.inj hd
        exact fun a ha => absurd ha (by simp)
    | _ => exact hsome _ hd
  reads {o} hP := by
    cases o with
    | none => rfl
    | some a =>
        have hread : f.option.decode (f.encode a) =
            f.decode (f.encode a) >>= fun a => .ok (some a) := by
          cases hv : f.encode a <;> first | exact absurd hv (hne a) | rfl
        exact hread.trans (bind_eq_ok.mpr ⟨a, h.reads (hP a rfl), rfl⟩)
  fits {o} hP := by
    cases o with
    | none => cases n <;> trivial
    | some a => exact h.fits (hP a rfl)

/-- A value that is there is read back as one that may be missing. -/
lemma Exact.reads_some (h : f.Exact n P) (hne : ∀ a, f.encode a ≠ .null) {a : α} (ha : P a) :
    f.option.decode (f.encode a) = .ok (some a) :=
  (h.option hne).reads (a := some a) fun _ hb => Option.some.inj hb ▸ ha

lemma Exact.pair (hf : f.Exact n P) (hg : g.Exact n Q) :
    (f.pair g).Exact (n + 1) fun p => P p.1 ∧ Q p.2 where
  sound {v p} hd := by
    have hshape : ∃ x y, v = .array [x, y] := by
      simp only [Format.pair] at hd
      split at hd
      · exact ⟨_, _, rfl⟩
      · exact absurd hd (by simp)
    obtain ⟨x, y, rfl⟩ := hshape
    obtain ⟨a, ha, hd⟩ := bind_eq_ok.mp hd
    obtain ⟨b, hb, hd⟩ := bind_eq_ok.mp hd
    obtain rfl := Except.ok.inj hd
    exact ⟨hf.sound ha, hg.sound hb⟩
  reads h := bind_eq_ok.mpr ⟨_, hf.reads h.1, bind_eq_ok.mpr ⟨_, hg.reads h.2, rfl⟩⟩
  fits h := List.forall_mem_cons.mpr ⟨hf.fits h.1, List.forall_mem_singleton.mpr (hg.fits h.2)⟩

/-! ### Exactness of objects -/

lemma Exact.field (h : f.Exact n P) {fields : List (String × Value)} {name : String} {a : α}
    (hd : field fields name f = .ok a) : P a := by
  unfold Format.field at hd
  split at hd
  · exact h.sound hd
  · exact absurd hd (by simp)

lemma Exact.optionalField (h : f.Exact n P) (hne : ∀ a, f.encode a ≠ .null)
    {fields : List (String × Value)} {name : String} {o : Option α}
    (hd : optionalField fields name f = .ok o) : ∀ a ∈ o, P a := by
  unfold Format.optionalField at hd
  split at hd
  · exact (h.option hne).sound hd
  · obtain rfl := Except.ok.inj hd
    exact fun a ha => absurd ha (by simp)

lemma fieldsOf_object {fields : List (String × Value)} (h : (fields.map Prod.fst).Nodup) :
    fieldsOf (.object fields) = .ok fields := if_pos h

end Exact

end Format

end Json
