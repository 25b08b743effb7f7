import Mathlib.Data.Nat.Digits.Defs

/-!
# Numbers as bytes

Numbers of a fixed width in either byte order, and back.
-/

namespace Bytes

/-- The `n` lowest bytes of a number, the lowest first. -/
def littleEndian : Nat → Nat → List UInt8
  | 0, _ => []
  | n + 1, value => UInt8.ofNat value :: littleEndian n (value / 256)

/-- The `n` lowest bytes of a number, the highest first. -/
def bigEndian (n value : Nat) : List UInt8 := (littleEndian n value).reverse

/-- The number that bytes stand for, the lowest first. -/
def ofLittleEndian (bytes : List UInt8) : Nat := Nat.ofDigits 256 (bytes.map UInt8.toNat)

/-- The number that bytes stand for, the highest first. -/
def ofBigEndian (bytes : List UInt8) : Nat := ofLittleEndian bytes.reverse

variable {n value : Nat}

@[simp] lemma length_littleEndian : (littleEndian n value).length = n := by
  induction n generalizing value with
  | zero => rfl
  | succ n ih => rw [littleEndian, List.length_cons, ih]

@[simp] lemma length_bigEndian : (bigEndian n value).length = n := by
  rw [bigEndian, List.length_reverse, length_littleEndian]

lemma ofLittleEndian_littleEndian : ofLittleEndian (littleEndian n value) = value % 256 ^ n := by
  induction n generalizing value with
  | zero => simp [littleEndian, ofLittleEndian, Nat.mod_one]
  | succ n ih =>
      have hrest : Nat.ofDigits 256 ((littleEndian n (value / 256)).map UInt8.toNat) =
          value / 256 % 256 ^ n := ih
      rw [littleEndian, ofLittleEndian, List.map_cons, Nat.ofDigits_cons, hrest,
        Nat.pow_succ', Nat.mod_mul]
      rfl

/-- A number that fits is read back. -/
lemma ofBigEndian_bigEndian (h : value < 256 ^ n) : ofBigEndian (bigEndian n value) = value := by
  rw [ofBigEndian, bigEndian, List.reverse_reverse, ofLittleEndian_littleEndian,
    Nat.mod_eq_of_lt h]

section Bounds

variable {bytes bytes' : List UInt8}

lemma lt_of_mem_bytes {d : Nat} (h : d ∈ bytes.map UInt8.toNat) : d < 256 := by
  obtain ⟨b, _, rfl⟩ := List.mem_map.mp h
  exact b.toNat_lt

lemma ofLittleEndian_lt (bytes : List UInt8) : ofLittleEndian bytes < 256 ^ bytes.length := by
  have hlt : ofLittleEndian bytes < 256 ^ (bytes.map UInt8.toNat).length :=
    Nat.ofDigits_lt_base_pow_length (by decide) fun _ hd => lt_of_mem_bytes hd
  rwa [List.length_map] at hlt

/-- Bytes of one width are told apart by the number they stand for. -/
lemma ofLittleEndian_inj (hlen : bytes.length = bytes'.length) :
    ofLittleEndian bytes = ofLittleEndian bytes' ↔ bytes = bytes' := by
  constructor
  · intro h
    have hmap := Nat.ofDigits_inj_of_len_eq (by decide) (by simpa using hlen)
      (fun _ hd => lt_of_mem_bytes hd) (fun _ hd => lt_of_mem_bytes hd) h
    exact (List.map_inj_right fun _ _ => UInt8.toNat_inj.mp).mp hmap
  · rintro rfl
    rfl

end Bounds

end Bytes
