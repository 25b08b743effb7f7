import Mathlib.Data.Set.Image
import Mathlib.Logic.Function.Basic
import Mathlib.Logic.Relation

/-!
# Storage that outlives a power failure

A slot has a content, which is what a reader finds, and the contents that a power failure may leave
in it: changes that were not flushed may be lost, in any order.  The content is always among them,
so a failure right after a read can leave what was read.

A family of slots is a disk.  `Encodes` relates a disk of values to the disk of their encodings,
and every transition of one is a transition of the other.
-/

namespace Durable

variable {κ ν μ : Type}

/-! ## Slots -/

@[ext]
structure Slot (ν : Type) where
  content : Option ν
  kept : Set (Option ν)
  current : content ∈ kept

namespace Slot

/-- A content that is on the disk. -/
def flushed (content : Option ν) : Slot ν := ⟨content, {content}, rfl⟩

/-- A change that is not flushed. -/
def mark (content : Option ν) (slot : Slot ν) : Slot ν :=
  ⟨content, insert content slot.kept, Set.mem_insert _ _⟩

def flush (slot : Slot ν) : Slot ν := flushed slot.content

def map (encode : ν → μ) (slot : Slot ν) : Slot μ :=
  ⟨slot.content.map encode, Option.map encode '' slot.kept, Set.mem_image_of_mem _ slot.current⟩

@[simp] lemma content_flushed (content : Option ν) : (flushed content).content = content := rfl

@[simp] lemma kept_flushed (content : Option ν) : (flushed content).kept = {content} := rfl

@[simp] lemma content_mark (content : Option ν) (slot : Slot ν) :
    (slot.mark content).content = content := rfl

@[simp] lemma kept_mark (content : Option ν) (slot : Slot ν) :
    (slot.mark content).kept = insert content slot.kept := rfl

@[simp] lemma content_map (encode : ν → μ) (slot : Slot ν) :
    (slot.map encode).content = slot.content.map encode := rfl

@[simp] lemma kept_map (encode : ν → μ) (slot : Slot ν) :
    (slot.map encode).kept = Option.map encode '' slot.kept := rfl

@[simp] lemma flush_flushed (content : Option ν) : (flushed content).flush = flushed content := rfl

@[simp] lemma map_flushed (encode : ν → μ) (content : Option ν) :
    (flushed content).map encode = flushed (content.map encode) := by
  ext <;> simp [map, flushed, eq_comm]

@[simp] lemma map_mark (encode : ν → μ) (content : Option ν) (slot : Slot ν) :
    (slot.mark content).map encode = (slot.map encode).mark (content.map encode) := by
  ext1
  · rfl
  · exact Set.image_insert_eq

@[simp] lemma map_flush (encode : ν → μ) (slot : Slot ν) :
    slot.flush.map encode = (slot.map encode).flush := map_flushed encode slot.content

/-- A slot is told by its encodings, as far as they tell the contents apart. -/
lemma eq_flushed_of_map {encode : ν → μ} {slot : Slot ν} {content : Option ν}
    (h : slot.map encode = flushed (content.map encode))
    (hinj : ∀ c ∈ slot.kept, c.map encode = content.map encode → c = content) :
    slot = flushed content := by
  have honly : ∀ c ∈ slot.kept, c = content := by
    intro c hc
    have himage : c.map encode ∈ (slot.map encode).kept := Set.mem_image_of_mem _ hc
    rw [h, kept_flushed, Set.mem_singleton_iff] at himage
    exact hinj c hc himage
  have hcontent := honly _ slot.current
  exact Slot.ext hcontent
    (Set.eq_singleton_iff_unique_mem.mpr ⟨hcontent ▸ slot.current, honly⟩)

end Slot

/-! ## Disks -/

abbrev Disk (κ ν : Type) := κ → Slot ν

/-- A power failure: every slot comes back with one of the contents it may have kept. -/
def Outage (s t : Disk κ ν) : Prop := ∀ k, ∃ content ∈ (s k).kept, t k = .flushed content

/-- Every content that a reader may find, now or after a power failure, is allowed. -/
def Every (P : κ → ν → Prop) (s : Disk κ ν) : Prop := ∀ k v, some v ∈ (s k).kept → P k v

/-- On the keys in `D` the disk `s` has the encodings of what `t` has. -/
def Encodes (encode : ν → μ) (D : κ → Prop) (s : Disk κ μ) (t : Disk κ ν) : Prop :=
  ∀ k, D k → s k = (t k).map encode

section Every

variable {P : κ → ν → Prop} {s t : Disk κ ν} {k : κ} {slot : Slot ν} {c : Option ν}

lemma Every.content (h : Every P s) {v : ν} (hv : (s k).content = some v) : P k v :=
  h k v (hv ▸ (s k).current)

lemma Every.update [DecidableEq κ] (h : Every P s) (hslot : ∀ v, some v ∈ slot.kept → P k v) :
    Every P (Function.update s k slot) := by
  intro k' v hv
  by_cases hk : k' = k
  · subst hk
    rw [Function.update_self] at hv
    exact hslot v hv
  · rw [Function.update_of_ne hk] at hv
    exact h k' v hv

lemma Every.flushed [DecidableEq κ] (h : Every P s) (hc : ∀ v ∈ c, P k v) :
    Every P (Function.update s k (.flushed c)) :=
  h.update fun v hv => hc v (Set.mem_singleton_iff.mp hv).symm

lemma Every.mark [DecidableEq κ] (h : Every P s) (hc : ∀ v ∈ c, P k v) :
    Every P (Function.update s k ((s k).mark c)) :=
  h.update fun v hv => hv.elim (fun hv => hc v hv.symm) (h k v)

lemma Every.flush (h : Every P s) : Every P fun k => (s k).flush :=
  fun _ _ hv => h.content (Set.mem_singleton_iff.mp hv).symm

lemma Every.outage (h : Every P s) (hst : Outage s t) : Every P t := by
  intro k v hv
  obtain ⟨content, hkept, ht⟩ := hst k
  rw [ht] at hv
  obtain rfl := Set.mem_singleton_iff.mp hv
  exact h k v hkept

end Every

/-! ## Encodings -/

section Encodes

variable {encode : ν → μ} {D : κ → Prop} {s s' : Disk κ μ} {t : Disk κ ν} {k : κ}

/-- A change of one slot, made on both sides. -/
lemma Encodes.update [DecidableEq κ] (h : Encodes encode D s t) (slot : Slot ν) :
    Encodes encode D (Function.update s k (slot.map encode)) (Function.update t k slot) := by
  intro k' hk'
  by_cases hk : k' = k
  · subst hk
    rw [Function.update_self, Function.update_self]
  · rw [Function.update_of_ne hk, Function.update_of_ne hk]
    exact h k' hk'

/-- A change outside. -/
lemma Encodes.elsewhere [DecidableEq κ] (h : Encodes encode D s t) {slot : Slot μ} (hk : ¬ D k) :
    Encodes encode D (Function.update s k slot) t := by
  intro k' hk'
  have hne : k' ≠ k := fun heq => hk (heq ▸ hk')
  rw [Function.update_of_ne hne]
  exact h k' hk'

lemma Encodes.flush (h : Encodes encode D s t) :
    Encodes encode D (fun k => (s k).flush) fun k => (t k).flush :=
  fun k hk => (congrArg Slot.flush (h k hk)).trans (Slot.map_flush encode (t k)).symm

/-- What a power failure leaves is the encoding of what it could have left. -/
lemma Encodes.outage (h : Encodes encode D s t) (hs : Outage s s') :
    ∃ t', Outage t t' ∧ Encodes encode D s' t' := by
  have hleft : ∀ k, ∃ slot : Slot ν, (∃ content ∈ (t k).kept, slot = .flushed content) ∧
      (D k → s' k = slot.map encode) := by
    intro k
    by_cases hk : D k
    · obtain ⟨content, hkept, hs'⟩ := hs k
      rw [h k hk, Slot.kept_map] at hkept
      obtain ⟨content, hkept, rfl⟩ := hkept
      exact ⟨_, ⟨content, hkept, rfl⟩, fun _ => by rw [hs', Slot.map_flushed]⟩
    · exact ⟨_, ⟨_, (t k).current, rfl⟩, fun hD => absurd hD hk⟩
  choose t' hout henc using hleft
  exact ⟨t', hout, henc⟩

end Encodes

end Durable
