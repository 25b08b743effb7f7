import Osdns.Journal.Payloads

/-!
# Journal records as files

How a record becomes the bytes of its file and what is accepted when they are read: the conversions
to and from the durable form, `decode_record` and `validate_record` of `journal.rs`.

The crates a record goes through are parameters (`Crates`): the IDNA conversion, the version-5 UUID
of a resource id and the JSON text.  What is used of them is that the conversion leaves its own
answers alone and that a tree with 64-bit numbers and little nesting is read back from its text.
-/

namespace Osdns.Journal

open Json Json.Format

/-! ## Parameters -/

/-- The text layer of `serde_json`. -/
structure JsonText where
  toVec : Value → List UInt8
  fromSlice : List UInt8 → Except String Value

structure Crates where
  toAscii : List Char → Option (List Char)
  hash : List Char → Nat
  text : JsonText

/-- What is relied on. -/
structure Crates.Faithful (C : Crates) : Prop where
  idempotent : IdempotentAscii C.toAscii
  text : ∀ v, Fits 16 v → C.text.fromSlice (C.text.toVec v) = .ok v

/-- Crates that write the compact text. -/
def compactCrates : Crates where
  toAscii := lowerAscii
  hash text := text.foldl (fun value c => (value * 31 + c.toNat) % 2 ^ 128) 0
  text :=
    { toVec := Json.write
      fromSlice := fun bytes => orError "expected value" (Json.read bytes) }

lemma faithful_compactCrates : compactCrates.Faithful :=
  ⟨idempotent_lowerAscii, fun v _ => orError_eq_ok.mpr (Json.read_write v)⟩

/-- `Error`, with the errors of the file layer that only the journal store has. -/
inductive StoreError
  | error (error : Error)
  | unsupportedJournalVersion (path : String) (found supported : Nat)
  | unsafeFilesystem (message : String)

/-! ## The durable form -/

abbrev Record := JournalRecord SnapshotData IdentityData

def schemaVersion : Nat := 4

/-- `MAX_RECORD_BYTES`. -/
def maxRecordBytes : Nat := 16 * 1024 * 1024

/-- A backend, a resource and a payload that is not interpreted yet. -/
structure Tagged where
  backend : BackendKind
  resource : ResourceId
  data : Value

abbrev PlatformSnapshotV4 := Tagged

abbrev ResourceIdentityV4 := Tagged

def tagged : Format Tagged where
  encode t := .object [
    ("backend", backendKind.encode t.backend),
    ("resource", resourceId.encode t.resource),
    ("data", t.data)]
  decode value := do
    let fields ← fieldsOf value
    onlyFields ["backend", "resource", "data"] fields
    let backend ← field fields "backend" backendKind
    let resource ← field fields "resource" resourceId
    let data ← field fields "data" ⟨id, .ok⟩
    return ⟨backend, resource, data⟩

/-- `JournalRecordV4`. -/
structure JournalRecordV4 where
  owner : List Char
  leaseId : LeaseId
  resource : ResourceId
  backend : BackendKind
  identity : ResourceIdentityV4
  phase : Phase
  before : PlatformSnapshotV4
  desired : NormalizedConfig
  applied : Option PlatformSnapshotV4

/-- `Serialize for JournalRecordV4Ref` and `Deserialize for JournalRecordV4`. -/
def journalRecordV4 (toAscii : List Char → Option (List Char)) : Format JournalRecordV4 where
  encode record := .object [
    ("schema_version", (unsigned 32).encode schemaVersion),
    ("owner", text.encode record.owner),
    ("lease_id", uuid.encode record.leaseId),
    ("resource", resourceId.encode record.resource),
    ("backend", backendKind.encode record.backend),
    ("identity", tagged.encode record.identity),
    ("phase", phase.encode record.phase),
    ("before", tagged.encode record.before),
    ("desired", (normalizedConfig toAscii).encode record.desired),
    ("applied", tagged.option.encode record.applied)]
  decode value := do
    let fields ← fieldsOf value
    onlyFields ["schema_version", "owner", "lease_id", "resource", "backend", "identity", "phase",
      "before", "desired", "applied"] fields
    let _ ← field fields "schema_version" (unsigned 32)
    let owner ← field fields "owner" text
    let leaseId ← field fields "lease_id" uuid
    let resource ← field fields "resource" resourceId
    let backend ← field fields "backend" backendKind
    let identity ← field fields "identity" tagged
    let phase ← field fields "phase" phase
    let before ← field fields "before" tagged
    let desired ← field fields "desired" (normalizedConfig toAscii)
    let applied ← optionalField fields "applied" tagged
    return ⟨owner, leaseId, resource, backend, identity, phase, before, desired, applied⟩

/-- `TryFrom<&PlatformSnapshot> for PlatformSnapshotV4Ref`. -/
def snapshotV4 (toAscii : List Char → Option (List Char)) (snapshot : PlatformSnapshot SnapshotData) :
    PlatformSnapshotV4 :=
  ⟨snapshot.backend, snapshot.resource, encodeSnapshot toAscii snapshot.data⟩

/-- `TryFrom<PlatformSnapshotV4> for PlatformSnapshot`. -/
def snapshotOfV4 (toAscii : List Char → Option (List Char)) (snapshot : PlatformSnapshotV4) :
    Except String (PlatformSnapshot SnapshotData) := do
  let data ← decodeSnapshot toAscii snapshot.backend snapshot.data
  return ⟨snapshot.backend, snapshot.resource, data⟩

/-- `TryFrom<&JournalRecord> for JournalRecordV4Ref`. -/
def recordV4 (toAscii : List Char → Option (List Char)) (record : Record) : JournalRecordV4 where
  owner := record.owner.toList
  leaseId := record.leaseId
  resource := record.resource
  backend := record.backend
  identity :=
    ⟨record.identity.backend, record.identity.resource, encodeIdentity record.identity.data⟩
  phase := record.phase
  before := snapshotV4 toAscii record.before
  desired := record.desired
  applied := record.applied.map (snapshotV4 toAscii)

/-- `TryFrom<JournalRecordV4> for JournalRecord`. -/
def recordOfV4 (toAscii : List Char → Option (List Char)) (record : JournalRecordV4) :
    Except String Record := do
  let identity ← decodeIdentity record.identity.backend record.identity.data
  let before ← snapshotOfV4 toAscii record.before
  let applied ← record.applied.mapM (snapshotOfV4 toAscii)
  return {
    owner := String.ofList record.owner
    leaseId := record.leaseId
    resource := record.resource
    backend := record.backend
    identity := ⟨record.identity.backend, record.identity.resource, identity⟩
    phase := record.phase
    before
    desired := record.desired
    applied }

/-- The bytes of a record's file. -/
@[irreducible] def recordBytes (C : Crates) (record : Record) : List UInt8 :=
  C.text.toVec ((journalRecordV4 C.toAscii).encode (recordV4 C.toAscii record))

/-! ## Validation -/

/-- An early return with an error. -/
def reject {ε : Type} (condition : Prop) [Decidable condition] (error : ε) : Except ε Unit :=
  if condition then .error error else .ok ()

/-- `validate_owner`. -/
def validateOwner (owner : String) : Except Error Unit :=
  if owner.isEmpty || decide (255 < owner.utf8ByteSize) then
    .error (.invalidConfig "owner identifier must be 1-255 characters")
  else
    match owner.toList.find? fun c => !(c.isAlphanum || c == '.' || c == '-' || c == '_') with
    | some c =>
        .error (.invalidConfig s!"owner identifier {repr owner} contains invalid character {repr c}")
    | none => .ok ()

/-- The checks of `validate_record` on one snapshot. -/
def validateSnapshot (toAscii : List Char → Option (List Char))
    (snapshot : PlatformSnapshot SnapshotData) : Except Error Unit :=
  match snapshot.data with
  | .resolvConfFile data => do
      data.validate
      reject
        (snapshot.resource.text ≠ "linux:resolv-conf".toList ∨
          data.metadata.any (fun metadata => metadata.owner.isNone || metadata.links != some 1))
        (.journalCorrupt
          "resolver file snapshot has an invalid native resource or ownership metadata")
  | .systemdResolved data => data.validate toAscii
  | _ => .ok ()

/-- Whether a record, its identity and its snapshots name one resource and one backend. -/
def consistent (record : Record) : Bool :=
  record.backend == record.before.backend && record.backend == record.identity.backend &&
    record.resource == record.before.resource && record.resource == record.identity.resource &&
    record.applied.all fun snapshot =>
      snapshot.backend == record.backend && snapshot.resource == record.resource

/-- `validate_record`. -/
def validateRecord (C : Crates) (path : String) (record : Record) : Except Error Unit := do
  reject (record.desired.nameservers.any IpAddr.isUnspecified)
    (.journalCorrupt "desired configuration contains an unspecified nameserver")
  (validateOwner record.owner).mapError fun error => .journalCorrupt error.text
  reject (record.phase = .applied ∧ record.applied.isNone)
    (.journalCorrupt s!"{path}: Applied record has no applied snapshot")
  reject (consistent record = false)
    (.journalCorrupt
      s!"{path}: record, identity, and snapshots name different resources or backends")
  (record.before :: record.applied.toList).forM (validateSnapshot C.toAscii)

/-! ## Reading -/

/-- An error of the text layer in the file at `path`. -/
def corrupt (path : String) (message : String) : StoreError :=
  .error (.journalCorrupt s!"{path}: {message}")

/-- `serde_json::from_slice` of the version of the envelope. -/
def schemaVersionOf (value : Value) : Except String Nat := do
  let fields ← fieldsOf value
  field fields "schema_version" (unsigned 32)

/-- `decode_record`. -/
def decodeRecord (C : Crates) (path : String) (bytes : List UInt8) : Except StoreError Record := do
  reject (maxRecordBytes < bytes.length)
    (.error (.journalCorrupt "journal record exceeds the 16 MiB storage budget"))
  let value ← (C.text.fromSlice bytes).mapError (corrupt path)
  let version ← (schemaVersionOf value).mapError (corrupt path)
  reject (version ≠ schemaVersion) (.unsupportedJournalVersion path version schemaVersion)
  let durable ← ((journalRecordV4 C.toAscii).decode value).mapError (corrupt path)
  let record ← (recordOfV4 C.toAscii durable).mapError (corrupt path)
  (validateRecord C path record).mapError fun error => corrupt path error.text
  return record

/-! ## What is accepted -/

/-- What `validate_record` checks. -/
structure Valid (C : Crates) (record : Record) : Prop where
  specified : ∀ a ∈ record.desired.nameservers, a.isUnspecified = false
  owner : validateOwner record.owner = .ok ()
  evidence : record.phase = .applied → record.applied ≠ none
  consistent : consistent record = true
  snapshots : ∀ snapshot ∈ record.before :: record.applied.toList,
    validateSnapshot C.toAscii snapshot = .ok ()

/-- The records that a file can hold: valid, with parts that are of the kind they claim and that are
read back. -/
structure Readable (C : Crates) (record : Record) : Prop where
  valid : Valid C record
  lease : record.leaseId < 2 ^ 128
  desired : DomainsParsed C.toAscii record.desired.searchDomains record.desired.routingDomains
  identity : record.identity.data.Of record.identity.backend ∧ record.identity.data.Storable
  snapshots : ∀ snapshot ∈ record.before :: record.applied.toList,
    snapshot.data.kind = snapshot.backend ∧ snapshot.data.Storable C.toAscii

variable {C : Crates} {path : String} {record : Record} {bytes : List UInt8}

lemma mapError_eq_ok {ε ε' α : Type} {x : Except ε α} {f : ε → ε'} {a : α} :
    x.mapError f = .ok a ↔ x = .ok a := by
  cases x <;> simp [Except.mapError]

/-- Going on after a check. -/
lemma check_eq_ok {ε α : Type} {x : Except ε Unit} {k : Unit → Except ε α} {a : α} :
    x >>= k = .ok a ↔ x = .ok () ∧ k () = .ok a := by
  rw [bind_eq_ok]
  exact ⟨fun ⟨_, h⟩ => h, fun h => ⟨(), h⟩⟩

lemma forM_eq_ok {ε α : Type} {xs : List α} {f : α → Except ε Unit} :
    xs.forM f = .ok () ↔ ∀ x ∈ xs, f x = .ok () := by
  induction xs with
  | nil => simp [pure, Except.pure]
  | cons x xs ih =>
      show (f x >>= fun _ => xs.forM f) = _ ↔ _
      rw [check_eq_ok, List.forall_mem_cons, ih]

lemma reject_eq_ok {ε : Type} {condition : Prop} [Decidable condition] {error : ε} :
    reject condition error = .ok () ↔ ¬ condition := by
  unfold reject
  split <;> simp [*]

lemma reject_of {ε : Type} {condition : Prop} [Decidable condition] {error : ε} (h : condition) :
    reject condition error = .error error := if_pos h

lemma reject_of_not {ε : Type} {condition : Prop} [Decidable condition] {error : ε}
    (h : ¬ condition) : reject condition error = .ok () := if_neg h

lemma ok_bind {ε α β : Type} {a : α} {f : α → Except ε β} : (Except.ok a >>= f) = f a := rfl

lemma validateRecord_eq_ok : validateRecord C path record = .ok () ↔ Valid C record := by
  simp only [validateRecord, check_eq_ok, reject_eq_ok, mapError_eq_ok, forM_eq_ok]
  constructor
  · rintro ⟨hspecified, howner, hevidence, hconsistent, hsnapshots⟩
    exact ⟨by simpa using hspecified, howner, by simpa using hevidence, by simpa using hconsistent,
      hsnapshots⟩
  · rintro ⟨hspecified, howner, hevidence, hconsistent, hsnapshots⟩
    exact ⟨by simpa using hspecified, howner, by simpa using hevidence, by simpa using hconsistent,
      hsnapshots⟩

lemma snapshotOfV4_snapshotV4 (hC : C.Faithful) {snapshot : PlatformSnapshot SnapshotData}
    (hkind : snapshot.data.kind = snapshot.backend) (hdata : snapshot.data.Storable C.toAscii) :
    snapshotOfV4 C.toAscii (snapshotV4 C.toAscii snapshot) = .ok snapshot := by
  have hread := decodeSnapshot_encodeSnapshot hC.idempotent hdata
  rw [hkind] at hread
  exact bind_eq_ok.mpr ⟨snapshot.data, hread, rfl⟩

lemma snapshotOfV4_sound (hC : C.Faithful) {durable : PlatformSnapshotV4}
    {snapshot : PlatformSnapshot SnapshotData}
    (hd : snapshotOfV4 C.toAscii durable = .ok snapshot) :
    snapshot.data.kind = snapshot.backend ∧ snapshot.data.Storable C.toAscii := by
  obtain ⟨data, hdata, hd⟩ := bind_eq_ok.mp hd
  obtain rfl := Except.ok.inj hd
  exact decodeSnapshot_sound hC.idempotent hdata

lemma mapM_snapshotOfV4 (hC : C.Faithful) {applied : Option (PlatformSnapshot SnapshotData)}
    (h : ∀ snapshot ∈ applied.toList,
      snapshot.data.kind = snapshot.backend ∧ snapshot.data.Storable C.toAscii) :
    (applied.map (snapshotV4 C.toAscii)).mapM (snapshotOfV4 C.toAscii) = .ok applied := by
  cases applied with
  | none => rfl
  | some snapshot =>
      obtain ⟨hkind, hdata⟩ := h snapshot (by simp)
      simp [snapshotOfV4_snapshotV4 hC hkind hdata]

lemma mapM_snapshotOfV4_sound (hC : C.Faithful) {durable : Option PlatformSnapshotV4}
    {applied : Option (PlatformSnapshot SnapshotData)}
    (hd : durable.mapM (snapshotOfV4 C.toAscii) = .ok applied) :
    ∀ snapshot ∈ applied.toList,
      snapshot.data.kind = snapshot.backend ∧ snapshot.data.Storable C.toAscii := by
  cases durable with
  | none =>
      obtain rfl : none = applied := Except.ok.inj hd
      simp
  | some durable =>
      obtain ⟨snapshot, hsnapshot, rfl⟩ := map_eq_ok.mp hd
      simpa using snapshotOfV4_sound hC hsnapshot

lemma decode_tagged (t : Tagged) : tagged.decode (tagged.encode t) = .ok t := by
  simp [tagged, fieldsOf_object, field, onlyFields, List.lookup_cons, bind_eq_ok,
    exact_backendKind.reads trivial, exact_resourceId.reads trivial]

lemma decode_journalRecordV4 (hC : C.Faithful) {durable : JournalRecordV4}
    (hlease : durable.leaseId < 2 ^ 128)
    (hdesired : DomainsParsed C.toAscii durable.desired.searchDomains
      durable.desired.routingDomains) :
    (journalRecordV4 C.toAscii).decode ((journalRecordV4 C.toAscii).encode durable) =
      .ok durable := by
  have hversion : (unsigned 32).decode ((unsigned 32).encode schemaVersion) = .ok schemaVersion :=
    (exact_unsigned (by omega)).reads (by decide)
  obtain ⟨owner, lease, resource, backend, identity, stage, before, desired, applied⟩ := durable
  have happlied : tagged.option.decode (tagged.option.encode applied) = .ok applied := by
    cases applied with
    | none => rfl
    | some t => exact bind_eq_ok.mpr ⟨t, decode_tagged t, rfl⟩
  simp [journalRecordV4, fieldsOf_object, field, optionalField, onlyFields, List.lookup_cons,
    bind_eq_ok, hversion, exact_text.reads trivial, exact_uuid.reads hlease,
    exact_resourceId.reads trivial, exact_backendKind.reads trivial, decode_tagged, happlied,
    exact_phase.reads trivial, (exact_normalizedConfig hC.idempotent).reads hdesired]

lemma schemaVersionOf_encode (toAscii : List Char → Option (List Char)) (durable : JournalRecordV4) :
    schemaVersionOf ((journalRecordV4 toAscii).encode durable) = .ok schemaVersion := by
  have hversion : (unsigned 32).decode ((unsigned 32).encode schemaVersion) = .ok schemaVersion :=
    (exact_unsigned (by omega)).reads (by decide)
  simp [schemaVersionOf, journalRecordV4, fieldsOf_object, field, bind_eq_ok, hversion]

/-- A tree of a record is within the bounds of the text layer. -/
lemma fits_recordV4 (hC : C.Faithful) (h : Readable C record) :
    Fits 6 ((journalRecordV4 C.toAscii).encode (recordV4 C.toAscii record)) := by
  have htagged : ∀ t : Tagged, Fits 4 t.data → Fits 5 (tagged.encode t) := fun t ht => by
    simp [tagged, ht, (exact_backendKind.mono (Nat.zero_le 4)).fits trivial,
      (exact_resourceId.mono (Nat.zero_le 4)).fits trivial]
  have hsnapshot : ∀ snapshot ∈ record.before :: record.applied.toList,
      Fits 5 (tagged.encode (snapshotV4 C.toAscii snapshot)) := fun snapshot hs =>
    htagged _ (fits_encodeSnapshot hC.idempotent (h.snapshots snapshot hs).2)
  have hbefore := hsnapshot record.before List.mem_cons_self
  have hidentity := htagged (recordV4 C.toAscii record).identity
    (fits_mono (fits_encodeIdentity h.identity.2) (by omega))
  have happlied : Fits 5 (tagged.option.encode (record.applied.map (snapshotV4 C.toAscii))) := by
    cases ha : record.applied with
    | none => trivial
    | some snapshot => exact hsnapshot snapshot (by simp [ha])
  simp only [journalRecordV4, fits_object_cons, fits_object_nil, and_true]
  exact ⟨((exact_unsigned (show 32 ≤ 64 by omega)).mono (Nat.zero_le 5)).fits (by decide),
    (exact_text.mono (Nat.zero_le 5)).fits trivial, (exact_uuid.mono (Nat.zero_le 5)).fits h.lease,
    (exact_resourceId.mono (Nat.zero_le 5)).fits trivial,
    (exact_backendKind.mono (Nat.zero_le 5)).fits trivial, hidentity,
    (exact_phase.mono (Nat.zero_le 5)).fits trivial, hbefore,
    ((exact_normalizedConfig hC.idempotent).mono (show 2 ≤ 5 by omega)).fits h.desired, happlied⟩

lemma exists_unit {p : Unit → Prop} : (∃ u, p u) ↔ p () := ⟨fun ⟨_, h⟩ => h, fun h => ⟨(), h⟩⟩

lemma decodeRecord_eq_ok : decodeRecord C path bytes = .ok record ↔
    bytes.length ≤ maxRecordBytes ∧ ∃ value, C.text.fromSlice bytes = .ok value ∧
      schemaVersionOf value = .ok schemaVersion ∧
        ∃ durable, (journalRecordV4 C.toAscii).decode value = .ok durable ∧
          recordOfV4 C.toAscii durable = .ok record ∧ Valid C record := by
  simp only [decodeRecord, bind_eq_ok, mapError_eq_ok, exists_unit, reject_eq_ok,
    validateRecord_eq_ok, not_lt, not_not, ne_eq]
  constructor
  · rintro ⟨hsize, value, hvalue, version, hversion, rfl, durable, hdurable, record', hrecord, hvalid,
      hd⟩
    obtain rfl := Except.ok.inj hd
    exact ⟨hsize, value, hvalue, hversion, durable, hdurable, hrecord, hvalid⟩
  · rintro ⟨hsize, value, hvalue, hversion, durable, hdurable, hrecord, hvalid⟩
    exact ⟨hsize, value, hvalue, _, hversion, rfl, durable, hdurable, record, hrecord, hvalid, rfl⟩

/-- What is accepted is readable. -/
theorem decodeRecord_sound (hC : C.Faithful) (hd : decodeRecord C path bytes = .ok record) :
    Readable C record := by
  obtain ⟨-, value, -, -, durable, hdurable, hrecord, hvalid⟩ := decodeRecord_eq_ok.mp hd
  simp only [journalRecordV4, bind_eq_ok] at hdurable
  obtain ⟨fields, -, -, -, -, -, owner, -, lease, hlease, resource, -, backend, -, identity, -,
    stage, -, before, -, desired, hdesired, applied, -, hdurable⟩ := hdurable
  obtain rfl := Except.ok.inj hdurable
  simp only [recordOfV4, bind_eq_ok] at hrecord
  obtain ⟨identityData, hidentity, snapshot, hsnapshot, evidence, hevidence, hrecord⟩ := hrecord
  obtain rfl := Except.ok.inj hrecord
  exact ⟨hvalid, exact_uuid.field hlease, (exact_normalizedConfig hC.idempotent).field hdesired,
    decodeIdentity_sound hidentity, List.forall_mem_cons.mpr ⟨snapshotOfV4_sound hC hsnapshot,
      mapM_snapshotOfV4_sound hC hevidence⟩⟩

lemma recordOfV4_recordV4 (hC : C.Faithful) (h : Readable C record) :
    recordOfV4 C.toAscii (recordV4 C.toAscii record) = .ok record := by
  obtain ⟨hbefore, happlied⟩ := List.forall_mem_cons.mp h.snapshots
  have hidentity := decodeIdentity_encodeIdentity h.identity.2 h.identity.1
  simp only [recordOfV4, recordV4, hidentity, snapshotOfV4_snapshotV4 hC hbefore.1 hbefore.2,
    mapM_snapshotOfV4 hC happlied, String.ofList_toList]
  rfl

/-- A record that fits into its file is read back from it exactly when it is readable. -/
theorem decodeRecord_recordBytes (hC : C.Faithful)
    (hsize : (recordBytes C record).length ≤ maxRecordBytes) :
    decodeRecord C path (recordBytes C record) = .ok record ↔ Readable C record := by
  unfold recordBytes at hsize ⊢
  refine ⟨decodeRecord_sound hC, fun h => decodeRecord_eq_ok.mpr ?_⟩
  exact ⟨hsize, _, hC.text _ (fits_mono (fits_recordV4 hC h) (show 6 ≤ 16 by omega)),
    schemaVersionOf_encode C.toAscii _, _,
    @decode_journalRecordV4 C hC (recordV4 C.toAscii record) h.lease h.desired,
    recordOfV4_recordV4 hC h, h.valid⟩

/-- A record for the link 3, with one search domain on the link before the lease. -/
def linkRecord (lease : LeaseId) (domain : String) : Record where
  owner := "vpn"
  leaseId := lease
  resource := ⟨"linux:resolved:3".toList, by decide⟩
  backend := .systemdResolved
  identity := ⟨.systemdResolved, ⟨"linux:resolved:3".toList, by decide⟩, .systemdResolved {
    bootId := 1
    netns := "net:[1]".toList
    ifindex := 3
    ifname := "wlan0".toList
    iflink := some 3
    address := none
    uevent := none }⟩
  phase := .prepared
  before := ⟨.systemdResolved, ⟨"linux:resolved:3".toList, by decide⟩, .systemdResolved
    ⟨[(2, [192, 0, 2, 1])], [(domain.toList, false)], true⟩⟩
  desired := ⟨[.v4 0xC0000235], [], [], none⟩
  applied := none

lemma readable_linkRecord {lease : LeaseId} {domain : String} (hlease : lease < 2 ^ 128)
    (hvalid : Valid compactCrates (linkRecord lease domain)) :
    Readable compactCrates (linkRecord lease domain) where
  valid := hvalid
  lease := hlease
  desired := ⟨fun _ hs => absurd hs List.not_mem_nil, fun _ hs => absurd hs List.not_mem_nil⟩
  identity := ⟨rfl, by decide, by decide, by simp⟩
  snapshots := by simp [linkRecord, SnapshotData.kind, SnapshotData.Storable, FamiliesFit]

lemma size_linkRecord {lease : LeaseId} {domain : String}
    (h : 4 * (render ((journalRecordV4 lowerAscii).encode
      (recordV4 lowerAscii (linkRecord lease domain)))).length ≤ maxRecordBytes) :
    (recordBytes compactCrates (linkRecord lease domain)).length ≤ maxRecordBytes := by
  unfold recordBytes
  exact (length_write_le _).trans h

lemma readable_corp {lease : LeaseId} (hlease : lease < 2 ^ 128) :
    Readable compactCrates (linkRecord lease "corp.example") := by
  have haccepted : validateRecord compactCrates "7.json" (linkRecord 7 "corp.example") = .ok () :=
    rfl
  have hvalid := validateRecord_eq_ok.mp haccepted
  exact readable_linkRecord hlease ⟨hvalid.specified, hvalid.owner, hvalid.evidence,
    hvalid.consistent, hvalid.snapshots⟩

lemma size_corp : (recordBytes compactCrates (linkRecord 7 "corp.example")).length ≤ maxRecordBytes :=
  size_linkRecord (by decide +kernel)

/-- A link domain that is no DNS suffix, which a capture does not look for, makes a record that is
written and not read back. -/
theorem decodeRecord_recordBytes_linkRecord :
    decodeRecord compactCrates "7.json"
        (recordBytes compactCrates (linkRecord 7 "corp.example")) =
      .ok (linkRecord 7 "corp.example") ∧
    decodeRecord compactCrates "7.json"
        (recordBytes compactCrates (linkRecord 7 "_tcp.example")) ≠
      .ok (linkRecord 7 "_tcp.example") := by
  refine ⟨(decodeRecord_recordBytes faithful_compactCrates size_corp).mpr
    (readable_corp (by decide)), fun h => ?_⟩
  have hreadable :=
    (decodeRecord_recordBytes faithful_compactCrates (size_linkRecord (by decide +kernel))).mp h
  have hvalid : validateRecord compactCrates "7.json" (linkRecord 7 "_tcp.example") = .ok () :=
    validateRecord_eq_ok.mpr hreadable.valid
  have hrejected : (validateRecord compactCrates "7.json" (linkRecord 7 "_tcp.example")).toOption =
      none := by decide
  rw [hvalid] at hrejected
  cases hrejected

end Osdns.Journal
