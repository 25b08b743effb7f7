import Mathlib.Data.List.AList
import Osdns.Platform.Text

/-!
# The DNS dictionary of a macOS network service

`platform/macos/system_configuration.rs`: the DNS state of a service is a dictionary in the dynamic
store, of which osdns manages two keys.  It is captured as the bytes of a property list.

The property-list serialisation of the system is a parameter; what is used of it is that the bytes
of a dictionary are read back as an equal dictionary (`Serialization.Faithful`).  Keys of a property
list are strings, and values that osdns does not look into are of a type `Foreign`.
-/

namespace Osdns

namespace ServiceDns

/-! ## Property lists -/

/-- An element of an array. -/
inductive Item (Foreign : Type)
  | string (text : List Char)
  | other (value : Foreign)
  deriving DecidableEq

/-- The value of a key. -/
inductive Field (Foreign : Type)
  | array (items : List (Item Foreign))
  | other (value : Foreign)
  deriving DecidableEq

/-- `CFDictionary` with strings as keys. -/
abbrev Dictionary (Foreign : Type) := AList fun _ : List Char => Field Foreign

/-- A key and its value. -/
abbrev Entry (Foreign : Type) := Sigma fun _ : List Char => Field Foreign

/-- A property list; osdns looks into dictionaries only. -/
inductive PropertyList (Foreign : Type)
  | dictionary (fields : Dictionary Foreign)
  | other (value : Foreign)

def serverAddresses : List Char := "ServerAddresses".toList

def searchDomains : List Char := "SearchDomains".toList

/-- The keys that osdns writes. -/
def isManaged (key : List Char) : Bool := key == serverAddresses || key == searchDomains

/-- What the functions of this module fail with. -/
inductive Failure
  /-- `plist_error`. -/
  | platform (message : String)
  /-- The error of `DnsSuffix::parse`. -/
  | invalidConfig (domain : List Char)
  | requiresPrivilege (message : String)
  deriving DecidableEq

/-- `CFPropertyListCreateData` and `CFPropertyListCreateWithData`. -/
structure Serialization (Foreign Bytes : Type) where
  createData : Dictionary Foreign → Except String Bytes
  createWithData : Bytes → Except String (PropertyList Foreign)

/-- A dictionary is serialised, and read back as a dictionary with the same values. -/
def Serialization.Faithful {Foreign Bytes : Type} (codec : Serialization Foreign Bytes) : Prop :=
  ∀ fields, ∃ bytes again, codec.createData fields = .ok bytes ∧
    codec.createWithData bytes = .ok (.dictionary again) ∧
    ∀ key, again.lookup key = fields.lookup key

section Functions

variable {Foreign Bytes : Type} (toAscii : List Char → Option (List Char))
  (codec : Serialization Foreign Bytes)

/-- The checks of `validate_managed` on an element of a managed array. -/
def validateItem (name : List Char) : Item Foreign → Except Failure Unit
  | .other _ => .error (.platform "managed DNS array contains a non-string")
  | .string text =>
      if name = serverAddresses then
        match IpAddr.parse text with
        | some _ => .ok ()
        | none => .error (.platform "invalid IP address syntax")
      else
        match DnsSuffix.parse toAscii text with
        | some _ => .ok ()
        | none => .error (.invalidConfig text)

/-- The checks of `validate_managed` on the value of a key. -/
def validateField (name : List Char) (value : Field Foreign) : Except Failure Unit :=
  if !isManaged name then .ok ()
  else
    match value with
    | .other _ => .error (.platform "managed DNS field is not an array")
    | .array items => items.forM (validateItem toAscii name)

/-- `validate_managed`. -/
def validateManaged (dictionary : Dictionary Foreign) : Except Failure Unit :=
  dictionary.entries.forM fun entry => validateField toAscii entry.1 entry.2

/-- `decode`. -/
def decode (bytes : Bytes) : Except Failure (Dictionary Foreign) :=
  match codec.createWithData bytes with
  | .error message => .error (.platform message)
  | .ok (.other _) => .error (.platform "DNS property list is not a dictionary")
  | .ok (.dictionary dictionary) => (validateManaged toAscii dictionary).map fun _ => dictionary

/-- `encode`. -/
def encode (dictionary : Dictionary Foreign) : Except Failure Bytes :=
  match validateManaged toAscii dictionary with
  | .error error => .error error
  | .ok _ => (codec.createData dictionary).mapError .platform

/-- `decode` of bytes that may be absent. -/
def decodeOptional : Option Bytes → Except Failure (Option (Dictionary Foreign))
  | none => .ok none
  | some bytes => (decode toAscii codec bytes).map some

/-- `equivalent`. -/
def equivalent [DecidableEq Foreign] (left right : Option Bytes) : Bool :=
  match decodeOptional toAscii codec left, decodeOptional toAscii codec right with
  | .ok left, .ok right =>
      [serverAddresses, searchDomains].all fun name =>
        (left.bind fun dictionary => dictionary.lookup name) ==
          right.bind fun dictionary => dictionary.lookup name
  | _, _ => false

/-! ## The store -/

/-- The value of `State:/Network/Service/<id>/DNS` in the dynamic store. -/
abbrev Store (Foreign : Type) := Option (PropertyList Foreign)

/-- `read_service_dns`. -/
def readServiceDns : Store Foreign → Except Failure (Option Bytes)
  | none => .ok none
  | some (.other _) => .error (.platform "service DNS state is not a dictionary")
  | some (.dictionary dictionary) => (encode toAscii codec dictionary).map some

/-- `set_dictionary`; `granted` is the answer of the store. -/
def setDictionary (granted : Bool) (dictionary : Dictionary Foreign) (store : Store Foreign) :
    Except Failure Unit × Store Foreign :=
  if granted then (.ok (), some (.dictionary dictionary))
  else (.error (.requiresPrivilege "writing service DNS requires administrator privileges"), store)

/-- `remove_service_dns`; `granted` is the answer of the store. -/
def removeServiceDns (granted : Bool) (store : Store Foreign) :
    Except Failure Unit × Store Foreign :=
  if granted then (.ok (), none)
  else (.error (.requiresPrivilege
    "removing the service DNS settings requires administrator privileges"), store)

/-- The entries of a dictionary that may be absent: `pairs`. -/
def pairs (dictionary : Option (Dictionary Foreign)) : List (Entry Foreign) :=
  (dictionary.map AList.entries).getD []

/-- The array that is written for a list of texts. -/
def arrayOf (texts : List (List Char)) : Field Foreign := .array (texts.map .string)

/-- The dictionary that `write_service_dns` sets. -/
def writtenDictionary (servers search : List (List Char)) (current : Option (Dictionary Foreign)) :
    Dictionary Foreign :=
  let entries := (pairs current).filter fun entry =>
    decide (entry.1 ≠ serverAddresses) && decide (entry.1 ≠ searchDomains)
  List.toAList (entries ++
    [(⟨serverAddresses, arrayOf servers⟩ : Entry Foreign), ⟨searchDomains, arrayOf search⟩])

/-- `write_service_dns`. -/
def writeServiceDns (granted : Bool) (servers search : List (List Char)) (store : Store Foreign) :
    Except Failure Unit × Store Foreign :=
  match readServiceDns toAscii codec store with
  | .error error => (.error error, store)
  | .ok current =>
      match decodeOptional toAscii codec current with
      | .error error => (.error error, store)
      | .ok current => setDictionary granted (writtenDictionary servers search current) store

/-- `restored_dictionary`. -/
def restoredDictionary (current before : Option Bytes) :
    Except Failure (Option (Dictionary Foreign)) :=
  match decodeOptional toAscii codec current with
  | .error error => .error error
  | .ok current =>
      let entries := (pairs current).filter fun entry => !isManaged entry.1
      match decodeOptional toAscii codec before with
      | .error error => .error error
      | .ok decoded =>
          let entries := entries ++ (pairs decoded).filter fun entry => isManaged entry.1
          .ok (if entries.isEmpty && before.isNone then none else some entries.toAList)

/-- `restore_service_dns`. -/
def restoreServiceDns (granted : Bool) (before : Option Bytes) (store : Store Foreign) :
    Except Failure Unit × Store Foreign :=
  match readServiceDns toAscii codec store with
  | .error error => (.error error, store)
  | .ok current =>
      match restoredDictionary toAscii codec current before with
      | .error error => (.error error, store)
      | .ok (some dictionary) => setDictionary granted dictionary store
      | .ok none => removeServiceDns granted store

end Functions

/-- `expected_servers`. -/
def expectedServers (plan : NormalizedConfig) : List (List Char) :=
  plan.nameservers.map IpAddr.toText

/-- `expected_search`. -/
def expectedSearch (plan : NormalizedConfig) : List (List Char) :=
  (plan.searchDomains.filter fun suffix => !suffix.isRoot).map DnsSuffix.toText

end ServiceDns

end Osdns
