import Bindery.Proofs.Json.Text
import Bindery.Schema.Decode
import Mathlib.Data.List.Forall2

/-!
# Reading undoes writing

A schema can be written as a JSON document in many ways: each key in camel case or in snake case, what
is null or empty in full or not at all, and other keys beside those of the schema. What all these
documents have in common is what they hold under the keys. Reading goes by this alone, so it gives
back the schema from each of them.

## What is proved

* `Stands.member?`, `IsLeftOut.member?` — what is found under a key in either form.
* `text_of_stands`, `optionalText_of_writes`, `listOf_of_writes` and their like — attributes.
* `typeRef_of_writes`, `field_of_writes` and their like — the parts of a schema.
* `writesDocument_json` — every schema can be written.
* `reading_undoes_writing` — every document that writes a schema is read as that schema.
-/

namespace Bindery.Schema

open Decode

variable {α : Type} {key : String} {fs : List (String × Json)} {v j : Json}

/-! ### Keys -/

/-- The fields of an object under a key, in camel case or in snake case. -/
def fieldsUnder (key : String) (fs : List (String × Json)) : List (String × Json) :=
  fs.filter fun f => f.1 == key || f.1 == snakeKey key

/-- The value stands under the key in one of its forms, and nothing else does. -/
def Stands (key : String) (v : Json) (fs : List (String × Json)) : Prop :=
  ∃ form, fieldsUnder key fs = [(form, v)]

/-- Nothing stands under the key in any form. -/
def IsLeftOut (key : String) (fs : List (String × Json)) : Prop :=
  fieldsUnder key fs = []

/-- What is found under a key is found among the fields that stand there. -/
theorem member?_obj (key : String) (fs : List (String × Json)) :
    member? key (.obj fs) =
      ((fieldsUnder key fs).lookup key).or ((fieldsUnder key fs).lookup (snakeKey key)) := by
  rw [fieldsUnder, Keyed.lookup_filter (fun k => k == key || k == snakeKey key),
    Keyed.lookup_filter (fun k => k == key || k == snakeKey key)]
  simp only [BEq.rfl, Bool.true_or, Bool.or_true, if_true]
  rw [member?, Json.fieldOf?, List.findSome?_cons, List.findSome?_cons, List.findSome?_nil]
  simp only [Json.field?]
  cases fs.lookup key <;> cases fs.lookup (snakeKey key) <;> rfl

theorem Stands.form (h : Stands key v fs) :
    ∃ form, fieldsUnder key fs = [(form, v)] ∧ (form = key ∨ form = snakeKey key) := by
  obtain ⟨form, hform⟩ := h
  have hmem : (form, v) ∈ fieldsUnder key fs := hform ▸ List.mem_singleton_self _
  exact ⟨form, hform, by simpa using (List.mem_filter.mp hmem).2⟩

theorem Stands.mem (h : Stands key v fs) : ∃ form, (form, v) ∈ fs := by
  obtain ⟨form, hform⟩ := h
  exact ⟨form, List.mem_of_mem_filter (hform ▸ List.mem_singleton_self _)⟩

theorem Stands.member? (h : Stands key v fs) : Decode.member? key (.obj fs) = some v := by
  obtain ⟨form, hform, rfl | rfl⟩ := h.form
  · rw [member?_obj, hform, List.lookup_cons_self]
    rfl
  · rw [member?_obj, hform, List.lookup_cons_self]
    cases hkey : List.lookup key [(snakeKey key, v)] with
    | none => rfl
    | some w =>
      rw [List.lookup_cons, List.lookup_nil] at hkey
      split at hkey
      · exact hkey.symm
      · cases hkey

theorem IsLeftOut.member? (h : IsLeftOut key fs) : Decode.member? key (.obj fs) = none := by
  rw [member?_obj, h]
  rfl

/-! ### Attributes -/

/-- The value is written as an object. -/
def AsObject (writes : α → List (String × Json) → Prop) (a : α) (j : Json) : Prop :=
  ∃ fs, j = .obj fs ∧ writes a fs

/-- The text is written. -/
def WritesText (s : String) (j : Json) : Prop :=
  j = .str s

/-- An attribute is written that may be null: if it is, then as null or not at all. -/
inductive WritesNullable (writes : α → Json → Prop) (key : String) (fs : List (String × Json)) :
    Option α → Prop where
  /-- Null is left out. -/
  | missing (h : IsLeftOut key fs) : WritesNullable writes key fs none
  /-- Null is written. -/
  | null (h : Stands key .null fs) : WritesNullable writes key fs none
  /-- Any other value is written. -/
  | value {a : α} {v : Json} (h : Stands key v fs) (hv : writes a v) :
      WritesNullable writes key fs (some a)

/-- A list is written: if it is empty, perhaps not at all. -/
inductive WritesProperList (writes : α → Json → Prop) (key : String) (fs : List (String × Json)) :
    List α → Prop where
  /-- An empty list is left out. -/
  | missing (h : IsLeftOut key fs) : WritesProperList writes key fs []
  /-- A list is written with its items in order. -/
  | items {as : List α} {js : List Json} (h : Stands key (.arr js) fs)
      (hjs : List.Forall₂ writes as js) : WritesProperList writes key fs as

/-- A list is written: if it is empty, perhaps as null or not at all. -/
inductive WritesList (writes : α → Json → Prop) (key : String) (fs : List (String × Json)) :
    List α → Prop where
  /-- An empty list is written as null. -/
  | null (h : Stands key .null fs) : WritesList writes key fs []
  /-- A list is written as such. -/
  | proper {as : List α} (h : WritesProperList writes key fs as) : WritesList writes key fs as

theorem text_of_stands {s : String} (h : Stands key (.str s) fs) : text key (.obj fs) = some s := by
  rw [text, h.member?]
  rfl

theorem optionalText_of_writes {s : Option String} (h : WritesNullable WritesText key fs s) :
    optionalText key (.obj fs) = some s := by
  cases h with
  | missing h => rw [optionalText, h.member?]
  | null h => rw [optionalText, h.member?]
  | value h hv =>
    rw [WritesText] at hv
    rw [optionalText, h.member?, hv]

theorem flag_of_stands {b : Bool} (h : Stands key (.bool b) fs) : flag key (.obj fs) = some b := by
  rw [flag, h.member?]
  rfl

section Lists

variable {writes : α → Json → Prop} {read : Json → Option α}
  (hread : ∀ a j, writes a j → read j = some a)

include hread

theorem mapM_of_writes {as : List α} {js : List Json} (h : List.Forall₂ writes as js) :
    js.mapM read = some as := by
  induction h with
  | nil => rfl
  | cons ha _ ih =>
    rw [List.mapM_cons, hread _ _ ha, ih]
    rfl

theorem properListOf_of_writes {as : List α} (h : WritesProperList writes key fs as) :
    properListOf key read (.obj fs) = some as := by
  cases h with
  | missing h => rw [properListOf, h.member?]
  | items h hjs =>
    rw [properListOf, h.member?]
    exact mapM_of_writes hread hjs

theorem listOf_of_writes {as : List α} (h : WritesList writes key fs as) :
    listOf key read (.obj fs) = some as := by
  cases h with
  | null h => rw [listOf, h.member?]
  | proper h =>
    cases h with
    | missing h => rw [listOf, h.member?]
    | items h hjs =>
      rw [listOf, h.member?]
      exact mapM_of_writes hread hjs

end Lists

/-! ### Type references -/

theorem Kind.ofName?_name (k : Kind) : Kind.ofName? k.name = some k := by
  cases k <;> rfl

theorem kind_of_stands {k : Kind} (h : Stands "kind" (.str k.name) fs) :
    kind (.obj fs) = some k := by
  rw [kind, text_of_stands h, Option.bind_some, Kind.ofName?_name]

/-- The reference is written. -/
inductive WritesRef : TypeRef → Json → Prop where
  /-- A reference with nothing inside. -/
  | leaf {k : Kind} {n : Option String} {fs : List (String × Json)}
      (kind : Stands "kind" (.str k.name) fs) (name : WritesNullable WritesText "name" fs n)
      (inner : IsLeftOut "ofType" fs ∨ Stands "ofType" .null fs) : WritesRef (.leaf k n) (.obj fs)
  /-- A reference around another. -/
  | around {k : Kind} {n : Option String} {r : TypeRef} {fs : List (String × Json)} {v : Json}
      (kind : Stands "kind" (.str k.name) fs) (name : WritesNullable WritesText "name" fs n)
      (inner : Stands "ofType" v fs) (hv : WritesRef r v) : WritesRef (.around k n r) (.obj fs)

theorem depth_le_of_mem {form : String} (h : (form, v) ∈ fs) :
    depth v ≤ depth.fieldDepths fs := by
  induction fs with
  | nil => cases h
  | cons f fs ih =>
    rw [depth.fieldDepths]
    rcases List.mem_cons.mp h with rfl | h
    · exact Nat.le_max_left _ _
    · exact Nat.le_trans (ih h) (Nat.le_max_right _ _)

/-- What stands in an object is nested less deep. -/
theorem Stands.depth_lt (h : Stands key v fs) : depth v < depth (.obj fs) := by
  obtain ⟨form, hmem⟩ := h.mem
  exact Nat.lt_succ_of_le (depth_le_of_mem hmem)

theorem typeRefWith_of_writes {r : TypeRef} (h : WritesRef r j) {fuel : Nat}
    (hfuel : depth j < fuel) : typeRefWith fuel j = some r := by
  induction h generalizing fuel with
  | leaf hkind hname hinner =>
    obtain ⟨fuel, rfl⟩ := Nat.exists_eq_succ_of_ne_zero (Nat.ne_zero_of_lt hfuel)
    rw [typeRefWith, kind_of_stands hkind, optionalText_of_writes hname]
    rcases hinner with hinner | hinner <;> rw [hinner.member?] <;> rfl
  | @around k n r fs v hkind hname hinner hv ih =>
    obtain ⟨fuel, rfl⟩ := Nat.exists_eq_succ_of_ne_zero (Nat.ne_zero_of_lt hfuel)
    have hread := ih (Nat.lt_of_lt_of_le hinner.depth_lt (Nat.le_of_lt_succ hfuel))
    have hnull : v ≠ .null := by
      rintro rfl
      cases hv
    rw [typeRefWith, kind_of_stands hkind, optionalText_of_writes hname, hinner.member?]
    cases v
    case null => exact absurd rfl hnull
    all_goals exact congrArg (Option.map _) hread

theorem typeRef_of_writes (r : TypeRef) (j : Json) (h : WritesRef r j) : typeRef j = some r :=
  typeRefWith_of_writes h (Nat.lt_succ_self _)

/-- The reference under a key is read. -/
theorem typeRef_of_stands {r : TypeRef} (h : ∃ v, Stands key v fs ∧ WritesRef r v) :
    (member? key (.obj fs)).bind typeRef = some r := by
  obtain ⟨v, hv, hr⟩ := h
  rw [hv.member?]
  exact typeRef_of_writes r v hr

/-! ### Parts of a schema -/

/-- The fields write an argument. -/
structure WritesArgument (a : Argument) (fs : List (String × Json)) : Prop where
  /-- The name is written. -/
  name : Stands "name" (.str a.name) fs
  /-- What the argument is for is written. -/
  description : WritesNullable WritesText "description" fs a.description
  /-- The type is written. -/
  type : ∃ v, Stands "type" v fs ∧ WritesRef a.type v
  /-- The default value is written as it is; null is perhaps left out. -/
  fallback : Stands "defaultValue" a.fallback fs ∨ a.fallback = .null ∧ IsLeftOut "defaultValue" fs

/-- The fields write a member of an enumeration. -/
structure WritesEnumValue (e : EnumValue) (fs : List (String × Json)) : Prop where
  /-- The name is written. -/
  name : Stands "name" (.str e.name) fs
  /-- What the member is for is written. -/
  description : WritesNullable WritesText "description" fs e.description
  /-- Whether the member should be avoided is written. -/
  isDeprecated : Stands "isDeprecated" (.bool e.isDeprecated) fs
  /-- Why it should be avoided is written. -/
  reason : WritesNullable WritesText "deprecationReason" fs e.reason

/-- The fields of an object write a field. -/
structure WritesField (f : Field) (fs : List (String × Json)) : Prop where
  /-- The name is written. -/
  name : Stands "name" (.str f.name) fs
  /-- What the field is for is written. -/
  description : WritesNullable WritesText "description" fs f.description
  /-- The type is written. -/
  type : ∃ v, Stands "type" v fs ∧ WritesRef f.type v
  /-- The arguments are written. -/
  arguments : WritesList (AsObject WritesArgument) "args" fs f.arguments
  /-- Whether the field should be avoided is written. -/
  isDeprecated : Stands "isDeprecated" (.bool f.isDeprecated) fs
  /-- Why it should be avoided is written. -/
  reason : WritesNullable WritesText "deprecationReason" fs f.reason

/-- The fields write a named type. -/
structure WritesType (t : TypeDefinition) (fs : List (String × Json)) : Prop where
  /-- The kind is written. -/
  kind : Stands "kind" (.str t.kind.name) fs
  /-- The name is written. -/
  name : Stands "name" (.str t.name) fs
  /-- What the type is for is written. -/
  description : WritesNullable WritesText "description" fs t.description
  /-- The fields of an object type or an interface are written. -/
  fields : WritesList (AsObject WritesField) "fields" fs t.fields
  /-- The fields of an input object type are written. -/
  inputFields : WritesList (AsObject WritesArgument) "inputFields" fs t.inputFields
  /-- The interfaces are written. -/
  interfaces : WritesList WritesRef "interfaces" fs t.interfaces
  /-- The members of an enumeration are written. -/
  enumValues : WritesList (AsObject WritesEnumValue) "enumValues" fs t.enumValues
  /-- The object types of an interface or a union are written. -/
  possibleTypes : WritesList WritesRef "possibleTypes" fs t.possibleTypes

/-- The fields write a directive. -/
structure WritesDirective (d : DirectiveDefinition) (fs : List (String × Json)) : Prop where
  /-- The name is written. -/
  name : Stands "name" (.str d.name) fs
  /-- What the directive is for is written. -/
  description : WritesNullable WritesText "description" fs d.description
  /-- Where the directive may stand is written. -/
  locations : WritesList WritesText "locations" fs d.locations
  /-- The arguments are written. -/
  arguments : WritesList (AsObject WritesArgument) "args" fs d.arguments

/-- The fields write the name of a root type. -/
def WritesRoot (name : String) (fs : List (String × Json)) : Prop :=
  Stands "name" (.str name) fs

/-- The fields write a schema. -/
structure WritesSchema (s : Schema) (fs : List (String × Json)) : Prop where
  /-- The root type of queries is written. -/
  queryType : WritesNullable (AsObject WritesRoot) "queryType" fs s.queryType
  /-- The root type of mutations is written. -/
  mutationType : WritesNullable (AsObject WritesRoot) "mutationType" fs s.mutationType
  /-- The root type of subscriptions is written. -/
  subscriptionType : WritesNullable (AsObject WritesRoot) "subscriptionType" fs s.subscriptionType
  /-- The types are written. -/
  types : WritesProperList (AsObject WritesType) "types" fs s.types
  /-- The directives are written. -/
  directives : WritesList (AsObject WritesDirective) "directives" fs s.directives

/-- The document writes a schema, on its own or as the data of a response. -/
inductive WritesDocument (s : Schema) : Json → Prop where
  /-- The schema on its own. -/
  | bare {j : Json} (h : AsObject WritesSchema s j) : WritesDocument s (.obj [("__schema", j)])
  /-- The schema as the data of a response. -/
  | response {j : Json} (h : AsObject WritesSchema s j) :
      WritesDocument s (.obj [("data", .obj [("__schema", j)])])

theorem argument_of_writes (a : Argument) (j : Json) (h : AsObject WritesArgument a j) :
    argument j = some a := by
  obtain ⟨fs, rfl, h⟩ := h
  have hfallback : (member? "defaultValue" (.obj fs)).getD .null = a.fallback := by
    rcases h.fallback with hstands | ⟨hnull, hout⟩
    · rw [hstands.member?]
      rfl
    · rw [hout.member?, hnull]
      rfl
  rw [argument, text_of_stands h.name, optionalText_of_writes h.description,
    typeRef_of_stands h.type, hfallback]
  rfl

theorem enumValue_of_writes (e : EnumValue) (j : Json) (h : AsObject WritesEnumValue e j) :
    enumValue j = some e := by
  obtain ⟨fs, rfl, h⟩ := h
  rw [enumValue, text_of_stands h.name, optionalText_of_writes h.description,
    flag_of_stands h.isDeprecated, optionalText_of_writes h.reason]
  rfl

theorem field_of_writes (f : Field) (j : Json) (h : AsObject WritesField f j) :
    field j = some f := by
  obtain ⟨fs, rfl, h⟩ := h
  rw [field, text_of_stands h.name, optionalText_of_writes h.description, typeRef_of_stands h.type,
    listOf_of_writes argument_of_writes h.arguments, flag_of_stands h.isDeprecated,
    optionalText_of_writes h.reason]
  rfl

theorem typeDefinition_of_writes (t : TypeDefinition) (j : Json) (h : AsObject WritesType t j) :
    typeDefinition j = some t := by
  obtain ⟨fs, rfl, h⟩ := h
  rw [typeDefinition, kind_of_stands h.kind, text_of_stands h.name,
    optionalText_of_writes h.description, listOf_of_writes field_of_writes h.fields,
    listOf_of_writes argument_of_writes h.inputFields,
    listOf_of_writes typeRef_of_writes h.interfaces,
    listOf_of_writes enumValue_of_writes h.enumValues,
    listOf_of_writes typeRef_of_writes h.possibleTypes]
  rfl

theorem directive_of_writes (d : DirectiveDefinition) (j : Json)
    (h : AsObject WritesDirective d j) : directive j = some d := by
  obtain ⟨fs, rfl, h⟩ := h
  have hlocations : listOf "locations" Json.string? (.obj fs) = some d.locations :=
    listOf_of_writes (fun _ _ hs => hs ▸ rfl) h.locations
  rw [directive, text_of_stands h.name, optionalText_of_writes h.description, hlocations,
    listOf_of_writes argument_of_writes h.arguments]
  rfl

theorem rootType_of_writes {name : Option String}
    (h : WritesNullable (AsObject WritesRoot) key fs name) :
    rootType key (.obj fs) = some name := by
  cases h with
  | missing h => rw [rootType, h.member?]
  | null h => rw [rootType, h.member?]
  | value h hv =>
    obtain ⟨inner, rfl, hname⟩ := hv
    rw [rootType, h.member?]
    exact congrArg (Option.map some) (text_of_stands hname)

theorem schema_of_writes (s : Schema) (j : Json) (h : AsObject WritesSchema s j) :
    schema j = some s := by
  obtain ⟨fs, rfl, h⟩ := h
  rw [schema, rootType_of_writes h.queryType, rootType_of_writes h.mutationType,
    rootType_of_writes h.subscriptionType, properListOf_of_writes typeDefinition_of_writes h.types,
    listOf_of_writes directive_of_writes h.directives]
  rfl

/-- A document is read as the schema that it holds, directly or behind its data. -/
theorem document_of_schema {d j : Json} {s : Schema}
    (hj : objectAt? "__schema" ((objectAt? "data" d).getD d) = some j) (h : schema j = some s) :
    document d = .ok s := by
  simp only [document, hj, h]

/-- A document that writes a schema is read as that schema. -/
theorem document_of_writes {s : Schema} {d : Json} (h : WritesDocument s d) :
    document d = .ok s := by
  cases h with
  | bare h =>
    obtain ⟨fs, rfl, h⟩ := h
    exact document_of_schema rfl (schema_of_writes s _ ⟨fs, rfl, h⟩)
  | response h =>
    obtain ⟨fs, rfl, h⟩ := h
    exact document_of_schema rfl (schema_of_writes s _ ⟨fs, rfl, h⟩)

/-! ### A document for every schema -/

/-- The value of an attribute that may be null. -/
def nullableJson (json : α → Json) : Option α → Json
  | none => .null
  | some a => json a

/-- The value of a list. -/
def listJson (json : α → Json) (as : List α) : Json :=
  .arr (as.map json)

/-- The value of a reference. -/
def refJson : TypeRef → Json
  | .leaf k n =>
    .obj [("kind", .str k.name), ("name", nullableJson .str n), ("ofType", .null)]
  | .around k n r =>
    .obj [("kind", .str k.name), ("name", nullableJson .str n), ("ofType", refJson r)]

/-- The value of an argument. -/
def argumentJson (a : Argument) : Json :=
  .obj [("name", .str a.name), ("description", nullableJson .str a.description),
    ("type", refJson a.type), ("defaultValue", a.fallback)]

/-- The value of a member of an enumeration. -/
def enumValueJson (e : EnumValue) : Json :=
  .obj [("name", .str e.name), ("description", nullableJson .str e.description),
    ("isDeprecated", .bool e.isDeprecated), ("deprecationReason", nullableJson .str e.reason)]

/-- The value of a field. -/
def fieldJson (f : Field) : Json :=
  .obj [("name", .str f.name), ("description", nullableJson .str f.description),
    ("type", refJson f.type), ("args", listJson argumentJson f.arguments),
    ("isDeprecated", .bool f.isDeprecated), ("deprecationReason", nullableJson .str f.reason)]

/-- The value of a named type. -/
def typeJson (t : TypeDefinition) : Json :=
  .obj [("kind", .str t.kind.name), ("name", .str t.name),
    ("description", nullableJson .str t.description), ("fields", listJson fieldJson t.fields),
    ("inputFields", listJson argumentJson t.inputFields),
    ("interfaces", listJson refJson t.interfaces),
    ("enumValues", listJson enumValueJson t.enumValues),
    ("possibleTypes", listJson refJson t.possibleTypes)]

/-- The value of a directive. -/
def directiveJson (d : DirectiveDefinition) : Json :=
  .obj [("name", .str d.name), ("description", nullableJson .str d.description),
    ("locations", listJson .str d.locations), ("args", listJson argumentJson d.arguments)]

/-- The value of the name of a root type. -/
def rootJson (name : String) : Json :=
  .obj [("name", .str name)]

/-- The document with everything in full and all keys in camel case. -/
def json (s : Schema) : Json :=
  .obj [("__schema", .obj [("queryType", nullableJson rootJson s.queryType),
    ("mutationType", nullableJson rootJson s.mutationType),
    ("subscriptionType", nullableJson rootJson s.subscriptionType),
    ("types", listJson typeJson s.types), ("directives", listJson directiveJson s.directives)])]

section

variable {writes : α → Json → Prop} {valueOf : α → Json} (hwrites : ∀ a, writes a (valueOf a))

include hwrites

theorem writesNullable_of_stands {x : Option α} (h : Stands key (nullableJson valueOf x) fs) :
    WritesNullable writes key fs x := by
  cases x with
  | none => exact .null h
  | some a => exact .value h (hwrites a)

theorem writesProperList_of_stands {as : List α} (h : Stands key (listJson valueOf as) fs) :
    WritesProperList writes key fs as :=
  .items h (List.forall₂_map_right_iff.mpr (List.forall₂_same.mpr fun a _ => hwrites a))

theorem writesList_of_stands {as : List α} (h : Stands key (listJson valueOf as) fs) :
    WritesList writes key fs as :=
  .proper (writesProperList_of_stands hwrites h)

end

theorem writesText_str (s : String) : WritesText s (.str s) := rfl

theorem writesText_of_stands {x : Option String} (h : Stands key (nullableJson .str x) fs) :
    WritesNullable WritesText key fs x :=
  writesNullable_of_stands writesText_str h

theorem writesRef_json (r : TypeRef) : WritesRef r (refJson r) := by
  induction r with
  | leaf k n =>
    exact .leaf ⟨"kind", rfl⟩ (writesText_of_stands ⟨"name", rfl⟩) (.inr ⟨"ofType", rfl⟩)
  | around k n r ih =>
    exact .around ⟨"kind", rfl⟩ (writesText_of_stands ⟨"name", rfl⟩) ⟨"ofType", rfl⟩ ih

theorem writesArgument_json (a : Argument) : AsObject WritesArgument a (argumentJson a) :=
  ⟨_, rfl, {
    name := ⟨"name", rfl⟩
    description := writesText_of_stands ⟨"description", rfl⟩
    type := ⟨_, ⟨"type", rfl⟩, writesRef_json a.type⟩
    fallback := .inl ⟨"defaultValue", rfl⟩ }⟩

theorem writesEnumValue_json (e : EnumValue) : AsObject WritesEnumValue e (enumValueJson e) :=
  ⟨_, rfl, {
    name := ⟨"name", rfl⟩
    description := writesText_of_stands ⟨"description", rfl⟩
    isDeprecated := ⟨"isDeprecated", rfl⟩
    reason := writesText_of_stands ⟨"deprecationReason", rfl⟩ }⟩

theorem writesField_json (f : Field) : AsObject WritesField f (fieldJson f) :=
  ⟨_, rfl, {
    name := ⟨"name", rfl⟩
    description := writesText_of_stands ⟨"description", rfl⟩
    type := ⟨_, ⟨"type", rfl⟩, writesRef_json f.type⟩
    arguments := writesList_of_stands writesArgument_json ⟨"args", rfl⟩
    isDeprecated := ⟨"isDeprecated", rfl⟩
    reason := writesText_of_stands ⟨"deprecationReason", rfl⟩ }⟩

theorem writesType_json (t : TypeDefinition) : AsObject WritesType t (typeJson t) :=
  ⟨_, rfl, {
    kind := ⟨"kind", rfl⟩
    name := ⟨"name", rfl⟩
    description := writesText_of_stands ⟨"description", rfl⟩
    fields := writesList_of_stands writesField_json ⟨"fields", rfl⟩
    inputFields := writesList_of_stands writesArgument_json ⟨"inputFields", rfl⟩
    interfaces := writesList_of_stands writesRef_json ⟨"interfaces", rfl⟩
    enumValues := writesList_of_stands writesEnumValue_json ⟨"enumValues", rfl⟩
    possibleTypes := writesList_of_stands writesRef_json ⟨"possibleTypes", rfl⟩ }⟩

theorem writesDirective_json (d : DirectiveDefinition) :
    AsObject WritesDirective d (directiveJson d) :=
  ⟨_, rfl, {
    name := ⟨"name", rfl⟩
    description := writesText_of_stands ⟨"description", rfl⟩
    locations := writesList_of_stands writesText_str ⟨"locations", rfl⟩
    arguments := writesList_of_stands writesArgument_json ⟨"args", rfl⟩ }⟩

theorem writesRoot_json (name : String) : AsObject WritesRoot name (rootJson name) :=
  ⟨_, rfl, "name", rfl⟩

/-- Every schema can be written. -/
theorem writesDocument_json (s : Schema) : WritesDocument s s.json :=
  .bare ⟨_, rfl, {
    queryType := writesNullable_of_stands writesRoot_json ⟨"queryType", rfl⟩
    mutationType := writesNullable_of_stands writesRoot_json ⟨"mutationType", rfl⟩
    subscriptionType := writesNullable_of_stands writesRoot_json ⟨"subscriptionType", rfl⟩
    types := writesProperList_of_stands writesType_json ⟨"types", rfl⟩
    directives := writesList_of_stands writesDirective_json ⟨"directives", rfl⟩ }⟩

/-- **Reading undoes writing.** Every schema can be written. Each text of a document that writes it,
and so the one that is made of a plain document, is read as that schema: whichever form the keys of
the document have, whether what is null or empty is written or left out, whatever other keys its
objects have, and whether it stands on its own or in a response. -/
theorem reading_undoes_writing (s : Schema) :
    WritesDocument s s.json ∧
      ∀ document, WritesDocument s document →
        (∀ content, Json.ofText? content = some document → ofText content = .ok s) ∧
          (document.isPlain = true → ofText (Json.text document) = .ok s) := by
  have hread : ∀ document, WritesDocument s document →
      ∀ content, Json.ofText? content = some document → ofText content = .ok s := by
    intro document h content hcontent
    rw [ofText, hcontent]
    exact document_of_writes h
  refine ⟨writesDocument_json s, fun document h => ⟨hread document h, fun hplain => ?_⟩⟩
  exact hread document h _ (Json.ofText?_text hplain)

/-! ### A response in both forms of keys -/

/-- A moment as an argument. -/
def momentArgument : Argument :=
  ⟨"at", none, .leaf .scalar (some "Int"), .str "1"⟩

/-- A profile as a field that should be avoided. -/
def profileField : Field :=
  ⟨"profile", some "Use \"user\".", .around .nonNull none (.leaf .scalar (some "ID")),
    [momentArgument], true, none⟩

/-- The type of the field. -/
def profileType : TypeDefinition :=
  ⟨.object, "Query", none, [profileField], [], [], [], []⟩

/-- A directive on fields. -/
def deferDirective : DirectiveDefinition :=
  ⟨"defer", none, ["FIELD"], []⟩

/-- The schema of profiles. -/
def profileSchema : Schema where
  queryType := some "Query"
  mutationType := none
  subscriptionType := none
  types := [profileType]
  directives := [deferDirective]

/-- The argument in full. -/
def momentFields : List (String × Json) :=
  [("defaultValue", .str "1"), ("name", .str "at"),
    ("type", .obj [("kind", .str "SCALAR"), ("name", .str "Int"), ("ofType", .null)])]

/-- The field with keys in both forms and one that is unknown. -/
def profileFields : List (String × Json) :=
  [("name", .str "profile"), ("description", .str "Use \"user\"."), ("cost", .int 3),
    ("is_deprecated", .bool true), ("deprecationReason", .null),
    ("type", .obj [("kind", .str "NON_NULL"),
      ("of_type", .obj [("kind", .str "SCALAR"), ("name", .str "ID")])]),
    ("args", .arr [.obj momentFields])]

/-- The type with an empty list as null, one as it is and others left out. -/
def profileTypeFields : List (String × Json) :=
  [("name", .str "Query"), ("kind", .str "OBJECT"), ("input_fields", .null),
    ("fields", .arr [.obj profileFields]), ("interfaces", .arr [])]

/-- The directive with a key that is unknown. -/
def deferFields : List (String × Json) :=
  [("name", .str "defer"), ("isRepeatable", .bool false), ("locations", .arr [.str "FIELD"]),
    ("args", .null)]

/-- A response with the schema. -/
def profileResponse : Json :=
  .obj [("data", .obj [("__schema", .obj [
    ("query_type", .obj [("kind", .str "OBJECT"), ("name", .str "Query")]), ("mutationType", .null),
    ("types", .arr [.obj profileTypeFields]), ("directives", .arr [.obj deferFields])])])]

theorem momentFields_writes : WritesArgument momentArgument momentFields where
  name := ⟨"name", rfl⟩
  description := .missing rfl
  type := ⟨_, ⟨"type", rfl⟩, .leaf ⟨"kind", rfl⟩ (.value ⟨"name", rfl⟩ rfl) (.inr ⟨"ofType", rfl⟩)⟩
  fallback := .inl ⟨"defaultValue", rfl⟩

theorem profileFields_writes : WritesField profileField profileFields where
  name := ⟨"name", rfl⟩
  description := .value ⟨"description", rfl⟩ rfl
  type := ⟨_, ⟨"type", rfl⟩, .around ⟨"kind", rfl⟩ (.missing rfl) ⟨"of_type", rfl⟩
    (.leaf ⟨"kind", rfl⟩ (.value ⟨"name", rfl⟩ rfl) (.inl rfl))⟩
  arguments := .proper (.items ⟨"args", rfl⟩ (.cons ⟨_, rfl, momentFields_writes⟩ .nil))
  isDeprecated := ⟨"is_deprecated", rfl⟩
  reason := .null ⟨"deprecationReason", rfl⟩

theorem profileTypeFields_writes : WritesType profileType profileTypeFields where
  kind := ⟨"kind", rfl⟩
  name := ⟨"name", rfl⟩
  description := .missing rfl
  fields := .proper (.items ⟨"fields", rfl⟩ (.cons ⟨_, rfl, profileFields_writes⟩ .nil))
  inputFields := .null ⟨"input_fields", rfl⟩
  interfaces := .proper (.items ⟨"interfaces", rfl⟩ .nil)
  enumValues := .proper (.missing rfl)
  possibleTypes := .proper (.missing rfl)

theorem deferFields_writes : WritesDirective deferDirective deferFields where
  name := ⟨"name", rfl⟩
  description := .missing rfl
  locations := .proper (.items ⟨"locations", rfl⟩ (.cons rfl .nil))
  arguments := .null ⟨"args", rfl⟩

theorem profileResponse_writes : WritesDocument profileSchema profileResponse :=
  .response ⟨_, rfl, {
    queryType := .value ⟨"query_type", rfl⟩ ⟨_, rfl, "name", rfl⟩
    mutationType := .null ⟨"mutationType", rfl⟩
    subscriptionType := .missing rfl
    types := .items ⟨"types", rfl⟩ (.cons ⟨_, rfl, profileTypeFields_writes⟩ .nil)
    directives := .proper (.items ⟨"directives", rfl⟩ (.cons ⟨_, rfl, deferFields_writes⟩ .nil)) }⟩

/-- The text of the response is read as the schema. -/
theorem profile_reads :
    WritesDocument profileSchema profileResponse ∧ profileResponse.isPlain = true ∧
      Json.ofText? (Json.text profileResponse) = some profileResponse ∧
      ofText (Json.text profileResponse) = .ok profileSchema := by
  have hplain : profileResponse.isPlain = true := by decide +kernel
  have htext := Json.ofText?_text hplain
  obtain ⟨-, hread⟩ := reading_undoes_writing profileSchema
  exact ⟨profileResponse_writes, hplain, htext,
    (hread profileResponse profileResponse_writes).1 _ htext⟩

end Bindery.Schema
