import Bindery.Definition.Parser

/-!
# What every schema has

The directives that every schema understands, and the types in which a schema describes itself, as
definitions.
-/

namespace Bindery.Definition

/-- The definitions of the standard directives. -/
def standardDirectiveText : List String :=
  ["\"Directs the executor to include this field or fragment only when the `if` argument is true.\"",
    "directive @include(\"Included when true.\" if: Boolean!)",
    "  on FIELD | FRAGMENT_SPREAD | INLINE_FRAGMENT",
    "\"Directs the executor to skip this field or fragment when the `if` argument is true.\"",
    "directive @skip(\"Skipped when true.\" if: Boolean!)",
    "  on FIELD | FRAGMENT_SPREAD | INLINE_FRAGMENT",
    "\"Marks an element of a GraphQL schema as no longer supported.\"",
    "directive @deprecated(reason: String = \"No longer supported\")",
    "  on FIELD_DEFINITION | ARGUMENT_DEFINITION | INPUT_FIELD_DEFINITION | ENUM_VALUE",
    "\"Exposes a URL that specifies the behavior of this scalar.\"",
    "directive @specifiedBy(\"The URL that specifies the behavior of this scalar.\" url: String!)",
    "  on SCALAR",
    "\"Indicates an Input Object is a OneOf Input Object.\"",
    "directive @oneOf on INPUT_OBJECT"]

/-- The definitions of the types in which a schema describes itself. -/
def introspectionText : List String :=
  ["type __Schema \x7b description: String types: [__Type!]! queryType: __Type!",
    "  mutationType: __Type subscriptionType: __Type directives: [__Directive!]! \x7d",
    "type __Type \x7b kind: __TypeKind! name: String description: String specifiedByURL: String",
    "  fields(includeDeprecated: Boolean = false): [__Field!] interfaces: [__Type!]",
    "  possibleTypes: [__Type!] enumValues(includeDeprecated: Boolean = false): [__EnumValue!]",
    "  inputFields(includeDeprecated: Boolean = false): [__InputValue!] ofType: __Type",
    "  isOneOf: Boolean \x7d",
    "enum __TypeKind \x7b SCALAR OBJECT INTERFACE UNION ENUM INPUT_OBJECT LIST NON_NULL \x7d",
    "type __Field \x7b name: String! description: String",
    "  args(includeDeprecated: Boolean = false): [__InputValue!]! type: __Type!",
    "  isDeprecated: Boolean! deprecationReason: String \x7d",
    "type __InputValue \x7b name: String! description: String type: __Type! defaultValue: String",
    "  isDeprecated: Boolean! deprecationReason: String \x7d",
    "type __EnumValue \x7b name: String! description: String isDeprecated: Boolean!",
    "  deprecationReason: String \x7d",
    "type __Directive \x7b name: String! description: String isRepeatable: Boolean!",
    "  locations: [__DirectiveLocation!]! args(includeDeprecated: Boolean = false): [__InputValue!]! \x7d",
    "enum __DirectiveLocation \x7b QUERY MUTATION SUBSCRIPTION FIELD FRAGMENT_DEFINITION",
    "  FRAGMENT_SPREAD INLINE_FRAGMENT VARIABLE_DEFINITION SCHEMA SCALAR OBJECT FIELD_DEFINITION",
    "  ARGUMENT_DEFINITION INTERFACE UNION ENUM ENUM_VALUE INPUT_OBJECT INPUT_FIELD_DEFINITION \x7d"]

/-- The document of lines, empty where they are none. -/
def documentOfLines (lines : List String) : Document :=
  (document? ("\n".intercalate lines)).getD ⟨[], [], []⟩

/-- The standard directives. -/
def standardDirectives : List DirectivePart :=
  (documentOfLines standardDirectiveText).directives

/-- A scalar without a definition of its own. -/
def plainScalar (name : String) : TypePart :=
  ⟨false, .scalar, none, name, [], [], [], [], [], []⟩

/-- The standard scalars and the types in which a schema describes itself. -/
def standardTypes : List TypePart :=
  ["Int", "Float", "String", "Boolean", "ID"].map plainScalar ++
    (documentOfLines introspectionText).types

end Bindery.Definition
