/-!
# Names that classes have already

The attributes that every class of a kind has before any member is generated. A member whose name is
among them gets an underscore. Names that begin with an underscore are left out, since no member
keeps such a name.
-/

namespace Bindery.Client

/-- The attributes of every data class. -/
def dataClassNames : List String :=
  ["construct", "copy", "dict", "from_orm", "get_property_values", "json", "model_computed_fields",
    "model_config", "model_construct", "model_copy", "model_dump", "model_dump_json", "model_extra",
    "model_fields", "model_fields_set", "model_json_schema", "model_parametrized_name",
    "model_post_init", "model_rebuild", "model_validate", "model_validate_json",
    "model_validate_strings", "parse_file", "parse_obj", "parse_raw", "schema", "schema_json",
    "update_forward_refs", "validate"]

/-- The attributes of every member of an enumeration of texts. -/
def enumNames : List String :=
  ["capitalize", "casefold", "center", "count", "encode", "endswith", "expandtabs", "find", "format",
    "format_map", "index", "isalnum", "isalpha", "isascii", "isdecimal", "isdigit", "isidentifier",
    "islower", "isnumeric", "isprintable", "isspace", "istitle", "isupper", "join", "ljust", "lower",
    "lstrip", "maketrans", "mro", "name", "partition", "removeprefix", "removesuffix", "replace",
    "rfind", "rindex", "rjust", "rpartition", "rsplit", "rstrip", "split", "splitlines",
    "startswith", "strip", "swapcase", "title", "translate", "upper", "value", "zfill"]

/-- The attributes of every input class. -/
def inputClassNames : List String :=
  ["get_property_values"]

/-- The methods of every builder. -/
def builderNames : List String :=
  ["build", "clear", "except_field", "has_selection", "operation_name", "operation_type",
    "with_all_fields", "with_all_scalar_fields", "with_parameter", "with_typename"]

end Bindery.Client
