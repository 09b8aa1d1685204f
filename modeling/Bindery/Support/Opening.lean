/-!
# The opening of the support text

The lines of the support text up to its first class: what it is for, what it uses and exports, and
its constants.
-/

namespace Bindery.Support

/-- What the text is for. -/
def openingLines : List String :=
  ["\"\"\"Runtime support for generated GraphQL query builders.",
    "",
    "The source of this module is emitted verbatim as the base classes of every",
    "generated client, so it depends on nothing but the standard library and",
    "pydantic.",
    "",
    "Builders accumulate a selection tree and serialize it to query text:",
    "",
    "    builder = UserQueryBuilder().with_id().with_name()",
    "    builder.build()                      # '\x7bid,name\x7d'",
    "    builder.build(Formatting.INDENTED)   # '\x7b\\\\n  id\\\\n  name\\\\n\x7d'",
    "\"\"\""]

/-- What the text uses. -/
def importLines : List String :=
  ["",
    "import dataclasses",
    "import datetime",
    "import decimal",
    "import enum",
    "import math",
    "import re",
    "import uuid",
    "from collections.abc import Iterable, Iterator, Mapping",
    "from typing import (",
    "    Annotated,",
    "    Any,",
    "    Callable,",
    "    ClassVar,",
    "    Generic,",
    "    Optional,",
    "    Protocol,",
    "    TypeVar,",
    "    cast,",
    "    runtime_checkable,",
    ")",
    "",
    "from pydantic import BaseModel, ConfigDict, Field",
    ""]

/-- What the text exports. -/
def exportLines : List String :=
  ["__all__ = [",
    "    \"Int16\",",
    "    \"Int32\",",
    "    \"Int64\",",
    "    \"Formatting\",",
    "    \"SerializationSettings\",",
    "    \"QueryBuilderParameter\",",
    "    \"GraphQlQueryParameter\",",
    "    \"QueryBuilderArgumentInfo\",",
    "    \"InputPropertyInfo\",",
    "    \"GraphQlInputValue\",",
    "    \"InputProperty\",",
    "    \"GraphQlInputObject\",",
    "    \"GraphQlDataModel\",",
    "    \"GraphQlInputDataModel\",",
    "    \"GraphQlDirective\",",
    "    \"GraphQlFieldMetadata\",",
    "    \"FieldSelection\",",
    "    \"SelectionSet\",",
    "    \"QueryBuilderRegistry\",",
    "    \"QUERY_BUILDERS\",",
    "    \"GraphQlQueryBuilder\",",
    "    \"build_argument_value\",",
    "    \"escape_string\",",
    "]"]

/-- The constants of the text. -/
def constantLines : List String :=
  ["",
    "Int16 = Annotated[int, Field(ge=-(2**15), le=2**15 - 1)]",
    "Int32 = Annotated[int, Field(ge=-(2**31), le=2**31 - 1)]",
    "Int64 = Annotated[int, Field(ge=-(2**63), le=2**63 - 1)]",
    "",
    "T = TypeVar(\"T\")",
    "TValue = TypeVar(\"TValue\")",
    "TQueryBuilder = TypeVar(\"TQueryBuilder\", bound=\"GraphQlQueryBuilder\")",
    "",
    "OPERATION_TYPES = (\"query\", \"mutation\", \"subscription\")",
    "",
    "_NAME = re.compile(r\"^[_A-Za-z][_0-9A-Za-z]*$\")",
    "_TYPE_REFERENCE = re.compile(r\"^\\[*[_A-Za-z][_0-9A-Za-z]*!?(\\]!?)*$\")",
    "_WHITESPACE = re.compile(r\"\\s\")",
    "",
    "_STRING_ESCAPES = \x7b",
    "    '\"': '\\\\\"',",
    "    \"\\\\\": \"\\\\\\\\\",",
    "    \"/\": \"\\\\/\",",
    "    \"\\b\": \"\\\\b\",",
    "    \"\\f\": \"\\\\f\",",
    "    \"\\n\": \"\\\\n\",",
    "    \"\\r\": \"\\\\r\",",
    "    \"\\t\": \"\\\\t\",",
    "\x7d",
    ""]

end Bindery.Support
