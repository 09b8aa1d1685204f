/-!
# The support text of arguments

The lines of the support text that write values as arguments.
-/

namespace Bindery.Support

/-- The text of argument values. -/
def argumentLines : List String :=
  ["",
    "def escape_string(value: str) -> str:",
    "    \"\"\"Quote ``value`` as a GraphQL string literal.\"\"\"",
    "    chars = []",
    "    for char in value:",
    "        escaped = _STRING_ESCAPES.get(char)",
    "        if escaped is None and ord(char) < 0x20:",
    "            escaped = f\"\\\\u\x7bord(char):04x\x7d\"",
    "        chars.append(char if escaped is None else escaped)",
    "    return '\"' + \"\".join(chars) + '\"'",
    "",
    "",
    "def _build_sequence(",
    "    items: list[str], settings: SerializationSettings, level: int, opening: str, closing: str",
    ") -> str:",
    "    if not items:",
    "        return opening + closing",
    "    if not settings.is_indented:",
    "        return opening + \",\".join(items) + closing",
    "    indentation = settings.indentation(level + 1)",
    "    body = \",\\n\".join(indentation + item for item in items)",
    "    return f\"\x7bopening\x7d\\n\x7bbody\x7d\\n\x7bsettings.indentation(level)\x7d\x7bclosing\x7d\"",
    "",
    "",
    "def _build_object(",
    "    properties: Iterable[tuple[str, Any, Optional[str]]],",
    "    settings: SerializationSettings,",
    "    level: int,",
    ") -> str:",
    "    separator = \": \" if settings.is_indented else \":\"",
    "    items = [",
    "        f\"\x7bname\x7d\x7bseparator\x7d\x7bbuild_argument_value(value, settings, level + 1, format_mask)\x7d\"",
    "        for name, value, format_mask in properties",
    "    ]",
    "    return _build_sequence(items, settings, level, \"\x7b\", \"\x7d\")",
    "",
    "",
    "def _mapping_properties(mapping: Mapping) -> Iterator[tuple[str, Any, None]]:",
    "    for key, value in mapping.items():",
    "        key = str(key)",
    "        if _WHITESPACE.search(key):",
    "            raise ValueError(",
    "                f\"object keys used as GraphQL arguments must not contain whitespace; key: \x7bkey\x7d\"",
    "            )",
    "        yield key, value, None",
    "",
    "",
    "def build_argument_value(",
    "    value: Any,",
    "    settings: SerializationSettings,",
    "    level: int = 0,",
    "    format_mask: Optional[str] = None,",
    ") -> str:",
    "    \"\"\"Encode a Python value as a GraphQL argument literal.",
    "",
    "    ``level`` is the indentation level of the line the literal starts on.",
    "    \"\"\"",
    "    if isinstance(value, QueryBuilderParameter):",
    "        if value.is_variable:",
    "            return \"$\" + cast(str, value.name)",
    "        return build_argument_value(value.value, settings, level, format_mask)",
    "",
    "    if value is None:",
    "        return \"null\"",
    "",
    "    if isinstance(value, enum.Enum):",
    "        return str(value.value)",
    "",
    "    if isinstance(value, bool):",
    "        return \"true\" if value else \"false\"",
    "",
    "    if isinstance(value, (datetime.date, datetime.time)):",
    "        text = value.strftime(format_mask) if format_mask else value.isoformat()",
    "        return escape_string(text)",
    "",
    "    if isinstance(value, GraphQlInputValue):",
    "        properties = (",
    "            (info.name, info.value, info.format_mask) for info in value.get_property_values()",
    "        )",
    "        return _build_object(properties, settings, level)",
    "",
    "    if isinstance(value, (str, uuid.UUID)):",
    "        return escape_string(str(value))",
    "",
    "    if isinstance(value, Mapping):",
    "        return _build_object(_mapping_properties(value), settings, level)",
    "",
    "    if isinstance(value, (int, decimal.Decimal)):",
    "        return str(value)",
    "",
    "    if isinstance(value, float):",
    "        if not math.isfinite(value):",
    "            raise ValueError(f\"\x7bvalue\x7d cannot be represented as a GraphQL float\")",
    "        return repr(value)",
    "",
    "    if isinstance(value, Iterable) and not isinstance(value, (bytes, bytearray)):",
    "        items = [build_argument_value(item, settings, level + 1, format_mask) for item in value]",
    "        return _build_sequence(items, settings, level, \"[\", \"]\")",
    "",
    "    return escape_string(str(value))",
    "",
    "",
    "def _build_argument_clause(",
    "    arguments: Iterable[QueryBuilderArgumentInfo], settings: SerializationSettings, level: int",
    ") -> str:",
    "    space = \" \" if settings.is_indented else \"\"",
    "    rendered = [",
    "        f\"\x7bargument.name\x7d:\x7bspace\x7d\"",
    "        + build_argument_value(argument.value, settings, level, argument.format_mask)",
    "        for argument in arguments",
    "    ]",
    "    if not rendered:",
    "        return \"\"",
    "    return \"(\" + f\",\x7bspace\x7d\".join(rendered) + \")\"",
    ""]

end Bindery.Support
