/-!
# The support text of selections

The lines of the support text about directives, selections and the registry of builders.
-/

namespace Bindery.Support

/-- Directives and fields. -/
def directiveLines : List String :=
  ["",
    "class GraphQlDirective:",
    "    \"\"\"A directive applied to a selected field.\"\"\"",
    "",
    "    def __init__(self, name: str):",
    "        self._name = _validate_name(name, \"directive name\")",
    "        self._arguments: list[QueryBuilderArgumentInfo] = []",
    "",
    "    @property",
    "    def name(self) -> str:",
    "        return self._name",
    "",
    "    @property",
    "    def arguments(self) -> tuple[QueryBuilderArgumentInfo, ...]:",
    "        return tuple(self._arguments)",
    "",
    "    def _add_argument(self, name: str, value: Any, format_mask: Optional[str] = None):",
    "        if value is not None:",
    "            self._arguments.append(QueryBuilderArgumentInfo(name, value, format_mask))",
    "",
    "    def build(self, settings: SerializationSettings, level: int) -> str:",
    "        return \"@\" + self._name + _build_argument_clause(self._arguments, settings, level)",
    "",
    "",
    "@dataclasses.dataclass(frozen=True)",
    "class GraphQlFieldMetadata:",
    "    \"\"\"Describes one field of a builder for automatic selection.\"\"\"",
    "",
    "    name: str",
    "    is_complex: bool = False",
    "    query_builder_type: Optional[str] = None",
    "    requires_parameters: bool = False",
    "",
    "",
    "@dataclasses.dataclass",
    "class FieldSelection:",
    "    name: str",
    "    alias: Optional[str] = None",
    "    arguments: tuple[QueryBuilderArgumentInfo, ...] = ()",
    "    directives: tuple[GraphQlDirective, ...] = ()",
    "    query_builder: Optional[\"GraphQlQueryBuilder\"] = None",
    "",
    "    @property",
    "    def key(self) -> str:",
    "        return self.alias or self.name",
    ""]

/-- Selections and the registry. -/
def selectionLines : List String :=
  ["",
    "class SelectionSet(Generic[TValue]):",
    "    \"\"\"Ordered association list with unique keys.",
    "",
    "    Putting an existing key replaces its value in place.",
    "    \"\"\"",
    "",
    "    def __init__(self):",
    "        self._entries: list[tuple[str, TValue]] = []",
    "",
    "    def put(self, key: str, value: TValue):",
    "        for index, (existing, _) in enumerate(self._entries):",
    "            if existing == key:",
    "                self._entries[index] = (key, value)",
    "                return",
    "        self._entries.append((key, value))",
    "",
    "    def get(self, key: str) -> Optional[TValue]:",
    "        for existing, value in self._entries:",
    "            if existing == key:",
    "                return value",
    "        return None",
    "",
    "    def remove(self, key: str) -> bool:",
    "        for index, (existing, _) in enumerate(self._entries):",
    "            if existing == key:",
    "                del self._entries[index]",
    "                return True",
    "        return False",
    "",
    "    def clear(self):",
    "        self._entries.clear()",
    "",
    "    def keys(self) -> list[str]:",
    "        return [key for key, _ in self._entries]",
    "",
    "    def __contains__(self, key: object) -> bool:",
    "        return any(existing == key for existing, _ in self._entries)",
    "",
    "    def __iter__(self) -> Iterator[TValue]:",
    "        return iter([value for _, value in self._entries])",
    "",
    "    def __len__(self) -> int:",
    "        return len(self._entries)",
    "",
    "",
    "class QueryBuilderRegistry:",
    "    \"\"\"Maps GraphQL type names to builder factories.",
    "",
    "    Generated builders register themselves:",
    "",
    "        @QUERY_BUILDERS.register(GraphQlTypes.USER)",
    "        class UserQueryBuilder(GraphQlQueryBuilder[\"UserQueryBuilder\"]): ...",
    "    \"\"\"",
    "",
    "    def __init__(self):",
    "        self._factories: dict[str, Callable[[], \"GraphQlQueryBuilder\"]] = \x7b\x7d",
    "",
    "    def register(self, graphql_type_name: str):",
    "        def decorator(factory):",
    "            self._factories[graphql_type_name] = factory",
    "            return factory",
    "",
    "        return decorator",
    "",
    "    def create(self, graphql_type_name: str) -> \"GraphQlQueryBuilder\":",
    "        try:",
    "            factory = self._factories[graphql_type_name]",
    "        except KeyError:",
    "            raise LookupError(",
    "                f\"no query builder registered for GraphQL type '\x7bgraphql_type_name\x7d'\"",
    "            ) from None",
    "        return factory()",
    "",
    "    def __contains__(self, graphql_type_name: object) -> bool:",
    "        return graphql_type_name in self._factories",
    "",
    "",
    "QUERY_BUILDERS = QueryBuilderRegistry()",
    ""]

end Bindery.Support
