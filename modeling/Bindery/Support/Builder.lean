/-!
# The support text of builders

The lines of the support text about the builders of queries.
-/

namespace Bindery.Support

/-- How a builder changes. -/
def changingLines : List String :=
  ["",
    "class GraphQlQueryBuilder(Generic[TQueryBuilder]):",
    "    \"\"\"Accumulates a selection for one GraphQL type and renders it as query text.\"\"\"",
    "",
    "    GRAPHQL_TYPE_NAME: ClassVar[str] = \"\"",
    "    ALL_FIELDS: ClassVar[tuple[GraphQlFieldMetadata, ...]] = ()",
    "    FRAGMENT_TYPES: ClassVar[tuple[str, ...]] = ()",
    "    INDENTATION_SIZE: ClassVar[int] = 2",
    "",
    "    def __init__(self, operation_type: Optional[str] = None, operation_name: Optional[str] = None):",
    "        if operation_type is not None and operation_type not in OPERATION_TYPES:",
    "            raise ValueError(f\"invalid operation type: \x7boperation_type!r\x7d\")",
    "        if operation_name is not None:",
    "            if operation_type is None:",
    "                raise ValueError(\"an operation name requires an operation type\")",
    "            _validate_name(operation_name, \"operation name\")",
    "        self._operation_type = operation_type",
    "        self._operation_name = operation_name",
    "        self._selection: SelectionSet[FieldSelection] = SelectionSet()",
    "        self._fragments: SelectionSet[GraphQlQueryBuilder] = SelectionSet()",
    "        self._parameters: SelectionSet[GraphQlQueryParameter] = SelectionSet()",
    "",
    "    @property",
    "    def operation_type(self) -> Optional[str]:",
    "        return self._operation_type",
    "",
    "    @property",
    "    def operation_name(self) -> Optional[str]:",
    "        return self._operation_name",
    "",
    "    def _self(self) -> TQueryBuilder:",
    "        return cast(TQueryBuilder, self)",
    "",
    "    def clear(self) -> TQueryBuilder:",
    "        self._selection.clear()",
    "        self._fragments.clear()",
    "        return self._self()",
    "",
    "    def has_selection(self) -> bool:",
    "        \"\"\"True when ``build`` would render at least one selection.\"\"\"",
    "        for selection in self._selection:",
    "            if selection.query_builder is None or selection.query_builder.has_selection():",
    "                return True",
    "        return any(fragment.has_selection() for fragment in self._fragments)",
    "",
    "    def with_all_fields(self) -> TQueryBuilder:",
    "        \"\"\"Select every field that needs no arguments, recursing into nested types.",
    "",
    "        A type is not expanded again inside its own selection, so cyclic",
    "        schemas produce a finite selection.",
    "        \"\"\"",
    "        depth_map = \x7bself.GRAPHQL_TYPE_NAME: 0\x7d",
    "        self._include_fields(self._auto_selectable_fields(), 0, depth_map)",
    "        self._include_fragments(0, depth_map)",
    "        return self._self()",
    "",
    "    def with_all_scalar_fields(self) -> TQueryBuilder:",
    "        for metadata in self._auto_selectable_fields():",
    "            if not metadata.is_complex:",
    "                self._include_scalar_field(metadata.name)",
    "        return self._self()",
    "",
    "    def with_typename(self, alias: Optional[str] = None) -> TQueryBuilder:",
    "        return self._with_scalar_field(\"__typename\", alias)",
    "",
    "    def except_field(self, field_name: str) -> TQueryBuilder:",
    "        \"\"\"Remove a selection by alias, or by field name when it has no alias.\"\"\"",
    "        if not field_name:",
    "            raise ValueError(\"field name is required\")",
    "        self._selection.remove(field_name)",
    "        return self._self()",
    "",
    "    def with_parameter(self, parameter: GraphQlQueryParameter) -> TQueryBuilder:",
    "        \"\"\"Declare an operation variable.\"\"\"",
    "        if self._operation_type is None:",
    "            raise TypeError(\"variables can only be declared on an operation builder\")",
    "        if not isinstance(parameter, GraphQlQueryParameter):",
    "            raise TypeError(\"parameter must be a GraphQlQueryParameter\")",
    "        existing = self._parameters.get(cast(str, parameter.name))",
    "        if existing is not None and existing is not parameter:",
    "            raise ValueError(f\"variable '$\x7bparameter.name\x7d' is already declared\")",
    "        self._parameters.put(cast(str, parameter.name), parameter)",
    "        return self._self()",
    "",
    "    def build(",
    "        self, formatting: Formatting = Formatting.NONE, indentation_size: Optional[int] = None",
    "    ) -> str:",
    "        settings = SerializationSettings(",
    "            formatting, self.INDENTATION_SIZE if indentation_size is None else indentation_size",
    "        )",
    "        return self._build(settings, 1)",
    "",
    "    def _with_scalar_field(",
    "        self,",
    "        field_name: str,",
    "        alias: Optional[str] = None,",
    "        directives: Iterable[Optional[GraphQlDirective]] = (),",
    "        arguments: Iterable[QueryBuilderArgumentInfo] = (),",
    "    ) -> TQueryBuilder:",
    "        self._include_scalar_field(field_name, alias, directives, arguments)",
    "        return self._self()",
    "",
    "    def _with_object_field(",
    "        self,",
    "        field_name: str,",
    "        query_builder: \"GraphQlQueryBuilder\",",
    "        alias: Optional[str] = None,",
    "        directives: Iterable[Optional[GraphQlDirective]] = (),",
    "        arguments: Iterable[QueryBuilderArgumentInfo] = (),",
    "    ) -> TQueryBuilder:",
    "        if not isinstance(query_builder, GraphQlQueryBuilder):",
    "            raise TypeError(\"query_builder must be a GraphQlQueryBuilder\")",
    "        if query_builder.operation_type is not None:",
    "            raise ValueError(\"an operation builder cannot be nested in a selection\")",
    "        self._put_selection(field_name, alias, directives, arguments, query_builder)",
    "        return self._self()",
    "",
    "    def _with_fragment(self, query_builder: \"GraphQlQueryBuilder\") -> TQueryBuilder:",
    "        if query_builder.operation_type is not None:",
    "            raise ValueError(\"an operation builder cannot be used as a fragment\")"]

/-- How a builder selects everything, and how its text is made. -/
def buildingLines : List String :=
  ["        self._fragments.put(query_builder.GRAPHQL_TYPE_NAME, query_builder)",
    "        return self._self()",
    "",
    "    def _except_fragment(self, graphql_type_name: str) -> TQueryBuilder:",
    "        self._fragments.remove(graphql_type_name)",
    "        return self._self()",
    "",
    "    def _include_scalar_field(",
    "        self,",
    "        field_name: str,",
    "        alias: Optional[str] = None,",
    "        directives: Iterable[Optional[GraphQlDirective]] = (),",
    "        arguments: Iterable[QueryBuilderArgumentInfo] = (),",
    "    ):",
    "        self._put_selection(field_name, alias, directives, arguments, None)",
    "",
    "    def _put_selection(self, field_name, alias, directives, arguments, query_builder):",
    "        if alias is not None:",
    "            _validate_name(alias, \"alias\")",
    "        selection = FieldSelection(",
    "            field_name,",
    "            alias,",
    "            tuple(argument for argument in arguments if argument.value is not None),",
    "            tuple(d for d in directives if d is not None),",
    "            query_builder,",
    "        )",
    "        self._selection.put(selection.key, selection)",
    "",
    "    def _auto_selectable_fields(self) -> list[GraphQlFieldMetadata]:",
    "        return [metadata for metadata in self.ALL_FIELDS if not metadata.requires_parameters]",
    "",
    "    def _include_fields(",
    "        self, fields: Iterable[GraphQlFieldMetadata], level: int, depth_map: dict[str, int]",
    "    ):",
    "        for metadata in fields:",
    "            if metadata.query_builder_type is None:",
    "                self._include_scalar_field(metadata.name)",
    "                continue",
    "",
    "            if self._operation_type is not None and metadata.query_builder_type == self.GRAPHQL_TYPE_NAME:",
    "                continue",
    "",
    "            child = self._expand(metadata.query_builder_type, level, depth_map)",
    "            if child is not None:",
    "                self._put_selection(metadata.name, None, (), (), child)",
    "",
    "    def _include_fragments(self, level: int, depth_map: dict[str, int]):",
    "        for graphql_type_name in self.FRAGMENT_TYPES:",
    "            fragment = self._expand(graphql_type_name, level, depth_map)",
    "            if fragment is not None:",
    "                self._fragments.put(graphql_type_name, fragment)",
    "",
    "    @staticmethod",
    "    def _expand(",
    "        graphql_type_name: str, level: int, depth_map: dict[str, int]",
    "    ) -> Optional[\"GraphQlQueryBuilder\"]:",
    "        # depth_map holds the level at which a type's own fields were expanded",
    "        recorded = depth_map.get(graphql_type_name)",
    "        if recorded is not None and recorded <= level:",
    "            return None",
    "",
    "        depth_map[graphql_type_name] = level + 1",
    "        child = QUERY_BUILDERS.create(graphql_type_name)",
    "        child._include_fields(child._auto_selectable_fields(), level + 1, depth_map)",
    "        child._include_fragments(level + 1, depth_map)",
    "        return child if child.has_selection() else None",
    "",
    "    def _build(self, settings: SerializationSettings, level: int) -> str:",
    "        items = self._render_selections(settings, level)",
    "",
    "        if settings.is_indented:",
    "            selection_set = \"\x7b\x7d\"",
    "            if items:",
    "                body = \"\".join(f\"\x7bsettings.indentation(level)\x7d\x7bitem\x7d\\n\" for item in items)",
    "                selection_set = \"\x7b\\n\" + body + settings.indentation(level - 1) + \"\x7d\"",
    "        else:",
    "            selection_set = \"\x7b\" + \",\".join(items) + \"\x7d\"",
    "",
    "        if self._operation_type is None:",
    "            return selection_set",
    "",
    "        signature = self._build_operation_signature(settings)",
    "        return signature + (\" \" if settings.is_indented else \"\") + selection_set",
    "",
    "    def _build_operation_signature(self, settings: SerializationSettings) -> str:",
    "        signature = cast(str, self._operation_type)",
    "        if self._operation_name:",
    "            signature += \" \" + self._operation_name",
    "",
    "        if len(self._parameters):",
    "            space = \" \" if settings.is_indented else \"\"",
    "            definitions = []",
    "            for parameter in self._parameters:",
    "                definition = f\"$\x7bparameter.name\x7d:\x7bspace\x7d\x7bparameter.graphql_type_name\x7d\"",
    "                if parameter.value is not None and not cast(str, parameter.graphql_type_name).endswith(\"!\"):",
    "                    definition += f\"\x7bspace\x7d=\x7bspace\x7d\" + build_argument_value(parameter.value, settings, 0)",
    "                definitions.append(definition)",
    "            signature += \"(\" + f\",\x7bspace\x7d\".join(definitions) + \")\"",
    "",
    "        return signature",
    "",
    "    def _render_selections(self, settings: SerializationSettings, level: int) -> list[str]:",
    "        fragments = []",
    "        for graphql_type_name, fragment in zip(self._fragments.keys(), self._fragments):",
    "            if fragment.has_selection():",
    "                keyword = \"... on \" if settings.is_indented else \"...on \"",
    "                space = \" \" if settings.is_indented else \"\"",
    "                fragments.append(",
    "                    f\"\x7bkeyword\x7d\x7bgraphql_type_name\x7d\x7bspace\x7d\x7bfragment._build(settings, level + 1)\x7d\"",
    "                )",
    "",
    "        items = []",
    "        if fragments and \"__typename\" not in self._selection:",
    "            items.append(\"__typename\")",
    "",
    "        for selection in self._selection:",
    "            rendered = self._render_field(selection, settings, level)",
    "            if rendered:",
    "                items.append(rendered)",
    "",
    "        items.extend(fragments)",
    "        return items",
    "",
    "    @staticmethod",
    "    def _render_field(selection: FieldSelection, settings: SerializationSettings, level: int) -> str:",
    "        query_builder = selection.query_builder",
    "        if query_builder is not None and not query_builder.has_selection():",
    "            return \"\"",
    "",
    "        space = \" \" if settings.is_indented else \"\"",
    "        text = f\"\x7bselection.alias\x7d:\x7bspace\x7d\" if selection.alias else \"\"",
    "        text += selection.name",
    "        text += _build_argument_clause(selection.arguments, settings, level)",
    "        for directive in selection.directives:",
    "            text += space + directive.build(settings, level)",
    "",
    "        if query_builder is not None:",
    "            text += space + query_builder._build(settings, level + 1)",
    "        return text"]

end Bindery.Support
