/-!
# The support text of values

The lines of the support text about settings, parameters, input objects and data models.
-/

namespace Bindery.Support

/-- Names, settings and parameters. -/
def parameterLines : List String :=
  ["",
    "def _validate_name(value: str, description: str) -> str:",
    "    if not isinstance(value, str) or not _NAME.match(value):",
    "        raise ValueError(f\"invalid \x7bdescription\x7d: \x7bvalue!r\x7d\")",
    "    return value",
    "",
    "",
    "class Formatting(enum.Enum):",
    "    NONE = \"none\"",
    "    INDENTED = \"indented\"",
    "",
    "",
    "@dataclasses.dataclass(frozen=True)",
    "class SerializationSettings:",
    "    \"\"\"Formatting options of a single ``build`` call.\"\"\"",
    "",
    "    formatting: Formatting = Formatting.NONE",
    "    indentation_size: int = 2",
    "",
    "    @property",
    "    def is_indented(self) -> bool:",
    "        return self.formatting is Formatting.INDENTED",
    "",
    "    def indentation(self, level: int) -> str:",
    "        return \" \" * (max(level, 0) * self.indentation_size)",
    "",
    "",
    "class QueryBuilderParameter(Generic[T]):",
    "    \"\"\"An argument value, or a reference to an operation variable when named.",
    "",
    "    ``None`` passed to a builder method means \"argument not provided\";",
    "    ``QueryBuilderParameter(None)`` sends an explicit ``null``.",
    "    \"\"\"",
    "",
    "    def __init__(",
    "        self,",
    "        value: Optional[T] = None,",
    "        *,",
    "        name: Optional[str] = None,",
    "        graphql_type_name: Optional[str] = None,",
    "    ):",
    "        if name is not None:",
    "            _validate_name(name, \"parameter name\")",
    "        if graphql_type_name is not None and not _TYPE_REFERENCE.match(graphql_type_name):",
    "            raise ValueError(f\"invalid GraphQL type name: \x7bgraphql_type_name!r\x7d\")",
    "        self.name = name",
    "        self.graphql_type_name = graphql_type_name",
    "        self.value = value",
    "",
    "    @property",
    "    def is_variable(self) -> bool:",
    "        return self.name is not None",
    "",
    "    @classmethod",
    "    def wrap(cls, value: Any) -> \"QueryBuilderParameter\":",
    "        return value if isinstance(value, QueryBuilderParameter) else cls(value)",
    "",
    "    def __repr__(self) -> str:",
    "        if self.is_variable:",
    "            return f\"\x7btype(self).__name__\x7d($\x7bself.name\x7d: \x7bself.graphql_type_name\x7d)\"",
    "        return f\"\x7btype(self).__name__\x7d(\x7bself.value!r\x7d)\"",
    "",
    "",
    "class GraphQlQueryParameter(QueryBuilderParameter[T]):",
    "    \"\"\"An operation variable; ``value`` becomes the default of nullable variables.\"\"\"",
    "",
    "    def __init__(self, name: str, graphql_type_name: str, value: Optional[T] = None):",
    "        if graphql_type_name is None:",
    "            raise ValueError(\"GraphQL type name is required\")",
    "        super().__init__(value, name=name, graphql_type_name=graphql_type_name)",
    "",
    "",
    "@dataclasses.dataclass(frozen=True)",
    "class QueryBuilderArgumentInfo:",
    "    name: str",
    "    value: Any",
    "    format_mask: Optional[str] = None",
    "",
    "",
    "@dataclasses.dataclass(frozen=True)",
    "class InputPropertyInfo:",
    "    name: str",
    "    value: Any",
    "    format_mask: Optional[str] = None",
    ""]

/-- Input objects and data models. -/
def inputLines : List String :=
  ["",
    "@runtime_checkable",
    "class GraphQlInputValue(Protocol):",
    "    \"\"\"Anything that can be sent as an input object literal.\"\"\"",
    "",
    "    def get_property_values(self) -> Iterable[InputPropertyInfo]: ...",
    "",
    "",
    "class InputProperty(Generic[T]):",
    "    \"\"\"Descriptor for one field of a generated input object.\"\"\"",
    "",
    "    def __init__(self, graphql_name: str, format_mask: Optional[str] = None):",
    "        self.graphql_name = graphql_name",
    "        self.format_mask = format_mask",
    "        self.attribute_name = graphql_name",
    "",
    "    def __set_name__(self, owner: type, name: str):",
    "        self.attribute_name = name",
    "",
    "    def __get__(self, instance: Any, owner: Optional[type] = None) -> Any:",
    "        if instance is None:",
    "            return self",
    "        value = instance._property_values.get(self.attribute_name)",
    "        if isinstance(value, QueryBuilderParameter) and not value.is_variable:",
    "            return value.value",
    "        return value",
    "",
    "    def __set__(self, instance: Any, value: Any):",
    "        instance._property_values[self.attribute_name] = value",
    "",
    "    def __delete__(self, instance: Any):",
    "        instance._property_values.pop(self.attribute_name, None)",
    "",
    "",
    "class GraphQlInputObject:",
    "    \"\"\"Base class of generated input objects.",
    "",
    "    Only properties that were assigned are sent; assigning ``None`` sends",
    "    ``null``. Property order follows the class body.",
    "    \"\"\"",
    "",
    "    __input_properties__: ClassVar[tuple[InputProperty, ...]] = ()",
    "",
    "    def __init_subclass__(cls, **kwargs):",
    "        super().__init_subclass__(**kwargs)",
    "        properties = list(getattr(super(cls, cls), \"__input_properties__\", ()))",
    "        properties.extend(v for v in vars(cls).values() if isinstance(v, InputProperty))",
    "        cls.__input_properties__ = tuple(properties)",
    "",
    "    def __init__(self, **values: Any):",
    "        self._property_values: dict[str, Any] = \x7b\x7d",
    "        known = \x7bp.attribute_name for p in self.__input_properties__\x7d",
    "        for name, value in values.items():",
    "            if name not in known:",
    "                raise TypeError(f\"\x7btype(self).__name__\x7d has no input property '\x7bname\x7d'\")",
    "            setattr(self, name, value)",
    "",
    "    def get_property_values(self) -> Iterator[InputPropertyInfo]:",
    "        for input_property in self.__input_properties__:",
    "            if input_property.attribute_name in self._property_values:",
    "                yield InputPropertyInfo(",
    "                    input_property.graphql_name,",
    "                    self._property_values[input_property.attribute_name],",
    "                    input_property.format_mask,",
    "                )",
    "",
    "    def __eq__(self, other: object) -> bool:",
    "        if type(other) is not type(self):",
    "            return NotImplemented",
    "        return self._property_values == cast(GraphQlInputObject, other)._property_values",
    "",
    "    def __repr__(self) -> str:",
    "        values = \", \".join(f\"\x7bk\x7d=\x7bv!r\x7d\" for k, v in self._property_values.items())",
    "        return f\"\x7btype(self).__name__\x7d(\x7bvalues\x7d)\"",
    "",
    "",
    "class GraphQlDataModel(BaseModel):",
    "    \"\"\"Base class of generated response models.\"\"\"",
    "",
    "    model_config = ConfigDict(populate_by_name=True, protected_namespaces=())",
    "",
    "",
    "class GraphQlInputDataModel(GraphQlDataModel):",
    "    \"\"\"A response model that may also be sent as an input object literal.\"\"\"",
    "",
    "    def get_property_values(self) -> Iterator[InputPropertyInfo]:",
    "        for attribute, field_info in type(self).model_fields.items():",
    "            if attribute in self.model_fields_set:",
    "                yield InputPropertyInfo(field_info.alias or attribute, getattr(self, attribute))",
    ""]

end Bindery.Support
