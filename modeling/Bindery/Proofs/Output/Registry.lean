import Bindery.Proofs.Client.Metadata
import Bindery.Proofs.Output.Written

/-!
# Builders that find each other

A client whose generation comes to its end has a builder for each type that its builders refer to:
what they say about fields and fragments leads to types that are registered, under constants that
are bound to these types. So selecting everything with a builder finds all that it needs.

## What is proved

* `builders_closed` — what the builders of a client say about each other.
-/

namespace Bindery.Output

open Bindery.Schema Bindery.Client Bindery.Catalog Bindery.Query

variable {g : Generator} {c : Catalog} {s : Schema} {constants : Keyed String}

/-- **What the builders of a client say about each other.** Where generation comes to its end, the
constants of different names have different names. Each type whose values need a selection set has
one builder, which is registered under the type and names itself by its constant; what it says about
its fields and fragments leads to types that have builders. So selecting everything with a builder,
whatever it has selected before, is never refused. -/
theorem builders_closed (g : Generator) (s : Schema)
    (hnames : (s.types.map TypeDefinition.name).Nodup)
    (hgraphql : ∀ t ∈ s.types, Text.isGraphQLName t.name = true)
    (htemplates : g.templates = .empty) (hhooks : g.hooks = .none)
    (hparts : Part.queryBuilders ∈ g.parts) (hdone : (g.course s).refusal = none) :
    (typeConstants s).keys = constantNames s ∧ (typeConstants s).values.Nodup ∧
      (Part.baseClasses ∈ g.parts →
        .write (typeNamesText (typeConstants s)) ∈ (g.course s).events) ∧
      ∃ c bs, (make g.configuration s).2 = .ok c ∧
        g.members c (typeConstants s) .builders = .ok (bs.map BuilderView.member) ∧
        (∀ b ∈ bs, .write b.text ∈ (g.course s).events) ∧
        (bs.map BuilderView.typeName).Perm (s.complexTypes.map TypeDefinition.name) ∧
        (∀ b ∈ bs, Refers (typeConstants s) bs b) ∧
        (∀ b ∈ bs, ∀ d : Draft, d.cls = b.shared → (d.withAll (registryOf bs)).2 = none) ∧
        ∀ cls l, Classes.ofCatalog c = .ok cls → cls.load = .ok l →
          cls.builders = bs ∧ l.registry = registryOf bs := by
  obtain ⟨c, hmake, hwritten⟩ := Generator.written_of_course hdone
  rw [hhooks] at hmake
  change (make g.configuration s).2 = .ok c at hmake
  obtain ⟨hschema, -⟩ := schema_of_make hmake
  rw [hschema] at hwritten
  refine ⟨keys_typeConstants hnames, nodup_values_typeConstants hnames, fun hbase => ?_, ?_⟩
  · obtain ⟨ms, hms, hevents⟩ := hwritten .typeNames (Generator.mem_selectedPhases.mpr hbase)
    cases hms
    have hevent := Generator.write_mem_of_infix hhooks (hevents _ (List.mem_singleton_self _))
    rwa [Generator.styled_eq htemplates] at hevent
  · obtain ⟨ms, hms, hevents⟩ := hwritten .builders (Generator.mem_selectedPhases.mpr hparts)
    obtain ⟨bs, hbs, hmembers⟩ := map_eq_ok.mp hms
    simp only [Generator.styled_eq htemplates] at hmembers
    have hrefers := refers_of_builderViews hnames hgraphql hmake hbs
    refine ⟨c, bs, hmake, hms.trans (congrArg Except.ok hmembers.symm), fun b hb => ?_,
      builderViews_typeNames hmake hbs, hrefers, fun b hb d hd => withAll_of_refers hrefers hb hd,
      fun cls l hcls hload => ?_⟩
    · refine Generator.write_mem_of_infix (m := b.member) hhooks (hevents _ ?_)
      rw [← hmembers]
      exact List.mem_map_of_mem hb
    · have hbuilders := (ofCatalog_eq_ok.mp hcls).builders
      rw [hschema, hbs] at hbuilders
      cases hbuilders
      obtain ⟨declared, -, hload⟩ := bind_eq_ok.mp hload
      obtain ⟨-, -, hload⟩ := bind_eq_ok.mp hload
      cases pure_eq_ok.mp hload
      exact ⟨rfl, rfl⟩

/-! ### Users and their friends -/

/-- Users, who have friends. -/
def userSchema : Schema where
  queryType := none
  mutationType := none
  subscriptionType := none
  types :=
    [⟨.object, "User", none, [⟨"friend", none, .leaf .object (some "User"), [], false, none⟩], [], [],
      [], []⟩]
  directives := []

/-- The catalog of the schema. -/
def userCatalog : Catalog where
  configuration := {}
  schema := userSchema
  types := byName userSchema.types
  complex := byName userSchema.complexTypes
  directives := .empty
  memberships := .empty
  renamed := .empty
  referenced := []

/-- The class of the builder of users. -/
def userBuilder : BuilderView where
  className := "UserQueryBuilder"
  typeName := "User"
  constant := "USER"
  description := ""
  indentation := 2
  operation := none
  metadata := [⟨"friend", some "USER", some "User", false⟩]
  fields := [⟨"friend", "with_friend", "except_friend", some "UserQueryBuilder", [], [], ""⟩]
  fragments := []
  typeImports := ["UserQueryBuilder"]

/-- A generator of builders. -/
def builderGenerator : Generator where
  configuration := {}
  parts := [.queryBuilders]

theorem make_user : (make {} userSchema).2 = .ok userCatalog := by
  cbv

theorem user_builderViews : builderViews userCatalog (typeConstants userSchema) = .ok [userBuilder] :=
  eq_ok_of_toOption (by decide +kernel)

/-- The characters of lines, each with a line feed at its end. -/
theorem toList_linesText (lines : List String) :
    (linesText lines).toList = lines.flatMap fun l => l.toList ++ ['\n'] := by
  simp [linesText, List.flatMap_map]

theorem toList_linesText_nil : (linesText []).toList = [] := by
  rw [toList_linesText]
  rfl

theorem toList_linesText_cons {line cs : List Char} {lines : List String}
    (h : (linesText lines).toList = cs) :
    (linesText (String.ofList line :: lines)).toList = line ++ '\n' :: cs := by
  rw [toList_linesText] at h ⊢
  rw [List.flatMap_cons, String.toList_ofList, h, List.append_assoc]
  rfl

/-- A text is a program if its characters are those of one. For a text that is written out, the
lemmas above list them, so that nothing has to decode it. -/
theorem isProgram_of_toList {text : String} {cs : List Char} (hcs : text.toList = cs)
    (h : (Source.tokens? cs).any (fun ts => Source.isStatements ts &&
      (Source.formattedIn ts).all fun e => Source.isFormattedPart (e.length + 1) e) = true) :
    Source.isProgram text = true := by
  rw [Source.isProgram, hcs]
  cases htokens : Source.tokens? cs with
  | none => simp [htokens] at h
  | some ts => simpa [htokens] using h

theorem userBuilder_text : userBuilder.text = linesText
    ["@QUERY_BUILDERS.register(GraphQlTypes.USER)",
      "class UserQueryBuilder(GraphQlQueryBuilder[\"UserQueryBuilder\"]):",
      "    GRAPHQL_TYPE_NAME = GraphQlTypes.USER",
      "    INDENTATION_SIZE = 2",
      "    ALL_FIELDS = (",
      "        GraphQlFieldMetadata('friend', is_complex=True, query_builder_type=GraphQlTypes.USER),",
      "    )",
      "",
      "    def with_friend(self, query_builder: UserQueryBuilder, alias: Optional[str] = None) -> UserQueryBuilder:",
      "        return self._with_object_field(",
      "            'friend',",
      "            query_builder,",
      "            alias,",
      "            (),",
      "        )",
      "",
      "    def except_friend(self) -> UserQueryBuilder:",
      "        return self.except_field('friend')"] := by
  rfl

/-- The class of the builder of users is a program. -/
theorem userBuilder_isProgram : Source.isProgram userBuilder.text = true := by
  rw [userBuilder_text]
  apply isProgram_of_toList
  case hcs =>
    repeat apply toList_linesText_cons
    exact toList_linesText_nil
  case h => decide +kernel

theorem user_done : (builderGenerator.course userSchema).refusal = none := by
  refine Generator.refusal_eq_none (c := userCatalog) make_user fun phase hphase => ?_
  have hphases : selectedPhases builderGenerator.parts = [.directives, .builders] := by decide
  rw [hphases, List.mem_cons, List.mem_singleton] at hphase
  rcases hphase with rfl | rfl
  · exact ⟨[], rfl, List.forall_mem_nil _⟩
  · refine ⟨[userBuilder.member], congrArg (Except.map _) user_builderViews, ?_⟩
    exact List.forall_mem_singleton.mpr userBuilder_isProgram

theorem user_closed :
    (userSchema.types.map TypeDefinition.name).Nodup ∧
      (∀ t ∈ userSchema.types, Text.isGraphQLName t.name = true) ∧
      builderGenerator.templates = .empty ∧ builderGenerator.hooks = .none ∧
      Part.queryBuilders ∈ builderGenerator.parts ∧
      (builderGenerator.course userSchema).refusal = none ∧
      (typeConstants userSchema).keys = constantNames userSchema ∧
      (typeConstants userSchema).values.Nodup ∧
      ∃ c bs, (make builderGenerator.configuration userSchema).2 = .ok c ∧
        builderGenerator.members c (typeConstants userSchema) .builders =
          .ok (bs.map BuilderView.member) ∧
        (bs.map BuilderView.typeName).Perm (userSchema.complexTypes.map TypeDefinition.name) ∧
        ∀ b ∈ bs, Refers (typeConstants userSchema) bs b ∧
          ∀ d : Draft, d.cls = b.shared → (d.withAll (registryOf bs)).2 = none := by
  have hnames : (userSchema.types.map TypeDefinition.name).Nodup := by decide
  have hgraphql : ∀ t ∈ userSchema.types, Text.isGraphQLName t.name = true := by decide
  have hparts : Part.queryBuilders ∈ builderGenerator.parts := by decide
  obtain ⟨hkeys, hvalues, -, c, bs, hmake, hmembers, -, htypes, hrefers, hall, -⟩ :=
    builders_closed builderGenerator userSchema hnames hgraphql rfl rfl hparts user_done
  exact ⟨hnames, hgraphql, rfl, rfl, hparts, user_done, hkeys, hvalues, c, bs, hmake, hmembers, htypes,
    fun b hb => ⟨hrefers b hb, hall b hb⟩⟩

end Bindery.Output
