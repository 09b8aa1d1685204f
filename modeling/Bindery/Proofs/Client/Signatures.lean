import Bindery.Client.Call
import Bindery.Proofs.Label.Safe
import Bindery.Proofs.Result

/-!
# The heads of methods

A method that selects a field takes the object, a builder for a field that needs a selection set, the
arguments of the field, an alias and, by their names only, directives. The class of a directive is
made from the object and the arguments of the directive. Arguments that must be given stand first.
Their names are made unique: behind the fixed names of a method, but behind no name in the class of a
directive, where an argument can so take the name of the object.

## What is proved

* `headLine_mem_lines` — the heads are those that are written.
* `FieldMethods.signature_head` — calls are bound to what the head of a method says.
* `map_parametersInOrder`, `map_directiveParameters` — the names of parameters are unique labels.
* `isOrdered_head` — no parameter that must be given stands behind one that need not.
* `load_eq_repeatedParameter` — a client in which names in a head do not differ cannot be loaded.
* `heads_wellFormed` — the names in the head of a method differ, and those in the head of the class of
  a directive do unless an argument is called like the object.
-/

namespace Bindery.Client

open Bindery.Schema Bindery.Label Bindery.Text

/-! ### Heads -/

/-- A parameter as it stands in the head of a method. -/
structure Formal where
  /-- The name. -/
  name : String
  /-- The expression of its type. -/
  annotation : String
  /-- Must it be given? One that need not has a default. -/
  isRequired : Bool
  deriving DecidableEq, Repr

/-- The text of the parameter behind others. -/
def Formal.text (p : Formal) : String :=
  ", " ++ p.name ++ ": " ++ p.annotation ++ if p.isRequired then "" else " = None"

/-- The parameters of a method behind the object. -/
structure Head where
  /-- The parameters that can be given by their place. -/
  positional : List Formal
  /-- The parameters that can be given by their name only. -/
  named : List Formal
  deriving DecidableEq, Repr

namespace Head

/-- The names of all parameters in their order. -/
def names (h : Head) : List String :=
  selfName :: (h.positional ++ h.named).map Formal.name

/-- No parameter without a default stands behind one with a default that can be given by its place. -/
def IsOrdered (h : Head) : Prop :=
  h.positional.Pairwise fun p q => q.isRequired = true → p.isRequired = true

/-- The text of the parameters; a star stands before those that can be given by their name only. -/
def text (h : Head) : String :=
  "(" ++ selfName ++ String.join (h.positional.map Formal.text) ++
    (if h.named.isEmpty then "" else ", *" ++ String.join (h.named.map Formal.text)) ++ ")"

/-- What a call of the method on an object is bound to. -/
def signature (h : Head) : Signature :=
  ⟨h.positional.map fun p => (p.name, p.isRequired), h.named.map Formal.name⟩

end Head

/-- The parameter for an argument as it stands in a head. -/
def Parameter.formal (p : Parameter) : Formal :=
  ⟨p.parameter, p.annotation, p.isRequired⟩

/-- The head of the method that selects the field. -/
def FieldMethods.head (m : FieldMethods) : Head where
  positional := (m.builder.map fun b => ⟨builderParameter, b, true⟩).toList ++
    m.parameters.map Parameter.formal ++ [⟨"alias", "Optional[str]", false⟩]
  named := m.directives.map fun d => ⟨d.1, "Optional[" ++ d.2 ++ "]", false⟩

/-- The head of the method that makes a directive. -/
def DirectiveClass.head (k : DirectiveClass) : Head where
  positional := k.parameters.map Parameter.formal
  named := []

/-- The line with the head of the method in a class of the given name. -/
def FieldMethods.headLine (cls : String) (m : FieldMethods) : String :=
  "    def " ++ m.withMethod ++ m.head.text ++ " -> " ++ cls ++ ":"

/-- The line with the head of the method that makes a directive. -/
def DirectiveClass.headLine (k : DirectiveClass) : String :=
  "    def __init__" ++ k.head.text ++ ":"

/-- The lines of the class of a directive. -/
def DirectiveClass.lines (k : DirectiveClass) : List String :=
  ["class " ++ k.className ++ "(GraphQlDirective):"] ++ descriptionLines k.description ++
    ["    def __init__(self" ++ String.join (k.parameters.map Parameter.text) ++ "):",
      "        super().__init__(" ++ quoted k.directiveName ++ ")"] ++
    k.parameters.map Parameter.addLine

theorem DirectiveClass.text_eq (k : DirectiveClass) : k.text = linesText k.lines := rfl

variable {c : Catalog} {owner : String} {f : Field} {m : FieldMethods} {d : DirectiveDefinition}
  {k : DirectiveClass} {as : List Argument} {ps : List Parameter} {used used' : List String}

/-! ### What is written -/

theorem text_builderFormal (cls : String) :
    Formal.text ⟨builderParameter, cls, true⟩ = ", query_builder: " ++ cls := by
  simp [Formal.text, builderParameter]

theorem text_directiveFormal (name cls : String) :
    Formal.text ⟨name, "Optional[" ++ cls ++ "]", false⟩ =
      ", " ++ name ++ ": Optional[" ++ cls ++ "] = None" := by
  have hopen : ": Optional[" = ": " ++ "Optional[" := by decide
  have hclose : "] = None" = "]" ++ " = None" := by decide
  simp only [Formal.text, hopen, hclose, String.append_assoc, Bool.false_eq_true, if_false]

theorem FieldMethods.text_head (m : FieldMethods) : m.head.text = "(self" ++
    (m.builder.map fun b => ", query_builder: " ++ b).getD "" ++
      String.join (m.parameters.map Parameter.text) ++ ", alias: Optional[str] = None" ++
      directiveText m.directives ++ ")" := by
  have hself : "(" ++ selfName = "(self" := by decide
  have halias : Formal.text ⟨"alias", "Optional[str]", false⟩ = ", alias: Optional[str] = None" := by
    decide
  have hbuilder : String.join (((m.builder.map fun b => ⟨builderParameter, b, true⟩).toList).map
      Formal.text) = (m.builder.map fun b => ", query_builder: " ++ b).getD "" := by
    cases m.builder with
    | none => simp
    | some b => simp [text_builderFormal]
  have hdirectives : (if m.head.named.isEmpty then "" else
      ", *" ++ String.join (m.head.named.map Formal.text)) = directiveText m.directives := by
    simp [FieldMethods.head, directiveText, Function.comp_def, text_directiveFormal]
  have hparameters : (m.parameters.map Parameter.formal).map Formal.text =
      m.parameters.map Parameter.text := List.map_map
  rw [Head.text, hself, hdirectives, FieldMethods.head, List.map_append, List.map_append,
    String.join_append, String.join_append, hbuilder, hparameters, List.map_singleton, halias]
  simp only [String.join_cons, String.join_nil, String.append_empty, String.append_assoc]

theorem FieldMethods.headLine_mem_lines (cls : String) (m : FieldMethods) :
    m.headLine cls ∈ m.lines cls := by
  have hclose : ") -> " = ")" ++ " -> " := by decide
  have hline : m.headLine cls = "    def " ++ m.withMethod ++ "(self" ++
      (m.builder.map fun b => ", query_builder: " ++ b).getD "" ++
      String.join (m.parameters.map Parameter.text) ++ ", alias: Optional[str] = None" ++
      directiveText m.directives ++ ") -> " ++ cls ++ ":" := by
    simp only [FieldMethods.headLine, FieldMethods.text_head, hclose, String.append_assoc]
  simp only [hline, FieldMethods.lines, List.mem_append, List.mem_cons, true_or, or_true]

theorem DirectiveClass.text_head (k : DirectiveClass) : k.head.text =
    "(" ++ selfName ++ String.join (k.parameters.map Parameter.text) ++ ")" := by
  rw [Head.text, DirectiveClass.head, List.map_map]
  exact congrArg (· ++ ")") String.append_empty

theorem DirectiveClass.headLine_mem_lines (k : DirectiveClass) : k.headLine ∈ k.lines := by
  have hself : "    def __init__" ++ ("(" ++ selfName) = "    def __init__(self" := by decide
  have hclose : ")" ++ ":" = "):" := by decide
  have hline : k.headLine =
      "    def __init__(self" ++ String.join (k.parameters.map Parameter.text) ++ "):" := calc
    k.headLine = "    def __init__" ++ ("(" ++ selfName ++
        String.join (k.parameters.map Parameter.text) ++ ")") ++ ":" :=
      congrArg (fun s => "    def __init__" ++ s ++ ":") k.text_head
    _ = "    def __init__" ++ ("(" ++ selfName) ++ String.join (k.parameters.map Parameter.text) ++
        (")" ++ ":") := by simp only [String.append_assoc]
    _ = _ := by rw [hself, hclose]
  simp only [hline, DirectiveClass.lines, List.mem_append, List.mem_cons, true_or, or_true]

/-- Calls are bound to what the head of the method says. -/
theorem FieldMethods.signature_head (m : FieldMethods) :
    m.head.signature = (Method.withField m).signature := by
  cases hbuilder : m.builder <;>
    simp [Head.signature, FieldMethods.head, Method.signature, positionalOf, Parameter.formal,
      hbuilder]

/-! ### Names of parameters -/

/-- The name of an argument as the name of a parameter, before it is made unique. -/
def parameterLabel (name : String) : String :=
  safeName [] (snakeCase name)

/-- The names of the parameters for arguments are unique labels. -/
theorem map_parametersInOrder (h : parametersInOrder c owner as used = .ok (ps, used')) :
    uniqueNames used (as.map fun (a : Argument) => parameterLabel a.name) =
      (ps.map Parameter.parameter, used') := by
  induction as generalizing used ps with
  | nil =>
    cases h
    rfl
  | cons a as ih =>
    obtain ⟨t, -, h⟩ := bind_eq_ok.mp h
    obtain ⟨⟨rest, names⟩, hrest, h⟩ := bind_eq_ok.mp h
    cases pure_eq_ok.mp h
    have htail : uniqueNames (uniqueName used (parameterLabel a.name) :: used)
        (as.map fun (a : Argument) => parameterLabel a.name) = _ := ih hrest
    rw [List.map_cons, uniqueNames, htail]
    rfl

/-- The parameters for arguments are those in order, but those that must be given stand first. -/
theorem of_parameters (h : parameters c owner as used = .ok (ps, used')) :
    ∃ qs, parametersInOrder c owner as used = .ok (qs, used') ∧ ps.Perm qs ∧
      ps.Pairwise fun p q => q.isRequired = true → p.isRequired = true := by
  obtain ⟨⟨qs, names⟩, hqs, h⟩ := bind_eq_ok.mp h
  cases pure_eq_ok.mp h
  refine ⟨qs, hqs, List.filter_append_perm _ _,
    List.pairwise_append.mpr ⟨?required, ?optional, ?between⟩⟩
  case required =>
    exact List.pairwise_of_forall_mem_list fun p hp _ _ _ => (List.mem_filter.mp hp).2
  case optional =>
    refine List.pairwise_of_forall_mem_list fun _ _ q hq hrequired => ?_
    simp [hrequired] at hq
  case between => exact fun p hp _ _ _ => (List.mem_filter.mp hp).2

/-- The names of the parameters for arguments, but for their places, are unique labels. -/
theorem map_parameters (h : parameters c owner as used = .ok (ps, used')) :
    ∃ labels,
      uniqueNames used (as.map fun (a : Argument) => parameterLabel a.name) = (labels, used') ∧
      (ps.map Parameter.parameter).Perm labels := by
  obtain ⟨qs, hqs, hperm, -⟩ := of_parameters h
  exact ⟨_, map_parametersInOrder hqs, hperm.map _⟩

/-- The names of the parameters for directives are unique labels. -/
theorem map_directiveParameters {ds : List DirectiveDefinition} {ps : List (String × String)}
    (h : directiveParameters c ds used = .ok ps) :
    ps.map Prod.fst =
      (uniqueNames used (ds.map fun (d : DirectiveDefinition) => parameterLabel d.name)).1 := by
  induction ds generalizing used ps with
  | nil =>
    cases h
    rfl
  | cons d ds ih =>
    obtain ⟨cls, -, h⟩ := bind_eq_ok.mp h
    obtain ⟨rest, hrest, h⟩ := bind_eq_ok.mp h
    cases pure_eq_ok.mp h
    exact congrArg _ (ih hrest)

/-- The parameters of a method: those for arguments, and then those for directives. -/
theorem of_fieldMethods (h : fieldMethods c owner f used = .ok (m, used')) :
    ∃ names, parameters c owner f.arguments methodParameters = .ok (m.parameters, names) ∧
      directiveParameters c c.fieldDirectives names = .ok m.directives := by
  obtain ⟨builder, -, h⟩ := bind_eq_ok.mp h
  obtain ⟨⟨ps, names⟩, hps, h⟩ := bind_eq_ok.mp h
  obtain ⟨directives, hdirectives, h⟩ := bind_eq_ok.mp h
  cases pure_eq_ok.mp h
  exact ⟨names, hps, hdirectives⟩

/-- The parameters of the class of a directive: those for its arguments. -/
theorem of_directiveClass_parameters (h : directiveClass c d = .ok k) :
    ∃ names, parameters c d.name d.arguments [] = .ok (k.parameters, names) := by
  obtain ⟨name, -, h⟩ := bind_eq_ok.mp h
  obtain ⟨⟨ps, names⟩, hps, h⟩ := bind_eq_ok.mp h
  cases pure_eq_ok.mp h
  exact ⟨names, hps⟩

/-! ### Order -/

/-- A builder stands before the parameters for arguments, and an alias, which has a default, behind
them. -/
theorem FieldMethods.isOrdered_head (h : fieldMethods c owner f used = .ok (m, used')) :
    m.head.IsOrdered := by
  obtain ⟨names, hps, -⟩ := of_fieldMethods h
  obtain ⟨-, -, -, hordered⟩ := of_parameters hps
  have hbuilder : ∀ p ∈ (m.builder.map fun b => Formal.mk builderParameter b true).toList,
      p.isRequired = true := by
    intro p hp
    obtain ⟨b, -, rfl⟩ := by simpa using hp
    rfl
  rw [Head.IsOrdered, FieldMethods.head, List.append_assoc, List.pairwise_append]
  refine ⟨List.pairwise_of_forall_mem_list fun p hp _ _ _ => hbuilder p hp, ?_,
    fun p hp _ _ _ => hbuilder p hp⟩
  rw [List.pairwise_append]
  refine ⟨List.pairwise_map.mpr hordered, List.pairwise_singleton _ _, fun _ _ q hq hrequired => ?_⟩
  rw [List.mem_singleton.mp hq] at hrequired
  cases hrequired

theorem DirectiveClass.isOrdered_head (h : directiveClass c d = .ok k) : k.head.IsOrdered := by
  obtain ⟨names, hps⟩ := of_directiveClass_parameters h
  obtain ⟨-, -, -, hordered⟩ := of_parameters hps
  exact List.pairwise_map.mpr hordered

/-! ### Names that differ -/

/-- The names of the parameters for arguments and directives differ from each other and from those
that every method has. -/
theorem nodup_ownParameters (h : fieldMethods c owner f used = .ok (m, used')) :
    (m.parameters.map Parameter.parameter ++ m.directives.map Prod.fst).Nodup ∧
      ∀ n ∈ m.parameters.map Parameter.parameter ++ m.directives.map Prod.fst,
        n ∉ methodParameters := by
  obtain ⟨names, hps, hds⟩ := of_fieldMethods h
  obtain ⟨labels, hlabels, hperm⟩ := map_parameters hps
  obtain ⟨hnodup, hnew⟩ := uniqueNames_nodup methodParameters
    (f.arguments.map (fun (a : Argument) => parameterLabel a.name) ++
      c.fieldDirectives.map fun (d : DirectiveDefinition) => parameterLabel d.name)
  -- Directives go on with the names that are in use behind the arguments: it is one run of labels.
  rw [uniqueNames_append, hlabels] at hnodup hnew
  have hall := hperm.append_right (m.directives.map Prod.fst)
  rw [map_directiveParameters hds] at hall ⊢
  exact ⟨hall.nodup_iff.mpr hnodup, fun n hn => hnew n (hall.subset hn)⟩

/-- The names that the head of a method has whatever the arguments and the directives are. -/
def FieldMethods.fixedNames (m : FieldMethods) : List String :=
  selfName :: "alias" :: (m.builder.map fun _ => builderParameter).toList

theorem FieldMethods.nodup_fixedNames (m : FieldMethods) :
    m.fixedNames.Nodup ∧ ∀ n ∈ m.fixedNames, n ∈ methodParameters := by
  rw [FieldMethods.fixedNames]
  cases m.builder with
  | none =>
    rw [Option.map_none]
    decide
  | some b =>
    rw [Option.map_some]
    decide

theorem FieldMethods.names_head_perm (m : FieldMethods) : m.head.names.Perm
    (m.fixedNames ++ (m.parameters.map Parameter.parameter ++ m.directives.map Prod.fst)) := by
  have hnames : m.head.names = selfName :: ((m.builder.map fun _ => builderParameter).toList ++
      m.parameters.map Parameter.parameter ++ "alias" :: m.directives.map Prod.fst) := by
    cases hbuilder : m.builder <;>
      simp [Head.names, FieldMethods.head, hbuilder, Function.comp_def, Parameter.formal]
  rw [hnames, FieldMethods.fixedNames, List.cons_append, List.cons_append, ← List.append_assoc]
  exact List.perm_middle.cons _

/-- The names in the head of a method differ. -/
theorem FieldMethods.nodup_names_head (h : fieldMethods c owner f used = .ok (m, used')) :
    m.head.names.Nodup := by
  obtain ⟨hown, hnew⟩ := nodup_ownParameters h
  obtain ⟨hfixed, hmethod⟩ := m.nodup_fixedNames
  rw [m.names_head_perm.nodup_iff, List.nodup_append']
  exact ⟨hfixed, hown, fun n hn hmem => hnew n hmem (hmethod n hn)⟩

/-- A parameter is called like the object exactly if its name becomes that in snake case. -/
theorem parameterLabel_eq_self_iff {n : String} (h : isGraphQLName n = true) :
    parameterLabel n = selfName ↔ n ∈ selfNames := by
  rw [← snakeCase_eq_self_iff fun c hc => Definition.isNameChar_of_mem_name h hc, parameterLabel]
  constructor
  · intro heq
    rw [safeName_eq_self (by rw [heq]; decide)] at heq
    exact heq
  · intro heq
    rw [heq]
    decide

theorem DirectiveClass.names_head (k : DirectiveClass) : k.head.names = k.parameterNames := by
  simp [Head.names, DirectiveClass.head, Parameter.formal, DirectiveClass.parameterNames]

/-- The names in the head of the class of a directive differ exactly if no argument is called like
the object. -/
theorem DirectiveClass.nodup_names_head_iff (h : directiveClass c d = .ok k)
    (hnames : ∀ a ∈ d.arguments, isGraphQLName a.name = true) :
    k.head.names.Nodup ↔ ∀ a ∈ d.arguments, a.name ∉ selfNames := by
  obtain ⟨names, hps⟩ := of_directiveClass_parameters h
  obtain ⟨labels, hlabels, hperm⟩ := map_parameters hps
  have hnodup := (uniqueNames_nodup [] (d.arguments.map fun (a : Argument) => parameterLabel a.name)).1
  have hself : selfName ∈ (uniqueNames [] (d.arguments.map fun (a : Argument) =>
      parameterLabel a.name)).1 ↔ _ := mem_uniqueNames_iff (by decide) (by simp)
  rw [hlabels] at hnodup hself
  rw [names_head, DirectiveClass.parameterNames, List.nodup_cons, hperm.mem_iff, hperm.nodup_iff,
    hself, and_iff_left hnodup]
  constructor
  · intro hnew a ha hmem
    exact hnew (List.mem_map.mpr ⟨a, ha, (parameterLabel_eq_self_iff (hnames a ha)).mpr hmem⟩)
  · intro hapart hmem
    obtain ⟨a, ha, hlabel⟩ := List.mem_map.mp hmem
    exact hapart a ha ((parameterLabel_eq_self_iff (hnames a ha)).mp hlabel)

/-- A client in which the names in such a head do not differ cannot be loaded. -/
theorem load_eq_repeatedParameter {cls : Classes} (hk : k ∈ cls.directives)
    (h : ¬ k.head.names.Nodup) : cls.load = .error .repeatedParameter := by
  have hcompile : cls.compile = .error .repeatedParameter := by
    refine if_neg fun hall => h ?_
    rw [DirectiveClass.names_head]
    exact of_decide_eq_true (List.all_eq_true.mp hall k hk)
  rw [Classes.load, hcompile]
  rfl

/-- **The heads of methods are well-formed but for one name.** In the head that is written for a
method that selects a field, all names differ. So they do in the head that is written for the class of
a directive exactly if no argument is called like the object. In both no parameter without a default
stands behind one with a default. -/
theorem heads_wellFormed (c : Catalog) :
    (∀ owner f used m used', fieldMethods c owner f used = .ok (m, used') →
      m.head.names.Nodup ∧ m.head.IsOrdered ∧ ∀ cls, m.headLine cls ∈ m.lines cls) ∧
    ∀ d k, directiveClass c d = .ok k →
      (∀ a ∈ d.arguments, isGraphQLName a.name = true) →
        (k.head.names.Nodup ↔ ∀ a ∈ d.arguments, a.name ∉ selfNames) ∧ k.head.IsOrdered ∧
          k.headLine ∈ k.lines ∧ k.text = linesText k.lines := by
  constructor
  · intro owner f used m used' h
    exact ⟨FieldMethods.nodup_names_head h, FieldMethods.isOrdered_head h, m.headLine_mem_lines⟩
  · intro d k h hnames
    exact ⟨DirectiveClass.nodup_names_head_iff h hnames, DirectiveClass.isOrdered_head h,
      k.headLine_mem_lines, k.text_eq⟩

/-- A directive with an argument that is called like the object. -/
def ownedDirective : DirectiveDefinition :=
  ⟨"owned", none, [fieldLocation], [⟨"self", none, .leaf .scalar "String", .null⟩]⟩

/-- A field with such an argument, which must be given and stands behind one that need not. -/
def petsField : Field where
  name := "pets"
  description := none
  type := .leaf .scalar "String"
  arguments := [⟨"kind", none, .leaf .scalar "String", .null⟩,
    ⟨"self", none, .around .nonNull none (.leaf .scalar "Int"), .null⟩]
  isDeprecated := false
  reason := none

/-- A catalog of the directive alone. -/
def ownedCatalog : Catalog where
  configuration := {}
  schema := ⟨none, none, none, [], [ownedDirective]⟩
  types := .empty
  complex := .empty
  directives := .ofList [(ownedDirective.name, ownedDirective)]
  memberships := .empty
  renamed := .empty
  referenced := []

/-- The methods of the field. -/
def petsMethods : FieldMethods where
  name := "pets"
  withMethod := "with_pets"
  exceptMethod := "except_pets"
  builder := none
  parameters := [⟨"self", "self2", "int | QueryBuilderParameter[int]", true, none⟩,
    ⟨"kind", "kind", "Optional[str | QueryBuilderParameter[str]]", false, none⟩]
  directives := [("owned", "OwnedDirective")]
  description := ""

/-- The class of the directive. -/
def ownedClass : DirectiveClass where
  className := "OwnedDirective"
  directiveName := "owned"
  description := ""
  parameters := [⟨"self", "self", "Optional[str | QueryBuilderParameter[str]]", false, none⟩]
  typeImports := []

theorem pets_fieldMethods : fieldMethods ownedCatalog "Query" petsField [] =
    .ok (petsMethods, ["except_pets", "with_pets"]) :=
  eq_ok_of_toOption (by decide +kernel)

theorem owned_directiveClass : directiveClass ownedCatalog ownedDirective = .ok ownedClass :=
  eq_ok_of_toOption (by decide +kernel)

theorem owned_heads :
    fieldMethods ownedCatalog "Query" petsField [] =
        .ok (petsMethods, ["except_pets", "with_pets"]) ∧
      petsMethods.head.names.Nodup ∧ petsMethods.head.IsOrdered ∧
      petsMethods.head.names = ["self", "self2", "kind", "alias", "owned"] ∧
      directiveClass ownedCatalog ownedDirective = .ok ownedClass ∧
      (∀ a ∈ ownedDirective.arguments, isGraphQLName a.name = true) ∧
      ¬ ownedClass.head.names.Nodup ∧ ownedClass.head.IsOrdered ∧
      ownedClass.head.names = ["self", "self"] := by
  obtain ⟨hmethods, hclasses⟩ := heads_wellFormed ownedCatalog
  have hnames : ∀ a ∈ ownedDirective.arguments, isGraphQLName a.name = true := by
    intro a ha
    rw [List.mem_singleton.mp ha]
    decide
  obtain ⟨hnodup, hordered, -⟩ := hmethods _ _ _ _ _ pets_fieldMethods
  obtain ⟨hiff, hclass, -⟩ := hclasses _ _ owned_directiveClass hnames
  refine ⟨pets_fieldMethods, hnodup, hordered, by decide, owned_directiveClass, hnames, ?_, hclass,
    by decide⟩
  rw [hiff]
  exact fun hapart => hapart _ List.mem_cons_self (by decide)

end Bindery.Client
