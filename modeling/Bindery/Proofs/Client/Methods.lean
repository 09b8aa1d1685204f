import Bindery.Client.Call
import Bindery.Proofs.Client.Metadata

/-!
# The methods of builders

The class of a builder has two methods for each field and for each fragment: one selects it and one
takes it back. All of them are named one after the other, and a name that a method or every builder
has already takes a number. So no method hides another one, whether the names of two fields have one
snake case form, a field is called like a fragment, or a field is called like a method with a number.

## What is proved

* `labels_of_builderView` — the names of the methods are unique labels behind those that all builders
  have.
* `names_methods` — they are usable names, and no attribute of all builders has one of them.
* `BuilderView.define_lines` — the methods that the class defines.
* `methods_apart` — each method can be called by its name, and so can those of all builders.
-/

namespace Bindery.Client

open Bindery.Schema Bindery.Label Bindery.Text

variable {c : Catalog} {constants : Keyed String} {t : TypeDefinition} {b : BuilderView} {f : Field}
  {m : FieldMethods} {owner word name line : String} {used used' : List String}

/-! ### Names in order -/

/-- The names of the two methods of a word, before they are made unique. -/
def methodNames (word : String) : List String :=
  ["with_" ++ word, "except_" ++ word]

/-- The name of a type as it stands in the names of the methods of a fragment. -/
def fragmentWord (name : String) : String :=
  snakeCase (pascalCase name) ++ "_fragment"

/-- The names of two methods are made of a word. -/
structure NamedAfter (word withMethod exceptMethod : String) : Prop where
  /-- One method selects what the word stands for. -/
  select : IsLabelOf ("with_" ++ word) withMethod
  /-- The other one takes it back. -/
  takeBack : IsLabelOf ("except_" ++ word) exceptMethod

/-- The methods are those of the field. -/
structure FieldMethods.BelongTo (m : FieldMethods) (f : Field) : Prop where
  /-- They select it. -/
  name : m.name = f.name
  /-- They are named after it. -/
  named : NamedAfter (methodWord f.name) m.withMethod m.exceptMethod

/-- The methods are those of the fragment on the type. -/
structure FragmentMethods.BelongTo (m : FragmentMethods) (t : TypeDefinition) : Prop where
  /-- They select it. -/
  typeName : m.typeName = t.name
  /-- They are named after it. -/
  named : NamedAfter (fragmentWord t.name) m.withMethod m.exceptMethod

/-- The names of the methods of a field. -/
def FieldMethods.names (m : FieldMethods) : List String :=
  [m.withMethod, m.exceptMethod]

/-- The names of the methods of a fragment. -/
def FragmentMethods.names (m : FragmentMethods) : List String :=
  [m.withMethod, m.exceptMethod]

theorem namedAfter_uniqueName (used : List String) (word : String) :
    NamedAfter word (uniqueName used ("with_" ++ word))
      (uniqueName (uniqueName used ("with_" ++ word) :: used) ("except_" ++ word)) :=
  ⟨isLabelOf_uniqueName _ _, isLabelOf_uniqueName _ _⟩

/-- The methods of a field have the next two labels. -/
theorem names_fieldMethods (h : fieldMethods c owner f used = .ok (m, used')) :
    m.BelongTo f ∧ uniqueNames used (methodNames (methodWord f.name)) = (m.names, used') := by
  obtain ⟨builder, -, h⟩ := bind_eq_ok.mp h
  obtain ⟨⟨ps, parameters⟩, -, h⟩ := bind_eq_ok.mp h
  obtain ⟨directives, -, h⟩ := bind_eq_ok.mp h
  cases pure_eq_ok.mp h
  exact ⟨⟨rfl, namedAfter_uniqueName _ _⟩, rfl⟩

theorem names_allFieldMethods {fs : List Field} {ms : List FieldMethods}
    (h : allFieldMethods c owner fs used = .ok (ms, used')) :
    List.Forall₂ FieldMethods.BelongTo ms fs ∧
      uniqueNames used ((fs.map fun (f : Field) => methodWord f.name).flatMap methodNames) =
        (ms.flatMap FieldMethods.names, used') := by
  induction fs generalizing used ms with
  | nil =>
    cases h
    exact ⟨.nil, rfl⟩
  | cons f fs ih =>
    obtain ⟨⟨m, next⟩, hm, h⟩ := bind_eq_ok.mp h
    obtain ⟨⟨rest, last⟩, hrest, h⟩ := bind_eq_ok.mp h
    cases pure_eq_ok.mp h
    obtain ⟨hbelong, hnames⟩ := names_fieldMethods hm
    obtain ⟨hall, hlabels⟩ := ih hrest
    refine ⟨.cons hbelong hall, ?_⟩
    rw [List.map_cons, List.flatMap_cons, uniqueNames_append, hnames, hlabels, List.flatMap_cons]

/-- The methods of fragments have the labels behind those. -/
theorem names_fragmentMethods (ts : List TypeDefinition) (used : List String) :
    List.Forall₂ FragmentMethods.BelongTo (fragmentMethods c constants ts used) ts ∧
      (uniqueNames used ((ts.map fun (t : TypeDefinition) => fragmentWord t.name).flatMap
        methodNames)).1 = (fragmentMethods c constants ts used).flatMap FragmentMethods.names := by
  induction ts generalizing used with
  | nil => exact ⟨.nil, rfl⟩
  | cons t ts ih =>
    have hselect : "with_" ++ snakeCase (pascalCase t.name) ++ "_fragment" =
        "with_" ++ fragmentWord t.name := String.append_assoc
    have htakeBack : "except_" ++ snakeCase (pascalCase t.name) ++ "_fragment" =
        "except_" ++ fragmentWord t.name := String.append_assoc
    simp only [fragmentMethods, hselect, htakeBack, takeName]
    -- The other fragments go on with the names that are in use behind these two.
    obtain ⟨hall, hlabels⟩ := ih (uniqueNames used (methodNames (fragmentWord t.name))).2
    refine ⟨.cons ⟨rfl, namedAfter_uniqueName _ _⟩ hall, ?_⟩
    rw [List.map_cons, List.flatMap_cons, uniqueNames_append, hlabels, List.flatMap_cons]
    rfl

/-- The words after which the methods of a builder are named. -/
def methodWords (fields : List Field) (ts : List TypeDefinition) : List String :=
  (fields.map fun (f : Field) => methodWord f.name) ++
    ts.map fun (t : TypeDefinition) => fragmentWord t.name

theorem map_fst_methods (b : BuilderView) : b.methods.map Prod.fst =
    b.fields.flatMap FieldMethods.names ++ b.fragments.flatMap FragmentMethods.names := by
  rw [BuilderView.methods, List.map_append, List.map_flatMap, List.map_flatMap]
  rfl

/-- The names of the methods of a builder are unique labels behind those that all builders have. -/
theorem labels_of_builderView (h : builderView c constants t = .ok b) :
    ∃ fields ts, methodFields c t = .ok fields ∧ c.fragmentTypes t = .ok ts ∧
      List.Forall₂ FieldMethods.BelongTo b.fields fields ∧
      List.Forall₂ FragmentMethods.BelongTo b.fragments ts ∧
      b.methods.map Prod.fst =
        (uniqueNames builderNames ((methodWords fields ts).flatMap methodNames)).1 := by
  obtain ⟨name, -, h⟩ := bind_eq_ok.mp h
  obtain ⟨fields, hfields, h⟩ := bind_eq_ok.mp h
  obtain ⟨⟨ms, used⟩, hms, h⟩ := bind_eq_ok.mp h
  obtain ⟨ts, hts, h⟩ := bind_eq_ok.mp h
  cases pure_eq_ok.mp h
  obtain ⟨hbelong, hnames⟩ := names_allFieldMethods hms
  obtain ⟨hfragments, hlabels⟩ := @names_fragmentMethods c constants ts used
  refine ⟨fields, ts, hfields, hts, hbelong, hfragments, ?_⟩
  rw [methodWords, List.flatMap_append, uniqueNames_append, hnames, hlabels, map_fst_methods]

/-! ### Usable names -/

theorem isNameChar_methodWord (h : isGraphQLName name = true) :
    ∀ c ∈ (methodWord name).toList, isNameChar c = true := by
  have hsnake : ∀ c ∈ (snakeCase name).toList, isNameChar c = true :=
    isNameChar_snakeCase fun c hc => Definition.isNameChar_of_mem_name h hc
  have hfield : ∀ c ∈ "field".toList, isNameChar c = true := by simp [isNameChar]
  rw [methodWord]
  split_ifs
  · exact hfield
  · rw [String.toList_ofList]
    exact fun c hc => hsnake c ((List.dropWhile_sublist _).subset hc)

theorem isNameChar_fragmentWord (name : String) :
    ∀ c ∈ (fragmentWord name).toList, isNameChar c = true := by
  have hfragment : ∀ c ∈ "_fragment".toList, isNameChar c = true := by simp [isNameChar]
  intro c hc
  rw [fragmentWord, String.toList_append, List.mem_append] at hc
  rcases hc with hc | hc
  · exact isNameChar_snakeCase (isNameChar_pascalCase name) c hc
  · exact hfragment c hc

/-- The words of fields with GraphQL names and of fragments consist of characters of names. -/
theorem isNameChar_of_mem_methodWords {fields : List Field} {ts : List TypeDefinition}
    (h : ∀ f ∈ fields, isGraphQLName f.name = true) (hword : word ∈ methodWords fields ts) :
    ∀ c ∈ word.toList, isNameChar c = true := by
  rcases List.mem_append.mp hword with hword | hword
  · obtain ⟨f, hf, rfl⟩ := List.mem_map.mp hword
    exact isNameChar_methodWord (h f hf)
  · obtain ⟨t, -, rfl⟩ := List.mem_map.mp hword
    exact isNameChar_fragmentWord t.name

/-- The beginnings of the names of methods. -/
def marks : List (List Char) :=
  ["with_".toList, "except_".toList]

/-- A label of a method is made of a mark and of characters of names. -/
theorem of_mem_methodNames (hword : ∀ c ∈ word.toList, isNameChar c = true)
    (hname : name ∈ methodNames word) {label : String} (hlabel : IsLabelOf name label) :
    (∃ mark ∈ marks, mark <+: label.toList) ∧ ∀ c ∈ label.toList, isNameChar c = true := by
  have hmark : ∃ mark ∈ marks, name.toList = mark ++ word.toList := by
    rcases List.mem_pair.mp hname with rfl | rfl
    · exact ⟨_, List.mem_cons_self, String.toList_append⟩
    · exact ⟨_, List.mem_cons_of_mem _ List.mem_cons_self, String.toList_append⟩
  obtain ⟨mark, hmem, hchars⟩ := hmark
  have hmarks : ∀ mark ∈ marks, mark.all isNameChar = true := by decide
  refine ⟨⟨mark, hmem, ?_⟩, hlabel.isNameChar fun c hc => ?_⟩
  · exact (hchars ▸ List.prefix_append _ _).trans hlabel.prefix
  · rw [hchars, List.mem_append] at hc
    exact hc.elim (List.all_eq_true.mp (hmarks mark hmem) c) (hword c)

/-- No keyword begins with a mark. -/
theorem mark_not_prefix_keyword :
    ∀ w ∈ keywords, ∀ mark ∈ marks, ¬ mark <+: w.toList := by
  decide

/-- Characters of names behind a mark are a usable name. -/
theorem isUsableName_of_mark (h : ∃ mark ∈ marks, mark <+: name.toList)
    (hchars : ∀ c ∈ name.toList, isNameChar c = true) : isUsableName name = true := by
  obtain ⟨mark, hmark, hprefix⟩ := h
  have hkeyword : isKeyword name = false := by
    rw [isKeyword, List.contains_eq_mem, decide_eq_false_iff_not]
    exact fun hmem => mark_not_prefix_keyword _ hmem _ hmark hprefix
  have hidentifier : isIdentifier name = true := by
    have hmarks : ∀ mark ∈ marks, mark.head?.any (fun c => !c.isDigit) = true := by decide
    have hfirst := hmarks mark hmark
    obtain ⟨r, hr⟩ := hprefix
    cases mark with
    | nil => cases hfirst
    | cons c cs =>
      rw [List.cons_append] at hr
      rw [← hr] at hchars
      rw [isIdentifier, ← hr, isIdentifierChars_iff hchars]
      simpa using hfirst
  rw [isUsableName, hidentifier, hkeyword]
  rfl

/-- The attributes of the class from which all builders derive, without those between double
underscores: what a generated class overwrites, its methods, and what these use among themselves. -/
def builderAttributes : List String :=
  ["GRAPHQL_TYPE_NAME", "ALL_FIELDS", "FRAGMENT_TYPES", "INDENTATION_SIZE"] ++ builderNames ++
    ["_self", "_with_scalar_field", "_with_object_field", "_with_fragment", "_except_fragment",
      "_include_scalar_field", "_put_selection", "_auto_selectable_fields", "_include_fields",
      "_include_fragments", "_expand", "_build", "_build_operation_signature", "_render_selections",
      "_render_field"]

/-- With a mark in front, only the names of the methods have to be avoided. -/
theorem mem_builderNames_of_mark : ∀ n ∈ builderAttributes,
    (∃ mark ∈ marks, mark <+: n.toList) → n ∈ builderNames := by
  decide

/-- The methods of a builder have usable names, which no other attribute of it has. -/
theorem names_methods (h : builderView c constants t = .ok b)
    (hnames : ∀ f ∈ t.fields, isGraphQLName f.name = true) :
    (b.methods.map Prod.fst).Nodup ∧ ∀ n ∈ b.methods.map Prod.fst,
      isUsableName n = true ∧ n ∉ builderAttributes := by
  obtain ⟨fields, ts, hfields, -, -, -, hlabels⟩ := labels_of_builderView h
  obtain ⟨hnodup, hnew⟩ :=
    uniqueNames_nodup builderNames ((methodWords fields ts).flatMap methodNames)
  rw [hlabels]
  refine ⟨hnodup, fun n hn => ?_⟩
  have hgraphql : ∀ f ∈ fields, isGraphQLName f.name = true :=
    fun f hf => hnames f (of_mem_methodFields hfields hf).1
  obtain ⟨name, hname, hlabel⟩ := of_mem_uniqueNames hn
  obtain ⟨word, hword, hname⟩ := List.mem_flatMap.mp hname
  obtain ⟨hmark, hchars⟩ :=
    of_mem_methodNames (isNameChar_of_mem_methodWords hgraphql hword) hname hlabel
  exact ⟨isUsableName_of_mark hmark hchars,
    fun hmem => hnew n hn (mem_builderNames_of_mark n hmem hmark)⟩

/-- Each method can be called by its name, and so can those that all builders have. -/
theorem method_eq_ok (h : builderView c constants t = .ok b)
    (hnames : ∀ f ∈ t.fields, isGraphQLName f.name = true) :
    ∀ p ∈ b.methods ++ inheritedMethods, method (some b) p.1 = .ok p.2 := by
  obtain ⟨hnodup, hfree⟩ := names_methods h hnames
  have hinherited : ∀ n ∈ inheritedMethods.map Prod.fst, n ∈ builderAttributes := by decide
  have hkeys : (Keyed.mk (b.methods ++ inheritedMethods)).keys.Nodup := by
    rw [Keyed.keys, List.map_append, List.nodup_append']
    exact ⟨hnodup, by decide, fun n hn hmem => (hfree n hn).2 (hinherited n hmem)⟩
  intro p hp
  have hlookup : (b.methods ++ inheritedMethods).lookup p.1 = some p.2 :=
    Keyed.get?_of_mem_entries hkeys hp
  rw [method, Option.map_some, Option.getD_some, hlookup]
  rfl

/-! ### Methods that a class defines -/

/-- The lines of the class. -/
def BuilderView.lines (b : BuilderView) : List String :=
  ["@QUERY_BUILDERS.register(" ++ constantText b.constant ++ ")",
    "class " ++ b.className ++ "(GraphQlQueryBuilder[\"" ++ b.className ++ "\"]):"] ++
  descriptionLines b.description ++
  ["    GRAPHQL_TYPE_NAME = " ++ constantText b.constant,
    "    INDENTATION_SIZE = " ++ toString b.indentation] ++
  metadataLines b.metadata ++ fragmentTypeLines b.fragments ++ operationLines b.operation ++
  b.fields.flatMap (FieldMethods.lines b.className) ++
  b.fragments.flatMap (FragmentMethods.lines b.className)

theorem BuilderView.text_eq (b : BuilderView) : b.text = linesText b.lines := rfl

/-- What stands before the name of a method in the line that begins its definition. -/
def definition : List Char :=
  "    def ".toList

/-- The name of the method whose definition begins in the line. -/
def definedName? (line : String) : Option String :=
  if definition.isPrefixOf line.toList then
    some (String.ofList ((line.toList.drop definition.length).takeWhile (· != '(')))
  else none

/-- The line begins the definition of the method of the name. -/
def Defines (line name : String) : Prop :=
  '(' ∉ name.toList ∧ ∃ r, line.toList = definition ++ (name.toList ++ '(' :: r)

theorem Defines.append (h : Defines line name) (r : String) : Defines (line ++ r) name := by
  obtain ⟨hname, s, hs⟩ := h
  refine ⟨hname, s ++ r.toList, ?_⟩
  rw [String.toList_append, hs, List.append_assoc, List.append_assoc, List.cons_append]

/-- Behind the name a parenthesis opens. -/
theorem defines_of_head? {r : String} (hname : '(' ∉ name.toList)
    (hr : r.toList.head? = some '(') : Defines ("    def " ++ name ++ r) name := by
  obtain ⟨cs, hcs⟩ := List.head?_eq_some_iff.mp hr
  refine ⟨hname, cs, ?_⟩
  rw [String.toList_append, String.toList_append, hcs, List.append_assoc]
  rfl

theorem Defines.definedName? (h : Defines line name) : definedName? line = some name := by
  obtain ⟨hname, r, hr⟩ := h
  have hprefix : definition.isPrefixOf (definition ++ (name.toList ++ '(' :: r)) = true :=
    List.isPrefixOf_iff_prefix.mpr (List.prefix_append _ _)
  rw [Client.definedName?, hr, if_pos hprefix, List.drop_left,
    List.takeWhile_append_of_pos fun c hc => bne_iff_ne.mpr (ne_of_mem_of_not_mem hc hname)]
  simp

/-- Do the characters differ in a place that both have? -/
def differ : List Char → List Char → Bool
  | c :: cs, d :: ds => c != d || differ cs ds
  | _, _ => false

theorem differ_append {cs ds : List Char} (h : differ cs ds = true) (r : List Char) :
    differ (cs ++ r) ds = true := by
  fun_induction differ cs ds with
  | case1 c cs d ds ih =>
    rw [List.cons_append, differ, Bool.or_eq_true]
    exact (Bool.or_eq_true_iff.mp h).imp_right ih
  | case2 => cases h

theorem isPrefixOf_of_differ {cs ds : List Char} (h : differ cs ds = true) :
    ds.isPrefixOf cs = false := by
  fun_induction differ cs ds with
  | case1 c cs d ds ih =>
    rw [List.isPrefixOf_cons_cons, Bool.and_eq_false_iff]
    refine (Bool.or_eq_true_iff.mp h).imp (fun hne => ?_) ih
    exact beq_eq_false_iff_ne.mpr (bne_iff_ne.mp hne).symm
  | case2 => cases h

/-- The text differs from the beginning of a definition, whatever follows it. -/
def IsApart (line : String) : Prop :=
  differ line.toList definition = true

instance (line : String) : Decidable (IsApart line) :=
  inferInstanceAs (Decidable (_ = true))

theorem IsApart.append (h : IsApart line) (r : String) : IsApart (line ++ r) := by
  rw [IsApart, String.toList_append]
  exact differ_append h r.toList

theorem IsApart.definedName? (h : IsApart line) : definedName? line = none := by
  rw [Client.definedName?, isPrefixOf_of_differ h]
  rfl

/-! ### The lines of a class -/

/-- The lines define the methods of the names in their order. -/
def Define (lines names : List String) : Prop :=
  lines.filterMap definedName? = names

theorem Define.append {l l' n n' : List String} (h : Define l n) (h' : Define l' n') :
    Define (l ++ l') (n ++ n') := by
  rw [Define, List.filterMap_append, h, h']

theorem Define.nil : Define [] [] := rfl

theorem Define.blank {l n : List String} (h : Define l n) : Define ("" :: l) n :=
  h

theorem Define.apart {l n : List String} (hline : IsApart line) (h : Define l n) :
    Define (line :: l) n := by
  rw [Define, List.filterMap_cons_none (hline.definedName?), h]

theorem Define.method {l n : List String} (hline : Defines line name) (h : Define l n) :
    Define (line :: l) (name :: n) := by
  rw [Define, List.filterMap_cons_some hline.definedName?, h]

/-- Lines that all differ from a definition define nothing. -/
theorem define_map {α : Type} {line : α → String} (xs : List α)
    (h : ∀ x, IsApart (line x)) : Define (xs.map line) [] := by
  rw [Define, List.filterMap_map, List.filterMap_eq_nil_iff]
  exact fun x _ => (h x).definedName?

theorem define_flatMap {α : Type} {lines names : α → List String} {xs : List α}
    (h : ∀ x ∈ xs, Define (lines x) (names x)) : Define (xs.flatMap lines) (xs.flatMap names) := by
  induction xs with
  | nil => exact .nil
  | cons x xs ih =>
    rw [List.forall_mem_cons] at h
    exact h.1.append (ih h.2)

theorem define_descriptionLines (description : String) :
    Define (descriptionLines description) [] := by
  rw [descriptionLines]
  split_ifs
  · exact .nil
  · exact .apart (.append (.append (by decide) _) _) (.blank .nil)

theorem isApart_metadata (m : FieldMetadata) : IsApart m.line :=
  .append (.append (.append (.append (by decide) _) _) _) _

theorem define_metadataLines (ms : List FieldMetadata) : Define (metadataLines ms) [] := by
  rw [metadataLines]
  split_ifs
  · exact .apart (by decide) .nil
  · exact ((Define.apart (by decide) .nil).append (define_map ms isApart_metadata)).append
      (.apart (by decide) .nil)

theorem define_fragmentTypeLines (fs : List FragmentMethods) : Define (fragmentTypeLines fs) [] := by
  rw [fragmentTypeLines]
  split_ifs
  · exact .nil
  · exact ((Define.apart (by decide) .nil).append
      (define_map fs fun f => .append (.append (by decide) _) _)).append
        (.apart (by decide) .nil)

/-- A root type defines how its builders are made. -/
theorem define_operationLines (operation : Option String) :
    Define (operationLines operation) (operation.map fun _ => "__init__").toList := by
  cases operation with
  | none => exact .nil
  | some o =>
    have hinit : Defines "    def __init__(self, operation_name: Optional[str] = None):" "__init__" :=
      ⟨by decide, "self, operation_name: Optional[str] = None):".toList, by decide⟩
    exact .blank (.method hinit (.apart (.append (.append (by decide) _) _) .nil))

theorem FieldMethods.define_lines (cls : String) (m : FieldMethods)
    (h : ∀ n ∈ m.names, '(' ∉ n.toList) : Define (m.lines cls) m.names := by
  have hwith : Defines ("    def " ++ m.withMethod ++ "(self") m.withMethod :=
    defines_of_head? (h _ List.mem_cons_self) (by decide)
  have hexcept : Defines ("    def " ++ m.exceptMethod ++ "(self) -> ") m.exceptMethod :=
    defines_of_head? (h _ (List.mem_cons_of_mem _ List.mem_cons_self)) (by decide)
  -- Of the parts of the text only the first and the last one define something.
  change Define _ ([m.withMethod] ++ [] ++ [] ++ [] ++ [] ++ [m.exceptMethod])
  refine .append (.append (.append (.append (.append ?head ?description) ?select) ?directives)
    ?arguments) ?takeBack
  case head =>
    -- The builder, the arguments, the alias, the directives and the class follow.
    exact .blank (.method
      (((((((hwith.append _).append _).append _).append _).append _).append _).append _) .nil)
  case description =>
    split_ifs
    · exact .nil
    · exact .apart (.append (.append (by decide) _) _) .nil
  case select =>
    split_ifs
    · exact .apart (by decide) (.apart (.append (.append (by decide) _) _)
        (.apart (by decide) .nil))
    · exact .apart (by decide) (.apart (.append (.append (by decide) _) _) .nil)
  case directives => exact .apart (by decide) (.apart (.append (by decide) _) .nil)
  case arguments =>
    split_ifs
    · exact .nil
    · refine ((Define.apart (by decide) .nil).append (define_map _ fun p => ?_)).append
        (.apart (by decide) .nil)
      exact .append (.append (.append (.append (.append (by decide) _) _) _) _) _
  case takeBack =>
    exact .apart (by decide) (.blank (.method ((hexcept.append _).append _)
      (.apart (.append (.append (by decide) _) _) .nil)))

theorem FragmentMethods.define_lines (cls : String) (m : FragmentMethods)
    (h : ∀ n ∈ m.names, '(' ∉ n.toList) : Define (m.lines cls) m.names := by
  have hwith : Defines ("    def " ++ m.withMethod ++ "(self, query_builder: ") m.withMethod :=
    defines_of_head? (h _ List.mem_cons_self) (by decide)
  have hexcept : Defines ("    def " ++ m.exceptMethod ++ "(self) -> ") m.exceptMethod :=
    defines_of_head? (h _ (List.mem_cons_of_mem _ List.mem_cons_self)) (by decide)
  exact .blank (.method ((((hwith.append _).append _).append _).append _)
    (.apart (by decide) (.blank (.method ((hexcept.append _).append _)
      (.apart (.append (.append (by decide) _) _) .nil)))))

/-- The class defines how its builders are made where it is that of a root type, and then the methods
of its fields and fragments. -/
theorem BuilderView.define_lines (b : BuilderView)
    (h : ∀ n ∈ b.methods.map Prod.fst, '(' ∉ n.toList) :
    Define b.lines ((b.operation.map fun _ => "__init__").toList ++ b.methods.map Prod.fst) := by
  rw [map_fst_methods] at h ⊢
  have hfields : Define (b.fields.flatMap (FieldMethods.lines b.className))
      (b.fields.flatMap FieldMethods.names) := define_flatMap fun m hm =>
    m.define_lines _ fun n hn => h n (List.mem_append_left _ (List.mem_flatMap.mpr ⟨m, hm, hn⟩))
  have hfragments : Define (b.fragments.flatMap (FragmentMethods.lines b.className))
      (b.fragments.flatMap FragmentMethods.names) := define_flatMap fun m hm =>
    m.define_lines _ fun n hn => h n (List.mem_append_right _ (List.mem_flatMap.mpr ⟨m, hm, hn⟩))
  have htop : Define ["@QUERY_BUILDERS.register(" ++ constantText b.constant ++ ")",
      "class " ++ b.className ++ "(GraphQlQueryBuilder[\"" ++ b.className ++ "\"]):"] [] :=
    .apart (.append (.append (by decide) _) _)
      (.apart (.append (.append (.append (.append (by decide) _) _) _) _) .nil)
  have hconstants : Define ["    GRAPHQL_TYPE_NAME = " ++ constantText b.constant,
      "    INDENTATION_SIZE = " ++ toString b.indentation] [] :=
    .apart (.append (by decide) _) (.apart (.append (by decide) _) .nil)
  have hall := ((((((htop.append (define_descriptionLines b.description)).append hconstants).append
    (define_metadataLines b.metadata)).append (define_fragmentTypeLines b.fragments)).append
      (define_operationLines b.operation)).append hfields).append hfragments
  rw [← List.append_assoc]
  exact hall

/-! ### Methods that are apart -/

theorem parenthesis_not_mem (h : isUsableName name = true) : '(' ∉ name.toList := by
  rw [isUsableName, Bool.and_eq_true, isIdentifier] at h
  intro hmem
  cases hname : name.toList with
  | nil => simp [hname] at hmem
  | cons c r =>
    rw [hname, isIdentifierChars, Bool.and_eq_true] at h
    rw [hname] at hmem
    rcases List.mem_cons.mp hmem with rfl | hmem
    · exact absurd h.1.1 (by decide)
    · exact absurd (List.all_eq_true.mp h.1.2 _ hmem) (by decide)

/-- **No method of a builder is lost.** The class of a builder has one pair of methods for each field
and one for each fragment, named after it. All names differ, all are usable, and no attribute of all
builders has one of them. So the class defines exactly these methods, each of them can be called by
its name, and the methods that all builders have can still be called. -/
theorem methods_apart (h : builderView c constants t = .ok b)
    (hnames : ∀ f ∈ t.fields, isGraphQLName f.name = true) :
    ∃ fields ts, methodFields c t = .ok fields ∧ c.fragmentTypes t = .ok ts ∧
      List.Forall₂ FieldMethods.BelongTo b.fields fields ∧
      List.Forall₂ FragmentMethods.BelongTo b.fragments ts ∧
      (b.methods.map Prod.fst).Nodup ∧
      (∀ n ∈ b.methods.map Prod.fst, isUsableName n = true ∧ n ∉ builderAttributes) ∧
      b.text = linesText b.lines ∧
      b.lines.filterMap definedName? =
        (b.operation.map fun _ => "__init__").toList ++ b.methods.map Prod.fst ∧
      ∀ p ∈ b.methods ++ inheritedMethods, method (some b) p.1 = .ok p.2 := by
  obtain ⟨fields, ts, hfields, hts, hbelong, hfragments, -⟩ := labels_of_builderView h
  obtain ⟨hnodup, hfree⟩ := names_methods h hnames
  exact ⟨fields, ts, hfields, hts, hbelong, hfragments, hnodup, hfree, b.text_eq,
    b.define_lines fun n hn => parenthesis_not_mem (hfree n hn).1, method_eq_ok h hnames⟩

/-- A field of texts. -/
def textField (name : String) : Field :=
  ⟨name, none, .leaf .scalar "String", [], false, none⟩

/-- An interface with fields whose names have one snake case form, are called like a method with a
number, like methods that all builders have, and like a fragment; and its only object type. -/
def animalSchema : Schema where
  queryType := none
  mutationType := none
  subscriptionType := none
  types :=
    [⟨.interface, "Animal", none,
        ["name", "Name", "name2", "typename", "field", "cat_fragment"].map textField, [], [], [],
        [.leaf .object "Cat"]⟩,
      ⟨.object, "Cat", none, [textField "name"], [], [.leaf .interface "Animal"], [], []⟩]
  directives := []

/-- The catalog of the schema. -/
def animalCatalog : Catalog where
  configuration := {}
  schema := animalSchema
  types := byName animalSchema.types
  complex := byName animalSchema.complexTypes
  directives := .empty
  memberships := .empty
  renamed := .empty
  referenced := []

/-- The names of the methods of the builder of the interface. -/
def animalMethods : List String :=
  ["with_name", "except_name", "with_name2", "except_name2", "with_name22", "except_name22",
    "with_typename2", "except_typename", "with_field", "except_field2", "with_cat_fragment",
    "except_cat_fragment", "with_cat_fragment2", "except_cat_fragment2"]

theorem animal_builderView : ∃ t b, animalSchema.types.head? = some t ∧
    builderView animalCatalog (typeConstants animalSchema) t = .ok b ∧
    b.methods.map Prod.fst = animalMethods := by
  have hview : (animalSchema.types.head?.bind fun t =>
      (builderView animalCatalog (typeConstants animalSchema) t).toOption.map fun b =>
        b.methods.map Prod.fst) = some animalMethods := by
    decide +kernel
  obtain ⟨t, ht, hview⟩ := Option.bind_eq_some_iff.mp hview
  obtain ⟨b, hb, hmethods⟩ := Option.map_eq_some_iff.mp hview
  exact ⟨t, b, ht, eq_ok_of_toOption hb, hmethods⟩

theorem animal_methods_apart :
    ∃ t b, animalSchema.types.head? = some t ∧
      builderView animalCatalog (typeConstants animalSchema) t = .ok b ∧
      (∀ f ∈ t.fields, isGraphQLName f.name = true) ∧
      (b.methods.map Prod.fst).Nodup ∧
      (∀ n ∈ b.methods.map Prod.fst, isUsableName n = true ∧ n ∉ builderAttributes) ∧
      b.lines.filterMap definedName? =
        (b.operation.map fun _ => "__init__").toList ++ b.methods.map Prod.fst ∧
      b.methods.map Prod.fst = animalMethods := by
  obtain ⟨t, b, ht, hb, hmethods⟩ := animal_builderView
  have hnames : ∀ f ∈ t.fields, isGraphQLName f.name = true := by
    cases ht
    decide
  obtain ⟨-, -, -, -, -, -, hnodup, hfree, -, hdefined, -⟩ := methods_apart hb hnames
  exact ⟨t, b, ht, hb, hnames, hnodup, hfree, hdefined, hmethods⟩

end Bindery.Client
