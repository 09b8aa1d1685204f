import Bindery.Proofs.Catalog.Types
import Bindery.Proofs.Label.Forms
import Bindery.Proofs.Output.Classes

/-!
# The classes of directives

The class of a directive is named by the Pascal case form of the directive, whatever other classes
there are. So directives that differ in what stands between their words have one class, and one
class name stands for the class from which all classes of directives derive.

## What is proved

* `directiveClassName_inj` — directives with one class have names with one Pascal case form.
* `directiveClassName_mem_boundNames` — the only name bound by every client that a class of a
  directive can have.
* `directive_classes_apart_iff` — when the classes of directives differ.
* `cache_classes` — directives with one class, and one with the class of all directives.
-/

namespace Bindery.Output

open Bindery.Schema Bindery.Client Bindery.Catalog Bindery.Label

variable {c : Catalog} {d e : DirectiveDefinition} {s : Schema} {configuration : Configuration}

/-! ### Names of classes -/

theorem directiveClassName_inj :
    c.directiveClassName d = c.directiveClassName e ↔ pascalCase d.name = pascalCase e.name :=
  (fullName_injective c.configuration directiveSuffix).eq_iff

/-- The name of the class from which the classes of directives derive. -/
def directiveBase : String := "GraphQlDirective"

/-- Of the names that every client binds only that of the base of directives has the word in which
class names of directives end. -/
theorem eq_directiveBase : ∀ n ∈ boundNames, directiveSuffix.toList <:+: n.toList →
    n = directiveBase := by
  decide +kernel

/-- The word stands in one place of the base of directives. -/
theorem append_eq_directiveBase {before after : String} :
    before ++ directiveSuffix ++ after = directiveBase ↔ before = "GraphQl" ∧ after = "" := by
  constructor
  · intro h
    have hchars : before.toList ++ (directiveSuffix.toList ++ after.toList) =
        directiveBase.toList := by
      rw [← h, String.toList_append, String.toList_append, List.append_assoc]
    have hlength := congrArg List.length hchars
    rw [List.length_append, List.length_append, show directiveSuffix.toList.length = 9 by decide,
      show directiveBase.toList.length = 16 by decide] at hlength
    have hrest : directiveSuffix.toList ++ after.toList =
        directiveBase.toList.drop before.toList.length := by
      rw [← hchars, List.drop_left]
    have hplace : ∀ k ≤ 7, directiveSuffix.toList <+: directiveBase.toList.drop k → k = 7 := by
      decide
    have hseven := hplace before.toList.length (by omega) (hrest ▸ List.prefix_append _ _)
    have hbefore : before.toList = directiveBase.toList.take 7 := by
      rw [← hchars, ← hseven, List.take_left]
    have hafter : after.toList = [] := List.eq_nil_of_length_eq_zero (by omega)
    exact ⟨String.toList_inj.mp hbefore, String.toList_inj.mp hafter⟩
  · rintro ⟨rfl, rfl⟩
    decide

/-- The only name bound by every client that the class of a directive can have is that of the base
of directives. -/
theorem directiveClassName_mem_boundNames :
    c.directiveClassName d ∈ boundNames ↔
      c.configuration.classPrefix ++ pascalCase d.name = "GraphQl" ∧
        c.configuration.classSuffix = "" := by
  rw [← append_eq_directiveBase]
  refine ⟨fun h => ?_, fun h => ?_⟩
  · refine eq_directiveBase _ h ⟨(c.configuration.classPrefix ++ pascalCase d.name).toList,
      c.configuration.classSuffix.toList, ?_⟩
    simp only [String.toList_append]
  · rw [Catalog.directiveClassName, Configuration.fullName, h]
    decide

/-! ### Classes of a catalog -/

/-- The classes of the directives of a catalog differ where no two names have one Pascal case
form. -/
theorem nodup_directiveClasses_iff (h : (make configuration s).2 = .ok c) :
    (c.fieldDirectives.map c.directiveClassName).Nodup ↔
      ∀ d ∈ c.fieldDirectives, ∀ e ∈ c.fieldDirectives,
        pascalCase d.name = pascalCase e.name → d.name = e.name := by
  have hnames := nodup_names_fieldDirectives h
  rw [List.nodup_map_iff_inj_on hnames.of_map]
  constructor
  · exact fun hinj d hd e he heq =>
      congrArg DirectiveDefinition.name (hinj d hd e he (directiveClassName_inj.mpr heq))
  · exact fun hinj d hd e he heq => List.inj_on_of_nodup_map hnames hd he
      (hinj d hd e he (directiveClassName_inj.mp heq))

/-- **When the classes of directives differ from each other and from what every client binds.** The
classes of the directives of a catalog differ exactly if no two names have one Pascal case form, as
where all names are in camel case; one of them has a name that every client binds exactly if it is
called like the base of directives. Whatever is generated from the catalog has these classes. -/
theorem directive_classes_apart_iff (h : (make configuration s).2 = .ok c) :
    ((c.fieldDirectives.map c.directiveClassName).Nodup ↔
      ∀ d ∈ c.fieldDirectives, ∀ e ∈ c.fieldDirectives,
        pascalCase d.name = pascalCase e.name → d.name = e.name) ∧
      ((∀ d ∈ c.fieldDirectives, isCamel d.name = true) →
        (c.fieldDirectives.map c.directiveClassName).Nodup) ∧
      (∀ d ∈ c.fieldDirectives, c.directiveClassName d ∈ boundNames ↔
        configuration.classPrefix ++ pascalCase d.name = "GraphQl" ∧
          configuration.classSuffix = "") ∧
      ∀ (g : Generator) (constants : Keyed String) (ms : List Member),
        g.members c constants .directives = .ok ms →
          (ms.map Member.className).Perm (c.fieldDirectives.map c.directiveClassName) := by
  have hiff := nodup_directiveClasses_iff h
  refine ⟨hiff, fun hcamel => hiff.mpr fun d hd e he heq => ?_, fun d _ => ?_, ?_⟩
  · exact pascalCase_injective_of_camel (hcamel d hd) (hcamel e he) heq
  · rw [directiveClassName_mem_boundNames, configuration_of_make h]
  · intro g constants ms hms
    obtain ⟨hschema, hcomplex⟩ := schema_of_make h
    exact members_perm (indexed_of_byName hcomplex) hms

/-- A schema of three directives on fields: two of them have one Pascal case form, and that of the
third one is the first part of the name of the base. -/
def cacheSchema : Schema where
  queryType := none
  mutationType := none
  subscriptionType := none
  types := []
  directives :=
    [⟨"cacheFor", none, [fieldLocation], []⟩, ⟨"cache_for", none, [fieldLocation], []⟩,
      ⟨"graphQl", none, [fieldLocation], []⟩]

/-- The catalog of the schema. -/
def cacheCatalog : Catalog where
  configuration := {}
  schema := cacheSchema
  types := .empty
  complex := .empty
  directives := .ofList (cacheSchema.directives.map fun (d : DirectiveDefinition) => (d.name, d))
  memberships := .empty
  renamed := .empty
  referenced := []

theorem make_cache : (make {} cacheSchema).2 = .ok cacheCatalog := by
  cbv

theorem cache_classes :
    (make {} cacheSchema).2 = .ok cacheCatalog ∧
      ((cacheCatalog.fieldDirectives.map cacheCatalog.directiveClassName).Nodup ↔
        ∀ d ∈ cacheCatalog.fieldDirectives, ∀ e ∈ cacheCatalog.fieldDirectives,
          pascalCase d.name = pascalCase e.name → d.name = e.name) ∧
      ((∀ d ∈ cacheCatalog.fieldDirectives, isCamel d.name = true) →
        (cacheCatalog.fieldDirectives.map cacheCatalog.directiveClassName).Nodup) ∧
      (∀ d ∈ cacheCatalog.fieldDirectives, cacheCatalog.directiveClassName d ∈ boundNames ↔
        Configuration.classPrefix {} ++ pascalCase d.name = "GraphQl" ∧
          Configuration.classSuffix {} = "") ∧
      (∀ (g : Generator) (constants : Keyed String) (ms : List Member),
        g.members cacheCatalog constants .directives = .ok ms →
          (ms.map Member.className).Perm
            (cacheCatalog.fieldDirectives.map cacheCatalog.directiveClassName)) ∧
      cacheCatalog.fieldDirectives.map cacheCatalog.directiveClassName =
        ["CacheForDirective", "CacheForDirective", "GraphQlDirective"] := by
  obtain ⟨hiff, hcamel, hbound, hwritten⟩ := directive_classes_apart_iff make_cache
  exact ⟨make_cache, hiff, hcamel, hbound, hwritten, by decide +kernel⟩

end Bindery.Output
