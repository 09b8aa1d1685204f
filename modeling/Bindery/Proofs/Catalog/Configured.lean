import Bindery.Catalog.Members
import Bindery.Proofs.Catalog.ClassNames

/-!
# A catalog with another configuration

Of the options, a catalog is made with four: whether what should be avoided is generated, what stands
around class names, and which class names are given. Which fields are generated, which class names
are assigned and which types input types lead to depends on no other option. The configured order of
the classes is none of the four, and the type of a member does not depend on it either.

## What is proved

* `generated_configured`, `fragmentTypes_configured` and their like — what is looked up in a catalog
  with another configuration that agrees in these options.
* `make_configured` — the catalog that is made with the other configuration.
* `generates_withOrder`, `memberType_withOrder` and their like — what is looked up in a catalog with
  another order.
* `make_withOrder` — the catalog that is made with another order.
-/

namespace Bindery

/-- The configurations agree in the options with which a catalog is made. -/
structure Configuration.AgreesWith (configuration other : Configuration) : Prop where
  /-- Is what should be avoided generated as well? -/
  includesDeprecated : other.includesDeprecated = configuration.includesDeprecated
  /-- The start of every class name. -/
  classPrefix : other.classPrefix = configuration.classPrefix
  /-- The end of every class name. -/
  classSuffix : other.classSuffix = configuration.classSuffix
  /-- Class names that are given for types. -/
  classNames : other.classNames = configuration.classNames

namespace Catalog

open Bindery.Schema Bindery.Label

section

variable {configuration other : Configuration} (h : configuration.AgreesWith other)

include h

theorem fullName_of_agreesWith (name suffix : String) :
    other.fullName name suffix = configuration.fullName name suffix := by
  rw [Configuration.fullName, Configuration.fullName, h.classPrefix, h.classSuffix]

theorem takenBy_of_agreesWith (hasBuilder : Bool) (name : String) :
    takenBy other hasBuilder name = takenBy configuration hasBuilder name := by
  rw [takenBy, takenBy, fullName_of_agreesWith h, fullName_of_agreesWith h]

theorem freeName_of_agreesWith (o : Obstacles) (hasBuilder isInput : Bool) (candidate : String) :
    o.freeName other hasBuilder isInput candidate =
      o.freeName configuration hasBuilder isInput candidate := by
  simp only [Obstacles.freeName, Obstacles.collides, takenBy_of_agreesWith h,
    fullName_of_agreesWith h]

end

/-- The catalog with another configuration. -/
def configured (c : Catalog) (other : Configuration) : Catalog :=
  { c with configuration := other }

variable {c : Catalog} {configuration other : Configuration}

section

variable (h : c.configuration.AgreesWith other)

include h

/-! ### Fields -/

theorem includes_configured : (c.configured other).includes = c.includes :=
  funext fun isDeprecated => congrArg (· || !isDeprecated) h.includesDeprecated

theorem generates_configured (f : Field) : (c.configured other).generates f = c.generates f := by
  rw [generates, generates, hasFields, hasFields, includes_configured h]
  rfl

theorem generated_configured (fs : List Field) :
    (c.configured other).generated fs = c.generated fs := by
  induction fs with
  | nil => rfl
  | cons f fs ih => rw [generated, generated, generates_configured h, ih]

theorem ownFields_configured (t : TypeDefinition) :
    (c.configured other).ownFields t = c.ownFields t :=
  generated_configured h t.fields

theorem effectiveFields_configured (t : TypeDefinition) :
    (c.configured other).effectiveFields t = c.effectiveFields t := by
  have hgenerated : (c.configured other).generated = c.generated :=
    funext (generated_configured h)
  rw [Catalog.effectiveFields, Catalog.effectiveFields, ownFields_configured h, hgenerated]
  rfl

theorem withFields_configured (ts : List TypeDefinition) :
    (c.configured other).withFields ts = c.withFields ts := by
  induction ts with
  | nil => rfl
  | cons t ts ih =>
    simp only [withFields, effectiveFields_configured h, ih]
    rfl

theorem fragmentTypes_configured (t : TypeDefinition) :
    (c.configured other).fragmentTypes t = c.fragmentTypes t :=
  withFields_configured h (c.schema.fragments t)

/-! ### Class names -/

theorem memberNames_configured (t : TypeDefinition) :
    (c.configured other).memberNames t = c.memberNames t := by
  rw [memberNames, memberNames, ownFields_configured h]

theorem assignName_configured (natural : List String) (a : Assignment) (t : TypeDefinition) :
    (c.configured other).assignName natural a t = c.assignName natural a t := by
  have hconfiguration : (c.configured other).configuration = other := rfl
  simp only [assignName, memberNames_configured h, hconfiguration, h.classNames,
    takenBy_of_agreesWith h, freeName_of_agreesWith h]

theorem directiveClassName_configured (d : DirectiveDefinition) :
    (c.configured other).directiveClassName d = c.directiveClassName d :=
  fullName_of_agreesWith h (pascalCase d.name) directiveSuffix

theorem renamedTypes_configured : (c.configured other).renamedTypes = c.renamedTypes := by
  have hassign : (c.configured other).assignName c.naturalNames = c.assignName c.naturalNames :=
    funext fun a => funext (assignName_configured h c.naturalNames a)
  have hdirectives : (c.configured other).directiveClassName = c.directiveClassName :=
    funext (directiveClassName_configured h)
  rw [renamedTypes, renamedTypes, ← hassign, ← hdirectives]
  rfl

/-! ### Reached types -/

theorem fieldTypes_configured (t : TypeDefinition) :
    (c.configured other).fieldTypes t = c.fieldTypes t := by
  rw [fieldTypes, fieldTypes, ownFields_configured h]

theorem visitFrom_configured (fuel : Nat) (v : Visit) (t : TypeDefinition) :
    (c.configured other).visitFrom fuel v t = c.visitFrom fuel v t := by
  induction fuel generalizing v t with
  | zero => rfl
  | succ fuel ih =>
    have hvisit : (c.configured other).visitFrom fuel = c.visitFrom fuel :=
      funext fun v => funext (ih v)
    rw [visitFrom, visitFrom, fieldTypes_configured h, hvisit]
    rfl

theorem reachedTypes_configured : (c.configured other).reachedTypes = c.reachedTypes := by
  have hvisit : (c.configured other).visitFrom (c.schema.types.length + 1) =
      c.visitFrom (c.schema.types.length + 1) :=
    funext fun v => funext (visitFrom_configured h _ v)
  rw [reachedTypes, reachedTypes, ← hvisit]
  rfl

end

/-- **A configuration that agrees leads to the same catalog with that configuration.** -/
theorem make_configured {s : Schema} (h : configuration.AgreesWith other)
    (hmake : (make configuration s).2 = .ok c) : (make other s).2 = .ok (c.configured other) := by
  obtain ⟨hpassed, renamed, referenced, hrenamed, hreferenced, rfl⟩ := make_eq_ok_iff.mp hmake
  refine make_eq_ok_iff.mpr ⟨h.classNames ▸ hpassed, renamed, referenced, ?_, ?_, rfl⟩
  · exact (renamedTypes_configured h).trans hrenamed
  · exact (reachedTypes_configured h).trans hreferenced

end Catalog

end Bindery

/-! ### The order of the classes -/

namespace Bindery.Catalog

open Bindery.Schema

variable (c : Catalog) (o : GenerationOrder)

/-- The catalog with another order of the classes. -/
def withOrder : Catalog :=
  { c with configuration := { c.configuration with order := o } }

theorem agreesWith_order (configuration : Configuration) :
    configuration.AgreesWith { configuration with order := o } :=
  ⟨rfl, rfl, rfl, rfl⟩

/-! ### Fields -/

@[simp]
theorem generates_withOrder (f : Field) : (c.withOrder o).generates f = c.generates f :=
  generates_configured (agreesWith_order o _) f

@[simp]
theorem ownFields_withOrder (t : TypeDefinition) : (c.withOrder o).ownFields t = c.ownFields t :=
  ownFields_configured (agreesWith_order o _) t

@[simp]
theorem effectiveFields_withOrder (t : TypeDefinition) :
    (c.withOrder o).effectiveFields t = c.effectiveFields t :=
  effectiveFields_configured (agreesWith_order o _) t

@[simp]
theorem fragmentTypes_withOrder (t : TypeDefinition) :
    (c.withOrder o).fragmentTypes t = c.fragmentTypes t :=
  fragmentTypes_configured (agreesWith_order o _) t

/-! ### Types of members -/

@[simp]
theorem memberType_withOrder (owner member : String) (ref : TypeRef) (always : Bool) :
    (c.withOrder o).memberType owner member ref always = c.memberType owner member ref always := by
  fun_induction Catalog.memberType c owner member ref always with
  | case1 n m item always ih => simp only [memberType, ih]; rfl
  | case2 m item always ih => simp only [memberType, ih]; rfl
  | case3 ref always h h' => simp [memberType]; rfl

variable {c}

/-- **Another order leads to the same catalog with that order.** -/
theorem make_withOrder {configuration : Configuration} {s : Schema}
    (h : (make configuration s).2 = .ok c) :
    (make { configuration with order := o } s).2 = .ok (c.withOrder o) := by
  rw [withOrder, configuration_of_make h]
  exact make_configured (agreesWith_order o configuration) h

end Bindery.Catalog
