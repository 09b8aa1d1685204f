import Bindery.Proofs.Catalog.Words
import Bindery.Proofs.Client.Annotations
import Bindery.Proofs.Client.Metadata
import Bindery.Proofs.Output.Classes
import Bindery.Proofs.Output.Files
import Bindery.Proofs.Output.Written

/-!
# Modules that can be imported

A class that is written has a usable name, and what it imports are classes of types, builders and
directives, whether they are written or not. The module of a usable name is an identifier. That is
not enough: the class `Class` stands in the module `class`, and no statement can name a module by a
keyword. So the lines that import a class are programs exactly if the class name is usable and its
module is no keyword, in the header of each class and in the file that stands for the package.

## What is proved

* `mem_referredClasses`, `mem_methodClasses` — what references and methods lead to.
* `imports_of_members` — what holds of the classes of a phase.
* `isKeyword_moduleName_iff` — the plain class names whose modules are keywords.
* `isProgram_importLine_iff` — when a line that imports a class is a program.
* `units_onAll`, `package_init` — the file that stands for a package names the classes of it.
* `modules_importable_iff` — when the modules of a package can be imported.
-/

namespace Bindery.Client

open Bindery.Schema

variable {c : Catalog} {t : TypeDefinition} {n : String}

/-- The name is that of the class of a type, a builder or a directive. -/
inductive NamesClass (c : Catalog) : String → Prop where
  /-- The class of a type. -/
  | type (name : String) : NamesClass c (c.className name)
  /-- The class of a builder. -/
  | builder (name : String) : NamesClass c (c.className name builderSuffix)
  /-- The class of a directive. -/
  | directive (d : DirectiveDefinition) : NamesClass c (c.directiveClassName d)

/-- The member has a usable name that is one of a class, and it imports classes. -/
structure ImportsClasses (c : Catalog) (m : Member) : Prop where
  /-- The name is usable. -/
  usable : Text.isUsableName m.className = true
  /-- The name is that of a class. -/
  own : NamesClass c m.className
  /-- What is imported are classes. -/
  imported : ∀ n ∈ m.imports ++ m.typeImports, NamesClass c n

theorem usable_of_usableClassName {name : String} (h : usableClassName name = .ok n) :
    Text.isUsableName n = true := by
  have hn := usableClassName_eq_ok h
  rw [usableClassName, usableName] at h
  split_ifs at h with husable
  rwa [hn]

/-! ### What references lead to -/

theorem mem_referredClasses {r : TypeRef} (h : n ∈ referredClasses c r) : NamesClass c n := by
  rw [referredClasses] at h
  split at h
  · cases h
  · split_ifs at h
    · cases h
    · rw [List.mem_singleton.mp h]
      exact .type _

theorem mem_argumentClasses {as : List Argument} (h : n ∈ argumentClasses c as) :
    NamesClass c n := by
  obtain ⟨a, -, h⟩ := List.mem_flatMap.mp h
  exact mem_referredClasses h

/-- The methods of a builder lead to builders, directives and the classes of arguments. -/
theorem mem_methodClasses {fields : List Field} {methods : List FieldMethods}
    {fragments : List FragmentMethods}
    (hmethods : ∀ m ∈ methods, (∀ b ∈ m.builder, NamesClass c b) ∧
      ∀ p ∈ m.directives, NamesClass c p.2)
    (hfragments : ∀ f ∈ fragments, NamesClass c f.builder)
    (h : n ∈ methodClasses c fields methods fragments) : NamesClass c n := by
  rw [methodClasses, List.mem_append, List.mem_append] at h
  rcases h with (h | h) | h
  · obtain ⟨m, hm, h⟩ := List.mem_flatMap.mp h
    rcases List.mem_append.mp h with h | h
    · exact (hmethods m hm).1 n (Option.mem_toList.mp h)
    · obtain ⟨p, hp, rfl⟩ := List.mem_map.mp h
      exact (hmethods m hm).2 p hp
  · obtain ⟨f, -, h⟩ := List.mem_flatMap.mp h
    exact mem_argumentClasses h
  · obtain ⟨f, hf, rfl⟩ := List.mem_map.mp h
    exact hfragments f hf

/-! ### The classes of the phases -/

theorem imports_of_enumClass {e : EnumClass} (h : enumClass c t = .ok e) :
    ImportsClasses c e.member := by
  obtain ⟨name, hname, h⟩ := bind_eq_ok.mp h
  rw [← pure_eq_ok.mp h]
  exact ⟨usable_of_usableClassName hname, usableClassName_eq_ok hname ▸ .type _, nofun⟩

theorem imports_of_directiveClass {d : DirectiveDefinition} {e : DirectiveClass}
    (h : directiveClass c d = .ok e) : ImportsClasses c e.member := by
  obtain ⟨name, hname, h⟩ := bind_eq_ok.mp h
  obtain ⟨ps, -, h⟩ := bind_eq_ok.mp h
  rw [← pure_eq_ok.mp h]
  exact ⟨usable_of_usableClassName hname, usableClassName_eq_ok hname ▸ .directive _,
    fun n hn => mem_argumentClasses hn⟩

theorem imports_of_inputView {i : InputView} (h : inputView c t = .ok i) :
    ImportsClasses c i.member := by
  obtain ⟨name, hname, h⟩ := bind_eq_ok.mp h
  obtain ⟨ps, -, h⟩ := bind_eq_ok.mp h
  rw [← pure_eq_ok.mp h]
  exact ⟨usable_of_usableClassName hname, usableClassName_eq_ok hname ▸ .type _,
    fun n hn => mem_argumentClasses hn⟩

theorem imports_of_dataView {known known' : Ancestors} {d : DataView}
    (h : dataView c known t = .ok (d, known')) : ImportsClasses c d.member := by
  obtain ⟨name, hname, h⟩ := bind_eq_ok.mp h
  obtain ⟨fields, -, h⟩ := bind_eq_ok.mp h
  obtain ⟨ps, -, h⟩ := bind_eq_ok.mp h
  cases pure_eq_ok.mp h
  refine ⟨usable_of_usableClassName hname, usableClassName_eq_ok hname ▸ .type _, fun n hn => ?_⟩
  rcases List.mem_append.mp hn with hn | hn
  · obtain ⟨p, -, rfl⟩ := List.mem_map.mp hn
    exact .type p
  · obtain ⟨f, -, hn⟩ := List.mem_flatMap.mp hn
    exact mem_referredClasses hn

theorem imports_of_builderView {constants : Keyed String} {b : BuilderView}
    (h : builderView c constants t = .ok b) : ImportsClasses c b.member := by
  obtain ⟨fields, -, hmethods⟩ := of_builderView h
  obtain ⟨ts, used, -, hfragments⟩ := (builderParts_of_builderView h).fragments
  obtain ⟨name, hname, h⟩ := bind_eq_ok.mp h
  obtain ⟨fields', -, h⟩ := bind_eq_ok.mp h
  obtain ⟨⟨methods, used'⟩, -, h⟩ := bind_eq_ok.mp h
  obtain ⟨types, -, h⟩ := bind_eq_ok.mp h
  cases pure_eq_ok.mp h
  refine ⟨usable_of_usableClassName hname, usableClassName_eq_ok hname ▸ .builder _, fun n hn => ?_⟩
  refine mem_methodClasses (fun m hm => ?_) (fun f hf => ?_) hn
  · obtain ⟨f, -, hmethod⟩ := hmethods m hm
    refine ⟨fun b hb => ?_, fun p hp => ?_⟩
    · rw [(hmethod.builder b hb).2]
      exact .builder _
    · obtain ⟨d, -, hname⟩ := hmethod.directives p hp
      rw [hname]
      exact .directive d
  · obtain ⟨u, -, -, -, hbuilder⟩ := mem_fragmentMethods hf
    rw [hbuilder]
    exact .builder _

end Bindery.Client

namespace Bindery.Output

open Bindery.Schema Bindery.Client

variable {g : Generator} {c : Catalog} {constants : Keyed String} {phase : Phase} {ms : List Member}

/-- A template leaves the name and the imports of a class. -/
theorem imports_styled {m : Member} (h : ImportsClasses c m) (kind : TemplateKind) :
    ImportsClasses c (g.styled kind m) :=
  ⟨h.usable, h.own, h.imported⟩

/-- What holds of the class of each item holds of the classes of items in the configured order. -/
theorem imports_of_views {α β : Type} {configuration : Configuration} {kind : TemplateKind}
    {key : α → Except Refusal String} {view : α → Except Refusal β} {member : β → Member}
    {xs : List α} {vs : List β} (hview : ∀ x v, view x = .ok v → ImportsClasses c (member v))
    (h : (do (← ordered configuration key xs).mapM view) = .ok vs) :
    ∀ m ∈ vs.map fun v => g.styled kind (member v), ImportsClasses c m := by
  intro m hm
  obtain ⟨v, hv, rfl⟩ := List.mem_map.mp hm
  obtain ⟨ys, -, h⟩ := bind_eq_ok.mp h
  obtain ⟨y, -, hy⟩ := exists_of_mapM h hv
  exact imports_styled (hview y v hy) kind

/-- **The classes of the phases that write one for each type or directive have usable names, and what
they import are classes.** -/
theorem imports_of_members (hphase : phase ≠ .baseClasses ∧ phase ≠ .typeNames)
    (h : g.members c constants phase = .ok ms) : ∀ m ∈ ms, ImportsClasses c m := by
  cases phase with
  | baseClasses => exact absurd rfl hphase.1
  | typeNames => exact absurd rfl hphase.2
  | enums =>
    obtain ⟨es, hes, rfl⟩ := map_eq_ok.mp h
    exact imports_of_views (fun _ _ => imports_of_enumClass) hes
  | directives =>
    obtain ⟨ds, hds, rfl⟩ := map_eq_ok.mp h
    exact imports_of_views (fun _ _ => imports_of_directiveClass) hds
  | builders =>
    obtain ⟨bs, hbs, rfl⟩ := map_eq_ok.mp h
    exact imports_of_views (fun _ _ => imports_of_builderView) hbs
  | inputs =>
    obtain ⟨is, his, rfl⟩ := map_eq_ok.mp h
    exact imports_of_views (fun _ _ => imports_of_inputView) his
  | dataClasses =>
    obtain ⟨ds, hds, rfl⟩ := map_eq_ok.mp h
    intro m hm
    obtain ⟨d, hd, rfl⟩ := List.mem_map.mp hm
    obtain ⟨ts, -, hds⟩ := bind_eq_ok.mp hds
    obtain ⟨t, -, known, known', hview⟩ := of_mem_dataViewsInOrder hds hd
    exact imports_styled (imports_of_dataView hview) _

end Bindery.Output

namespace Bindery.Output

open Bindery.Schema Bindery.Client Bindery.Catalog Bindery.Text Bindery.Source

variable {g : Generator} {c : Catalog} {constants : Keyed String} {phase : Phase} {m : Member}
  {ms : List Member} {n : String} {p q : Package} {s : Schema}

/-! ### Modules that are keywords -/

/-- The class names in plain Pascal case whose modules are keywords. -/
def keywordClasses : List String :=
  ["And", "As", "Assert", "Async", "Await", "Break", "Class", "Continue", "Def", "Del", "Elif",
    "Else", "Except", "Finally", "For", "From", "Global", "If", "Import", "In", "Is", "Lambda",
    "Nonlocal", "Not", "Or", "Pass", "Raise", "Return", "Try", "While", "With", "Yield"]

/-- The plain class names whose modules are keywords. -/
theorem isKeyword_moduleName_iff (h : Label.isPlain n = true) :
    isKeyword (moduleName n) = true ↔ n ∈ keywordClasses := by
  constructor
  · intro hkeyword
    have hlisted : (keywords.all fun k => k.toList.head?.any Char.isUpper ||
        keywordClasses.any fun n => Label.isPlain n && moduleName n == k) = true := by
      decide +kernel
    rw [List.all_eq_true] at hlisted
    have hmodule := hlisted (moduleName n) (List.contains_iff_mem.mp hkeyword)
    rcases Bool.or_eq_true_iff.mp hmodule with hupper | hplain
    · -- The module of a plain class name begins with a small letter.
      obtain ⟨d, r, hname, hd, hr⟩ := Label.isPlain_iff.mp h
      rw [moduleName, Label.snakeCase_plain hname hd hr, List.head?_cons, Option.any_some,
        Char.isUpper_toLower_eq_false] at hupper
      cases hupper
    · obtain ⟨n', hn', hsame⟩ := List.any_eq_true.mp hplain
      rw [Bool.and_eq_true, beq_iff_eq] at hsame
      rwa [← Label.snakeCase_injective_of_plain hsame.1 h hsame.2]
  · have hall : (keywordClasses.all fun n => isKeyword (moduleName n)) = true := by decide +kernel
    exact fun hn => List.all_eq_true.mp hall n hn

/-! ### Lines that import classes -/

theorem isIdentifier_moduleName (h : isUsableName n = true) : isIdentifier (moduleName n) = true :=
  isIdentifier_snakeCase (Bool.and_eq_true_iff.mp h).1

/-- Is the class name usable, and is its module no keyword? -/
def isImportable (className : String) : Bool :=
  isUsableName className && !isKeyword (moduleName className)

theorem isImportable_iff : isImportable n = true ↔
    isUsableName n = true ∧ isKeyword (moduleName n) = false := by
  rw [isImportable, Bool.and_eq_true, Bool.not_eq_true']

theorem moduleName_ne_empty (h : isWord n = true) (hne : n ≠ "") : moduleName n ≠ "" := by
  rw [isWord, List.all_eq_true] at h
  simp only [isWordChar_eq] at h
  cases hchars : n.toList with
  | nil => exact absurd (String.toList_inj.mp hchars) hne
  | cons d r =>
    rw [hchars, List.forall_mem_cons] at h
    obtain ⟨e, t, hform, -⟩ := snakeCase_inClass caseClosed_word caseClosed_word (by decide) rfl
      hchars h.1 h.2
    intro hempty
    rw [moduleName] at hempty
    rw [hempty] at hform
    cases hform

/-- **A line that imports a class from its module is a program exactly if the class name is usable
and its module is no keyword.** -/
theorem isProgram_importLine_iff (h : isWord n = true) :
    isProgram (importLine (moduleName n) n) = true ↔ isImportable n = true := by
  by_cases hne : n = ""
  · subst hne
    decide +kernel
  have hmodule : isWord (moduleName n) = true := isWord_snakeCase h
  rw [importLine, isProgram_import hmodule h (moduleName_ne_empty h hne),
    isImportable_iff, isUsableName, Bool.and_eq_true, Bool.not_eq_true']
  refine ⟨fun h => ⟨h.2, h.1.2⟩, fun h => ⟨⟨isIdentifier_moduleName h.1, h.2⟩, h.1⟩⟩

/-- The lines are programs. -/
def ArePrograms (lines : List String) : Prop :=
  ∀ l ∈ lines, isProgram l = true

theorem arePrograms_append {ls ls' : List String} :
    ArePrograms (ls ++ ls') ↔ ArePrograms ls ∧ ArePrograms ls' :=
  List.forall_mem_append

/-- The lines that import words are programs exactly if all of them can be imported. -/
theorem arePrograms_importLines {ns : List String} (h : ∀ n ∈ ns, isWord n = true) :
    ArePrograms (importLines ns) ↔ ∀ n ∈ ns, isImportable n = true := by
  simp only [ArePrograms, importLines, List.forall_mem_map, List.mem_mergeSort, List.mem_eraseDups]
  exact forall₂_congr fun n hn => isProgram_importLine_iff (h n hn)

/-- The lines that import what every client has are programs. -/
theorem isProgram_shared :
    isProgram (importLine supportModule "*") = true ∧
      isProgram (importLine typeNamesModule typeNamesClass) = true := by
  decide +kernel

/-- What the header of a class imports is a program exactly if all classes that it imports can be
imported. -/
theorem arePrograms_header_iff (h : ∀ n ∈ m.imports ++ m.typeImports, isWord n = true) :
    ArePrograms (executionImports phase m ++ checkingImports m) ↔
      ∀ n ∈ m.imports ++ m.typeImports, n ≠ m.className → isImportable n = true := by
  rw [List.forall_mem_append] at h
  have hexecution : ArePrograms (executionImports phase m) ↔
      ArePrograms (importLines (m.imports.filter (· != m.className))) := by
    cases phase <;>
      exact arePrograms_append.trans (and_iff_right (by simp [ArePrograms, isProgram_shared]))
  rw [arePrograms_append, hexecution, checkingImports,
    arePrograms_importLines fun n hn => h.1 n (List.mem_of_mem_filter hn),
    arePrograms_importLines fun n hn => h.2 n (List.mem_of_mem_filter hn)]
  simp only [List.mem_filter, bne_iff_ne, Bool.and_eq_true, Bool.not_eq_true', List.contains_eq_mem,
    decide_eq_false_iff_not, List.mem_append]
  constructor
  · rintro ⟨hown, hchecked⟩ n hn hne
    by_cases himported : n ∈ m.imports
    · exact hown n ⟨himported, hne⟩
    · exact hchecked n ⟨hn.resolve_left himported, hne, himported⟩
  · exact fun hall => ⟨fun n hn => hall n (.inl hn.1) hn.2, fun n hn => hall n (.inr hn.1) hn.2.1⟩

/-! ### The file that stands for a package -/

/-- The lines of the file that stands for a package that import its classes. -/
def packageImports (units : List GeneratedUnit) : List String :=
  (if units.any fun u => u.phase == .baseClasses then [importLine supportModule "*"] else []) ++
    (units.filter fun u => u.phase != .baseClasses).map fun u => importLine u.module u.className

/-- The text of the file that stands for a package, without templates. -/
theorem packageText_eq (units : List GeneratedUnit) : packageText .empty units =
    linesText ([label, "\"\"\"GraphQL client package.\"\"\"", ""] ++ packageImports units ++
      rebuildLines ((units.filter fun u => u.phase == .dataClasses).map GeneratedUnit.className)) := by
  have hdata : (units.filter fun u => u.phase != .baseClasses).filter
      (fun u => u.phase == .dataClasses) = units.filter fun u => u.phase == .dataClasses := by
    rw [List.filter_filter]
    refine List.filter_congr fun u _ => ?_
    cases u.phase <;> rfl
  rw [← hdata, packageImports, ← List.append_assoc]
  rfl

theorem emitPackageFiles_units (p : Package) (init : String) (project : Option String) :
    (p.emitPackageFiles init project).units = p.units := by
  simp only [Package.emitPackageFiles]
  split <;> rfl

/-- The file that stands for a package stays, unless the project file has its name. -/
theorem get?_init (h : p.projectName? ≠ some "__init__.py") (init : String)
    (project : Option String) :
    (p.emitPackageFiles init project).emitted.get? "__init__.py" = some init := by
  have hinit : (p.emit "__init__.py" init).emitted.get? "__init__.py" = some init :=
    (Keyed.get?_put _ _ _ _).trans (if_pos rfl)
  simp only [Package.emitPackageFiles]
  split
  · rename_i name text hname
    have hne : "__init__.py" ≠ name := by
      rintro rfl
      exact h hname
    exact (Keyed.get?_put _ _ _ _).trans ((if_neg hne).trans hinit)
  · exact hinit

/-- Only the beginning leaves no class. -/
theorem units_onAll {es : List Event} (h : ∀ header, .begin header ∉ es) (p : Package) :
    (p.onAll es).units = p.units ++ Generator.unitsOf es := by
  induction es generalizing p with
  | nil => exact (List.append_nil _).symm
  | cons e es ih =>
    have hrest : ∀ header, .begin header ∉ es := fun header hin =>
      h header (List.mem_cons_of_mem _ hin)
    have hstep : ((p.on e).toOption.getD p).units = p.units ++ Generator.unitsOf [e] := by
      cases e with
      | begin header => exact absurd List.mem_cons_self (h header)
      | beginClass phase name header => rfl
      | packageFiles init project =>
        exact (emitPackageFiles_units p init project).trans (List.append_nil _).symm
      | write text | endClass =>
        refine Eq.trans ?_ (List.append_nil _).symm
        rw [Package.on]
        split <;> rfl
      | report | beginPhase | endPhase | finish | abort => exact (List.append_nil _).symm
    change (Package.onAll ((p.on e).toOption.getD p) es).units = _
    rw [ih hrest, hstep, List.append_assoc, Generator.unitsOf, Generator.unitsOf, Generator.unitsOf,
      ← List.filterMap_append, List.singleton_append]

theorem begin_not_mem_phaseCourse (header : String) :
    .begin header ∉ (g.phaseCourse c constants phase).events := by
  intro h
  rcases Course.of_mem_andThen h with h | h
  · simp at h
  · obtain ⟨ms, -, h⟩ := Course.of_mem_ofResult h
    rcases Course.of_mem_andThen h with h | h
    · obtain ⟨m, -, h⟩ := Course.exists_of_mem_ofEach h
      rw [Generator.classCourse] at h
      split_ifs at h <;> simp at h
    · simp at h

/-- What a package consists of that comes to its end: the classes of the selected phases, which the
file that stands for the package imports. -/
theorem package_init (h : g.package p s = (q, none)) :
    ∃ c, (make g.configuration (g.hooks.prepare s)).2 = .ok c ∧
      q.units = (selectedPhases g.parts).flatMap
        ((g.forPackage p).phaseUnits c (typeConstants c.schema)) ∧
      (p.projectName? ≠ some "__init__.py" →
        q.emitted.get? "__init__.py" = some (packageText g.templates q.units)) := by
  obtain ⟨c, r, es, hmake, ⟨hunits, -, hname⟩, hphases, rfl⟩ := Generator.package_ends h
  have hadds := Generator.adds_ofEach (fun _ _ _ hphase => Generator.adds_phaseCourse hphase)
    hphases r
  have hbegin : ∀ header, .begin header ∉ es := by
    intro header hin
    have hevents : .begin header ∈ (Course.ofEach ((g.forPackage p).phaseCourse c
        (typeConstants c.schema)) (selectedPhases g.parts)).events := by rwa [hphases]
    obtain ⟨phase, -, hphase⟩ := Course.exists_of_mem_ofEach hevents
    exact begin_not_mem_phaseCourse header hphase
  have hwritten := units_onAll hbegin r
  rw [hunits, List.nil_append] at hwritten
  refine ⟨c, hmake, ?_, fun hproject => ?_⟩
  · rw [emitPackageFiles_units, hadds.units, hunits, List.nil_append]
  · rw [emitPackageFiles_units, hwritten]
    refine get?_init ?_ _ _
    rw [Package.projectName?, hadds.project]
    exact hname.trans_ne hproject

/-- The classes that a phase writes have usable names. -/
theorem usable_of_members (h : g.members c constants phase = .ok ms) :
    ∀ m ∈ ms, isUsableName m.className = true := by
  cases phase with
  | baseClasses =>
    cases h
    exact List.forall_mem_singleton.mpr (show isUsableName supportName = true by decide)
  | typeNames =>
    cases h
    exact List.forall_mem_singleton.mpr (show isUsableName typeNamesClass = true by decide)
  | enums | directives | builders | inputs | dataClasses =>
    exact fun m hm => (imports_of_members (by decide) h m hm).usable

/-- Where the name of one class is a word, so is that of every class. -/
theorem isWord_of_namesClass (hworded : Worded c) {own : String} (hown : NamesClass c own)
    (hword : isWord own = true) (h : NamesClass c n) : isWord n = true := by
  obtain ⟨hfront, hback⟩ : isWord c.configuration.classPrefix = true ∧
      isWord c.configuration.classSuffix = true := by
    cases hown <;> exact of_isWord_fullName hword
  cases h with
  | type name => exact hworded.isWord_className hfront hback name rfl
  | builder name => exact hworded.isWord_className hfront hback name (by decide)
  | directive d => exact isWord_directiveClassName hfront hback d

/-- The classes that a phase imports are words. -/
theorem isWord_of_members (hworded : Worded c) (h : g.members c constants phase = .ok ms) :
    ∀ m ∈ ms, ∀ n ∈ m.imports ++ m.typeImports, isWord n = true := by
  cases phase with
  | baseClasses | typeNames =>
    cases h
    exact List.forall_mem_singleton.mpr nofun
  | enums | directives | builders | inputs | dataClasses =>
    intro m hm n hn
    have himports := imports_of_members (by decide) h m hm
    exact isWord_of_namesClass hworded himports.own (isWord_of_isUsableName himports.usable)
      (himports.imported n hn)

/-! ### Packages that can be imported -/

/-- The unit of a class has a usable name and stands in the module that the name gives. -/
theorem of_mem_units (hcomplex : c.complex = byName c.schema.complexTypes) {u : GeneratedUnit}
    (hu : u ∈ g.phaseUnits c constants phase) :
    u.module = moduleName u.className ∧ isUsableName u.className = true ∧
      (u.phase = .baseClasses → u.className = supportName) := by
  obtain ⟨hphase, hname, hmodule⟩ := of_mem_phaseUnits hcomplex hu
  refine ⟨hmodule.trans (unitModule_eq hname), ?_, fun hbase => ?_⟩
  · cases hms : g.members c constants phase with
    | error e => simp [Generator.phaseUnits, hms] at hu
    | ok ms =>
      rw [Generator.phaseUnits_eq hms] at hu
      obtain ⟨m, hm, rfl⟩ := List.mem_map.mp hu
      exact usable_of_members hms m hm
  · rw [← hphase, hbase] at hname
    exact List.mem_singleton.mp hname

/-- The lines of the file that stands for a package are programs exactly if no module is a
keyword. -/
theorem arePrograms_packageImports {us : List GeneratedUnit}
    (h : ∀ u ∈ us, u.module = moduleName u.className ∧ isUsableName u.className = true ∧
      (u.phase = .baseClasses → u.className = supportName)) :
    ArePrograms (packageImports us) ↔ ∀ u ∈ us, isKeyword u.module = false := by
  rw [packageImports, arePrograms_append]
  have hshared : ArePrograms
      (if us.any fun u => u.phase == .baseClasses then [importLine supportModule "*"] else []) := by
    split_ifs
    · exact List.forall_mem_singleton.mpr isProgram_shared.1
    · exact nofun
  rw [and_iff_right hshared, ArePrograms, List.forall_mem_map]
  constructor
  · intro hlines u hu
    obtain ⟨hmodule, husable, hbase⟩ := h u hu
    by_cases hphase : u.phase = .baseClasses
    · rw [hmodule, hbase hphase]
      decide
    · have hline := hlines u (List.mem_filter.mpr ⟨hu, by simpa using hphase⟩)
      rw [hmodule, isProgram_importLine_iff (isWord_of_isUsableName husable)] at hline
      rw [hmodule]
      exact (isImportable_iff.mp hline).2
  · intro hkeywords u hu
    obtain ⟨hmodule, husable, -⟩ := h u (List.mem_of_mem_filter hu)
    have hkeyword := hkeywords u (List.mem_of_mem_filter hu)
    rw [hmodule] at hkeyword ⊢
    exact (isProgram_importLine_iff (isWord_of_isUsableName husable)).mpr
      (isImportable_iff.mpr ⟨husable, hkeyword⟩)

/-- **When the modules of a package can be imported.** In a package that comes to its end, each class
has a usable name, and its module is the snake case form of that name, which is an identifier; for a
class name in plain Pascal case it is a keyword exactly if the class name is one of a short list. The
lines that import the classes of the package are programs exactly if no module is a keyword. The
lines in the header of a class are programs exactly if each class that they import has a usable name
and a module that is no keyword. -/
theorem modules_importable_iff (g : Generator) (p q : Package) (s : Schema)
    (htemplates : g.templates = .empty) (h : g.package p s = (q, none)) :
    (∀ u ∈ q.units, u.module = moduleName u.className ∧ isUsableName u.className = true ∧
        isIdentifier u.module = true ∧
        (Label.isPlain u.className = true →
          (isKeyword u.module = true ↔ u.className ∈ keywordClasses))) ∧
      (p.projectName? ≠ some "__init__.py" → q.emitted.get? "__init__.py" = some (linesText
        ([label, "\"\"\"GraphQL client package.\"\"\"", ""] ++ packageImports q.units ++ rebuildLines
          ((q.units.filter fun u => u.phase == .dataClasses).map GeneratedUnit.className)))) ∧
      (ArePrograms (packageImports q.units) ↔ ∀ u ∈ q.units, isKeyword u.module = false) ∧
      ∃ c, (make g.configuration (g.hooks.prepare s)).2 = .ok c ∧
        ∀ phase ∈ selectedPhases g.parts, ∃ ms,
          (g.forPackage p).members c (typeConstants c.schema) phase = .ok ms ∧
          ∀ m ∈ ms, Generator.unitOf phase m ∈ q.units ∧
            .beginClass phase m.className (unitHeader .empty phase m) ∈
              ((g.forPackage p).course s).events ∧
            (ArePrograms (executionImports phase m ++ checkingImports m) ↔
              ∀ n ∈ m.imports ++ m.typeImports, n ≠ m.className → isImportable n = true) := by
  have hdone : ((g.forPackage p).course s).refusal = none := (Prod.mk.injEq _ _ _ _ ▸ h).2
  obtain ⟨c, hmake, hunits, hinit⟩ := package_init h
  obtain ⟨c', hmake', hwritten⟩ := Generator.written_of_course hdone
  obtain ⟨hschema, hcomplex⟩ := schema_of_make hmake
  rw [← hschema] at hcomplex
  cases hmake.symm.trans hmake'
  have hfacts : ∀ u ∈ q.units, u.module = moduleName u.className ∧
      isUsableName u.className = true ∧ (u.phase = .baseClasses → u.className = supportName) := by
    intro u hu
    rw [hunits] at hu
    obtain ⟨phase, -, hu⟩ := List.mem_flatMap.mp hu
    exact of_mem_units hcomplex hu
  refine ⟨fun u hu => ?_, ?_, arePrograms_packageImports hfacts, c, hmake, fun phase hphase => ?_⟩
  · obtain ⟨hmodule, husable, -⟩ := hfacts u hu
    rw [hmodule]
    exact ⟨rfl, husable, isIdentifier_moduleName husable, isKeyword_moduleName_iff⟩
  · rwa [htemplates, packageText_eq] at hinit
  · obtain ⟨ms, hms, hevents⟩ := hwritten phase hphase
    refine ⟨ms, hms, fun m hm => ⟨?_, ?_, ?_⟩⟩
    · rw [hunits, List.mem_flatMap]
      exact ⟨phase, hphase, Generator.phaseUnits_eq hms ▸ List.mem_map_of_mem hm⟩
    · rw [← htemplates]
      exact (hevents m hm).subset List.mem_cons_self
    · exact arePrograms_header_iff (isWord_of_members (worded_of_make hmake) hms m hm)

/-- A schema with an enumeration whose class name is a keyword but for its capital. -/
def classSchema : Schema where
  queryType := none
  mutationType := none
  subscriptionType := none
  types := [⟨.enumeration, "Class", none, [], [], [], [⟨"X", none, false, none⟩], []⟩]
  directives := []

/-- The package of the schema. -/
def classPackage : Package :=
  (dataGenerator.package { name := "schools" } classSchema).1

/-- The class stands in a module that nothing can import. -/
theorem class_not_importable :
    dataGenerator.templates = .empty ∧
      dataGenerator.package { name := "schools" } classSchema = (classPackage, none) ∧
      classPackage.units = [⟨"class", "Class", .enums⟩] ∧
      (Label.isPlain "Class" = true ∧ "Class" ∈ keywordClasses) ∧
      ¬ ArePrograms (packageImports classPackage.units) := by
  obtain ⟨hdone, hunits⟩ : (dataGenerator.package { name := "schools" } classSchema).2 = none ∧
      classPackage.units = [⟨"class", "Class", .enums⟩] := by
    decide +kernel
  have hpackage : dataGenerator.package { name := "schools" } classSchema = (classPackage, none) :=
    Prod.ext rfl hdone
  obtain ⟨-, -, hinit, -⟩ :=
    modules_importable_iff dataGenerator _ classPackage classSchema rfl hpackage
  refine ⟨rfl, hpackage, hunits, by decide, fun hprograms => ?_⟩
  have hunit : ⟨"class", "Class", .enums⟩ ∈ classPackage.units := by
    rw [hunits]
    exact List.mem_singleton_self _
  have hkeyword := hinit.mp hprograms _ hunit
  revert hkeyword
  decide

end Bindery.Output
