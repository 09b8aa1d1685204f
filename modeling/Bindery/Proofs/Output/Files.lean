import Bindery.Proofs.Label.Forms
import Bindery.Proofs.Output.Classes
import Bindery.Proofs.Output.Course

/-!
# The files of a package

The classes of a client have different names, apart from those of directives, but a file is named by
the snake case form of its class, and two class names can have one such form. So the files of a
package differ where the classes of directives do and no two class names have one form.

## What is proved

* `nodup_prepare` — hooks leave types with different names.
* `units_apart` — two classes of one name are both those of directives.
* `package_classes` — what that says about a package that comes to its end.
* `package_files_nodup_iff` — when the files of a package have different names.
-/

namespace Bindery.Output

open Bindery.Schema Bindery.Client Bindery.Catalog

variable {c : Catalog} {g : Generator}

/-! ### Hooks -/

/-- A filter leaves some of the names of types. -/
theorem apply_names_sublist (f : TypeFilter) (s : Schema) :
    ((f.apply s).types.map TypeDefinition.name).Sublist (s.types.map TypeDefinition.name) := by
  rw [TypeFilter.apply, List.map_map]
  exact List.filter_sublist.map TypeDefinition.name

/-- Hooks leave types with different names. -/
theorem nodup_prepare (h : Hooks) {s : Schema} (hnames : (s.types.map TypeDefinition.name).Nodup) :
    ((h.prepare s).types.map TypeDefinition.name).Nodup := by
  suffices key : ∀ (fs : List TypeFilter) (s : Schema), (s.types.map TypeDefinition.name).Nodup →
      ((fs.foldl (fun s f => f.apply s) s).types.map TypeDefinition.name).Nodup from
    key h.filters s hnames
  intro fs
  induction fs with
  | nil => exact fun s hs => hs
  | cons f fs ih => exact fun s hs => ih (f.apply s) (hs.sublist (apply_names_sublist f s))

/-! ### The classes of a client -/

/-- The class of a unit is one of its phase. -/
theorem of_mem_phaseUnits (hcomplex : c.complex = byName c.schema.complexTypes)
    {constants : Keyed String} {phase : Phase} {u : GeneratedUnit}
    (h : u ∈ g.phaseUnits c constants phase) :
    u.phase = phase ∧ u.className ∈ classNames c phase ∧
      u.module = unitModule phase u.className := by
  cases hms : g.members c constants phase with
  | error e => simp [Generator.phaseUnits, hms] at h
  | ok ms =>
    rw [Generator.phaseUnits_eq hms] at h
    obtain ⟨m, hm, rfl⟩ := List.mem_map.mp h
    exact ⟨rfl, (members_subperm hcomplex hms).subset (List.mem_map_of_mem hm), rfl⟩

/-- A unit is in the module that its class is named by. -/
theorem unitModule_eq {phase : Phase} {n : String} (h : n ∈ classNames c phase) :
    unitModule phase n = moduleName n := by
  cases phase with
  | baseClasses =>
    rw [List.mem_singleton.mp h]
    decide
  | typeNames =>
    rw [List.mem_singleton.mp h]
    decide
  | enums | directives | builders | inputs | dataClasses => rfl

theorem selectedPhases_nodup (parts : List Part) : (selectedPhases parts).Nodup :=
  List.Nodup.filter _ (by decide)

/-- **Two classes of one name are both those of directives.** -/
theorem units_apart (g : Generator) (constants : Keyed String) (hfree : c.CollisionFree c.schema.types)
    (hnames : (c.schema.types.map TypeDefinition.name).Nodup)
    (hcomplex : c.complex = byName c.schema.complexTypes) {phases : List Phase} (hphases : phases.Nodup) :
    (phases.flatMap (g.phaseUnits c constants)).Pairwise fun u v =>
      ¬ (u.phase = .directives ∧ v.phase = .directives) → u.className ≠ v.className := by
  refine List.pairwise_flatMap.mpr ⟨fun phase _ => ?_, hphases.imp fun hne u hu v hv _ heq => ?_⟩
  · by_cases hphase : phase = .directives
    · refine List.pairwise_of_forall_mem_list fun u hu v hv hnot => ?_
      exact absurd ⟨(of_mem_phaseUnits hcomplex hu).1.trans hphase,
        (of_mem_phaseUnits hcomplex hv).1.trans hphase⟩ hnot
    · cases hms : g.members c constants phase with
      | error e => simp [Generator.phaseUnits, hms]
      | ok ms =>
        obtain ⟨ns, hperm, hsub⟩ := members_subperm hcomplex hms
        have hdistinct : (ms.map Member.className).Nodup :=
          hperm.nodup_iff.mp ((nodup_classNames hfree hnames hphase).sublist hsub)
        rw [Generator.phaseUnits_eq hms, List.pairwise_map]
        refine (List.pairwise_map.mp hdistinct).imp ?_
        exact fun hne _ => hne
  · exact hne (phase_eq_of_mem_classNames hfree (of_mem_phaseUnits hcomplex hu).2.1
      (heq ▸ (of_mem_phaseUnits hcomplex hv).2.1))

/-- Where two classes of one name are both those of directives, all class names differ if those of
directives do. -/
theorem nodup_classNames_iff {us : List GeneratedUnit}
    (h : us.Pairwise fun u v =>
      ¬ (u.phase = .directives ∧ v.phase = .directives) → u.className ≠ v.className) :
    (us.map GeneratedUnit.className).Nodup ↔
      ((us.filter fun u => u.phase == .directives).map GeneratedUnit.className).Nodup := by
  refine ⟨fun hall => hall.sublist (List.filter_sublist.map _), fun hdirectives => ?_⟩
  have hpairs := List.pairwise_filter.mp (List.pairwise_map.mp hdirectives)
  refine List.pairwise_map.mpr (h.imp₂ (fun u v hapart hpair => ?_) hpairs)
  by_cases hboth : u.phase = .directives ∧ v.phase = .directives
  · exact hpair (beq_iff_eq.mpr hboth.1) (beq_iff_eq.mpr hboth.2)
  · exact hapart hboth

/-- A list of images has no repetitions where the list has none and its items have different
images. -/
theorem nodup_map_iff {α β : Type} {xs : List α} {f : α → β} :
    (xs.map f).Nodup ↔ xs.Nodup ∧ ∀ x ∈ xs, ∀ y ∈ xs, f x = f y → x = y :=
  ⟨fun h => ⟨h.of_map, (List.nodup_map_iff_inj_on h.of_map).mp h⟩,
    fun h => (List.nodup_map_iff_inj_on h.1).mpr h.2⟩

/-- The name of the file of a class. -/
def classFile (className : String) : String :=
  moduleName className ++ ".py"

theorem classFile_eq_iff {a b : String} : classFile a = classFile b ↔ moduleName a = moduleName b :=
  String.append_left_inj ".py"

theorem classFile_eq_init_iff {a : String} :
    classFile a = "__init__.py" ↔ moduleName a = "__init__" := by
  rw [classFile, show "__init__.py" = "__init__" ++ ".py" by decide, String.append_left_inj]

/-- A package that comes to its end has a file for each class and one that stands for the package,
and two of its classes have one name only if both are those of directives. -/
theorem package_classes {p q : Package} {s : Schema}
    (hgiven : g.configuration.classNames = .empty)
    (hnames : (s.types.map TypeDefinition.name).Nodup) (hproject : p.projectName? = none)
    (h : g.package p s = (q, none)) :
    q.files.map FileInfo.name =
        (q.units.map GeneratedUnit.className).map classFile ++ ["__init__.py"] ∧
      q.units.Pairwise fun u v =>
        ¬ (u.phase = .directives ∧ v.phase = .directives) → u.className ≠ v.className := by
  obtain ⟨c, hmake, hunits, hfiles⟩ := Generator.package_eq hproject h
  have hprepared := nodup_prepare g.hooks hnames
  have hfree := collisionFree_of_make hgiven hprepared hmake
  obtain ⟨hschema, hcomplex⟩ := schema_of_make hmake
  rw [← hschema] at hprepared hfree hcomplex
  constructor
  · rw [hfiles, List.map_map]
    refine congrArg (· ++ _) (List.map_congr_left fun u hu => ?_)
    rw [hunits] at hu
    obtain ⟨phase, -, hu⟩ := List.mem_flatMap.mp hu
    obtain ⟨-, hname, hmodule⟩ := of_mem_phaseUnits hcomplex hu
    rw [Package.fileName, hmodule, unitModule_eq hname]
    rfl
  · rw [hunits]
    exact units_apart _ _ hfree hprepared hcomplex (selectedPhases_nodup g.parts)

/-- When the files of such a package have different names. -/
theorem files_nodup_iff {q : Package}
    (hfiles : q.files.map FileInfo.name =
      (q.units.map GeneratedUnit.className).map classFile ++ ["__init__.py"])
    (hapart : q.units.Pairwise fun u v =>
      ¬ (u.phase = .directives ∧ v.phase = .directives) → u.className ≠ v.className) :
    (q.files.map FileInfo.name).Nodup ↔
      ((q.units.filter fun u => u.phase == .directives).map GeneratedUnit.className).Nodup ∧
        (∀ u ∈ q.units, ∀ v ∈ q.units,
          moduleName u.className = moduleName v.className → u.className = v.className) ∧
        ∀ u ∈ q.units, moduleName u.className ≠ "__init__" := by
  rw [hfiles, List.nodup_append', nodup_map_iff, nodup_classNames_iff hapart]
  simp [classFile_eq_iff, classFile_eq_init_iff, and_assoc]

/-- **When no file of a package overwrites another.** Where types have different names, no class
name is given and there is no project file, the files of a package that comes to its end have
different names exactly if the classes of directives do, no two class names have one snake case form
and none has that of the file that stands for the package. Names in plain Pascal case have forms of
their own, so where all class names are plain only directives can have files of one name. -/
theorem package_files_nodup_iff (g : Generator) (p q : Package) (s : Schema)
    (hgiven : g.configuration.classNames = .empty)
    (hnames : (s.types.map TypeDefinition.name).Nodup) (hproject : p.projectName? = none)
    (h : g.package p s = (q, none)) :
    ((q.files.map FileInfo.name).Nodup ↔
      ((q.units.filter fun u => u.phase == .directives).map GeneratedUnit.className).Nodup ∧
        (∀ u ∈ q.units, ∀ v ∈ q.units,
          moduleName u.className = moduleName v.className → u.className = v.className) ∧
        ∀ u ∈ q.units, moduleName u.className ≠ "__init__") ∧
      ((∀ u ∈ q.units, Label.isPlain u.className = true) →
        ((q.files.map FileInfo.name).Nodup ↔
          ((q.units.filter fun u => u.phase == .directives).map
            GeneratedUnit.className).Nodup)) := by
  obtain ⟨hfiles, hapart⟩ := package_classes hgiven hnames hproject h
  have hiff := files_nodup_iff hfiles hapart
  refine ⟨hiff, fun hplain => hiff.trans ⟨And.left, fun hdirectives => ⟨hdirectives, ?_, ?_⟩⟩⟩
  · exact fun u hu v hv heq =>
      Label.snakeCase_injective_of_plain (hplain u hu) (hplain v hv) heq
  · exact fun u hu => Label.snakeCase_ne_of_plain (hplain u hu) (by decide)

/-- A schema of two enumerations whose class names differ in the case of a letter only. -/
def marksSchema : Schema where
  queryType := none
  mutationType := none
  subscriptionType := none
  types :=
    [⟨.enumeration, "A_B", none, [], [], [], [⟨"X", none, false, none⟩], []⟩,
      ⟨.enumeration, "AB", none, [], [], [], [⟨"Y", none, false, none⟩], []⟩]
  directives := []

/-- A generator of data classes. -/
def dataGenerator : Generator where
  configuration := {}
  parts := [.dataClasses]

/-- The package of the schema. -/
def marksPackage : Package :=
  (dataGenerator.package { name := "marks" } marksSchema).1

theorem marks_files :
    dataGenerator.configuration.classNames = .empty ∧
      (marksSchema.types.map TypeDefinition.name).Nodup ∧
      Package.projectName? { name := "marks" } = none ∧
      dataGenerator.package { name := "marks" } marksSchema = (marksPackage, none) ∧
      ((marksPackage.files.map FileInfo.name).Nodup ↔
        ((marksPackage.units.filter fun u => u.phase == .directives).map
            GeneratedUnit.className).Nodup ∧
          (∀ u ∈ marksPackage.units, ∀ v ∈ marksPackage.units,
            moduleName u.className = moduleName v.className → u.className = v.className) ∧
          ∀ u ∈ marksPackage.units, moduleName u.className ≠ "__init__") ∧
      ((∀ u ∈ marksPackage.units, Label.isPlain u.className = true) →
        ((marksPackage.files.map FileInfo.name).Nodup ↔
          ((marksPackage.units.filter fun u => u.phase == .directives).map
            GeneratedUnit.className).Nodup)) := by
  have hnames : (marksSchema.types.map TypeDefinition.name).Nodup := by decide
  have hdone : (dataGenerator.package { name := "marks" } marksSchema).2 = none := by
    decide +kernel
  have hpackage : dataGenerator.package { name := "marks" } marksSchema = (marksPackage, none) :=
    Prod.ext rfl hdone
  exact ⟨rfl, hnames, rfl, hpackage,
    package_files_nodup_iff dataGenerator _ marksPackage marksSchema rfl hnames rfl hpackage⟩

example : marksPackage.files.map FileInfo.name = ["ab.py", "ab.py", "__init__.py"] := by
  decide +kernel

end Bindery.Output
