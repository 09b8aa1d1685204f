import Bindery.Output.Generate
import Bindery.Proofs.Result

/-!
# Courses that come to their end

A course that comes to its end is made of courses that do, and its events are theirs in order. Each
class adds a file and a unit to a package, so a phase adds those of its classes and a whole course
those of its phases.

## What is proved

* `andThen_eq`, `ofResult_eq` — how courses that come to their end are made.
* `adds_classCourse`, `adds_phaseCourse`, `adds_ofEach` — what a class, a phase and courses in order
  add to a package.
* `package_ends`, `package_eq` — how a client as a package comes to its end, and what it consists of.
-/

namespace Bindery.Output

open Bindery.Client

/-! ### Composition -/

namespace Course

variable {α : Type} {es : List Event}

/-- A course that goes on comes to its end where both parts do. -/
theorem andThen_eq {a : Course} {b : Unit → Course} :
    a.andThen b = ⟨es, none⟩ ↔
      ∃ es₁ es₂, a = ⟨es₁, none⟩ ∧ b () = ⟨es₂, none⟩ ∧ es = es₁ ++ es₂ := by
  obtain ⟨es₁, r₁⟩ := a
  cases r₁ with
  | some e =>
    refine ⟨fun h => ?_, fun ⟨_, _, h, _⟩ => ?_⟩ <;> cases h
  | none =>
    generalize hb : b () = rest
    obtain ⟨es₂, r₂⟩ := rest
    rw [andThen, hb]
    constructor
    · intro h
      cases h
      exact ⟨es₁, es₂, rfl, rfl, rfl⟩
    · rintro ⟨_, _, h₁, h₂, rfl⟩
      cases h₁
      cases h₂
      rfl

/-- A course that follows from a result comes to its end where there is a result and its course
does. -/
theorem ofResult_eq {x : Except Refusal α} {course : α → Course} :
    ofResult x course = ⟨es, none⟩ ↔ ∃ a, x = .ok a ∧ course a = ⟨es, none⟩ := by
  cases x with
  | error e =>
    refine ⟨fun h => ?_, fun ⟨_, h, _⟩ => ?_⟩ <;> cases h
  | ok a =>
    refine ⟨fun h => ⟨a, rfl, h⟩, ?_⟩
    rintro ⟨_, ⟨rfl⟩, h⟩
    exact h

end Course

/-! ### What is added to a package -/

namespace Package

variable {p q r : Package} {us vs : List GeneratedUnit}

/-- The name of the file of a class. -/
def fileName (u : GeneratedUnit) : String :=
  u.module ++ ".py"

/-- The second package has some more classes than the first, with their files, in order. -/
structure Adds (p q : Package) (us : List GeneratedUnit) : Prop where
  /-- The classes. -/
  units : q.units = p.units ++ us
  /-- The files. -/
  files : q.files.map FileInfo.name = p.files.map FileInfo.name ++ us.map fileName
  /-- The project file is the same. -/
  project : q.projectFile = p.projectFile

theorem Adds.refl (p : Package) : p.Adds p [] :=
  ⟨(List.append_nil _).symm, (List.append_nil _).symm, rfl⟩

theorem Adds.trans (h : p.Adds q us) (h' : q.Adds r vs) : p.Adds r (us ++ vs) := by
  refine ⟨?_, ?_, h'.project.trans h.project⟩
  · rw [h'.units, h.units, List.append_assoc]
  · rw [h'.files, h.files, List.map_append, List.append_assoc]

theorem onAll_append (p : Package) (es₁ es₂ : List Event) :
    p.onAll (es₁ ++ es₂) = (p.onAll es₁).onAll es₂ :=
  List.foldl_append

@[simp]
theorem emit_units (p : Package) (fileName text : String) :
    (p.emit fileName text).units = p.units := rfl

@[simp]
theorem emit_files (p : Package) (fileName text : String) :
    (p.emit fileName text).files.map FileInfo.name = p.files.map FileInfo.name ++ [fileName] :=
  List.map_append

/-- The beginning leaves no class and no file, and the end changes nothing. -/
theorem onAll_package (p : Package) (header init : String) (project : Option String)
    (es : List Event) :
    p.onAll ([.begin header] ++ es ++ [.packageFiles init project] ++ [.finish]) =
      (Package.onAll { p with files := [], units := [] } es).emitPackageFiles init project := by
  rw [onAll_append, onAll_append, onAll_append]
  rfl

/-- Without a project file, only the file that stands for the package is added. -/
theorem emitPackageFiles_eq (h : p.projectName? = none) (init : String) (project : Option String) :
    p.emitPackageFiles init project = p.emit "__init__.py" init := by
  have hname : (p.emit "__init__.py" init).projectName? = none := h
  simp only [emitPackageFiles, hname]

theorem adds_reports (p : Package) (lines : List String) :
    p.Adds (p.onAll (lines.map .report)) [] := by
  induction lines generalizing p with
  | nil => exact .refl p
  | cons line lines ih =>
    have hline : p.Adds { p with log := p.log ++ [line] } [] :=
      ⟨(List.append_nil _).symm, (List.append_nil _).symm, rfl⟩
    exact hline.trans (ih _)

end Package

namespace Generator

open Package

variable {g : Generator} {c : Catalog} {constants : Keyed String} {phase : Phase} {es : List Event}

/-- The unit of a class that a phase writes. -/
def unitOf (phase : Phase) (m : Member) : GeneratedUnit :=
  ⟨unitModule phase m.className, m.className, phase⟩

/-- The units of a phase. -/
def phaseUnits (g : Generator) (c : Catalog) (constants : Keyed String) (phase : Phase) :
    List GeneratedUnit :=
  match g.members c constants phase with
  | .ok ms => ms.map (unitOf phase)
  | .error _ => []

theorem phaseUnits_eq {ms : List Member} (h : g.members c constants phase = .ok ms) :
    g.phaseUnits c constants phase = ms.map (unitOf phase) := by
  simp only [phaseUnits, h]

/-- A class adds its file. -/
theorem adds_classCourse {m : Member} (h : g.classCourse phase m = ⟨es, none⟩) (p : Package) :
    p.Adds (p.onAll es) [unitOf phase m] := by
  rw [classCourse] at h
  split_ifs at h
  · cases h
    refine ⟨rfl, ?_, rfl⟩
    exact List.map_append
  · cases h

/-- Courses in order add what each of them does. -/
theorem adds_ofEach {α : Type} {course : α → Course} {units : α → List GeneratedUnit} {xs : List α}
    (hcourse : ∀ x ∈ xs, ∀ es, course x = ⟨es, none⟩ → ∀ p, Adds p (p.onAll es) (units x))
    (h : Course.ofEach course xs = ⟨es, none⟩) (p : Package) :
    p.Adds (p.onAll es) (xs.flatMap units) := by
  induction xs generalizing es p with
  | nil => cases h; exact .refl p
  | cons x xs ih =>
    rw [List.forall_mem_cons] at hcourse
    obtain ⟨es₁, es₂, hx, hxs, rfl⟩ := Course.andThen_eq.mp h
    rw [onAll_append]
    exact (hcourse.1 es₁ hx p).trans (ih hcourse.2 hxs _)

/-- A phase adds the files of its classes. -/
theorem adds_phaseCourse (h : g.phaseCourse c constants phase = ⟨es, none⟩) (p : Package) :
    p.Adds (p.onAll es) (g.phaseUnits c constants phase) := by
  rw [phaseCourse] at h
  obtain ⟨es₁, es₂, hstart, hrest, rfl⟩ := Course.andThen_eq.mp h
  obtain ⟨ms, hms, hmembers⟩ := Course.ofResult_eq.mp hrest
  obtain ⟨es₂, es₃, hclasses, hend, rfl⟩ := Course.andThen_eq.mp hmembers
  cases hstart
  cases hend
  have hbegin : p.Adds (p.onAll [.report ("generating " ++ phase.title), .beginPhase phase]) [] :=
    ⟨(List.append_nil _).symm, (List.append_nil _).symm, rfl⟩
  have hfiles := adds_ofEach (fun _ _ _ hm => adds_classCourse hm) hclasses
    (p.onAll [.report ("generating " ++ phase.title), .beginPhase phase])
  rw [phaseUnits_eq hms, onAll_append, onAll_append, List.map_eq_flatMap]
  exact hbegin.trans hfiles

/-- How generation from a catalog ends: behind the courses of the selected phases, which begin with
no class and no file, the file that stands for the package names the classes that began. -/
theorem onAll_catalogCourse (p : Package) (hpackage : g.isPackage = true)
    (h : g.catalogCourse c = ⟨es, none⟩) :
    ∃ es', Course.ofEach (g.phaseCourse c (typeConstants c.schema)) (selectedPhases g.parts) =
        ⟨es', none⟩ ∧
      p.onAll es = (Package.onAll { p with files := [], units := [] } es').emitPackageFiles
        (packageText g.templates (unitsOf es')) (some (projectText g.templates g.packageName)) := by
  rw [catalogCourse] at h
  obtain ⟨es₁, finish, hpackaged, hfinish, rfl⟩ := Course.andThen_eq.mp h
  obtain ⟨es₂, files, hphases, hfiles, rfl⟩ := Course.andThen_eq.mp hpackaged
  obtain ⟨start, es₃, hstart, hclasses, rfl⟩ := Course.andThen_eq.mp hphases
  rw [packageCourse, if_pos hpackage, hphases] at hfiles
  cases hfinish
  cases hfiles
  cases hstart
  exact ⟨es₃, hclasses, onAll_package _ _ _ _ _⟩

/-- The course of generation that comes to its end. -/
theorem course_eq {s : Schema} (h : (g.course s).refusal = none) :
    ∃ log c es, Catalog.make g.configuration (g.hooks.prepare s) = (log, .ok c) ∧
      g.catalogCourse c = ⟨es, none⟩ ∧ (g.course s).events = log.map .report ++ es := by
  rw [course] at h ⊢
  generalize Catalog.make g.configuration (g.hooks.prepare s) = made at h ⊢
  obtain ⟨log, result⟩ := made
  dsimp only at h ⊢
  generalize hall : (Course.andThen ⟨log.map .report, none⟩ fun _ =>
    Course.ofResult result g.catalogCourse) = all at h ⊢
  obtain ⟨es, refusal⟩ := all
  cases refusal with
  | some e => cases h
  | none =>
    obtain ⟨reports, es, hreports, hresult, rfl⟩ := Course.andThen_eq.mp hall
    obtain ⟨c, rfl, hcatalog⟩ := Course.ofResult_eq.mp hresult
    cases hreports
    exact ⟨log, c, es, rfl, hcatalog, rfl⟩

/-- The generator of a client as the package. -/
def forPackage (g : Generator) (p : Package) : Generator :=
  { g with isPackage := true, packageName := p.name }

/-- How a client as a package comes to its end: with the courses of the selected phases, from a
package without classes and files on, and the file that stands for the package. -/
theorem package_ends {p q : Package} {s : Schema} (h : g.package p s = (q, none)) :
    ∃ (c : Catalog) (r : Package) (es : List Event),
      (Catalog.make g.configuration (g.hooks.prepare s)).2 = .ok c ∧
      (r.units = [] ∧ r.files = [] ∧ r.projectName? = p.projectName?) ∧
      Course.ofEach ((g.forPackage p).phaseCourse c (typeConstants c.schema))
        (selectedPhases g.parts) = ⟨es, none⟩ ∧
      q = (r.onAll es).emitPackageFiles (packageText g.templates (unitsOf es))
        (some (projectText g.templates p.name)) := by
  rw [package, Prod.mk.injEq] at h
  obtain ⟨rfl, hdone⟩ := h
  obtain ⟨log, c, es, hmake, hcatalog, hevents⟩ := course_eq hdone
  obtain ⟨es', hphases, hon⟩ := onAll_catalogCourse (p.onAll (log.map .report)) rfl hcatalog
  have hname : (p.onAll (log.map .report)).projectName? = p.projectName? := by
    rw [projectName?, (adds_reports p log).project]
    rfl
  refine ⟨c, { p.onAll (log.map .report) with files := [], units := [] }, es',
    congrArg Prod.snd hmake, ⟨rfl, rfl, hname⟩, hphases, ?_⟩
  rw [hevents, onAll_append]
  exact hon

/-- What a client as a package consists of, where it comes to its end: the classes of the selected
phases in order, a file for each of them, and the file that stands for the package. -/
theorem package_eq {p q : Package} {s : Schema} (hproject : p.projectName? = none)
    (h : g.package p s = (q, none)) :
    ∃ c, (Catalog.make g.configuration (g.hooks.prepare s)).2 = .ok c ∧
      q.units = (selectedPhases g.parts).flatMap
        ((g.forPackage p).phaseUnits c (typeConstants c.schema)) ∧
      q.files.map FileInfo.name = q.units.map fileName ++ ["__init__.py"] := by
  obtain ⟨c, r, es, hmake, ⟨hunits, hfiles, hname⟩, hphases, rfl⟩ := package_ends h
  have hadds := adds_ofEach (fun _ _ _ hphase => adds_phaseCourse hphase) hphases r
  have hnone : (r.onAll es).projectName? = none := by
    rw [projectName?, hadds.project]
    exact hname.trans hproject
  refine ⟨c, hmake, ?_⟩
  rw [emitPackageFiles_eq hnone, emit_units, emit_files, hadds.files, hadds.units, hunits, hfiles]
  exact ⟨rfl, rfl⟩

end Generator

end Bindery.Output
