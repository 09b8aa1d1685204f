import Bindery.Proofs.Output.Course

/-!
# What a course has written

A course that comes to its end has gone through all selected phases, and in each of them through all
its classes. So no class was refused, and each stands among the events with the text that its phase
gives it. A course that does not come to its end was stopped by the schema, by a phase, or by a text
that is no program.

## What is proved

* `classEvents_infix` — each class of a phase is among the events.
* `written_of_course` — what generation has written when it comes to its end.
* `of_beginClass_mem` — which classes begin.
* `refusal_of_course`, `refusal_eq_none` — why generation does not come to its end, and when it does.
-/

namespace Bindery.Output

open Bindery.Client

namespace Course

variable {α : Type} {e : Refusal} {event : Event}

/-! ### Events of courses -/

theorem of_mem_andThen {a : Course} {b : Unit → Course} (h : event ∈ (a.andThen b).events) :
    event ∈ a.events ∨ event ∈ (b ()).events := by
  obtain ⟨es, r⟩ := a
  cases r with
  | some r => exact .inl h
  | none => exact List.mem_append.mp h

theorem exists_of_mem_ofEach {course : α → Course} {xs : List α}
    (h : event ∈ (ofEach course xs).events) : ∃ x ∈ xs, event ∈ (course x).events := by
  induction xs with
  | nil => cases h
  | cons x xs ih =>
    rcases of_mem_andThen h with h | h
    · exact ⟨x, List.mem_cons_self, h⟩
    · obtain ⟨y, hy, h⟩ := ih h
      exact ⟨y, List.mem_cons_of_mem _ hy, h⟩

theorem of_mem_ofResult {x : Except Refusal α} {course : α → Course}
    (h : event ∈ (ofResult x course).events) : ∃ a, x = .ok a ∧ event ∈ (course a).events := by
  cases x with
  | error e => cases h
  | ok a => exact ⟨a, rfl, h⟩

/-! ### Courses that are refused -/

theorem andThen_refusal {a : Course} {b : Unit → Course} :
    (a.andThen b).refusal = some e ↔
      a.refusal = some e ∨ a.refusal = none ∧ (b ()).refusal = some e := by
  obtain ⟨es, r⟩ := a
  cases r <;> simp [andThen]

/-- Where courses in order are refused, one of them is. -/
theorem exists_of_ofEach_refusal {course : α → Course} {xs : List α}
    (h : (ofEach course xs).refusal = some e) : ∃ x ∈ xs, (course x).refusal = some e := by
  induction xs with
  | nil => cases h
  | cons x xs ih =>
    rw [ofEach, andThen_refusal] at h
    rcases h with h | ⟨-, h⟩
    · exact ⟨x, List.mem_cons_self, h⟩
    · obtain ⟨y, hy, h⟩ := ih h
      exact ⟨y, List.mem_cons_of_mem _ hy, h⟩

theorem ofResult_refusal {x : Except Refusal α} {course : α → Course} :
    (ofResult x course).refusal = some e ↔
      x = .error e ∨ ∃ a, x = .ok a ∧ (course a).refusal = some e := by
  cases x <;> simp [ofResult]

/-- The events of courses in order hold those of each. -/
theorem infix_of_ofEach {es : List Event} {course : α → Course} {xs : List α} {x : α}
    (h : ofEach course xs = ⟨es, none⟩) (hx : x ∈ xs) :
    ∃ own, course x = ⟨own, none⟩ ∧ own <:+: es := by
  induction xs generalizing es with
  | nil => cases hx
  | cons y ys ih =>
    obtain ⟨es₁, es₂, hy, hys, rfl⟩ := andThen_eq.mp h
    rcases List.mem_cons.mp hx with rfl | hx
    · exact ⟨es₁, hy, (List.prefix_append _ _).isInfix⟩
    · obtain ⟨own, hown, hwithin⟩ := ih hys hx
      exact ⟨own, hown, hwithin.trans (List.suffix_append _ _).isInfix⟩

end Course

namespace Generator

variable {g : Generator} {c : Catalog} {constants : Keyed String} {phase : Phase} {m : Member}
  {es : List Event} {s : Schema} {e : Refusal}

/-! ### Classes among the events -/

/-- The events of a class. -/
def classEvents (g : Generator) (phase : Phase) (m : Member) : List Event :=
  [.beginClass phase m.className (g.headerOf phase m), .write (g.hooks.finish m.text), .endClass]

theorem classCourse_eq (h : g.classCourse phase m = ⟨es, none⟩) : es = g.classEvents phase m := by
  rw [classCourse] at h
  split_ifs at h
  · cases h
    rfl
  · cases h

/-- Each class of a phase that comes to its end is among the events. -/
theorem classEvents_infix (h : g.phaseCourse c constants phase = ⟨es, none⟩) :
    ∃ ms, g.members c constants phase = .ok ms ∧ ∀ m ∈ ms, g.classEvents phase m <:+: es := by
  rw [phaseCourse] at h
  obtain ⟨es₁, es₂, -, hrest, rfl⟩ := Course.andThen_eq.mp h
  obtain ⟨ms, hms, hmembers⟩ := Course.ofResult_eq.mp hrest
  obtain ⟨es₂, es₃, hclasses, -, rfl⟩ := Course.andThen_eq.mp hmembers
  refine ⟨ms, hms, fun m hm => ?_⟩
  obtain ⟨own, hown, hwithin⟩ := Course.infix_of_ofEach hclasses hm
  rw [← classCourse_eq hown]
  exact (hwithin.trans (List.prefix_append _ _).isInfix).trans (List.suffix_append _ _).isInfix

/-- **What generation has written when it comes to its end**: every class of every selected
phase. -/
theorem written_of_course (h : (g.course s).refusal = none) :
    ∃ c, (Catalog.make g.configuration (g.hooks.prepare s)).2 = .ok c ∧
      ∀ phase ∈ selectedPhases g.parts, ∃ ms, g.members c (typeConstants c.schema) phase = .ok ms ∧
        ∀ m ∈ ms, g.classEvents phase m <:+: (g.course s).events := by
  obtain ⟨log, c, es, hmake, hcatalog, hevents⟩ := course_eq h
  refine ⟨c, congrArg Prod.snd hmake, fun phase hphase => ?_⟩
  rw [catalogCourse] at hcatalog
  obtain ⟨es₁, finish, hpackaged, -, rfl⟩ := Course.andThen_eq.mp hcatalog
  obtain ⟨es₂, files, hphases, -, rfl⟩ := Course.andThen_eq.mp hpackaged
  obtain ⟨start, es₃, -, hclasses, rfl⟩ := Course.andThen_eq.mp hphases
  obtain ⟨own, hown, hwithin⟩ := Course.infix_of_ofEach hclasses hphase
  obtain ⟨ms, hms, hmembers⟩ := classEvents_infix hown
  have hcourse : es₃ <:+: (g.course s).events := by
    rw [hevents]
    exact ⟨log.map .report ++ start, files ++ finish, by simp only [List.append_assoc]⟩
  exact ⟨ms, hms, fun m hm => ((hmembers m hm).trans hwithin).trans hcourse⟩

theorem mem_selectedPhases {parts : List Part} :
    phase ∈ selectedPhases parts ↔ phase.part ∈ parts := by
  rw [selectedPhases, List.mem_filter, List.contains_iff_mem]
  exact and_iff_right (by cases phase <;> decide)

/-- Without templates a member has the text that is built in. -/
theorem styled_eq (htemplates : g.templates = .empty) (kind : TemplateKind) (m : Member) :
    g.styled kind m = m := by
  rw [styled, htemplates]
  rfl

/-- Without hooks a class is written as its member has it. -/
theorem write_mem_of_infix (hhooks : g.hooks = .none) (h : g.classEvents phase m <:+: es) :
    Event.write m.text ∈ es := by
  refine h.subset ?_
  rw [classEvents, hhooks]
  exact List.mem_cons_of_mem _ List.mem_cons_self

/-! ### Classes that begin -/

theorem of_beginClass_mem_classCourse {phase' : Phase} {name header : String}
    (h : .beginClass phase name header ∈ (g.classCourse phase' m).events) :
    phase' = phase ∧ m.className = name := by
  rw [classCourse] at h
  split_ifs at h
  · simp at h
    exact ⟨h.1.symm, h.2.1.symm⟩
  · cases h

theorem of_beginClass_mem_phaseCourse {phase' : Phase} {name header : String}
    (h : .beginClass phase name header ∈ (g.phaseCourse c constants phase').events) :
    phase' = phase ∧ ∃ ms, g.members c constants phase = .ok ms ∧ ∃ m ∈ ms, m.className = name := by
  rcases Course.of_mem_andThen h with h | h
  · simp at h
  · obtain ⟨ms, hms, h⟩ := Course.of_mem_ofResult h
    rcases Course.of_mem_andThen h with h | h
    · obtain ⟨m, hm, h⟩ := Course.exists_of_mem_ofEach h
      obtain ⟨rfl, hname⟩ := of_beginClass_mem_classCourse h
      exact ⟨rfl, ms, hms, m, hm, hname⟩
    · simp at h

/-- A class that begins is one of a selected phase. -/
theorem of_beginClass_mem {name header : String}
    (h : .beginClass phase name header ∈ (g.course s).events) :
    ∃ c, (Catalog.make g.configuration (g.hooks.prepare s)).2 = .ok c ∧
      phase ∈ selectedPhases g.parts ∧ ∃ ms, g.members c (typeConstants c.schema) phase = .ok ms ∧
        ∃ m ∈ ms, m.className = name := by
  rw [course] at h
  generalize Catalog.make g.configuration (g.hooks.prepare s) = made at h ⊢
  obtain ⟨log, result⟩ := made
  have hall : .beginClass phase name header ∈ (Course.andThen ⟨log.map .report, none⟩ fun _ =>
      .ofResult result g.catalogCourse).events := by
    dsimp only at h
    split_ifs at h
    · exact (List.mem_append.mp h).resolve_right (by simp)
    · exact h
  rcases Course.of_mem_andThen hall with h | h
  · simp at h
  · obtain ⟨c, hc, h⟩ := Course.of_mem_ofResult h
    rw [catalogCourse] at h
    rcases Course.of_mem_andThen h with h | h
    · rcases Course.of_mem_andThen h with h | h
      · rcases Course.of_mem_andThen h with h | h
        · simp at h
        · obtain ⟨phase', hphase, h⟩ := Course.exists_of_mem_ofEach h
          obtain ⟨rfl, hmember⟩ := of_beginClass_mem_phaseCourse h
          exact ⟨c, hc, hphase, hmember⟩
      · rw [packageCourse] at h
        split_ifs at h <;> simp at h
    · simp at h

/-! ### Refusals -/

/-- A class is refused where its text is no program. -/
theorem classCourse_refusal (h : (g.classCourse phase m).refusal = some e) :
    Source.isProgram (g.hooks.finish m.text) = false ∧ e = .unparsable m.className := by
  rw [classCourse] at h
  split_ifs at h with hprogram
  exact ⟨Bool.eq_false_iff.mpr hprogram, (Option.some.inj h).symm⟩

/-- Why a phase does not come to its end: its classes are refused, or the text of one of them is no
program. -/
def Stops (g : Generator) (c : Catalog) (constants : Keyed String) (phase : Phase) (e : Refusal) :
    Prop :=
  g.members c constants phase = .error e ∨ ∃ ms, g.members c constants phase = .ok ms ∧
    ∃ m ∈ ms, Source.isProgram (g.hooks.finish m.text) = false ∧ e = .unparsable m.className

theorem stops_of_refusal (h : (g.phaseCourse c constants phase).refusal = some e) :
    g.Stops c constants phase e := by
  rw [phaseCourse, Course.andThen_refusal] at h
  rcases h with h | ⟨-, h⟩
  · cases h
  · rcases Course.ofResult_refusal.mp h with h | ⟨ms, hms, h⟩
    · exact .inl h
    · rcases Course.andThen_refusal.mp h with h | ⟨-, h⟩
      · obtain ⟨m, hm, h⟩ := Course.exists_of_ofEach_refusal h
        exact .inr ⟨ms, hms, m, hm, classCourse_refusal h⟩
      · cases h

theorem packageCourse_refusal (g : Generator) (es : List Event) :
    (g.packageCourse es).refusal = none := by
  rw [packageCourse]
  split_ifs <;> rfl

/-- Generation from a catalog does not come to its end where a selected phase does not. -/
theorem exists_stops_of_refusal (h : (g.catalogCourse c).refusal = some e) :
    ∃ phase ∈ selectedPhases g.parts, g.Stops c (typeConstants c.schema) phase e := by
  rw [catalogCourse] at h
  rcases Course.andThen_refusal.mp h with h | ⟨-, h⟩
  · rcases Course.andThen_refusal.mp h with h | ⟨-, h⟩
    · rcases Course.andThen_refusal.mp h with h | ⟨-, h⟩
      · cases h
      · obtain ⟨phase, hphase, h⟩ := Course.exists_of_ofEach_refusal h
        exact ⟨phase, hphase, stops_of_refusal h⟩
    · rw [packageCourse_refusal] at h
      cases h
  · cases h

/-- **Why generation does not come to its end**: the schema is refused, or a selected phase does not
come to its end. -/
theorem refusal_of_course (h : (g.course s).refusal = some e) :
    (Catalog.make g.configuration (g.hooks.prepare s)).2 = .error e ∨
      ∃ c, (Catalog.make g.configuration (g.hooks.prepare s)).2 = .ok c ∧
        ∃ phase ∈ selectedPhases g.parts, g.Stops c (typeConstants c.schema) phase e := by
  rw [course] at h
  generalize Catalog.make g.configuration (g.hooks.prepare s) = made at h ⊢
  obtain ⟨log, result⟩ := made
  have hall : (Course.andThen ⟨log.map .report, none⟩ fun _ =>
      .ofResult result g.catalogCourse).refusal = some e := by
    dsimp only at h
    split_ifs at h <;> exact h
  rcases Course.andThen_refusal.mp hall with hall | ⟨-, hall⟩
  · cases hall
  · rcases Course.ofResult_refusal.mp hall with hall | ⟨c, hc, hall⟩
    · exact .inl hall
    · exact .inr ⟨c, hc, exists_stops_of_refusal hall⟩

/-- Generation comes to its end where no class is refused and the text of each is a program. -/
theorem refusal_eq_none (hmake : (Catalog.make g.configuration (g.hooks.prepare s)).2 = .ok c)
    (h : ∀ phase ∈ selectedPhases g.parts, ∃ ms,
      g.members c (typeConstants c.schema) phase = .ok ms ∧
        ∀ m ∈ ms, Source.isProgram (g.hooks.finish m.text) = true) :
    (g.course s).refusal = none := by
  cases hrefusal : (g.course s).refusal with
  | none => rfl
  | some e =>
    rcases refusal_of_course hrefusal with herror | ⟨c', hc', phase, hphase, hstops⟩
    · cases hmake.symm.trans herror
    · cases hmake.symm.trans hc'
      obtain ⟨ms, hms, hprograms⟩ := h phase hphase
      rcases hstops with herror | ⟨ms', hms', m, hm, hno, -⟩
      · cases hms.symm.trans herror
      · cases hms.symm.trans hms'
        rw [hprograms m hm] at hno
        cases hno

end Generator

end Bindery.Output
