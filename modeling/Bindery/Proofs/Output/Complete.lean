import Bindery.Proofs.Output.Files
import Bindery.Proofs.Output.Written

/-!
# Files are complete

A package takes a class as a beginning, texts and an end, in any order of calls. What it hands on at
an end is the header of the last beginning with the texts since then, so a class that is given up or
begun anew leaves nothing. Generation writes every class as one such block, and only behind the last
class the file that stands for the package. So a run that stops has handed on whole classes only.

## What is proved

* `current_onAll` — which file is open after any sequence of calls.
* `mem_completed`, `hands_onAll` — which files any sequence of calls hands on.
* `writesOnly_ofEach`, `writesOnly_phaseCourse` — what phases hand on, whether they come to their
  end or not.
* `no_partial_file` — no sequence of calls and no run that stops hands on a part of a class.
-/

namespace Bindery.Output

open Bindery.Client Bindery.Source

/-! ### Calls -/

/-- Is the event one of those by which a class is handed over? -/
def Event.isCall : Event → Bool
  | .beginClass _ _ _ | .write _ | .endClass | .abort => true
  | _ => false

/-- The file of a class that begins with a header, with texts behind it. -/
def unitFile (phase : Phase) (className header : String) (texts : List String) : OpenUnit :=
  ⟨unitModule phase className ++ ".py", header ++ String.join texts⟩

/-- After the calls a file is open: the last beginning has only texts behind it. -/
def Opens (es : List Event) (u : OpenUnit) : Prop :=
  ∃ before phase className header texts,
    es = before ++ .beginClass phase className header :: texts.map .write ∧
      u = unitFile phase className header texts

/-- The texts up to the end of a class, if nothing else comes before it. -/
def textsToEnd? : List Event → Option (List String)
  | .write text :: r => (textsToEnd? r).map (text :: ·)
  | .endClass :: _ => some []
  | _ => none

/-- The files of the classes that come to their end. -/
def completed : List Event → List OpenUnit
  | .beginClass phase className header :: r =>
    (textsToEnd? r).toList.map (unitFile phase className header) ++ completed r
  | _ :: r => completed r
  | [] => []

variable {es : List Event} {u : OpenUnit} {texts : List String}

theorem textsToEnd?_eq_some : textsToEnd? es = some texts ↔
    ∃ after, es = texts.map .write ++ .endClass :: after := by
  induction es generalizing texts with
  | nil => simp [textsToEnd?]
  | cons e es ih =>
    cases e with
    | write text =>
      rw [textsToEnd?, Option.map_eq_some_iff]
      constructor
      · rintro ⟨texts, htexts, rfl⟩
        obtain ⟨after, rfl⟩ := ih.mp htexts
        exact ⟨after, rfl⟩
      · rintro ⟨after, h⟩
        cases texts with
        | nil => simp at h
        | cons text' texts =>
          simp only [List.map_cons, List.cons_append, List.cons.injEq, Event.write.injEq] at h
          exact ⟨texts, ih.mpr ⟨after, h.2⟩, by rw [h.1]⟩
    | endClass =>
      rw [textsToEnd?]
      constructor
      · rintro ⟨⟩
        exact ⟨es, rfl⟩
      · rintro ⟨after, h⟩
        cases texts with
        | nil => rfl
        | cons text' texts => simp at h
    | _ =>
      refine ⟨nofun, ?_⟩
      rintro ⟨after, h⟩
      cases texts <;> simp at h

theorem mem_completed_cons {e : Event} (h : u ∈ completed es) : u ∈ completed (e :: es) := by
  cases e with
  | beginClass => exact List.mem_append_right _ h
  | _ => exact h

/-- Which files are those of classes that come to their end: each is the header of a beginning with
the texts between it and the next end. -/
theorem mem_completed : u ∈ completed es ↔ ∃ before phase className header texts after,
    es = before ++ .beginClass phase className header :: (texts.map .write ++ .endClass :: after) ∧
      u = unitFile phase className header texts := by
  constructor
  · intro h
    induction es with
    | nil => cases h
    | cons e es ih =>
      -- The file is that of a class that begins here, or of one that begins later.
      have hlater : u ∈ completed es → ∃ before phase className header texts after,
          e :: es = before ++ .beginClass phase className header ::
            (texts.map .write ++ .endClass :: after) ∧
          u = unitFile phase className header texts := by
        intro h
        obtain ⟨before, phase, className, header, texts, after, rfl, hu⟩ := ih h
        exact ⟨e :: before, phase, className, header, texts, after, rfl, hu⟩
      cases e with
      | beginClass phase className header =>
        rcases List.mem_append.mp h with h | h
        · obtain ⟨texts, htexts, rfl⟩ := List.mem_map.mp h
          obtain ⟨after, rfl⟩ := textsToEnd?_eq_some.mp (Option.mem_toList.mp htexts)
          exact ⟨[], phase, className, header, texts, after, rfl, rfl⟩
        · exact hlater h
      | _ => exact hlater h
  · rintro ⟨before, phase, className, header, texts, after, rfl, rfl⟩
    induction before with
    | nil =>
      refine List.mem_append_left _ (List.mem_map.mpr ⟨texts, ?_, rfl⟩)
      exact Option.mem_toList.mpr (textsToEnd?_eq_some.mpr ⟨after, rfl⟩)
    | cons e before ih => exact mem_completed_cons ih

/-! ### The file that is open -/

theorem opens_nil : ¬ Opens [] u := by
  rintro ⟨before, phase, className, header, texts, h, -⟩
  simp at h

theorem unitFile_append (phase : Phase) (className header : String) (texts : List String)
    (text : String) : unitFile phase className header (texts ++ [text]) =
      { unitFile phase className header texts with
        text := (unitFile phase className header texts).text ++ text } := by
  simp [unitFile, String.join_append, String.append_assoc]

/-- After one more call a file is open if the call begins it, or if it was open and the call writes
to it. -/
theorem opens_append {e : Event} : Opens (es ++ [e]) u ↔
    (∃ phase className header, e = .beginClass phase className header ∧
      u = unitFile phase className header []) ∨
    ∃ text u', e = .write text ∧ Opens es u' ∧ u = { u' with text := u'.text ++ text } := by
  constructor
  · rintro ⟨before, phase, className, header, texts, h, rfl⟩
    rcases List.eq_nil_or_concat texts with rfl | ⟨texts, text, rfl⟩
    · obtain ⟨-, he⟩ := List.append_inj' h rfl
      exact .inl ⟨phase, className, header, (List.cons.inj he).1, rfl⟩
    · rw [List.concat_eq_append, List.map_append, ← List.cons_append, ← List.append_assoc] at h
      obtain ⟨rfl, he⟩ := List.append_inj' h rfl
      refine .inr ⟨text, unitFile phase className header texts, (List.cons.inj he).1,
        ⟨before, phase, className, header, texts, rfl, rfl⟩, ?_⟩
      rw [List.concat_eq_append, unitFile_append]
  · rintro (⟨phase, className, header, rfl, rfl⟩ |
      ⟨text, u', rfl, ⟨before, phase, className, header, texts, rfl, rfl⟩, rfl⟩)
    · exact ⟨es, phase, className, header, [], rfl, rfl⟩
    · refine ⟨before, phase, className, header, texts ++ [text], ?_, ?_⟩
      · rw [List.map_append, ← List.cons_append, ← List.append_assoc]
        rfl
      · rw [unitFile_append]

namespace Package

variable {p q r : Package} {us vs : List OpenUnit}

/-- The package after one event, which a refusal leaves as it is. -/
theorem onAll_singleton (p : Package) (e : Event) : p.onAll [e] = (p.on e).toOption.getD p := rfl

/-- **Which file is open after any sequence of calls.** -/
theorem current_onAll (hes : ∀ e ∈ es, e.isCall = true) (hclosed : p.current = none) :
    (p.onAll es).current = some u ↔ Opens es u := by
  induction es using List.reverseRecOn generalizing u with
  | nil => exact ⟨fun h => absurd (hclosed.symm.trans h) nofun, fun h => absurd h opens_nil⟩
  | append_singleton es e ih =>
    rw [List.forall_mem_append, List.forall_mem_singleton] at hes
    have ih : ∀ {u}, (p.onAll es).current = some u ↔ Opens es u := ih hes.1
    rw [opens_append, onAll_append, onAll_singleton]
    cases e with
    | beginClass phase className header =>
      simp [on, Except.toOption, unitFile, eq_comm]
    | write text =>
      cases hcurrent : (p.onAll es).current with
      | none =>
        have hnot : ∀ u', ¬ Opens es u' := fun u' h => nomatch hcurrent.symm.trans (ih.mpr h)
        simp [on, Except.toOption, hcurrent, hnot]
      | some v =>
        simp only [on, hcurrent, Except.toOption, Option.getD_some, ← ih]
        simp [eq_comm]
    | endClass =>
      cases hcurrent : (p.onAll es).current <;> simp [on, Except.toOption, hcurrent]
    | abort => simp [on, Except.toOption]
    | _ => cases hes.2

/-! ### The files that are handed on -/

/-- The name and the number of bytes of a file. -/
def info (u : OpenUnit) : FileInfo :=
  ⟨u.fileName, u.text.utf8ByteSize⟩

/-- The second package has handed on some more files than the first, in order. -/
structure Hands (p q : Package) (us : List OpenUnit) : Prop where
  /-- The files with the numbers of their bytes. -/
  files : q.files = p.files ++ us.map info
  /-- The texts of the files. -/
  emitted : q.emitted = us.foldl (fun m u => m.put u.fileName u.text) p.emitted

theorem Hands.refl (p : Package) : p.Hands p [] :=
  ⟨(List.append_nil _).symm, rfl⟩

/-- What is handed on does not depend on the file that is open, the classes and the reports. -/
theorem Hands.of_same (h : q.Hands r us) (hfiles : q.files = p.files)
    (hemitted : q.emitted = p.emitted) : p.Hands r us :=
  ⟨hfiles ▸ h.files, hemitted ▸ h.emitted⟩

theorem Hands.trans (h : p.Hands q us) (h' : q.Hands r vs) : p.Hands r (us ++ vs) := by
  refine ⟨?_, ?_⟩
  · rw [h'.files, h.files, List.map_append, List.append_assoc]
  · rw [h'.emitted, h.emitted, List.foldl_append]

/-- The file that is open, with the texts up to its end, if it comes to its end. -/
def openToEnd (current : Option OpenUnit) (es : List Event) : List OpenUnit :=
  match current, textsToEnd? es with
  | some u, some texts => [⟨u.fileName, u.text ++ String.join texts⟩]
  | _, _ => []

theorem openToEnd_closed (es : List Event) : openToEnd none es = [] := by
  simp [openToEnd]

theorem openToEnd_endless (current : Option OpenUnit) (h : textsToEnd? es = none) :
    openToEnd current es = [] := by
  cases current <;> simp [openToEnd, h]

/-- A class that begins comes to its end or not. -/
theorem openToEnd_unitFile (phase : Phase) (className header : String) (es : List Event) :
    openToEnd (some (unitFile phase className header [])) es =
      (textsToEnd? es).toList.map (unitFile phase className header) := by
  cases h : textsToEnd? es with
  | none => simp [openToEnd, h]
  | some texts => simp [openToEnd, h, unitFile]

theorem openToEnd_write (text : String) (es : List Event) :
    openToEnd (some u) (.write text :: es) =
      openToEnd (some { u with text := u.text ++ text }) es := by
  cases h : textsToEnd? es with
  | none => simp [openToEnd, textsToEnd?, h]
  | some texts => simp [openToEnd, textsToEnd?, h, String.append_assoc]

theorem openToEnd_endClass (es : List Event) : openToEnd (some u) (.endClass :: es) = [u] := by
  simp [openToEnd, textsToEnd?]

/-- **What any sequence of calls hands on**: the file that is open, if it comes to its end, and those
of the classes that begin and come to their end. -/
theorem hands_onAll (hes : ∀ e ∈ es, e.isCall = true) (p : Package) :
    p.Hands (p.onAll es) (openToEnd p.current es ++ completed es) := by
  induction es generalizing p with
  | nil =>
    rw [openToEnd_endless _ rfl]
    exact .refl p
  | cons e es ih =>
    rw [List.forall_mem_cons] at hes
    have hrest := ih hes.2 ((p.on e).toOption.getD p)
    change p.Hands (((p.on e).toOption.getD p).onAll es) _
    cases e with
    | beginClass phase className header =>
      have hcurrent : ((p.on (.beginClass phase className header)).toOption.getD p).current =
          some (unitFile phase className header []) := by simp [on, Except.toOption, unitFile]
      rw [hcurrent, openToEnd_unitFile] at hrest
      rw [openToEnd_endless _ rfl]
      exact hrest.of_same rfl rfl
    | write text =>
      cases hcurrent : p.current with
      | none =>
        simp only [on, hcurrent, Except.toOption, Option.getD_none] at hrest ⊢
        exact hrest
      | some u =>
        simp only [on, hcurrent, Except.toOption, Option.getD_some] at hrest ⊢
        rw [openToEnd_write]
        exact hrest.of_same rfl rfl
    | endClass =>
      cases hcurrent : p.current with
      | none =>
        simp only [on, hcurrent, Except.toOption, Option.getD_none] at hrest ⊢
        exact hrest
      | some u =>
        simp only [on, hcurrent, Except.toOption, Option.getD_some, openToEnd_closed] at hrest ⊢
        rw [openToEnd_endClass]
        have hemit : p.Hands { p.emit u.fileName u.text with current := none } [u] := ⟨rfl, rfl⟩
        exact hemit.trans hrest
    | abort =>
      rw [openToEnd_endless _ rfl]
      have habort : ((p.on .abort).toOption.getD p).current = none := rfl
      rw [habort, openToEnd_closed] at hrest
      exact hrest.of_same rfl rfl
    | _ => cases hes.1

end Package

/-! ### Runs -/

namespace Generator

open Package

variable {g : Generator} {c : Catalog} {constants : Keyed String} {phase : Phase} {m : Member}
  {s : Schema} {e : Refusal} {es' : List Event} {ws ws' : List (Phase × Member)}
  {P : Phase × Member → Prop}

/-- The file of a class: its header and its text. -/
def fileOf (g : Generator) (w : Phase × Member) : OpenUnit :=
  unitFile w.1 w.2.className (g.headerOf w.1 w.2) [g.hooks.finish w.2.text]

/-- The events hand on the files of these classes and leave no file open. -/
def Writes (g : Generator) (ws : List (Phase × Member)) (es : List Event) : Prop :=
  ∀ p : Package, p.current = none →
    (p.onAll es).current = none ∧ p.Hands (p.onAll es) (ws.map g.fileOf)

theorem Writes.append (h : g.Writes ws es) (h' : g.Writes ws' es') :
    g.Writes (ws ++ ws') (es ++ es') := by
  intro p hclosed
  obtain ⟨hclosed', hhands⟩ := h p hclosed
  obtain ⟨hend, hhands'⟩ := h' _ hclosed'
  rw [onAll_append, List.map_append]
  exact ⟨hend, hhands.trans hhands'⟩

/-- The events of a course hand on the files of classes with a property, and of nothing else. -/
def WritesOnly (g : Generator) (P : Phase × Member → Prop) (a : Course) : Prop :=
  ∃ ws, (∀ w ∈ ws, P w) ∧ g.Writes ws a.events

/-- Without events nothing is handed on. -/
theorem writesOnly_nil (r : Option Refusal) : g.WritesOnly P ⟨[], r⟩ :=
  ⟨[], List.forall_mem_nil _, fun p hclosed => ⟨hclosed, .refl p⟩⟩

theorem writesOnly_andThen {a : Course} {b : Unit → Course} (ha : g.WritesOnly P a)
    (hb : g.WritesOnly P (b ())) : g.WritesOnly P (a.andThen b) := by
  obtain ⟨es, r⟩ := a
  cases r with
  | some r => exact ha
  | none =>
    obtain ⟨ws, hws, hwrites⟩ := ha
    obtain ⟨ws', hws', hwrites'⟩ := hb
    exact ⟨ws ++ ws', List.forall_mem_append.mpr ⟨hws, hws'⟩, hwrites.append hwrites'⟩

theorem writesOnly_ofEach {α : Type} {course : α → Course} {xs : List α}
    (h : ∀ x ∈ xs, g.WritesOnly P (course x)) : g.WritesOnly P (Course.ofEach course xs) := by
  induction xs with
  | nil => exact writesOnly_nil none
  | cons x xs ih =>
    rw [List.forall_mem_cons] at h
    exact writesOnly_andThen h.1 (ih h.2)

/-- A class is handed on as a whole or not at all. -/
theorem writesOnly_classCourse (hm : isProgram (g.hooks.finish m.text) = true → P (phase, m)) :
    g.WritesOnly P (g.classCourse phase m) := by
  rw [classCourse]
  split_ifs with hprogram
  · have hjoin : String.join [g.hooks.finish m.text] = g.hooks.finish m.text := by simp
    refine ⟨[(phase, m)], List.forall_mem_singleton.mpr (hm hprogram), fun p _ => ⟨rfl, ?_⟩⟩
    rw [List.map_singleton, fileOf, unitFile, hjoin]
    exact ⟨rfl, rfl⟩
  · exact writesOnly_nil _

/-- The class is one that the phase writes, and its text is a program. -/
def IsWritten (g : Generator) (c : Catalog) (w : Phase × Member) : Prop :=
  ∃ ms, g.members c (typeConstants c.schema) w.1 = .ok ms ∧ w.2 ∈ ms ∧
    isProgram (g.hooks.finish w.2.text) = true

theorem writesOnly_phaseCourse (g : Generator) (c : Catalog) (phase : Phase) :
    g.WritesOnly (fun w => w.1 = phase ∧ g.IsWritten c w)
      (g.phaseCourse c (typeConstants c.schema) phase) := by
  have hstart : g.WritesOnly (fun w => w.1 = phase ∧ g.IsWritten c w)
      ⟨[.report ("generating " ++ phase.title), .beginPhase phase], none⟩ :=
    ⟨[], List.forall_mem_nil _, fun p hclosed => ⟨hclosed, (Hands.refl _).of_same rfl rfl⟩⟩
  have hend : g.WritesOnly (fun w => w.1 = phase ∧ g.IsWritten c w) ⟨[.endPhase], none⟩ :=
    ⟨[], List.forall_mem_nil _, fun p hclosed => ⟨hclosed, .refl p⟩⟩
  rw [phaseCourse]
  refine writesOnly_andThen hstart ?_
  cases hms : g.members c (typeConstants c.schema) phase with
  | error e => exact writesOnly_nil _
  | ok ms =>
    change g.WritesOnly _ ((Course.ofEach (g.classCourse phase) ms).andThen fun _ =>
      ⟨[.endPhase], none⟩)
    refine writesOnly_andThen (writesOnly_ofEach fun m hm => ?_) hend
    exact writesOnly_classCourse fun hprogram => ⟨rfl, ms, hms, hm, hprogram⟩

/-- The courses of the selected phases. -/
def phasesCourse (g : Generator) (c : Catalog) : Course :=
  Course.ofEach (g.phaseCourse c (typeConstants c.schema)) (selectedPhases g.parts)

theorem writesOnly_phasesCourse (g : Generator) (c : Catalog) :
    g.WritesOnly (fun w => w.1 ∈ selectedPhases g.parts ∧ g.IsWritten c w) (g.phasesCourse c) := by
  refine writesOnly_ofEach fun phase hphase => ?_
  obtain ⟨ws, hws, hwrites⟩ := writesOnly_phaseCourse g c phase
  exact ⟨ws, fun w hw => ⟨(hws w hw).1 ▸ hphase, (hws w hw).2⟩, hwrites⟩

/-- Behind the phases nothing is refused. -/
theorem events_of_catalogCourse (h : (g.catalogCourse c).refusal = some e) :
    (g.catalogCourse c).events =
      .begin (headerText g.templates [] []) :: (g.phasesCourse c).events := by
  rw [catalogCourse] at h ⊢
  have hphases : (Course.andThen ⟨[.begin (headerText g.templates [] [])], none⟩ fun _ =>
      Course.ofEach (g.phaseCourse c (typeConstants c.schema)) (selectedPhases g.parts)) =
      ⟨.begin (headerText g.templates [] []) :: (g.phasesCourse c).events,
        (g.phasesCourse c).refusal⟩ := rfl
  rw [hphases] at h ⊢
  cases hrefusal : (g.phasesCourse c).refusal with
  | some e => rfl
  | none =>
    rw [hrefusal] at h
    rcases Course.andThen_refusal.mp h with h | ⟨-, h⟩
    · rcases Course.andThen_refusal.mp h with h | ⟨-, h⟩
      · cases h
      · rw [packageCourse_refusal] at h
        cases h
    · cases h

/-- The events of a run that stops: reports and, where the schema is not refused, those of phases,
before the file that stands for the package. -/
theorem events_of_refusal (h : (g.course s).refusal = some e) :
    ∃ (log : List String) (rest : List Event),
      (g.course s).events = log.map .report ++ rest ++ [.abort] ∧
        (rest = [] ∨ ∃ c, (Catalog.make g.configuration (g.hooks.prepare s)).2 = .ok c ∧
          rest = .begin (headerText g.templates [] []) :: (g.phasesCourse c).events) := by
  rw [course] at h ⊢
  generalize Catalog.make g.configuration (g.hooks.prepare s) = made at h ⊢
  obtain ⟨log, result⟩ := made
  cases result with
  | error e => exact ⟨log, [], by simp [Course.andThen, Course.ofResult], .inl rfl⟩
  | ok c =>
    have hrefusal : (g.catalogCourse c).refusal = some e := by
      dsimp only at h
      split_ifs at h <;> exact h
    have hsome : (g.catalogCourse c).refusal.isSome = true := by rw [hrefusal]; rfl
    refine ⟨log, (g.catalogCourse c).events, ?_, .inr ⟨c, rfl, events_of_catalogCourse hrefusal⟩⟩
    simp [Course.andThen, Course.ofResult, hsome]

theorem writes_reports (g : Generator) (log : List String) : g.Writes [] (log.map .report) := by
  intro p hclosed
  induction log generalizing p with
  | nil => exact ⟨hclosed, .refl p⟩
  | cons line log ih =>
    obtain ⟨hclosed', hhands⟩ := ih { p with log := p.log ++ [line] } hclosed
    exact ⟨hclosed', hhands.of_same rfl rfl⟩

/-- What a run that stops has handed on: whole classes, and no file is open. -/
theorem package_of_refusal {p q : Package} (hclosed : p.current = none)
    (h : g.package p s = (q, some e)) : q.current = none ∧ ∃ ws : List (Phase × Member),
      (∀ w ∈ ws, w.1 ∈ selectedPhases g.parts ∧
        ∃ c, (Catalog.make g.configuration (g.hooks.prepare s)).2 = .ok c ∧
          (g.forPackage p).IsWritten c w) ∧
      (q.files = (ws.map (g.forPackage p).fileOf).map info ∨ ws = [] ∧ q.files = p.files) ∧
      q.emitted = (ws.map (g.forPackage p).fileOf).foldl
        (fun m u => m.put u.fileName u.text) p.emitted := by
  have hq : p.onAll ((g.forPackage p).course s).events = q := congrArg Prod.fst h
  have hrefusal : ((g.forPackage p).course s).refusal = some e := congrArg Prod.snd h
  obtain ⟨log, rest, hevents, hrest⟩ := events_of_refusal hrefusal
  obtain ⟨hclosed', hreports⟩ := (g.forPackage p).writes_reports log p hclosed
  rw [← hq, hevents, onAll_append, onAll_append]
  generalize p.onAll (log.map .report) = r at hclosed' hreports
  refine ⟨rfl, ?_⟩
  rcases hrest with rfl | ⟨c, hmake, rfl⟩
  · have hfiles : r.files = p.files := hreports.files.trans (List.append_nil _)
    exact ⟨[], List.forall_mem_nil _, .inr ⟨rfl, hfiles⟩, hreports.emitted⟩
  · obtain ⟨ws, hws, hwrites⟩ := (g.forPackage p).writesOnly_phasesCourse c
    obtain ⟨-, hhands⟩ := hwrites { r with files := [], units := [] } hclosed'
    refine ⟨ws, fun w hw => ⟨(hws w hw).1, c, hmake, (hws w hw).2⟩, .inl hhands.files, ?_⟩
    have hemitted : r.emitted = p.emitted := hreports.emitted
    rw [← hemitted]
    exact hhands.emitted

end Generator

/-! ### What is handed on -/

/-- The file that stands for a package has the name of the file of a class that is in the module
`__init__`. -/
theorem fileName_eq_init_iff {g : Generator} {w : Phase × Member} :
    (g.fileOf w).fileName = "__init__.py" ↔ unitModule w.1 w.2.className = "__init__" := by
  change unitModule w.1 w.2.className ++ ".py" = "__init__.py" ↔ _
  rw [show "__init__.py" = "__init__" ++ ".py" by decide, String.append_left_inj]

/-- The class of a plain name is in another module. -/
theorem unitModule_ne_init {phase : Phase} {className : String}
    (h : Label.isPlain className = true) : unitModule phase className ≠ "__init__" := by
  cases phase with
  | baseClasses => exact (by decide : supportModule ≠ "__init__")
  | typeNames => exact (by decide : typeNamesModule ≠ "__init__")
  | enums | directives | builders | inputs | dataClasses =>
    exact Label.snakeCase_ne_of_plain h (by decide)

/-- **No part of a class is handed on.** After any sequence of calls, from a package without an open
file on, the files that were handed on are those of the classes that came to their end, in order,
each with the header of a beginning and the texts between it and the end. A text or an end is refused
exactly if no file is open, and changes nothing then. A run that stops has handed on whole classes
only. Among them is a file with the name of the one that stands for the package exactly if a class is
in the module `__init__`, as no class of a plain name is. -/
theorem no_partial_file (p : Package) (hclosed : p.current = none) :
    (∀ es : List Event, (∀ e ∈ es, e.isCall = true) →
      p.Hands (p.onAll es) (completed es) ∧
      (∀ u, u ∈ completed es ↔ ∃ before phase className header texts after,
        es = before ++ .beginClass phase className header ::
          (texts.map .write ++ .endClass :: after) ∧
        u = unitFile phase className header texts) ∧
      (∀ u, Opens es u →
        (p.onAll es).on .endClass =
          .ok { (p.onAll es).emit u.fileName u.text with current := none } ∧
        ∀ text, ∃ r, (p.onAll es).on (.write text) = .ok r) ∧
      ((∀ u, ¬ Opens es u) → ∀ e, e = .endClass ∨ (∃ text, e = .write text) →
        (p.onAll es).on e = .error .noOpenUnit ∧ p.onAll (es ++ [e]) = p.onAll es)) ∧
    ∀ (g : Generator) (s : Schema) (q : Package) (e : Refusal), g.package p s = (q, some e) →
      q.current = none ∧ ∃ ws : List (Phase × Member),
        (∀ w ∈ ws, w.1 ∈ selectedPhases g.parts ∧
          ∃ c, (Catalog.make g.configuration (g.hooks.prepare s)).2 = .ok c ∧
            (g.forPackage p).IsWritten c w) ∧
        (q.files = (ws.map (g.forPackage p).fileOf).map Package.info ∨
          ws = [] ∧ q.files = p.files) ∧
        q.emitted = (ws.map (g.forPackage p).fileOf).foldl
          (fun m u => m.put u.fileName u.text) p.emitted ∧
        ((∃ w ∈ ws, ((g.forPackage p).fileOf w).fileName = "__init__.py") ↔
          ∃ w ∈ ws, unitModule w.1 w.2.className = "__init__") ∧
        ∀ w ∈ ws, Label.isPlain w.2.className = true →
          ((g.forPackage p).fileOf w).fileName ≠ "__init__.py" := by
  refine ⟨fun es hes => ⟨?_, fun u => mem_completed, fun u hopen => ?_, fun hnone e he => ?_⟩,
    fun g s q e h => ?_⟩
  · have hhands := Package.hands_onAll hes p
    rwa [hclosed, Package.openToEnd_closed, List.nil_append] at hhands
  · have hcurrent := (Package.current_onAll hes hclosed).mpr hopen
    simp only [Package.on, hcurrent]
    exact ⟨trivial, fun text => ⟨_, rfl⟩⟩
  · have hcurrent : (p.onAll es).current = none := by
      cases hcurrent : (p.onAll es).current with
      | none => rfl
      | some u => exact absurd ((Package.current_onAll hes hclosed).mp hcurrent) (hnone u)
    have hrefused : (p.onAll es).on e = .error .noOpenUnit := by
      rcases he with rfl | ⟨text, rfl⟩ <;> simp only [Package.on, hcurrent]
    refine ⟨hrefused, ?_⟩
    rw [Package.onAll_append, Package.onAll_singleton, hrefused]
    rfl
  · obtain ⟨hend, ws, hws, hfiles, hemitted⟩ := Generator.package_of_refusal hclosed h
    refine ⟨hend, ws, hws, hfiles, hemitted, ?_, fun w _ hplain => ?_⟩
    · simp only [fileName_eq_init_iff]
    · exact mt fileName_eq_init_iff.mp (unitModule_ne_init hplain)

/-! ### A class in the place of the file that stands for the package -/

/-- An enumeration, and an input type that refers to a type that is missing. -/
def colorSchema : Schema where
  queryType := none
  mutationType := none
  subscriptionType := none
  types :=
    [⟨.enumeration, "Color", none, [], [], [], [⟨"RED", none, false, none⟩], []⟩,
      ⟨.inputObject, "Filter", none, [], [⟨"owner", none, .leaf .object (some "User"), .null⟩], [],
        [], []⟩]
  directives := []

/-- A generator of data classes that gives the enumeration a class name of its own. -/
def initGenerator : Generator where
  configuration := { classNames := .ofList [("Color", "__init__")] }
  parts := [.dataClasses]

/-- The package of the schema, up to the input type. -/
def colorPackage : Package :=
  (initGenerator.package { name := "colors" } colorSchema).1

/-- The run stops, and it has handed on a class as the file that stands for the package. -/
theorem color_hands_init :
    Package.current { name := "colors" } = none ∧
      (∃ e, initGenerator.package { name := "colors" } colorSchema = (colorPackage, some e)) ∧
      colorPackage.files.map FileInfo.name = ["__init__.py"] ∧
      ∃ w : Phase × Member, unitModule w.1 w.2.className = "__init__" ∧
        ∃ c, (Catalog.make initGenerator.configuration colorSchema).2 = .ok c ∧
          (initGenerator.forPackage { name := "colors" }).IsWritten c w := by
  obtain ⟨hstops, hfiles⟩ :
      (initGenerator.package { name := "colors" } colorSchema).2.isSome = true ∧
        colorPackage.files.map FileInfo.name = ["__init__.py"] := by
    decide +kernel
  obtain ⟨e, he⟩ := Option.isSome_iff_exists.mp hstops
  have hpackage : initGenerator.package { name := "colors" } colorSchema = (colorPackage, some e) :=
    Prod.ext rfl he
  refine ⟨rfl, ⟨e, hpackage⟩, hfiles, ?_⟩
  obtain ⟨-, ws, hws, hwritten, -, hinit, -⟩ :=
    (no_partial_file { name := "colors" } rfl).2 initGenerator colorSchema colorPackage e hpackage
  rcases hwritten with hwritten | ⟨-, hnone⟩
  · have hmem : "__init__.py" ∈ colorPackage.files.map FileInfo.name := by
      rw [hfiles]
      exact List.mem_singleton_self _
    rw [hwritten, List.map_map, List.map_map] at hmem
    obtain ⟨w, hw, hname⟩ := List.mem_map.mp hmem
    obtain ⟨w, hw, hmodule⟩ := hinit.mp ⟨w, hw, hname⟩
    exact ⟨w, hmodule, (hws w hw).2⟩
  · rw [hnone] at hfiles
    cases hfiles

end Bindery.Output
