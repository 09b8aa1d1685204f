import Bindery.Proofs.Document.Readers
import Bindery.Proofs.Document.Tokens
import Mathlib.Data.List.Forall2

/-!
# Reading selections

What is read where a selection was written: a field with its alias, its arguments and its
directives, or a fragment, each with its selection set. A selection can be read where its names are
names, its literals can be read, and no selection set in it is empty or stands behind a signature.

## What is proved

* `Selection.reads` — the tokens of a selection that can be read are read as the selection, in front
  of every token that would not continue it.
* `readsSelections` — the tokens of such selections are read as the selections, up to the bracket
  that closes their selection set.
-/

namespace Bindery.Query

open Bindery.Definition hiding Literal
open Bindery.Text

/-! ### Arguments and directives -/

/-- The argument that is read where the argument was written. -/
def Argument.reading (a : Argument) : String × Definition.Literal :=
  (a.name, a.value.reading)

/-- The directive that is read where the directive was written. -/
def Directive.reading (d : Directive) : Applied :=
  ⟨d.name, d.arguments.map Argument.reading⟩

theorem Argument.Named.reads {a : Argument} (h : a.Named Literal.Readable) :
    ReadsItem (readArgument false) ')' [] a.tokens a.reading := by
  obtain ⟨t, r, htr, -, htake⟩ := a.value.reads false h.2 (by simp)
  refine ⟨.name a.name, .sign ':' :: t :: r, ?_, by simp, by simp [Apart], ?_⟩
  · rw [Argument.tokens, htr]
    rfl
  intro rest _
  have hvalue := readValue_append htake rest
  rw [List.cons_append, List.cons_append, readArgument, Reader.bind_of (readName_name _ _),
    Reader.bind_of (expect_self _ _), Reader.bind_of hvalue]
  rfl

/-- Arguments in round brackets are read one by one, and nothing is read where there are none. -/
theorem reads_arguments {as : List Argument} (h : ∀ a ∈ as, a.Named Literal.Readable) :
    ∃ ts, bracketTokens (as.map Argument.tokens) = some ts ∧
      (ts = [] ∨ ts.head? = some (.sign '(')) ∧ ∀ rest, Apart ['('] rest →
        optionalMany '(' (readArgument false) ')' (ts ++ rest) =
          some (as.map Argument.reading, rest) := by
  refine optionalMany_reads (List.not_mem_nil : ')' ∉ []) ?_
  rw [List.forall₂_map_left_iff, List.forall₂_map_right_iff, List.forall₂_same]
  exact fun a ha => (h a ha).reads

theorem Directive.Named.reads {d : Directive} (h : d.Named Literal.Readable) :
    ∃ ts, d.tokens = some (.sign '@' :: .name d.name :: ts) ∧ ∀ rest, Apart ['('] rest →
      readApplied false (.name d.name :: ts ++ rest) = some (d.reading, rest) := by
  obtain ⟨ts, hts, -, hread⟩ := reads_arguments h.2
  refine ⟨ts, ?_, ?_⟩
  · rw [Directive.tokens, hts]
    rfl
  intro rest hr
  rw [List.cons_append, readApplied, Reader.bind_of (readName_name _ _),
    Reader.bind_of (hread rest hr)]
  rfl

/-- Directives are read one by one, as long as their sign comes. -/
theorem whileSign_reads {ds : List Directive} (h : ∀ d ∈ ds, d.Named Literal.Readable) :
    ∃ ts, followAll (ds.map Directive.tokens) = some ts ∧
      (ts = [] ∨ ts.head? = some (.sign '@')) ∧ ds.length ≤ ts.length ∧
      ∀ fuel rest, Apart ['@', '('] rest → ds.length < fuel →
        whileSign '@' (readApplied false) fuel (ts ++ rest) =
          some (ds.map Directive.reading, rest) := by
  induction ds with
  | nil =>
    refine ⟨[], rfl, Or.inl rfl, Nat.le_refl _, ?_⟩
    intro fuel rest hr hf
    obtain ⟨n, rfl⟩ := Nat.exists_eq_add_one_of_ne_zero (Nat.ne_zero_of_lt hf)
    rw [List.nil_append, whileSign, Reader.bind_of (accept_other _ (hr '@' (by simp)))]
    rfl
  | cons d ds ih =>
    obtain ⟨us, hus, hone⟩ := (h d (by simp)).reads
    obtain ⟨ts, hts, hhead, hl, hread⟩ := ih fun x hx => h x (List.mem_cons_of_mem _ hx)
    refine ⟨.sign '@' :: (.name d.name :: us ++ ts), by simp [hus, hts], Or.inr rfl, ?_,
      fun fuel rest hr hf => ?_⟩
    · simp only [List.length_cons, List.length_append]
      omega
    · obtain ⟨n, rfl⟩ := Nat.exists_eq_add_one_of_ne_zero (by omega : fuel ≠ 0)
      simp only [List.length_cons, Nat.add_lt_add_iff_right] at hf
      have hnext : Apart ['('] (ts ++ rest) :=
        apart_append hhead (by decide) (hr.weaken (by simp))
      rw [List.cons_append, whileSign, Reader.bind_of (accept_self _ _)]
      simp only [if_true]
      rw [List.append_assoc, Reader.bind_of (hone _ hnext), Reader.bind_of (hread n rest hr hf)]
      rfl

theorem reads_directives {ds : List Directive} (h : ∀ d ∈ ds, d.Named Literal.Readable) :
    ∃ ts, followAll (ds.map Directive.tokens) = some ts ∧
      (ts = [] ∨ ts.head? = some (.sign '@')) ∧ ∀ rest, Apart ['@', '('] rest →
        readDirectives false (ts ++ rest) = some (ds.map Directive.reading, rest) := by
  obtain ⟨ts, hts, hhead, hl, hread⟩ := whileSign_reads h
  refine ⟨ts, hts, hhead, ?_⟩
  intro rest hr
  rw [readDirectives, Reader.bind_of (remaining_apply _)]
  refine hread _ rest hr ?_
  simp only [List.length_append]
  omega

theorem readDirectives_none {rest : List Token} (hr : Apart ['@'] rest) (constant : Bool) :
    readDirectives constant rest = some ([], rest) := by
  rw [readDirectives, Reader.bind_of (remaining_apply _), whileSign,
    Reader.bind_of (accept_other _ (hr '@' (by simp)))]
  rfl

/-! ### Fields and fragments -/

theorem readFieldName_tokens (aliasName : Option String) (n : String) {ts : List Token}
    (hcolon : ts.head? ≠ some (.sign ':')) :
    readFieldName (aliasTokens aliasName ++ .name n :: ts) = some ((aliasName, n), ts) := by
  cases aliasName with
  | none =>
    rw [aliasTokens, List.nil_append, readFieldName, Reader.bind_of (readName_name _ _),
      Reader.bind_of (accept_other _ hcolon)]
    rfl
  | some a =>
    rw [aliasTokens, List.cons_append, List.cons_append, List.nil_append, readFieldName,
      Reader.bind_of (readName_name _ _), Reader.bind_of (accept_self _ _)]
    rfl

section Selection

variable (fuel : Nat) {ts us vs : List Token} {args : List (String × Definition.Literal)}
  {ds : List Applied} {xs : List Selected}

/-- What is read in front of the selection set of a field. -/
theorem readSelection_name (aliasName : Option String) (n : String)
    (hcolon : ts.head? ≠ some (.sign ':'))
    (ha : optionalMany '(' (readArgument false) ')' ts = some (args, us))
    (hd : readDirectives false us = some (ds, vs)) :
    readSelection (fuel + 1) (aliasTokens aliasName ++ .name n :: ts) =
      if vs.head? == some (.sign '{') then
        (readSelectionSet fuel vs).map fun p => (.field aliasName n args ds p.1, p.2)
      else some (.field aliasName n args ds [], vs) := by
  have hfirst : (aliasTokens aliasName ++ .name n :: ts).head? ≠ some (.sign '.') := by
    cases aliasName <;> simp [aliasTokens]
  rw [readSelection, Reader.bind_of (accept_other _ hfirst)]
  simp only [Bool.false_eq_true, if_false]
  rw [Reader.bind_of (readFieldName_tokens _ _ hcolon), Reader.bind_of ha, Reader.bind_of hd,
    Reader.bind_of (comes_apply _ _)]
  dsimp only
  split_ifs
  · rw [Reader.bind_apply, Option.map_eq_bind]
    rfl
  · rfl

/-- What is read in front of the selection set of a fragment. -/
theorem readSelection_fragment (typeName : String) (hd : ts.head? ≠ some (.sign '@')) :
    readSelection (fuel + 1) (.sign '.' :: .name "on" :: .name typeName :: ts) =
      (readSelectionSet fuel ts).map fun p => (.inline (some typeName) [] p.1, p.2) := by
  have hnone : readDirectives false ts = some ([], ts) :=
    readDirectives_none (fun c hc => by simp only [List.mem_singleton] at hc; rwa [hc]) false
  rw [readSelection, Reader.bind_of (accept_self _ _)]
  simp only [if_true]
  rw [Reader.bind_of (accept_self _ _)]
  simp only [if_true]
  rw [Reader.bind_of (readName_name _ _), Reader.bind_of hnone, Reader.bind_apply,
    Option.map_eq_bind]
  rfl

end Selection

/-- The field that is read where the field was written, with its selections. -/
def FieldHead.reading (f : FieldHead) (xs : List Selected) : Selected :=
  .field f.aliasName f.name (f.arguments.map Argument.reading)
    (f.directives.map Directive.reading) xs

/-- A field, which begins with a name, and what is read behind it. -/
theorem FieldHead.Named.reads {f : FieldHead} (h : f.Named Literal.Readable) :
    ∃ m r, f.tokens = some (.name m :: r) ∧ ∀ fuel rest, Apart [':', '(', '@'] rest →
      readSelection (fuel + 1) (.name m :: r ++ rest) =
        if rest.head? == some (.sign '{') then
          (readSelectionSet fuel rest).map fun p => (f.reading p.1, p.2)
        else some (f.reading [], rest) := by
  obtain ⟨as, has, hahead, haread⟩ := reads_arguments h.arguments
  obtain ⟨ds, hds, hdhead, hdread⟩ := reads_directives h.directives
  obtain ⟨m, r, hm⟩ : ∃ m r,
      aliasTokens f.aliasName ++ .name f.name :: (as ++ ds) = .name m :: r := by
    cases f.aliasName with
    | none => exact ⟨_, _, rfl⟩
    | some a => exact ⟨_, _, rfl⟩
  refine ⟨m, r, ?_, ?_⟩
  · rw [← hm, FieldHead.tokens, has, hds]
    simp
  · intro fuel rest hr
    have hdirectives : Apart ['(', ':'] (ds ++ rest) :=
      apart_append hdhead (by decide) (hr.weaken (by simp))
    have hcolon : Apart [':'] (as ++ (ds ++ rest)) :=
      apart_append hahead (by decide) (hdirectives.weaken (by simp))
    have hselection := readSelection_name fuel f.aliasName f.name (hcolon ':' (by simp))
      (haread _ (hdirectives.weaken (by simp))) (hdread rest (hr.weaken (by simp)))
    rw [← hm]
    simpa [FieldHead.reading, List.append_assoc] using hselection

/-! ### Selection sets -/

mutual

/-- The selection that is read where the selection was written. -/
def Selection.reading : Selection → Selected
  | .leaf head => head.reading []
  | .nested head _ children => head.reading (selectionReadings children)
  | .fragment typeName _ children => .inline (some typeName) [] (selectionReadings children)

/-- The selections that are read. -/
def selectionReadings : List Selection → List Selected
  | [] => []
  | x :: r => x.reading :: selectionReadings r

end

mutual

/-- The selection can be read: its names are names, its literals can be read, and no selection set
in it is empty or stands behind a signature. -/
def Selection.Legible : Selection → Prop
  | .leaf head => head.Named Literal.Readable
  | .nested head s children =>
    head.Named Literal.Readable ∧ s = none ∧ children ≠ [] ∧ LegibleSelections children
  | .fragment typeName s children =>
    isGraphQLName typeName = true ∧ s = none ∧ children ≠ [] ∧ LegibleSelections children

/-- All of the selections can be read. -/
def LegibleSelections : List Selection → Prop
  | [] => True
  | x :: r => x.Legible ∧ LegibleSelections r

end

/-- The signs that would continue a field. -/
def fieldSigns : List Char := [':', '(', '@', '{']

/-- The tokens, which begin neither with a closing bracket nor with what would continue the
selection in front, are read as the selection. -/
def ReadsSelection (ts : Option (List Token)) (x : Selected) : Prop :=
  ∃ t r, ts = some (t :: r) ∧ Apart ('}' :: fieldSigns) (t :: r) ∧
    ∀ fuel rest, r.length + 1 < fuel → Apart fieldSigns rest →
      readSelection fuel (t :: r ++ rest) = some (x, rest)

/-- Such tokens are read as the selections up to the closing bracket. -/
def ReadsSelections (ts : Option (List Token)) (xs : List Selected) : Prop :=
  ∃ t r, ts = some (t :: r) ∧ Apart ('}' :: fieldSigns) (t :: r) ∧
    ∀ fuel rest, r.length + 2 < fuel →
      readSelections fuel (t :: r ++ .sign '}' :: rest) = some (xs, rest)

/-- Selections are read behind their opening bracket. -/
theorem ReadsSelections.set {ts : Option (List Token)} {xs : List Selected}
    (h : ReadsSelections ts xs) : ∃ r, enclose '{' ts '}' = some (.sign '{' :: r) ∧
      ∀ fuel rest, r.length + 1 < fuel →
        readSelectionSet fuel (.sign '{' :: (r ++ rest)) = some (xs, rest) := by
  obtain ⟨t, r, rfl, -, hread⟩ := h
  refine ⟨t :: r ++ [.sign '}'], rfl, ?_⟩
  intro fuel rest hf
  simp only [List.length_append, List.length_cons, List.length_nil] at hf
  obtain ⟨n, rfl⟩ := Nat.exists_eq_add_one_of_ne_zero (by omega : fuel ≠ 0)
  have := hread n rest (by omega)
  rw [readSelectionSet, Reader.bind_of (expect_self _ _)]
  simpa using this

/-- A selection in front of the closing bracket. -/
theorem ReadsSelection.last {ts : Option (List Token)} {x : Selected} (h : ReadsSelection ts x) :
    ReadsSelections (follow ts (some [])) [x] := by
  obtain ⟨t, r, rfl, ha, hread⟩ := h
  refine ⟨t, r, by simp, ha, ?_⟩
  intro fuel rest hf
  obtain ⟨n, rfl⟩ := Nat.exists_eq_add_one_of_ne_zero (by omega : fuel ≠ 0)
  rw [readSelections, Reader.bind_of (hread n _ (by omega) (apart_sign (by decide) _)),
    Reader.bind_of (accept_self _ _)]
  rfl

/-- A selection in front of others. -/
theorem ReadsSelection.cons {ts us : Option (List Token)} {x : Selected} {xs : List Selected}
    (h : ReadsSelection ts x) (h' : ReadsSelections us xs) :
    ReadsSelections (follow ts us) (x :: xs) := by
  obtain ⟨t, r, rfl, ha, hread⟩ := h
  obtain ⟨u, v, rfl, hu, hrest⟩ := h'
  refine ⟨t, r ++ u :: v, by simp, fun c hc => ha c hc, ?_⟩
  intro fuel rest hf
  simp only [List.length_append, List.length_cons] at hf
  obtain ⟨n, rfl⟩ := Nat.exists_eq_add_one_of_ne_zero (by omega : fuel ≠ 0)
  have hnext : Apart ('}' :: fieldSigns) (u :: v ++ .sign '}' :: rest) := fun c hc => hu c hc
  have htext : t :: (r ++ u :: v) ++ .sign '}' :: rest =
      t :: r ++ (u :: v ++ .sign '}' :: rest) := by simp
  rw [htext, readSelections,
    Reader.bind_of (hread n _ (by omega) (hnext.weaken fun c hc => List.mem_cons_of_mem _ hc)),
    Reader.bind_of (accept_other _ (hnext '}' (by simp)))]
  simp only [Bool.false_eq_true, if_false]
  rw [Reader.bind_of (hrest n rest (by omega))]
  rfl

/-- A field without a selection set. -/
theorem FieldHead.Named.reads_leaf {f : FieldHead} (h : f.Named Literal.Readable) :
    ReadsSelection f.tokens (f.reading []) := by
  obtain ⟨m, r, hmr, hread⟩ := h.reads
  refine ⟨.name m, r, hmr, apart_name _ m r, ?_⟩
  intro fuel rest hf hr
  obtain ⟨n, rfl⟩ := Nat.exists_eq_add_one_of_ne_zero (by omega : fuel ≠ 0)
  rw [hread n rest (hr.weaken (by simp [fieldSigns])), if_neg (by simpa using hr '{' (by decide))]

/-- A field with a selection set. -/
theorem FieldHead.Named.reads_nested {f : FieldHead} (h : f.Named Literal.Readable)
    {ts : Option (List Token)} {xs : List Selected} (hs : ReadsSelections ts xs) :
    ReadsSelection (follow f.tokens (enclose '{' ts '}')) (f.reading xs) := by
  obtain ⟨m, r, hmr, hread⟩ := h.reads
  obtain ⟨us, hus, hset⟩ := hs.set
  refine ⟨.name m, r ++ .sign '{' :: us, by rw [hmr, hus]; rfl, apart_name _ m _, ?_⟩
  intro fuel rest hf _
  simp only [List.length_append, List.length_cons] at hf
  obtain ⟨n, rfl⟩ := Nat.exists_eq_add_one_of_ne_zero (by omega : fuel ≠ 0)
  have htext : .name m :: (r ++ .sign '{' :: us) ++ rest =
      .name m :: r ++ .sign '{' :: (us ++ rest) := by simp
  rw [htext, hread n _ (apart_sign (by decide) _), if_pos (by simp), hset n rest (by omega)]
  rfl

/-- A fragment with its selection set. -/
theorem reads_fragment (typeName : String) {ts : Option (List Token)} {xs : List Selected}
    (hs : ReadsSelections ts xs) :
    ReadsSelection (follow (some [.sign '.', .name "on", .name typeName]) (enclose '{' ts '}'))
      (.inline (some typeName) [] xs) := by
  obtain ⟨us, hus, hset⟩ := hs.set
  refine ⟨.sign '.', .name "on" :: .name typeName :: .sign '{' :: us, by rw [hus]; rfl,
    apart_sign (by decide) _, ?_⟩
  intro fuel rest hf _
  simp only [List.length_cons] at hf
  obtain ⟨n, rfl⟩ := Nat.exists_eq_add_one_of_ne_zero (by omega : fuel ≠ 0)
  have := hset n rest (by omega)
  rw [List.cons_append, List.cons_append, List.cons_append, List.cons_append,
    readSelection_fragment _ _ (by simp), this]
  rfl

mutual

/-- The tokens of a selection that can be read are read as the selection. -/
theorem Selection.reads : ∀ x : Selection, x.Legible → ReadsSelection x.tokens x.reading
  | .leaf _, h => FieldHead.Named.reads_leaf h
  | .nested _ none children, ⟨hh, _, hne, hc⟩ => hh.reads_nested (readsSelections children hne hc)
  | .fragment typeName none children, ⟨_, _, hne, hc⟩ =>
    reads_fragment typeName (readsSelections children hne hc)

theorem readsSelections : ∀ xs : List Selection, xs ≠ [] → LegibleSelections xs →
    ReadsSelections (selectionTokens xs) (selectionReadings xs)
  | [], hne, _ => absurd rfl hne
  | [x], _, h => by
    rw [selectionTokens, selectionTokens]
    exact (Selection.reads x h.1).last
  | x :: y :: r, _, h => (Selection.reads x h.1).cons (readsSelections (y :: r) (by simp) h.2)

end

end Bindery.Query
