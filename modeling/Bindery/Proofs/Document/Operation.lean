import Bindery.Proofs.Document.Layout
import Bindery.Proofs.Document.Selection

/-!
# Reading documents

A document is read as a selection set alone or as an operation with its keyword, its name and its
variables. Proved here: a text with the tokens of a document whose selections and variables can be
read is read as the document, with nothing behind it.
-/

namespace Bindery.Query

open Bindery.Definition hiding Literal Document
open Bindery.Text

/-! ### Variables -/

/-- The variable definition can be read, and `p` is what is read. -/
structure VariableDefinition.ReadAs (v : VariableDefinition) (p : VariablePart) : Prop where
  /-- The variable has a name. -/
  isName : isGraphQLName v.name = true
  /-- The name is kept. -/
  name : p.name = v.name
  /-- The type can be written. -/
  isWellFormed : p.type.isWellFormed = true
  /-- The type is the one of the text. -/
  type : v.typeName.toList = p.type.chars
  /-- A default value can be read and is constant. -/
  isConstant : ∀ x ∈ v.fallback, x.Readable ∧ x.reading.variables = []
  /-- The default value is kept. -/
  fallback : p.fallback = v.fallback.map Literal.reading
  /-- There are no directives. -/
  directives : p.directives = []

theorem readFallback_none {rest : List Token} (h : Apart ['='] rest) :
    readFallback rest = some (none, rest) := by
  rw [readFallback, Reader.bind_of (accept_other _ (h '=' (by simp)))]
  rfl

/-- The tokens of a default value are read as the value. -/
theorem reads_fallback {fallback : Option Literal}
    (h : ∀ x ∈ fallback, x.Readable ∧ x.reading.variables = []) :
    ∃ ts, fallbackTokens fallback = some ts ∧ (ts = [] ∨ ts.head? = some (.sign '=')) ∧
      ∀ rest, Apart ['='] rest →
        readFallback (ts ++ rest) = some (fallback.map Literal.reading, rest) := by
  cases fallback with
  | none => exact ⟨[], rfl, Or.inl rfl, fun rest hr => readFallback_none hr⟩
  | some x =>
    obtain ⟨hx, hc⟩ := h x rfl
    obtain ⟨t, r, htr, -, htake⟩ := x.reads true hx fun _ => hc
    refine ⟨.sign '=' :: t :: r, by rw [fallbackTokens, htr]; rfl, Or.inr rfl, ?_⟩
    intro rest _
    rw [List.cons_append, readFallback, Reader.bind_of (accept_self _ _)]
    simp only [if_true]
    rw [Reader.bind_of (readValue_append htake rest)]
    rfl

theorem VariableDefinition.ReadAs.reads {v : VariableDefinition} {p : VariablePart}
    (h : v.ReadAs p) : ReadsItem readVariable ')' ['!', '=', '@'] v.tokens p := by
  obtain ⟨name, type, fallback, directives⟩ := p
  obtain ⟨hn, rfl, hwf, htype, hc, rfl, rfl⟩ := h
  obtain ⟨us, hus, hhead, hread⟩ := reads_fallback hc
  refine ⟨.sign '$', .name v.name :: .sign ':' :: (type.tokens ++ us), ?_, by simp,
    apart_sign (by decide) _, fun rest hr => ?_⟩
  · rw [VariableDefinition.tokens, htype, (TypeExpr.scans hwf).tokens?, hus]
    rfl
  · have hmark : Apart ['!'] (us ++ rest) := apart_append hhead (by decide) (hr.weaken (by simp))
    have hnone : readDirectives true rest = some ([], rest) :=
      readDirectives_none (hr.weaken (by simp)) true
    simp only [List.cons_append, List.append_assoc]
    rw [readVariable, Reader.bind_of (expect_self _ _), Reader.bind_of (readName_name _ _),
      Reader.bind_of (expect_self _ _), Reader.bind_of (readType_append hwf hmark),
      Reader.bind_of (hread rest (hr.weaken (by simp))), Reader.bind_of hnone]
    rfl

/-! ### Documents -/

/-- The tokens of a selection set are read as its selections. -/
theorem readSelected_append {ts : Option (List Token)} {xs : List Selected}
    (h : ReadsSelections ts xs) : ∃ r, enclose '{' ts '}' = some (.sign '{' :: r) ∧
      ∀ rest, readSelected (.sign '{' :: (r ++ rest)) = some (xs, rest) := by
  obtain ⟨r, hr, hread⟩ := h.set
  refine ⟨r, hr, ?_⟩
  intro rest
  rw [readSelected, Reader.bind_of (remaining_apply _)]
  refine hread _ rest ?_
  simp only [List.length_append, List.length_cons]
  omega

theorem readOperationName_tokens (name : Option String) {ts : List Token}
    (h : ts.head? = some (.sign '(') ∨ ts.head? = some (.sign '{')) :
    readOperationName (operationNameTokens name ++ ts) = some (name, ts) := by
  rw [readOperationName, Reader.bind_of (comes_apply _ _), Reader.bind_of (comes_apply _ _),
    Reader.bind_of (comes_apply _ _)]
  cases name with
  | none =>
    rw [operationNameTokens, List.nil_append, if_pos]
    · rfl
    · rcases h with h | h <;> simp [h]
  | some n =>
    rw [operationNameTokens, if_neg (by simp)]
    rfl

/-- The tokens of an operation behind its keyword are read as the operation. -/
theorem readOperation_tokens {s : Signature} {vs : List VariablePart}
    (hvs : List.Forall₂ VariableDefinition.ReadAs s.definitions vs) {ts : Option (List Token)}
    {xs : List Selected} (h : ReadsSelections ts xs) (keyword : String) :
    ∃ us, follow s.tailTokens (enclose '{' ts '}') = some us ∧
      readOperation keyword us = some (.operation keyword s.name vs [] xs, []) := by
  have hitems : List.Forall₂ (ReadsItem readVariable ')' ['!', '=', '@'])
      (s.definitions.map VariableDefinition.tokens) vs := by
    rw [List.forall₂_map_left_iff]
    exact hvs.imp fun _ _ h => h.reads
  obtain ⟨ds, hds, hhead, hdread⟩ := optionalMany_reads (by decide) hitems
  obtain ⟨r, hr, hread⟩ := readSelected_append h
  have hset := hread []
  rw [List.append_nil] at hset
  have hnone : readDirectives false (.sign '{' :: r) = some ([], .sign '{' :: r) :=
    readDirectives_none (apart_sign (by decide) _) false
  have hnext : (ds ++ .sign '{' :: r).head? = some (.sign '(') ∨
      (ds ++ .sign '{' :: r).head? = some (.sign '{') := by
    rcases hhead with rfl | hhead
    · exact Or.inr rfl
    · exact Or.inl (by rw [List.head?_append, hhead]; rfl)
  refine ⟨operationNameTokens s.name ++ (ds ++ .sign '{' :: r), ?_, ?_⟩
  · rw [Signature.tailTokens, hds, hr]
    simp
  · rw [readOperation, Reader.bind_of (readOperationName_tokens _ hnext),
      Reader.bind_of (hdread _ (apart_sign (by decide) _)), Reader.bind_of hnone,
      Reader.bind_of hset]
    rfl

/-- What a document is read as: a selection set alone, or an operation. -/
inductive Document.ReadAs : Document → Executable → Prop where
  /-- A selection set alone. -/
  | bare {xs : List Selection} : Document.ReadAs ⟨none, xs⟩ (.bare (selectionReadings xs))
  /-- An operation with its variables. -/
  | operation {s : Signature} {vs : List VariablePart} {xs : List Selection} :
      List.Forall₂ VariableDefinition.ReadAs s.definitions vs →
      Document.ReadAs ⟨some s, xs⟩
        (.operation s.operation.keyword s.name vs [] (selectionReadings xs))

theorem readDefinition_tokens {d : Document} {e : Executable} (h : d.ReadAs e)
    (hne : d.selections ≠ []) (hs : LegibleSelections d.selections) :
    ∃ ts, d.tokens = some ts ∧ readDefinition ts = some (.executable e, []) := by
  have hread := readsSelections d.selections hne hs
  cases h with
  | bare =>
    obtain ⟨r, hr, hset⟩ := readSelected_append hread
    have := hset []
    rw [List.append_nil] at this
    refine ⟨_, hr, ?_⟩
    rw [readDefinition, Reader.bind_of (comes_apply _ _)]
    simp only [List.head?_cons, beq_self_eq_true, if_true]
    rw [Reader.bind_of this]
    rfl
  | @operation s vs xs hvs =>
    obtain ⟨us, hus, hop⟩ := readOperation_tokens hvs hread s.operation.keyword
    have hkeyword : operationWords.contains s.operation.keyword = true := by
      cases s.operation <;> rfl
    refine ⟨.name s.operation.keyword :: us, ?_, ?_⟩
    · rw [Document.tokens, signedTokens, Signature.tokens, follow_assoc, hus]
      rfl
    · have hdescription : readDescription (.name s.operation.keyword :: us) =
          some (none, .name s.operation.keyword :: us) := rfl
      have hfirst : ((.name s.operation.keyword :: us : List Token).head? ==
          some (.sign '{')) = false := by simp
      rw [readDefinition, Reader.bind_of (comes_apply _ _)]
      simp only [hfirst, Bool.false_eq_true, if_false]
      rw [Reader.bind_of hdescription, Reader.bind_of (readName_name _ _)]
      simp only [Option.isNone_none, hkeyword, Bool.and_self, if_true]
      rw [Reader.bind_of hop]
      rfl

/-- A text with the tokens of a document is read as the document and nothing else. -/
theorem executable?_tokens {d : Document} {e : Executable} (h : d.ReadAs e)
    (hne : d.selections ≠ []) (hs : LegibleSelections d.selections) {text : String}
    (htext : tokens? text.toList = d.tokens) : executable? text = some [e] := by
  obtain ⟨ts, hts, hread⟩ := readDefinition_tokens h hne hs
  rw [executable?, htext, hts]
  simp only [Option.bind_eq_bind, Option.bind_some]
  rw [readDefinitions]
  simp only [hread, Option.bind_eq_bind, Option.bind_some]
  rfl

mutual

/-- A selection that can be read has names for names. -/
theorem Selection.Legible.named : ∀ x : Selection, x.Legible → x.Named Literal.Separable
  | .leaf _, h => FieldHead.Named.imp (fun _ hx => Literal.Readable.separable hx) h
  | .nested _ none children, ⟨hh, _, _, hc⟩ =>
    ⟨hh.imp fun _ hx => Literal.Readable.separable hx, by simp, legibleSelections_named children hc⟩
  | .fragment _ none children, ⟨ht, _, _, hc⟩ => ⟨ht, by simp, legibleSelections_named children hc⟩

theorem legibleSelections_named : ∀ xs : List Selection, LegibleSelections xs →
    SelectionsNamed Literal.Separable xs
  | [], _ => trivial
  | x :: r, h => ⟨Selection.Legible.named x h.1, legibleSelections_named r h.2⟩

end

mutual

/-- In a selection that can be read no keyword runs into a word, since it holds no keyword. -/
theorem Selection.Legible.joins : ∀ x : Selection, x.Legible → x.joins = 0
  | .leaf _, _ => rfl
  | .nested head none children, ⟨_, _, _, hc⟩ => by
    simp [Selection.joins, joinsFront, legibleSelections_joins children hc]
  | .fragment _ none children, ⟨_, _, _, hc⟩ => by
    simp [Selection.joins, joinsFront, legibleSelections_joins children hc]

theorem legibleSelections_joins : ∀ xs : List Selection, LegibleSelections xs →
    selectionJoins xs = 0
  | [], _ => rfl
  | x :: r, h => by
    rw [selectionJoins, Selection.Legible.joins x h.1, legibleSelections_joins r h.2]

end

theorem VariableDefinition.ReadAs.named {v : VariableDefinition} {p : VariablePart}
    (h : v.ReadAs p) : v.Named Literal.Separable :=
  ⟨h.isName, ⟨some p.type.tokens, h.type ▸ TypeExpr.scans h.isWellFormed⟩,
    fun x hx => Literal.Readable.separable (h.isConstant x hx).1⟩

theorem named_of_readAs {ds : List VariableDefinition} {vs : List VariablePart}
    (h : List.Forall₂ VariableDefinition.ReadAs ds vs) : ∀ v ∈ ds, v.Named Literal.Separable := by
  induction h with
  | nil => simp
  | cons h _ ih => exact List.forall_mem_cons.mpr ⟨h.named, ih⟩

/-- The text of a document that can be read is read as the document, in every layout. -/
theorem executable?_print {d : Document} {e : Executable} (h : d.ReadAs e)
    (hname : ∀ s ∈ d.signature, ∀ n ∈ s.name, isGraphQLName n = true) (hne : d.selections ≠ [])
    (hs : LegibleSelections d.selections) (l : Layout) :
    executable? (String.ofList (d.print l)) = some [e] := by
  have hsignature : ∀ s ∈ d.signature, s.Named Literal.Separable := by
    intro s hs
    cases h with
    | bare => cases hs
    | operation hvs =>
      cases hs
      exact ⟨hname _ rfl, named_of_readAs hvs⟩
  have hfew := Document.tokens_print l ⟨hsignature, legibleSelections_named _ hs⟩
  rw [Document.joins, legibleSelections_joins _ hs, ite_self] at hfew
  refine executable?_tokens h hne hs ?_
  rw [String.toList_ofList]
  simpa using hfew.eq_iff

end Bindery.Query
