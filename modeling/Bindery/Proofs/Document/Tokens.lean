import Bindery.Proofs.Literal.Reading
import Bindery.Query.Document

/-!
# The tokens of a document

The tokens of a field without its selection set, of the signature of an operation and of the selection
sets behind it, and those of a whole document with each of them written apart from the others. They do
not depend on the layout. What a field ends in does matter to what follows: a bracket closes it, but
a letter right behind a word would continue the word. Proved here: a field has its tokens in every
layout, and it ends in a word or is closed as its last part says; a signature has its tokens in front
of what breaks it off, and a selection set has those of its items.
-/

namespace Bindery.Query

open Bindery.Definition
open Bindery.Text

/-! ### Lists of texts -/

/-- The tokens of texts one after the other. -/
def followAll (tss : List (Option (List Token))) : Option (List Token) :=
  tss.foldr follow (some [])

@[simp] theorem followAll_nil : followAll [] = some [] := rfl

@[simp] theorem followAll_cons (ts : Option (List Token)) (tss : List (Option (List Token))) :
    followAll (ts :: tss) = follow ts (followAll tss) := rfl

theorem scansAll_map {α : Type} {f : α → List Char} {g : α → Option (List Token)} {xs : List α}
    (h : ∀ x ∈ xs, Scans (f x) (g x)) : ScansAll (xs.map f) (followAll (xs.map g)) := by
  induction xs with
  | nil => exact .nil
  | cons x xs ih =>
    exact .cons (h x (by simp)) (ih fun y hy => h y (List.mem_cons_of_mem _ hy))

/-- The tokens in round brackets, or none where there are no texts. -/
def bracketTokens (tss : List (Option (List Token))) : Option (List Token) :=
  if tss.isEmpty then some [] else enclose '(' (followAll tss) ')'

/-- Texts in round brackets, or nothing where there are none. -/
def bracketText (l : Layout) (ps : List (List Char)) : List Char :=
  if ps.isEmpty then [] else '(' :: separated (',' :: l.space) ps ++ [')']

/-- Texts in round brackets are closed; where there are none there is nothing. -/
theorem closes_bracketText {α : Type} {f : α → List Char} {g : α → Option (List Token)}
    {xs : List α} (h : ∀ x ∈ xs, Scans (f x) (g x)) (l : Layout) :
    Closes (bracketText l (xs.map f)) (bracketTokens (xs.map g)) := by
  cases xs with
  | nil => exact closes_nil
  | cons x r =>
    have hgap : IsGap (',' :: l.space) := by
      unfold Layout.space
      split_ifs <;> rfl
    exact closes_enclosed (by decide) (by decide) rfl ((scansAll_map h).separated hgap rfl)

/-! ### The parts of a field -/

/-- The tokens of an argument. -/
def Argument.tokens (a : Argument) : Option (List Token) :=
  follow (some [.name a.name, .sign ':']) a.value.tokens

/-- The tokens of a directive. -/
def Directive.tokens (d : Directive) : Option (List Token) :=
  follow (some [.sign '@', .name d.name]) (bracketTokens (d.arguments.map Argument.tokens))

/-- The tokens of an alias in front of its field. -/
def aliasTokens : Option String → List Token
  | none => []
  | some a => [.name a, .sign ':']

/-- The tokens of a field without its selection set. -/
def FieldHead.tokens (f : FieldHead) : Option (List Token) :=
  follow (some (aliasTokens f.aliasName ++ [.name f.name]))
    (follow (bracketTokens (f.arguments.map Argument.tokens))
      (followAll (f.directives.map Directive.tokens)))

section Conditions

variable (literal : Literal → Prop)

/-- An argument under a name, with a literal that satisfies the condition. -/
def Argument.Named (a : Argument) : Prop :=
  isGraphQLName a.name = true ∧ literal a.value

/-- A directive of a name with such arguments. -/
def Directive.Named (d : Directive) : Prop :=
  isGraphQLName d.name = true ∧ ∀ a ∈ d.arguments, a.Named literal

/-- A field of a name, perhaps under another, with such arguments and directives. -/
structure FieldHead.Named (f : FieldHead) : Prop where
  /-- The alias is a name. -/
  aliasName : ∀ a ∈ f.aliasName, isGraphQLName a = true
  /-- The field has a name. -/
  name : isGraphQLName f.name = true
  /-- The arguments have names. -/
  arguments : ∀ a ∈ f.arguments, a.Named literal
  /-- The directives have names. -/
  directives : ∀ d ∈ f.directives, d.Named literal

end Conditions

theorem Argument.Named.imp {p q : Literal → Prop} (hpq : ∀ x, p x → q x) {a : Argument}
    (h : a.Named p) : a.Named q :=
  ⟨h.1, hpq _ h.2⟩

theorem Directive.Named.imp {p q : Literal → Prop} (hpq : ∀ x, p x → q x) {d : Directive}
    (h : d.Named p) : d.Named q :=
  ⟨h.1, fun a ha => (h.2 a ha).imp hpq⟩

theorem FieldHead.Named.imp {p q : Literal → Prop} (hpq : ∀ x, p x → q x) {f : FieldHead}
    (h : f.Named p) : f.Named q :=
  ⟨h.aliasName, h.name, fun a ha => (h.arguments a ha).imp hpq,
    fun d hd => (h.directives d hd).imp hpq⟩

theorem scans_word {s : String} (h : isGraphQLName s = true) : Scans s.toList (some [.name s]) := by
  simpa using scans_name (n := s.toList) h

theorem Argument.Named.scans {a : Argument} (h : a.Named Literal.Separable) (l : Layout)
    (level : Int) : Scans (a.print l level) a.tokens :=
  scans_labelled h.1 l (a.value.scans l level h.2)

theorem printArguments_eq (l : Layout) (level : Int) (as : List Argument) :
    printArguments l level as = bracketText l (as.map (Argument.print l level)) := by
  cases as <;> rfl

theorem closes_arguments {as : List Argument} (h : ∀ a ∈ as, a.Named Literal.Separable)
    (l : Layout) (level : Int) :
    Closes (printArguments l level as) (bracketTokens (as.map Argument.tokens)) := by
  rw [printArguments_eq]
  exact closes_bracketText (fun a ha => (h a ha).scans l level) l

/-! ### Texts that end in a word -/

/-- The text ends in a word, which a letter right behind it would continue. -/
def EndsInWord (p : List Char) (ts : Option (List Token)) : Prop :=
  ∃ q n us, p = q ++ n ∧ isGraphQLNameChars n = true ∧ Closes q us ∧
    ts = follow us (some [.name (String.ofList n)])

/-- The text ends in a word, or else it is closed. -/
def Ends (word : Bool) (p : List Char) (ts : Option (List Token)) : Prop :=
  if word then EndsInWord p ts else Closes p ts

section Ends

variable {p q : List Char} {a b : Option (List Token)} {word : Bool}

theorem EndsInWord.scans (h : EndsInWord p a) : Scans p a := by
  obtain ⟨q, n, us, rfl, hn, hq, rfl⟩ := h
  exact hq.append_scans (scans_name hn)

theorem Ends.scans (h : Ends word p a) : Scans p a := by
  cases word with
  | false => exact Closes.scans h
  | true => exact EndsInWord.scans h

/-- A word behind a closed text. -/
theorem endsInWord_append {s : String} (h : isGraphQLName s = true) (hp : Closes p a) :
    EndsInWord (p ++ s.toList) (follow a (some [.name s])) :=
  ⟨p, s.toList, a, rfl, h, hp, by simp⟩

/-- A word behind a closed text, and then arguments, of which there may be none. -/
theorem ends_labelled {s : String} (hs : isGraphQLName s = true) (hp : Closes p a)
    {as : List Argument} (h : ∀ x ∈ as, x.Named Literal.Separable) (l : Layout) (level : Int) :
    Ends as.isEmpty (p ++ s.toList ++ printArguments l level as)
      (follow (follow a (some [.name s])) (bracketTokens (as.map Argument.tokens))) := by
  have hword := endsInWord_append hs hp
  have hargs := closes_arguments h l level
  cases as with
  | nil => simpa [Ends, printArguments, bracketTokens] using hword
  | cons x r => exact hword.scans.append_closes hargs rfl

end Ends

/-! ### Fields -/

/-- Does the field without its selection set end in a word? -/
def FieldHead.endsInWord (f : FieldHead) : Bool :=
  f.directives.foldl (fun _ d => d.arguments.isEmpty) f.arguments.isEmpty

/-- Directives behind a text. -/
theorem ends_directives {ds : List Directive} (h : ∀ d ∈ ds, d.Named Literal.Separable)
    (l : Layout) (level : Int) {word : Bool} {p : List Char} {a : Option (List Token)}
    (hp : Ends word p a) :
    Ends (ds.foldl (fun _ d => d.arguments.isEmpty) word)
      (p ++ ds.flatMap fun d => l.space ++ d.print l level)
      (follow a (followAll (ds.map Directive.tokens))) := by
  induction ds generalizing word p a with
  | nil => simpa using hp
  | cons d ds ih =>
    have hd := h d (by simp)
    have hbreak : breaks (l.space ++ ['@']) = true := by
      unfold Layout.space
      split_ifs <;> rfl
    have hsign : Closes ['@'] (some [.sign '@']) := closes_sign (by decide)
    have hat := hp.scans.append_closes (Closes.gap (isGap_space l) hsign) hbreak
    have hone := ends_labelled hd.1 hat hd.2 l level
    have := ih (fun x hx => h x (List.mem_cons_of_mem _ hx)) hone
    simpa [Directive.print, Directive.tokens, List.append_assoc, follow_assoc] using this

/-- The name, the arguments and the directives of a field behind a closed text. -/
theorem FieldHead.Named.ends_behind {f : FieldHead} (h : f.Named Literal.Separable) (l : Layout)
    (level : Int) {p : List Char} {ts : List Token} (hp : Closes p (some ts)) :
    Ends f.endsInWord
      (p ++ f.name.toList ++ printArguments l level f.arguments ++
        f.directives.flatMap fun d => l.space ++ d.print l level)
      (follow (some (ts ++ [.name f.name])) (follow (bracketTokens (f.arguments.map Argument.tokens))
        (followAll (f.directives.map Directive.tokens)))) := by
  have := ends_directives h.directives l level (ends_labelled h.name hp h.arguments l level)
  simpa [FieldHead.endsInWord, follow_assoc, List.append_assoc] using this

/-- A field without its selection set ends in a word or in a closing bracket. -/
theorem FieldHead.Named.ends {f : FieldHead} (h : f.Named Literal.Separable) (l : Layout)
    (level : Int) : Ends f.endsInWord (f.print l level) f.tokens := by
  obtain ⟨_ | a, name, arguments, directives⟩ := f
  · simpa [FieldHead.print, FieldHead.tokens, aliasTokens] using h.ends_behind l level closes_nil
  · have ha := (scans_word (h.aliasName a rfl)).append_closes
      ((isGap_space l).closes.sign (c := ':') (by decide)) rfl
    exact h.ends_behind l level ha

/-! ### Signatures -/

/-- The tokens of a default value behind an equals sign. -/
def fallbackTokens : Option Literal → Option (List Token)
  | none => some []
  | some x => follow (some [.sign '=']) x.tokens

/-- The tokens of a variable definition. -/
def VariableDefinition.tokens (v : VariableDefinition) : Option (List Token) :=
  follow (some [.sign '$', .name v.name, .sign ':'])
    (follow (tokens? v.typeName.toList) (fallbackTokens v.fallback))

/-- The tokens of the name of an operation. -/
def operationNameTokens : Option String → List Token
  | none => []
  | some n => [.name n]

/-- The tokens of a signature behind its keyword. -/
def Signature.tailTokens (s : Signature) : Option (List Token) :=
  follow (some (operationNameTokens s.name))
    (bracketTokens (s.definitions.map VariableDefinition.tokens))

/-- The tokens of a signature. -/
def Signature.tokens (s : Signature) : Option (List Token) :=
  follow (some [.name s.operation.keyword]) s.tailTokens

/-- A variable under a name, with a type that has tokens of its own and a default value that
satisfies the condition. -/
structure VariableDefinition.Named (literal : Literal → Prop) (v : VariableDefinition) : Prop where
  /-- The variable has a name. -/
  name : isGraphQLName v.name = true
  /-- The type has tokens of its own. -/
  typeName : ∃ ts, Scans v.typeName.toList ts
  /-- The default value satisfies the condition. -/
  fallback : ∀ x ∈ v.fallback, literal x

/-- A signature with such names and variables. -/
structure Signature.Named (literal : Literal → Prop) (s : Signature) : Prop where
  /-- The operation has a name, if it has any. -/
  name : ∀ n ∈ s.name, isGraphQLName n = true
  /-- The variables have names. -/
  definitions : ∀ v ∈ s.definitions, v.Named literal

theorem VariableDefinition.Named.scans {v : VariableDefinition} (h : v.Named Literal.Separable)
    (l : Layout) : Scans (v.print l) v.tokens := by
  obtain ⟨name, typeName, fallback⟩ := v
  obtain ⟨ts, hts⟩ := h.typeName
  rw [VariableDefinition.tokens, hts.tokens?]
  have hfront := (scans_labelled h.name l hts).sign (c := '$') (by decide)
  rw [← follow_assoc, follow_some] at hfront
  cases fallback with
  | none => simpa [VariableDefinition.print, fallbackTokens] using hfront
  | some x =>
    have hx := Scans.gap (isGap_space l) (x.scans l 0 (h.fallback x rfl))
    have heq : Scans (l.space ++ '=' :: (l.space ++ x.print l 0))
        (follow (some [.sign '=']) x.tokens) := Scans.gap (isGap_space l) (hx.sign (by decide))
    have hbreak : breaks (l.space ++ '=' :: (l.space ++ x.print l 0)) = true := by
      unfold Layout.space
      split_ifs <;> rfl
    have := hfront.append heq hbreak
    simpa [VariableDefinition.print, fallbackTokens, ← follow_assoc, List.append_assoc] using this

/-- The text of a signature behind its keyword. -/
def Signature.tail (l : Layout) (s : Signature) : List Char :=
  (match s.name with
    | none => []
    | some n => ' ' :: n.toList) ++
    bracketText l (s.definitions.map (VariableDefinition.print l))

theorem Signature.print_eq (l : Layout) (s : Signature) :
    s.print l = s.operation.keyword.toList ++ s.tail l := by
  obtain ⟨o, n, ds⟩ := s
  cases n <;> cases ds <;> simp [Signature.print, Signature.tail, bracketText]

theorem isGraphQLName_keyword (o : OperationType) : isGraphQLName o.keyword = true := by
  cases o <;> rfl

/-- A signature behind its keyword, and a text that breaks off what stands before it. -/
theorem Signature.Named.tail {s : Signature} (h : s.Named Literal.Separable) (l : Layout)
    {q : List Char} {b : Option (List Token)} (hq : Closes q b) (hb : breaks q = true) :
    Closes (s.tail l ++ q) (follow s.tailTokens b) ∧ breaks (s.tail l ++ q) = true := by
  obtain ⟨o, n, ds⟩ := s
  have hds := closes_bracketText (fun v hv => (h.definitions v hv).scans l) l
  have hrest : Closes (bracketText l (ds.map (VariableDefinition.print l)) ++ q)
      (follow (bracketTokens (ds.map VariableDefinition.tokens)) b) := hds.append hq
  have hbreak : breaks (bracketText l (ds.map (VariableDefinition.print l)) ++ q) = true := by
    cases ds with
    | nil => exact hb
    | cons d r => rfl
  cases n with
  | none =>
    refine ⟨?_, hbreak⟩
    simpa [Signature.tail, Signature.tailTokens, operationNameTokens] using hrest
  | some n =>
    have := ((scans_word (h.name n rfl)).append_closes hrest hbreak).ignored (c := ' ') rfl
    refine ⟨?_, rfl⟩
    simpa [Signature.tail, Signature.tailTokens, operationNameTokens, follow_assoc,
      List.append_assoc] using this

/-! ### Selection sets -/

/-- The texts of a selection set have the same tokens in either layout. -/
theorem closes_block {items : List (List Char)} {ts : Option (List Token)} (h : ScansAll items ts)
    (l : Layout) (level : Int) : Closes (printBlock l level items) (enclose '{' ts '}') := by
  unfold printBlock
  split_ifs with hind hempty
  · rw [List.isEmpty_iff] at hempty
    subst hempty
    cases h
    exact closes_enclosed (by decide) (by decide) rfl closes_nil.scans
  · have hlines : Closes ('\n' :: items.flatMap fun i => l.indent level ++ i ++ ['\n']) ts := by
      refine Closes.ignored rfl ?_
      clear hempty
      induction h with
      | nil => exact closes_nil
      | @cons p ps a b hp _ ih =>
        have hline := (Scans.gap (isGap_indent l level) hp).append_closes
          (closes_nil.ignored (c := '\n') rfl) rfl
        rw [follow_some_nil] at hline
        exact hline.append ih
    have hend := Closes.gap (isGap_indent l (level - 1)) (closes_sign (c := '}') (by decide))
    simpa [enclose, List.append_assoc] using (hlines.append hend).sign (c := '{') (by decide)
  · exact closes_enclosed (by decide) (by decide) rfl (h.separated rfl rfl)

theorem breaks_block (l : Layout) (level : Int) (items : List (List Char)) :
    breaks (l.space ++ printBlock l level items) = true := by
  unfold Layout.space printBlock
  split_ifs <;> rfl

/-- The tokens of a selection set behind its signature. -/
def signedTokens (s : Option Signature) (ts : Option (List Token)) : Option (List Token) :=
  match s with
  | none => enclose '{' ts '}'
  | some s => follow s.tokens (enclose '{' ts '}')

mutual

/-- The tokens of a selection, each of them written apart from the others. -/
def Selection.tokens : Selection → Option (List Token)
  | .leaf head => head.tokens
  | .nested head s children => follow head.tokens (signedTokens s (selectionTokens children))
  | .fragment typeName s children =>
    follow (some [.sign '.', .name "on", .name typeName])
      (signedTokens s (selectionTokens children))

/-- The tokens of selections. -/
def selectionTokens : List Selection → Option (List Token)
  | [] => some []
  | x :: r => follow x.tokens (selectionTokens r)

end

/-- The tokens of a document, each of them written apart from the others. -/
def Document.tokens (d : Document) : Option (List Token) :=
  signedTokens d.signature (selectionTokens d.selections)

mutual

/-- All names of a selection are names, and its literals satisfy the condition. -/
def Selection.Named (literal : Literal → Prop) : Selection → Prop
  | .leaf head => head.Named literal
  | .nested head s children =>
    head.Named literal ∧ (∀ x ∈ s, x.Named literal) ∧ SelectionsNamed literal children
  | .fragment typeName s children =>
    isGraphQLName typeName = true ∧ (∀ x ∈ s, x.Named literal) ∧ SelectionsNamed literal children

/-- All names of selections are names, and their literals satisfy the condition. -/
def SelectionsNamed (literal : Literal → Prop) : List Selection → Prop
  | [] => True
  | x :: r => x.Named literal ∧ SelectionsNamed literal r

end

/-- All names of a document are names, and its literals satisfy the condition. -/
structure Document.Named (literal : Literal → Prop) (d : Document) : Prop where
  /-- The names of the signature. -/
  signature : ∀ x ∈ d.signature, x.Named literal
  /-- The names of the selections. -/
  selections : SelectionsNamed literal d.selections

end Bindery.Query
