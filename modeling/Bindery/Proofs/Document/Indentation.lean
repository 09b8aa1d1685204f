import Bindery.Proofs.Literal.Indentation
import Bindery.Proofs.Selection.Operations

/-!
# Indentation follows nesting

The lines of a document in the indented layout. The levels of selection sets, arguments, directives
and default values are handed down one by one; here they are all compared with one number, the
brackets that are open in front of a line.

## What is proved

* `Selection.item` — the text of a selection on a line of level `d` is right where `d` brackets are
  open.
* `indentation_follows_nesting` — every line of the text of a builder starts with as many spaces as
  its nesting says.
-/

namespace Bindery.Query

open Bindery.Definition (Token breaks signs tokensIn unclosed firstToken? closesLevel
  closesLevel_firstToken? isIgnored reads_dots)
open Bindery.Schema (TypeRef Kind)
open Bindery.Text

/-! ### Arguments and directives -/

/-- The numbers of the literal are spelt, and its variables have names. -/
def Literal.Tidy (x : Literal) : Prop :=
  x.Spelt ∧ ∀ v ∈ x.variableNames, isGraphQLName v = true

section Pieces

variable {n d : Nat}

/-- Pieces with a comma and a space between them. -/
theorem level_separated {ps : List (List Char)} (h : ∀ p ∈ ps, Level n d false p) :
    Level n d false (separated [',', ' '] ps) := by
  induction ps with
  | nil => exact level_nil.weaken
  | cons p ps ih =>
    have hp := h p (by simp)
    cases ps with
    | nil => exact hp
    | cons q r =>
      have hrest := ih fun x hx => h x (List.mem_cons_of_mem _ hx)
      have hcomma : Level n d true [',', ' '] := level_gap rfl (by decide)
      have := hp.append (hcomma.append hrest (Or.inl rfl)) (Or.inr rfl)
      simpa [separated, List.append_assoc] using this

/-- Pieces in round brackets, or nothing where there are none. -/
theorem level_bracketText {ps : List (List Char)} (h : ∀ p ∈ ps, Level n d false p) :
    Level n d true (bracketText ⟨true, n⟩ ps) ∧
      (bracketText ⟨true, n⟩ ps = [] ∨ breaks (bracketText ⟨true, n⟩ ps) = true) := by
  unfold bracketText
  split_ifs with hempty
  · exact ⟨level_nil, Or.inl rfl⟩
  · have hclose : Level n d true [')'] := level_nil.sign (by decide) (by decide)
    have hinside := (level_separated h).append hclose (Or.inr rfl)
    exact ⟨hinside.sign (by decide) (by decide), Or.inr rfl⟩

/-- Pieces of which each breaks off what stands before it. -/
theorem level_flatMap {α : Type} {xs : List α} {f : α → List Char}
    (h : ∀ x ∈ xs, Level n d false (f x) ∧ breaks (f x) = true) :
    Level n d false (xs.flatMap f) ∧ (xs.flatMap f = [] ∨ breaks (xs.flatMap f) = true) := by
  induction xs with
  | nil => exact ⟨level_nil.weaken, Or.inl rfl⟩
  | cons x xs ih =>
    obtain ⟨hx, hb⟩ := h x (by simp)
    obtain ⟨hxs, hbs⟩ := ih fun y hy => h y (List.mem_cons_of_mem _ hy)
    rw [List.flatMap_cons]
    exact ⟨hx.behind hxs hbs, Or.inr (Definition.breaks_append hb _)⟩

theorem Argument.Named.item {a : Argument} (h : a.Named Literal.Tidy) :
    Item n d (a.print ⟨true, n⟩ d) :=
  item_labelled h.1 (h.2.1.item n d _ h.2.2)

theorem level_arguments {as : List Argument} (h : ∀ a ∈ as, a.Named Literal.Tidy) :
    Level n d true (printArguments ⟨true, n⟩ d as) ∧
      (printArguments ⟨true, n⟩ d as = [] ∨ breaks (printArguments ⟨true, n⟩ d as) = true) := by
  rw [printArguments_eq]
  refine level_bracketText ?_
  simp only [List.mem_map, forall_exists_index, and_imp, forall_apply_eq_imp_iff₂]
  exact fun a ha => (h a ha).item.level

/-- A name with arguments behind it. -/
theorem item_applied {s : String} (hs : isGraphQLName s = true) {as : List Argument}
    (h : ∀ a ∈ as, a.Named Literal.Tidy) :
    Item n d (s.toList ++ printArguments ⟨true, n⟩ d as) :=
  (item_name hs).append (level_arguments h).1 (level_arguments h).2

/-- A field without its selection set. -/
theorem FieldHead.Named.item {f : FieldHead} (h : f.Named Literal.Tidy) :
    Item n d (f.print ⟨true, n⟩ d) := by
  obtain ⟨aliasName, name, arguments, directives⟩ := f
  have hdirectives : ∀ x ∈ directives,
      Level n d false (Layout.space ⟨true, n⟩ ++ x.print ⟨true, n⟩ d) ∧
        breaks (Layout.space ⟨true, n⟩ ++ x.print ⟨true, n⟩ d) = true := by
    intro x hx
    have hx := h.directives x hx
    have := (item_applied (n := n) (d := d) hx.1 hx.2).level.sign (c := '@') (by decide) (by decide)
    exact ⟨level_space.append this (Or.inl rfl), rfl⟩
  have hfield : Item n d (name.toList ++ printArguments ⟨true, n⟩ d arguments ++
      directives.flatMap fun x => Layout.space ⟨true, n⟩ ++ x.print ⟨true, n⟩ d) :=
    (item_applied h.name h.arguments).append (level_flatMap hdirectives).1
      (level_flatMap hdirectives).2
  cases aliasName with
  | none => simpa [FieldHead.print] using hfield
  | some a => simpa [FieldHead.print] using item_labelled (h.aliasName a rfl) hfield

/-! ### Selection sets -/

/-- Lines with a line end behind each are lines with one in front of each and one at the end. -/
theorem flatMap_lineEnd {f : List Char → List Char} (items : List (List Char)) :
    '\n' :: items.flatMap (fun i => f i ++ ['\n']) =
      items.flatMap (fun i => '\n' :: f i) ++ ['\n'] := by
  induction items with
  | nil => rfl
  | cons i items ih =>
    rw [List.flatMap_cons, List.flatMap_cons, List.append_assoc, List.append_assoc, ← ih]
    simp

/-- A selection set whose items stand on lines of the next level. -/
theorem level_block {items : List (List Char)} (h : ∀ p ∈ items, Item n (d + 1) p) :
    Level n d true (printBlock ⟨true, n⟩ ((d : Int) + 1) items) := by
  have hpair : IsPair '{' '}' := Or.inl ⟨rfl, rfl⟩
  unfold printBlock
  split_ifs with hind hempty
  · exact level_inside hpair level_nil.weaken
  · have hlines : ∀ p ∈ items,
        Level n (d + 1) false ('\n' :: (Layout.indent ⟨true, n⟩ ((d : Int) + 1) ++ p)) ∧
          breaks ('\n' :: (Layout.indent ⟨true, n⟩ ((d : Int) + 1) ++ p)) = true := by
      intro p hp
      rw [← Nat.cast_succ, indent_eq]
      exact ⟨(h p hp).line, rfl⟩
    have := level_enclosed hpair (level_flatMap hlines).1
    rw [← indent_eq] at this
    rw [show ['{', '\n'] = '{' :: ['\n'] from rfl, List.cons_append, List.singleton_append,
      flatMap_lineEnd, add_sub_cancel_right]
    simpa [List.append_assoc] using this
  · exact absurd rfl hind

/-- A selection set behind what it belongs to. -/
theorem Item.block {p : List Char} (hp : Item n d p) {items : List (List Char)}
    (h : ∀ p ∈ items, Item n (d + 1) p) :
    Item n d (p ++ Layout.space ⟨true, n⟩ ++ printBlock ⟨true, n⟩ ((d : Int) + 1) items) := by
  rw [List.append_assoc]
  exact hp.append (level_space.append (level_block h) (Or.inl rfl)) (Or.inr rfl)

theorem item_onType {typeName : String} (h : isGraphQLName typeName = true) :
    Item n d ("...".toList ++ Layout.space ⟨true, n⟩ ++ "on ".toList ++ typeName.toList) := by
  have hon : Level n d false ("on".toList ++ (' ' :: typeName.toList)) :=
    (level_name (by decide)).append (level_space.append (level_word h) (Or.inl rfl)) (Or.inr rfl)
  have hdots : Level n d true "...".toList := level_token reads_dots (by decide) rfl rfl
  have := hdots.append (level_space.append hon (Or.inl rfl)) (Or.inl rfl)
  refine ⟨?_, '.', _, rfl, by decide, by decide⟩
  simpa [Layout.space] using this

mutual

/-- The text of a selection on a line of level `d` is right where `d` brackets are open. -/
theorem Selection.item (n d : Nat) : ∀ x : Selection, x.Named Literal.Tidy → x.Unsigned →
    Item n d (x.print ⟨true, n⟩ d)
  | .leaf head, h, _ => FieldHead.Named.item h
  | .nested head s children, h, hu => by
    obtain ⟨rfl, hu⟩ := hu
    exact (FieldHead.Named.item h.1).block (selections_item n (d + 1) children h.2.2 hu)
  | .fragment typeName s children, h, hu => by
    obtain ⟨rfl, hu⟩ := hu
    exact (item_onType h.1).block (selections_item n (d + 1) children h.2.2 hu)

theorem selections_item (n d : Nat) : ∀ xs : List Selection, SelectionsNamed Literal.Tidy xs →
    UnsignedSelections xs → ∀ p ∈ printSelections ⟨true, n⟩ d xs, Item n d p
  | [], _, _ => by simp [printSelections]
  | x :: r, h, hu =>
    List.forall_mem_cons.mpr ⟨Selection.item n d x h.1 hu.1, selections_item n d r h.2 hu.2⟩

end

/-! ### Signatures -/

/-- The text of a reference to a type closes what it opens. -/
theorem level_type {r : TypeRef} (h : r.isWritten = true) : Level n d false r.text.toList := by
  induction r generalizing d with
  | leaf k name =>
    simp only [TypeRef.isWritten, Bool.and_eq_true] at h
    exact level_word h.2
  | around k name inner ih =>
    cases k with
    | list =>
      have := (level_inside (Or.inr ⟨rfl, rfl⟩) (ih h)).weaken (n := n) (d := d)
      simpa [TypeRef.text] using this
    | nonNull =>
      simp only [TypeRef.isWritten, Bool.and_eq_true] at h
      have hmark : Level n d true ['!'] := level_nil.sign (by decide) (by decide)
      have := (ih (d := d) h.2).append hmark (Or.inr rfl)
      simpa [TypeRef.text] using this.weaken
    | _ => cases h

/-- The variable has a name, the type is that of a reference, and the default value is tidy. -/
structure VariableDefinition.Tidy (v : VariableDefinition) : Prop where
  /-- The variable has a name. -/
  name : isGraphQLName v.name = true
  /-- The type is a reference. -/
  typeName : ∃ r : TypeRef, r.isWritten = true ∧ r.text = v.typeName
  /-- The default value is tidy. -/
  fallback : ∀ x ∈ v.fallback, x.Tidy

theorem VariableDefinition.Tidy.level {v : VariableDefinition} (h : v.Tidy) :
    Level n 0 false (v.print ⟨true, n⟩) := by
  obtain ⟨name, typeName, fallback⟩ := v
  obtain ⟨r, hr, ht⟩ := h.typeName
  have ht : r.text = typeName := ht
  have htype : Level n 0 false (':' :: ' ' :: typeName.toList) := by
    rw [← ht]
    exact (level_space.append (level_type hr) (Or.inl rfl)).sign (by decide) (by decide)
  have hname := ((level_word h.name).append htype (Or.inr rfl)).sign (c := '$') (by decide)
    (by decide)
  cases fallback with
  | none => simpa [VariableDefinition.print, Layout.space] using hname
  | some x =>
    have hx := ((h.fallback x rfl).1.item n 0 x (h.fallback x rfl).2).level
    have hvalue := (level_space.append hx (Or.inl rfl)).sign (c := '=') (by decide) (by decide)
    have := hname.append (level_space.append hvalue (Or.inl rfl)) (Or.inr rfl)
    simpa [VariableDefinition.print, Layout.space] using this

/-- The operation has a name, if any, and its variables are tidy. -/
structure Signature.Tidy (s : Signature) : Prop where
  /-- The operation has a name, if it has any. -/
  name : ∀ x ∈ s.name, isGraphQLName x = true
  /-- The variables are tidy. -/
  definitions : ∀ v ∈ s.definitions, v.Tidy

theorem Signature.Tidy.item {s : Signature} (h : s.Tidy) : Item n 0 (s.print ⟨true, n⟩) := by
  obtain ⟨operation, name, definitions⟩ := s
  have hdefinitions : ∀ p ∈ definitions.map (VariableDefinition.print ⟨true, n⟩),
      Level n 0 false p := by
    simp only [List.mem_map, forall_exists_index, and_imp, forall_apply_eq_imp_iff₂]
    exact fun v hv => (h.definitions v hv).level
  obtain ⟨hlevel, hbreak⟩ := level_bracketText hdefinitions
  have hkeyword : Item n 0 operation.keyword.toList := item_name (isGraphQLName_keyword operation)
  rw [Signature.print_eq]
  cases name with
  | none => exact hkeyword.append hlevel hbreak
  | some x =>
    have hname := (level_word (h.name x rfl)).behind hlevel hbreak
    exact hkeyword.append (level_space.append hname (Or.inl rfl)) (Or.inr rfl)

/-- The text of a document. -/
theorem Document.item {doc : Document} (hs : ∀ s ∈ doc.signature, s.Tidy)
    (h : SelectionsNamed Literal.Tidy doc.selections) (hu : UnsignedSelections doc.selections) :
    Item n 0 (doc.print ⟨true, n⟩) := by
  obtain ⟨signature, selections⟩ := doc
  have hitems := selections_item n 1 selections h hu
  cases signature with
  | none =>
    refine ⟨(level_block (d := 0) hitems).weaken, ?_⟩
    have hbegins : Begins ['{'] := ⟨'{', [], rfl, by decide, by decide⟩
    show Begins (printBlock ⟨true, n⟩ 1 _)
    unfold printBlock
    split_ifs
    · exact hbegins.append _
    · exact hbegins.append _
    · exact hbegins.append _
  | some s => exact (hs s rfl).item.block (d := 0) hitems

end Pieces

/-! ### Builders -/

/-- The value is proper, and the variables in its literal have names. -/
def Value.Tidy (mask : Option String) (v : Value) : Prop :=
  v.Proper ∧ ∀ x, v.literal mask = .ok x → ∀ n ∈ x.variableNames, isGraphQLName n = true

/-- The type of the variable is the text of a reference, and its value is tidy. -/
def Variable.Tidy (v : Variable) : Prop :=
  (∃ r : TypeRef, r.isWritten = true ∧ r.text = v.typeName) ∧ v.value.Tidy none

theorem Value.Tidy.literal {mask : Option String} {v : Value} (h : v.Tidy mask) {x : Literal}
    (hx : v.literal mask = .ok x) : x.Tidy :=
  ⟨Value.Proper.spelt v mask x h.1 hx, h.2 x hx⟩

theorem Variable.Tidy.definition {v : Variable} (hn : isGraphQLName v.name = true) (h : v.Tidy)
    {x : VariableDefinition} (hx : v.definition = .ok x) : x.Tidy := by
  rw [Variable.definition_eq] at hx
  split_ifs at hx
  · obtain ⟨y, hy, rfl⟩ := map_eq_ok.mp hx
    refine ⟨hn, h.1, ?_⟩
    rintro _ ⟨rfl⟩
    exact h.2.literal hy
  · cases hx
    exact ⟨hn, h.1, by simp⟩

theorem writes_tidy : Writes Value.Tidy Variable.Tidy Literal.Tidy where
  value h hx := h.literal hx
  definition hn h hx := by
    have hx := h.definition hn hx
    have haccept := (exists_isWritten_iff.mp hx.typeName).1
    exact ⟨hx.name, (Definition.scans_acceptedType haccept).imp' _ fun _ h => h, hx.fallback⟩

theorem BuilderHead.Named.signature_tidy {h : BuilderHead} (hn : h.Named Variable.Tidy)
    {s : Option Signature} (hs : h.signature = .ok s) : ∀ x ∈ s, x.Tidy := by
  rintro x rfl
  obtain ⟨⟨o, ho, hname⟩, hdefinitions⟩ := BuilderHead.of_signature hs
  refine ⟨hname ▸ hn.operation o ho, fun y hy => ?_⟩
  obtain ⟨v, hv, hy⟩ := hdefinitions y hy
  exact (hn.declared v hv).2.definition (hn.declared v hv).1 hy

/-- In the indented layout every line of the text of a builder starts with `n` spaces for each brace
and square bracket that the tokens in front of the line open and do not close, but for the one that
the first token on the line closes. The names of the builder, its keys, its members and its
variables are names, the types of the variables are references, and no builder inside performs an
operation. -/
theorem indentation_follows_nesting {b : Builder} (h : b.Named Value.Tidy Variable.Tidy)
    (hr : b.Rooted) {n : Nat} {text : String} (ht : b.build ⟨true, n⟩ = .ok text)
    {before rest : List Char} (hsplit : text.toList = before ++ rest)
    (hline : before = [] ∨ before.getLast? = some '\n') :
    ∃ c r, rest = List.replicate (n * (unclosed (tokensIn before) -
        if (firstToken? rest).any closesLevel then 1 else 0)) ' ' ++ c :: r ∧
      isBlank c = false := by
  obtain ⟨doc, hdoc, rfl⟩ := map_eq_ok.mp ht
  obtain ⟨⟨s, xs⟩, hx, rfl⟩ := map_eq_ok.mp hdoc
  rw [String.toList_ofList] at hsplit
  obtain ⟨hs, hu⟩ := Builder.Rooted.unsigned b hr s xs hx
  have hnamed := (Builder.Named.content writes_tidy b h s xs hx).2
  have hhead : b.head.Named Variable.Tidy := by
    cases b with
    | node head fields fragments => exact h.1
  have hitem : Item n 0 (Document.print ⟨true, n⟩ ⟨s, xs⟩) :=
    Document.item (hhead.signature_tidy hs) hnamed hu
  obtain ⟨c, r, rfl, hc⟩ : StartsLine n (unclosed (tokensIn before)) rest := by
    rcases hline with rfl | hlast
    · obtain ⟨c, r, hcr, hc, hz⟩ := hitem.begins
      refine ⟨c, r, ?_, hc⟩
      rw [← hcr, hsplit, show unclosed (tokensIn []) = 0 from rfl, Nat.zero_sub, Nat.mul_zero]
      rfl
    · obtain ⟨front, rfl⟩ := List.getLast?_eq_some_iff.mp hlast
      obtain ⟨ts, hlaid, -⟩ := hitem.level
      refine hlaid.lines front rest ?_
      rw [hsplit]
      simp
  rw [isInk, Bool.and_eq_true, Bool.not_eq_true', Bool.not_eq_true'] at hc
  refine ⟨c, r, ?_, hc.1⟩
  rw [closesLevel_firstToken? hc.2]
  rfl

/-- A page of orders that a nested argument chooses, with a variable of a list type. -/
def ordersPage : Builder :=
  let order := Builder.node ⟨"Order", none, .empty⟩ [(.plain "id", none)] []
  let filter := ArgumentValue.mk "filter" (.mapping [(.text "ids", .list [.int 1])]) none
  .node ⟨"Query", some ⟨.query, none⟩, .ofList [("n", ⟨"n", "[Int!]", .null, 0⟩)]⟩
    [(⟨"orders", none, [filter], []⟩, some order)] []

theorem ordersPage_named : ordersPage.Named Value.Tidy Variable.Tidy := by
  have htidy : ∀ {mask : Option String} {v : Value} {x : Literal}, v.Proper →
      v.literal mask = .ok x → x.variableNames = [] → v.Tidy mask := by
    intro mask v x hv hx hnames
    refine ⟨hv, fun y hy => ?_⟩
    rw [hx] at hy
    cases hy
    simp [hnames]
  have hvariable : Variable.Tidy ⟨"n", "[Int!]", .null, 0⟩ :=
    ⟨⟨.around .list none (.around .nonNull none (.leaf .scalar "Int")), by decide +kernel,
      by decide +kernel⟩, htidy trivial rfl rfl⟩
  have hfilter : Value.Tidy none (.mapping [(.text "ids", .list [.int 1])]) :=
    htidy ⟨by decide +kernel, ⟨trivial, trivial⟩, trivial⟩ rfl rfl
  refine ⟨⟨by simp, ?_⟩, ⟨⟨by simp, by decide +kernel, ?_, by simp⟩, ⟨⟨by simp, ?_⟩,
    ⟨FieldSelection.named_plain (by decide +kernel), trivial⟩, trivial⟩, trivial⟩, trivial⟩
  · intro v hv
    rw [show Keyed.values (.ofList [("n", Variable.mk "n" "[Int!]" .null 0)]) =
      [⟨"n", "[Int!]", .null, 0⟩] from rfl, List.mem_singleton] at hv
    subst hv
    exact ⟨by decide +kernel, hvariable⟩
  · intro a ha
    rw [List.mem_singleton] at ha
    subst ha
    exact ⟨by decide +kernel, hfilter⟩
  · simp [Keyed.empty, Keyed.values]

/-- The bracket that closes a list inside the argument is on the line that its nesting says. -/
theorem indentation_follows_nesting_ordersPage :
    ordersPage.Named Value.Tidy Variable.Tidy ∧ ordersPage.Rooted ∧
      ∃ text before rest, ordersPage.build ⟨true, 2⟩ = .ok text ∧
        text.toList = before ++ rest ∧ before.getLast? = some '\n' ∧
        rest = "    ]\n  \x7d) \x7b\n    id\n  \x7d\n\x7d".toList ∧
        ∃ c r, rest = List.replicate (2 * (unclosed (tokensIn before) -
            if (firstToken? rest).any closesLevel then 1 else 0)) ' ' ++ c :: r ∧
          isBlank c = false := by
  have hr : ordersPage.Rooted := ⟨⟨rfl, ⟨trivial, trivial⟩, trivial⟩, trivial⟩
  have hbuild : ordersPage.build ⟨true, 2⟩ = .ok
      ("query($n: [Int!]) \x7b\n  orders(filter: \x7b\n    ids: [\n      1\n" ++
        "    ]\n  \x7d) \x7b\n    id\n  \x7d\n\x7d") := by rfl
  have hlast :
      "query($n: [Int!]) \x7b\n  orders(filter: \x7b\n    ids: [\n      1\n".toList.getLast? =
        some '\n' := by decide +kernel
  refine ⟨ordersPage_named, hr, _, _, _, hbuild, String.toList_append, hlast, rfl, ?_⟩
  exact indentation_follows_nesting ordersPage_named hr (n := 2) hbuild String.toList_append
    (Or.inr hlast)

/-- Behind a type whose bracket is left open, a line has fewer spaces than its nesting says. -/
example : (VariableDefinition.mk "x" "[Int" none).print ⟨true, 2⟩ = "$x: [Int".toList ∧
    unclosed (tokensIn "query($x: [Int) \x7b\n".toList) = 2 := by decide +kernel

end Bindery.Query
