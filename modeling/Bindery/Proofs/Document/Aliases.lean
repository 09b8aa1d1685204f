import Bindery.Proofs.Document.Content

/-!
# Aliases with a line feed at the end

An alias may end in a line feed, which is no part of its name: what is read is the document with the
names that its aliases stand for. Two fields that are written with different keys are then read with
one and the same key where the keys differ in that line feed only.

## What is proved

* `executable?_print_bare` — a document whose aliases are accepted is read, in every layout, as the
  document with the names that they stand for.
* `responseKeys_readAs` — the response keys that are read in its selection sets are the names that
  the written keys stand for.
* `nodup_map_bareName_iff` — these are different exactly where no key is another one with a line feed
  behind it.
-/

namespace Bindery.Definition

/-! ### Response keys of what is read -/

/-- The key under which a response holds a field; a fragment has none. -/
def Selected.key? : Selected → Option String
  | .field aliasName name _ _ _ => some (aliasName.getD name)
  | .spread _ _ => none
  | .inline _ _ _ => none

/-- The keys of the fields of a selection set itself. -/
def responseKeys (xs : List Selected) : List String :=
  xs.filterMap Selected.key?

mutual

/-- The selection sets in a selection; a field may be without one. -/
def Selected.sets : Selected → List (List Selected)
  | .field _ _ _ _ xs => if xs.isEmpty then [] else xs :: selectedSets xs
  | .spread _ _ => []
  | .inline _ _ xs => xs :: selectedSets xs

/-- The selection sets inside of selections. -/
def selectedSets : List Selected → List (List Selected)
  | [] => []
  | x :: r => x.sets ++ selectedSets r

end

/-- The selections of an operation or of a fragment. -/
def Executable.selections : Executable → List Selected
  | .bare xs => xs
  | .operation _ _ _ _ xs => xs
  | .fragment _ _ _ xs => xs

/-- All selection sets of an operation or of a fragment. -/
def Executable.selectionSets (e : Executable) : List (List Selected) :=
  e.selections :: selectedSets e.selections

end Bindery.Definition

namespace Bindery.Query

open Bindery.Definition hiding Literal Document
open Bindery.Text

/-! ### Names with a line feed behind them -/

/-- A text is the name that it stands for, or that name with a line feed. -/
theorem eq_bareName_or (s : String) : s = bareName s ∨ s = bareName s ++ "\n" := by
  rw [bareName, dropLineFeed]
  split_ifs with h
  · right
    rw [beq_iff_eq] at h
    obtain ⟨p, hp⟩ := List.getLast?_eq_some_iff.mp h
    rw [← String.toList_inj, hp]
    simp
  · exact Or.inl String.ofList_toList.symm

theorem bareName_lineFeed (s : String) : bareName (s ++ "\n") = s := by
  simp [bareName, dropLineFeed]

/-- No text is another one with a line feed behind it. -/
def LineFeedsApart (ks : List String) : Prop :=
  ∀ k ∈ ks, k ++ "\n" ∉ ks

/-- Accepted names that differ stand for different names exactly where no one is another one with a
line feed behind it. -/
theorem nodup_map_bareName_iff {ks : List String} (hn : ks.Nodup)
    (ha : ∀ k ∈ ks, acceptsName k = true) : (ks.map bareName).Nodup ↔ LineFeedsApart ks := by
  rw [List.nodup_map_iff_inj_on hn]
  constructor
  · intro hinj k hk hfeed
    have hname : isGraphQLName k = true := by
      simpa only [bareName_lineFeed] using isGraphQLName_bareName (ha _ hfeed)
    have hsame : bareName k = bareName (k ++ "\n") := by
      rw [bareName_lineFeed, bareName_eq hname]
    have := congrArg String.length (hinj k hk _ hfeed hsame)
    simp at this
  · intro hfeed x hx y hy hxy
    rcases eq_bareName_or x with hx' | hx' <;> rcases eq_bareName_or y with hy' | hy'
    · rw [hx', hy', hxy]
    · rw [← hxy, ← hx'] at hy'
      exact absurd (hy' ▸ hy) (hfeed x hx)
    · rw [hxy, ← hy'] at hx'
      exact absurd (hx' ▸ hx) (hfeed y hy)
    · rw [hx', hy', hxy]

theorem acceptsName_of_isGraphQLName {s : String} (h : isGraphQLName s = true) :
    acceptsName s = true := by
  have hs : dropLineFeed s.toList = s.toList := by
    simpa [bareName] using congrArg String.toList (bareName_eq h)
  rw [acceptsName, hs]
  exact h

/-- Accepted names that differ are read as different tokens under the same condition. -/
theorem nodup_map_textTokens_iff {ks : List String} (hn : ks.Nodup)
    (ha : ∀ k ∈ ks, acceptsName k = true) : (ks.map textTokens).Nodup ↔ LineFeedsApart ks := by
  have htokens : ks.map textTokens = (ks.map bareName).map fun n => some [.name n] := by
    rw [List.map_map]
    exact List.map_congr_left fun k hk => (scans_acceptedName (ha k hk)).tokens?
  rw [htokens, List.nodup_map_iff fun m n h => by simpa using h]
  exact nodup_map_bareName_iff hn ha

/-! ### The fields of selection sets -/

/-- The key under which a response holds the field. -/
def FieldHead.key (f : FieldHead) : String :=
  f.aliasName.getD f.name

/-- The field of a selection; a fragment is none. -/
def Selection.head? : Selection → Option FieldHead
  | .leaf head => some head
  | .nested head _ _ => some head
  | .fragment _ _ _ => none

/-- The fields of a selection set itself. -/
def fieldHeads (xs : List Selection) : List FieldHead :=
  xs.filterMap Selection.head?

/-- The keys of these fields as they are written. -/
def writtenKeys (xs : List Selection) : List String :=
  (fieldHeads xs).map FieldHead.key

/-- The aliases of these fields are accepted. -/
def AliasesAccepted (xs : List Selection) : Prop :=
  ∀ f ∈ fieldHeads xs, ∀ a ∈ f.aliasName, acceptsName a = true

mutual

/-- The selection sets in a selection. -/
def Selection.sets : Selection → List (List Selection)
  | .leaf _ => []
  | .nested _ _ children => children :: setsInside children
  | .fragment _ _ children => children :: setsInside children

/-- The selection sets inside of selections. -/
def setsInside : List Selection → List (List Selection)
  | [] => []
  | x :: r => x.sets ++ setsInside r

end

/-- All selection sets of a document. -/
def Document.selectionSets (d : Document) : List (List Selection) :=
  d.selections :: setsInside d.selections

theorem aliasesAccepted_cons {x : Selection} {r : List Selection} :
    AliasesAccepted (x :: r) ↔
      (∀ f ∈ x.head?, ∀ a ∈ f.aliasName, acceptsName a = true) ∧ AliasesAccepted r := by
  unfold AliasesAccepted fieldHeads
  rw [List.filterMap_cons]
  cases x.head? <;> simp

/-! ### Documents with the names of their aliases -/

/-- The field with the name that its alias stands for. -/
def FieldHead.bare (f : FieldHead) : FieldHead :=
  { f with aliasName := f.aliasName.map bareName }

mutual

/-- The selection with the names that its aliases stand for. -/
def Selection.bare : Selection → Selection
  | .leaf head => .leaf head.bare
  | .nested head s children => .nested head.bare s (bareSelections children)
  | .fragment typeName s children => .fragment typeName s (bareSelections children)

/-- The selections with the names that their aliases stand for. -/
def bareSelections : List Selection → List Selection
  | [] => []
  | x :: r => x.bare :: bareSelections r

end

/-- The document with the names that its aliases stand for. -/
def Document.bare (d : Document) : Document :=
  ⟨d.signature, bareSelections d.selections⟩

theorem bareSelections_eq_nil_iff {xs : List Selection} : bareSelections xs = [] ↔ xs = [] := by
  cases xs <;> simp [bareSelections]

section Text

variable (l : Layout)

/-- A field is read with the name that its alias stands for, and it ends as it does with that name. -/
theorem FieldHead.bare_ends {f : FieldHead} (ha : ∀ a ∈ f.aliasName, acceptsName a = true)
    (h : f.bare.Named Literal.Separable) (level : Int) :
    Ends f.bare.endsInWord (f.print l level) f.bare.tokens := by
  obtain ⟨_ | a, name, arguments, directives⟩ := f
  · exact h.ends l level
  · have hfront := (scans_acceptedName (ha a rfl)).append_closes
      ((isGap_space l).closes.sign (c := ':') (by decide)) rfl
    exact h.ends_behind l level hfront

/-- The text of a selection set behind a text that it breaks off. -/
theorem scans_behind {p : List Char} {a b : Option (List Token)} (hp : Scans p a)
    {items : List (List Char)} (hi : ScansAll items b) (level : Int) :
    Scans (p ++ (l.space ++ printBlock l level items)) (follow a (enclose '{' b '}')) :=
  hp.append (Closes.gap (isGap_space l) (closes_block hi l level)).scans (breaks_block l level items)

mutual

/-- The text of a selection has the tokens of the selection with the names of its aliases. -/
theorem Selection.scans_bare (level : Int) : ∀ x : Selection,
    (∀ f ∈ x.head?, ∀ a ∈ f.aliasName, acceptsName a = true) →
    (∀ ys ∈ x.sets, AliasesAccepted ys) → x.bare.Legible → Scans (x.print l level) x.bare.tokens
  | .leaf head, ha, _, h =>
    (FieldHead.bare_ends l (ha head rfl)
      (FieldHead.Named.imp (fun _ hx => Literal.Readable.separable hx) h) level).scans
  | .nested head none children, ha, hin, ⟨hh, _, _, hc⟩ => by
    rw [Selection.sets, List.forall_mem_cons] at hin
    have hhead := FieldHead.bare_ends l (ha head rfl)
      (hh.imp fun _ hx => Literal.Readable.separable hx) level
    have hitems := scansAll_bare (level + 1) children hin.1 hin.2 hc
    rw [Selection.print_nested, List.append_assoc]
    exact scans_behind l hhead.scans hitems (level + 1)
  | .fragment typeName none children, _, hin, ⟨ht, _, _, hc⟩ => by
    rw [Selection.sets, List.forall_mem_cons] at hin
    have hon : Closes "on ".toList (some [.name "on"]) := by
      simpa using (scans_word (s := "on") rfl).append_closes (closes_nil.ignored (c := ' ') rfl) rfl
    have hfront := endsInWord_append ht (closes_dots.append (Closes.gap (isGap_space l) hon))
    have hitems := scansAll_bare (level + 1) children hin.1 hin.2 hc
    have := scans_behind l hfront.scans hitems (level + 1)
    simp only [List.append_assoc] at this
    simp only [Selection.print_fragment, List.append_assoc]
    exact this

theorem scansAll_bare (level : Int) : ∀ xs : List Selection, AliasesAccepted xs →
    (∀ ys ∈ setsInside xs, AliasesAccepted ys) → LegibleSelections (bareSelections xs) →
    ScansAll (printSelections l level xs) (selectionTokens (bareSelections xs))
  | [], _, _, _ => .nil
  | x :: r, ha, hin, h => by
    rw [aliasesAccepted_cons] at ha
    rw [setsInside, List.forall_mem_append] at hin
    exact .cons (Selection.scans_bare level x ha.1 hin.1 h.1) (scansAll_bare level r ha.2 hin.2 h.2)

end

/-- The text of a document has the tokens of the document with the names of its aliases. -/
theorem Document.tokens_print_bare {d : Document}
    (hs : ∀ s ∈ d.signature, s.Named Literal.Separable)
    (ha : ∀ ys ∈ d.selectionSets, AliasesAccepted ys)
    (hl : LegibleSelections d.bare.selections) : tokens? (d.print l) = d.bare.tokens := by
  rw [Document.selectionSets, List.forall_mem_cons] at ha
  have hitems := scansAll_bare l 1 d.selections ha.1 ha.2 hl
  have hfront : Ends false [] (some []) := closes_nil
  obtain ⟨c, hc, hfc⟩ := scans_signed hfront hs hitems (Fewer.refl _) l 1
  have htext := hc.tokens?
  rw [List.nil_append, (isGap_space l).closes, follow_nil] at htext
  have htokens : d.bare.tokens =
      signedTokens d.signature (selectionTokens (bareSelections d.selections)) := rfl
  rw [Document.print, htext, htokens]
  simpa [joinsFront] using hfc.eq_iff

/-- The text of a document whose aliases are accepted is read as the document with the names that they
stand for. -/
theorem executable?_print_bare {d : Document} {e : Executable} (h : d.bare.ReadAs e)
    (hs : ∀ s ∈ d.signature, s.Named Literal.Separable) (hne : d.selections ≠ [])
    (ha : ∀ ys ∈ d.selectionSets, AliasesAccepted ys)
    (hl : LegibleSelections d.bare.selections) :
    executable? (String.ofList (d.print l)) = some [e] := by
  refine executable?_tokens h (fun hnil => hne (bareSelections_eq_nil_iff.mp hnil)) hl ?_
  rw [String.toList_ofList]
  exact Document.tokens_print_bare l hs ha hl

end Text

/-! ### Response keys of what is read -/

theorem key_bare {literal : Literal → Prop} {f : FieldHead} (h : f.bare.Named literal) :
    f.bare.key = bareName f.key := by
  obtain ⟨_ | a, name, arguments, directives⟩ := f
  · exact (bareName_eq h.name).symm
  · rfl

/-- What is read in a selection set has the names that the written keys stand for. -/
theorem responseKeys_bare {xs : List Selection} (h : LegibleSelections (bareSelections xs)) :
    responseKeys (selectionReadings (bareSelections xs)) = (writtenKeys xs).map bareName := by
  induction xs with
  | nil => rfl
  | cons x r ih =>
    have hr := ih h.2
    cases x with
    | leaf head =>
      have hhead : head.bare.Named Literal.Readable := h.1
      exact congrArg₂ List.cons (key_bare hhead) hr
    | nested head s children =>
      have hhead : head.bare.Named Literal.Readable := h.1.1
      exact congrArg₂ List.cons (key_bare hhead) hr
    | fragment typeName s children => exact hr

mutual

/-- The selection sets that are read in a selection have the names of the written keys. -/
theorem Selection.sets_bare : ∀ x : Selection, x.bare.Legible →
    x.bare.reading.sets.map responseKeys = x.sets.map fun ys => (writtenKeys ys).map bareName
  | .leaf _, _ => rfl
  | .nested head none children, ⟨_, _, hne, hc⟩ => by
    have hempty : (selectionReadings (bareSelections children)).isEmpty = false := by
      rw [isEmpty_selectionReadings]
      simpa using hne
    rw [Selection.bare, Selection.reading, FieldHead.reading, Selected.sets, hempty,
      if_neg Bool.false_ne_true, List.map_cons, responseKeys_bare hc, setsInside_bare children hc]
    rfl
  | .fragment typeName none children, ⟨_, _, _, hc⟩ => by
    rw [Selection.bare, Selection.reading, Selected.sets, List.map_cons, responseKeys_bare hc,
      setsInside_bare children hc]
    rfl

theorem setsInside_bare : ∀ xs : List Selection, LegibleSelections (bareSelections xs) →
    (selectedSets (selectionReadings (bareSelections xs))).map responseKeys =
      (setsInside xs).map fun ys => (writtenKeys ys).map bareName
  | [], _ => rfl
  | x :: r, h => by
    rw [bareSelections, selectionReadings, selectedSets, setsInside, List.map_append,
      List.map_append, Selection.sets_bare x h.1, setsInside_bare r h.2]

end

theorem Document.ReadAs.selections {d : Document} {e : Executable} (h : d.ReadAs e) :
    e.selections = selectionReadings d.selections := by
  cases h <;> rfl

/-- The response keys that are read in the selection sets of a document are the names that the
written keys stand for. -/
theorem responseKeys_readAs {d : Document} {e : Executable} (h : d.bare.ReadAs e)
    (hl : LegibleSelections d.bare.selections) :
    e.selectionSets.map responseKeys =
      d.selectionSets.map fun xs => (writtenKeys xs).map bareName := by
  rw [Executable.selectionSets, Document.selectionSets, h.selections, List.map_cons, List.map_cons]
  exact congrArg₂ List.cons (responseKeys_bare hl) (setsInside_bare d.selections hl)

end Bindery.Query
