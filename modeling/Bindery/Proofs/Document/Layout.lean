import Bindery.Proofs.Document.Named

/-!
# Two layouts of one document

The indented layout separates all tokens. The compact layout leaves out each space that a reader
could do without, and also the one in front of the keyword of a nested builder: where a field or a
fragment ends in a word, the keyword runs into it and the two become one token.

## What is proved

* `Document.tokens_print` — a document has the same tokens in the indented layout on every number
  of spaces, and in the compact layout as many fewer as keywords run into words.
* `build_same_tokens` — the two layouts of a builder whose names are names have the same tokens
  exactly where no keyword runs into a word, or where a number has a text that is no token.
-/

namespace Bindery.Query

open Bindery.Definition
open Bindery.Text

/-! ### Keywords behind words -/

/-- The number of keywords, one or none, that run into what stands in front of a selection set. -/
def joinsFront (word : Bool) (s : Option Signature) : Nat :=
  if word && s.isSome then 1 else 0

mutual

/-- The number of keywords in a selection that run into the word before them. -/
def Selection.joins : Selection → Nat
  | .leaf _ => 0
  | .nested head s children => joinsFront head.endsInWord s + selectionJoins children
  | .fragment _ s children => joinsFront true s + selectionJoins children

/-- The number of such keywords in selections. -/
def selectionJoins : List Selection → Nat
  | [] => 0
  | x :: r => x.joins + selectionJoins r

end

/-- The number of such keywords in a document, which itself begins with a keyword or a bracket. -/
def Document.joins (d : Document) : Nat :=
  selectionJoins d.selections

/-- The tokens `a` are `n` fewer than the tokens `b`, and the same where `n` is zero. -/
def Fewer (n : Nat) (a b : Option (List Token)) : Prop :=
  (a = none ∧ b = none) ∨
    ∃ x y, a = some x ∧ b = some y ∧ x.length + n = y.length ∧ (n = 0 → x = y)

theorem Fewer.refl (a : Option (List Token)) : Fewer 0 a a := by
  cases a with
  | none => exact Or.inl ⟨rfl, rfl⟩
  | some x => exact Or.inr ⟨x, x, rfl, rfl, rfl, fun _ => rfl⟩

theorem Fewer.follow {n m : Nat} {a b c d : Option (List Token)} (h : Fewer n a b)
    (h' : Fewer m c d) : Fewer (n + m) (follow a c) (follow b d) := by
  rcases h with ⟨rfl, rfl⟩ | ⟨x, y, rfl, rfl, hl, he⟩
  · exact Or.inl ⟨rfl, rfl⟩
  · rcases h' with ⟨rfl, rfl⟩ | ⟨z, w, rfl, rfl, hl', he'⟩
    · exact Or.inl ⟨rfl, rfl⟩
    · refine Or.inr ⟨x ++ z, y ++ w, rfl, rfl, ?_, ?_⟩
      · simp only [List.length_append]
        omega
      · intro hz
        rw [he (by omega), he' (by omega)]

theorem Fewer.trans {n m : Nat} {a b c : Option (List Token)} (h : Fewer n a b) (h' : Fewer m b c) :
    Fewer (n + m) a c := by
  rcases h with ⟨rfl, rfl⟩ | ⟨x, y, rfl, rfl, hl, he⟩
  · rcases h' with ⟨-, rfl⟩ | ⟨_, _, hb, -⟩
    · exact Or.inl ⟨rfl, rfl⟩
    · cases hb
  · rcases h' with ⟨hb, -⟩ | ⟨y', z, hb, rfl, hl', he'⟩
    · cases hb
    · cases hb
      exact Or.inr ⟨x, z, rfl, rfl, by omega, fun hz => by rw [he (by omega), he' (by omega)]⟩

/-- Fewer tokens are the same where they are none fewer, or where there are none at all. -/
theorem Fewer.eq_iff {n : Nat} {a b : Option (List Token)} (h : Fewer n a b) :
    a = b ↔ (0 < n → b = none) := by
  rcases h with ⟨rfl, rfl⟩ | ⟨x, y, rfl, rfl, hl, he⟩
  · simp
  · constructor
    · rintro h hn
      cases h
      omega
    · intro h
      rw [he (Nat.eq_zero_of_not_pos fun hn => by cases h hn)]

/-- A word right behind a text that ends in a word makes one token of the two. -/
theorem EndsInWord.join {p q : List Char} {a b : Option (List Token)} (h : EndsInWord p a)
    {w : String} (hw : isGraphQLName w = true) (hq : Closes q b) (hb : breaks q = true) :
    ∃ c, Closes (p ++ (w.toList ++ q)) c ∧
      Fewer 1 c (Definition.follow a (Definition.follow (some [.name w]) b)) := by
  obtain ⟨p, n, us, rfl, hn, hp, rfl⟩ := h
  have hword : isGraphQLNameChars (n ++ w.toList) = true := by
    rw [isGraphQLName] at hw
    cases n with
    | nil => cases hn
    | cons c n =>
      cases hws : w.toList with
      | nil => rw [hws] at hw; cases hw
      | cons d r =>
        rw [hws] at hw
        simp only [isGraphQLNameChars, Bool.and_eq_true] at hn hw
        simp [isGraphQLNameChars, hn.1, hw.2, isNameChar_of_isNameStart hw.1]
        simpa using hn.2
  have hclosed := hp.append ((scans_name hword).append_closes hq hb)
  have hone : Fewer 1 (some [.name (String.ofList (n ++ w.toList))])
      (some [.name (String.ofList n), .name w]) :=
    Or.inr ⟨_, _, rfl, rfl, rfl, fun h => by cases h⟩
  refine ⟨_, by simpa [List.append_assoc] using hclosed, ?_⟩
  have := (Fewer.refl us).follow (hone.follow (Fewer.refl b))
  rw [follow_assoc, ← follow_assoc (some [_]) (some [_])]
  simpa using this

/-- A selection set behind a text and its own signature: in the compact layout a keyword runs into
the word before it. -/
theorem scans_signed {word : Bool} {p : List Char} {a b c : Option (List Token)} {n : Nat}
    (hp : Ends word p a) {s : Option Signature} (hs : ∀ x ∈ s, x.Named Literal.Separable)
    {items : List (List Char)} (hi : ScansAll items b) (hb : Fewer n b c) (l : Layout)
    (level : Int) :
    ∃ d, Scans (p ++ (l.space ++ printSigned l level s items)) d ∧
      Fewer ((if l.indented then 0 else joinsFront word s) + n) d
        (Definition.follow a (signedTokens s c)) := by
  have hblock := closes_block hi l level
  have hspaced := Closes.gap (isGap_space l) hblock
  have hbreak := breaks_block l level items
  have hclosed : Fewer n (enclose '{' b '}') (enclose '{' c '}') := by
    simpa [enclose] using (Fewer.refl _).follow (hb.follow (Fewer.refl _))
  cases s with
  | none =>
    refine ⟨_, hp.scans.append hspaced.scans hbreak, ?_⟩
    simpa [joinsFront, signedTokens] using (Fewer.refl a).follow hclosed
  | some s =>
    obtain ⟨htail, htailBreaks⟩ := (hs s rfl).tail l hspaced hbreak
    have hkeyword := isGraphQLName_keyword s.operation
    have hsigned := (scans_word hkeyword).append_closes htail htailBreaks
    have htokens : ∀ d, signedTokens (some s) d =
        Definition.follow (some [.name s.operation.keyword])
          (Definition.follow s.tailTokens (enclose '{' d '}')) := by
      intro d
      rw [signedTokens, Signature.tokens, follow_assoc]
    have hfew := (Fewer.refl a).follow ((Fewer.refl (some [.name s.operation.keyword])).follow
      ((Fewer.refl s.tailTokens).follow hclosed))
    rw [htokens]
    by_cases hind : l.indented = true
    · have hspace : l.space = [' '] := by rw [Layout.space, if_pos hind]
      refine ⟨_, ?_, by simpa [hind] using hfew⟩
      have := hp.scans.append (hsigned.ignored (c := ' ') rfl).scans rfl
      simpa [printSigned, Signature.print_eq, hspace, List.append_assoc] using this
    · have hspace : l.space = [] := by rw [Layout.space, if_neg hind]
      cases word with
      | false =>
        refine ⟨_, ?_, by simpa [joinsFront] using hfew⟩
        have := (Closes.append hp hsigned).scans
        simpa [printSigned, Signature.print_eq, hspace, List.append_assoc] using this
      | true =>
        obtain ⟨d, hd, hj⟩ := EndsInWord.join hp hkeyword htail htailBreaks
        refine ⟨d, ?_, ?_⟩
        · simpa [printSigned, Signature.print_eq, hspace, List.append_assoc] using hd.scans
        · simpa [joinsFront, hind] using hj.trans hfew

section Scans

variable (l : Layout)

theorem Selection.print_nested (level : Int) (head : FieldHead) (s : Option Signature)
    (children : List Selection) : Selection.print l level (.nested head s children) =
      head.print l level ++ l.space ++
        printSigned l (level + 1) s (printSelections l (level + 1) children) := rfl

theorem Selection.print_fragment (level : Int) (typeName : String) (s : Option Signature)
    (children : List Selection) : Selection.print l level (.fragment typeName s children) =
      "...".toList ++ l.space ++ "on ".toList ++ typeName.toList ++ l.space ++
        printSigned l (level + 1) s (printSelections l (level + 1) children) := rfl

mutual

/-- A selection has its tokens, as many fewer as keywords run into words in the compact layout. -/
theorem Selection.scans (level : Int) : ∀ x : Selection, x.Named Literal.Separable →
    ∃ a, Scans (x.print l level) a ∧ Fewer (if l.indented then 0 else x.joins) a x.tokens
  | .leaf head, h => by
    have hh : head.Named Literal.Separable := h
    exact ⟨_, (hh.ends l level).scans, by
      simpa [Selection.joins, Selection.tokens] using Fewer.refl _⟩
  | .nested head s children, h => by
    obtain ⟨hh, hs, hc⟩ := h
    obtain ⟨b, hb, hf⟩ := scansAll_selections (level + 1) children hc
    obtain ⟨d, hd, hfd⟩ := scans_signed (hh.ends l level) hs hb hf l (level + 1)
    refine ⟨d, ?_, ?_⟩
    · rw [Selection.print_nested, List.append_assoc]
      exact hd
    · rw [Selection.joins, Selection.tokens]
      split_ifs at hfd ⊢ <;> exact hfd
  | .fragment typeName s children, h => by
    obtain ⟨ht, hs, hc⟩ := h
    obtain ⟨b, hb, hf⟩ := scansAll_selections (level + 1) children hc
    have hon : Closes "on ".toList (some [.name "on"]) := by
      simpa using (scans_word (s := "on") rfl).append_closes (closes_nil.ignored (c := ' ') rfl) rfl
    have hfront := endsInWord_append ht (closes_dots.append (Closes.gap (isGap_space l) hon))
    have hfront : Ends true _ _ := hfront
    obtain ⟨d, hd, hfd⟩ := scans_signed hfront hs hb hf l (level + 1)
    refine ⟨d, ?_, ?_⟩
    · simpa only [Selection.print_fragment, List.append_assoc] using hd
    · rw [Selection.joins, Selection.tokens]
      split_ifs at hfd ⊢ <;> exact hfd

theorem scansAll_selections (level : Int) : ∀ xs : List Selection,
    SelectionsNamed Literal.Separable xs → ∃ a, ScansAll (printSelections l level xs) a ∧
      Fewer (if l.indented then 0 else selectionJoins xs) a (selectionTokens xs)
  | [], _ => ⟨_, .nil, by simpa [selectionJoins, selectionTokens] using Fewer.refl _⟩
  | x :: r, h => by
    obtain ⟨a, ha, hf⟩ := Selection.scans level x h.1
    obtain ⟨b, hb, hg⟩ := scansAll_selections level r h.2
    refine ⟨_, .cons ha hb, ?_⟩
    rw [selectionJoins, selectionTokens]
    have := hf.follow hg
    split_ifs at this ⊢ <;> exact this

end

/-- A document has its tokens, as many fewer as keywords run into words in the compact layout. -/
theorem Document.tokens_print {d : Document} (h : d.Named Literal.Separable) :
    Fewer (if l.indented then 0 else d.joins) (tokens? (d.print l)) d.tokens := by
  obtain ⟨b, hb, hf⟩ := scansAll_selections l 1 d.selections h.selections
  have hfront : Ends false [] (some []) := closes_nil
  obtain ⟨c, hc, hfc⟩ := scans_signed hfront h.signature hb hf l 1
  have htext := hc.tokens?
  rw [List.nil_append, (isGap_space l).closes, follow_nil] at htext
  rw [Document.print, htext, Document.tokens, Document.joins]
  simpa [joinsFront] using hfc

end Scans

/-! ### Builders -/

/-- The tokens of a text. -/
def textTokens (s : String) : Option (List Token) :=
  tokens? s.toList

/-- All names of the builder are names, its values are proper, and its variables are of types that
are accepted and have proper defaults. -/
def Builder.Proper : Builder → Prop :=
  Builder.Named (fun _ v => v.Proper) fun v => acceptsTypeName v.typeName = true ∧ v.value.Proper

theorem writes_separable : Writes (fun _ v => v.Proper)
    (fun v => acceptsTypeName v.typeName = true ∧ v.value.Proper) Literal.Separable where
  value h hx := h.literal hx
  definition {v x} hn h hx := by
    obtain ⟨ht, hp⟩ := h
    have ht : ∃ ts, Scans v.typeName.toList ts := (scans_acceptedType ht).imp' _ fun _ h => h
    unfold Variable.definition at hx
    split at hx
    · cases hx
      exact ⟨hn, ht, by simp⟩
    · split_ifs at hx
      · cases hx
        exact ⟨hn, ht, by simp⟩
      · obtain ⟨y, hy, rfl⟩ := map_eq_ok.mp hx
        refine ⟨hn, ht, ?_⟩
        rintro _ ⟨rfl⟩
        exact hp.literal hy

/-- The compact and the indented text of a builder have the same tokens exactly where no keyword
runs into a word, or where the indented text has no tokens; a builder without a text has neither. -/
theorem build_same_tokens {b : Builder} (h : b.Proper) (m n : Int) :
    (b.build ⟨false, m⟩).map textTokens = (b.build ⟨true, n⟩).map textTokens ↔
      ∀ d, b.document = .ok d → 0 < d.joins → tokens? (d.print ⟨true, n⟩) = none := by
  simp only [Builder.build]
  cases hdoc : b.document with
  | error e => simp [Except.map]
  | ok d =>
    have hnamed := Builder.Named.document writes_separable h hdoc
    have hindented := Document.tokens_print ⟨true, n⟩ hnamed
    have hcompact := Document.tokens_print ⟨false, m⟩ hnamed
    simp only [if_true, Bool.false_eq_true, if_false] at hindented hcompact
    have hsame : tokens? (d.print ⟨true, n⟩) = d.tokens := by simpa using hindented.eq_iff
    rw [← hsame] at hcompact
    have hiff := hcompact.eq_iff
    simpa [Except.map, textTokens] using hiff

/-- A mutation whose payload leads back to the root type of queries. -/
def queryInMutation : Builder :=
  let query := Builder.node ⟨"Query", some ⟨.query, none⟩, .empty⟩ [(.plain "version", none)] []
  let payload := Builder.node ⟨"Payload", none, .empty⟩
    [(.plain "id", none), (.plain "query", some query)] []
  .node ⟨"Mutation", some ⟨.mutation, none⟩, .empty⟩ [(.plain "create", some payload)] []

theorem queryInMutation_proper : queryInMutation.Proper := by
  have hhead (typeName : String) (operation : Option OperationType) :
      (BuilderHead.mk typeName (operation.map (⟨·, none⟩)) .empty).Named
        fun v => acceptsTypeName v.typeName = true ∧ v.value.Proper :=
    ⟨by cases operation <;> simp, by simp [Keyed.empty, Keyed.values]⟩
  have hfield {name : String} (h : isGraphQLName name = true) :
      (FieldSelection.plain name).Named fun _ v => v.Proper := FieldSelection.named_plain h
  exact ⟨hhead _ (some .mutation), ⟨hfield rfl, ⟨hhead _ none, ⟨hfield rfl, hfield rfl,
    ⟨hhead _ (some .query), ⟨hfield rfl, trivial⟩, trivial⟩, trivial⟩, trivial⟩, trivial⟩, trivial⟩

/-- The keyword of the inner query runs into the field in front of it. -/
theorem queryInMutation_tokens_differ :
    queryInMutation.Proper ∧ (queryInMutation.build ⟨false, 2⟩).map textTokens ≠
      (queryInMutation.build ⟨true, 2⟩).map textTokens := by
  refine ⟨queryInMutation_proper, ?_⟩
  intro h
  have hnone := (build_same_tokens queryInMutation_proper 2 2).mp h _ rfl (by decide)
  revert hnone
  decide

end Bindery.Query
