import Bindery.Proofs.Catalog.Configured
import Bindery.Proofs.Catalog.References
import Bindery.Proofs.Catalog.Words
import Bindery.Proofs.Scalar.Expression

/-!
# Which members can be left empty

The expression at a member has the levels of the reference: one for each list, and one for what is
inside them. Whether the value at a level can be left empty is decided there alone, from what the
reference says, whether the type is a reference, and whether references follow the schema. Only at the
outermost level it makes a difference whether all members can be left empty.

## What is proved

* `memberType_spec` — the type of a member has an expression with the levels of its reference.
* `isBracketFree_of_namedType` — which names have no square brackets.
* `annotation_mirrors_reference` — how the expressions of a member under different options compare.
* `roster_annotations` — a list of lists.
-/

namespace Bindery.Schema

/-- No exclusion of null stands right inside another one, and something stands inside each list and
inside each exclusion of null. -/
def TypeRef.IsChain : TypeRef → Prop
  | .leaf k _ => k.wraps = false
  | .around .nonNull _ inner => inner.kind ≠ .nonNull ∧ inner.IsChain
  | .around .list _ inner => inner.IsChain
  | .around _ _ _ => True

/-- The number of the lists of a reference. -/
def TypeRef.lists : TypeRef → Nat
  | .leaf _ _ => 0
  | .around .nonNull _ inner => inner.lists
  | .around .list _ inner => inner.lists + 1
  | .around _ _ _ => 0

end Bindery.Schema

namespace Bindery.Catalog

open Bindery.Schema Bindery.Scalar Bindery.Text
open Bindery.Source (isWord isWordChar ne_of_isWordChar word_of_isIdentifier)

variable {c : Catalog} {owner member : String} {r : TypeRef} {d : MemberType}

/-! ### Levels of a reference -/

/-- The levels of a reference: those of its lists, and that of the type inside. -/
def levels (t : MemberType) : TypeRef → List Level
  | .around .nonNull _ (.around .list _ item) => ⟨true, true, false⟩ :: levels t item
  | .around .list _ item => ⟨false, true, false⟩ :: levels t item
  | r => [levelOf t r]

/-- At which levels values can be left empty. -/
def optionsAt (nullableReferences always : Bool) : List Level → List Bool
  | [] => []
  | l :: ls =>
    l.isOptional nullableReferences always :: ls.map fun l => l.isOptional nullableReferences false

theorem optionsAt_false (nullableReferences : Bool) (ls : List Level) :
    optionsAt nullableReferences false ls = ls.map fun l => l.isOptional nullableReferences false := by
  cases ls <;> rfl

/-- Whether the value of the type can be left empty makes no difference. -/
theorem levels_forReference (t : MemberType) (ref : TypeRef) (always nullableReferences : Bool) :
    levels (t.forReference ref always nullableReferences) r = levels t r := by
  induction r using itemOf.induct with
  | case1 n k item ih => rw [levels, levels, ih]
  | case2 k item ih => rw [levels, levels, ih]
  | case3 r hnonNull hlist =>
    rw [levels, levels]
    · rfl
    all_goals assumption

theorem levelOf_listType (t : MemberType) (ref : TypeRef) :
    levelOf (listType t) ref = ⟨ref.kind == .nonNull, true, false⟩ := by
  have hany : (listType t).name ≠ anyName := by
    intro h
    have hchars := congrArg String.toList h
    simp only [listType, String.toList_append] at hchars
    exact absurd (List.cons.inj hchars).1 (by decide)
  rw [levelOf, beq_false_of_ne hany]
  rfl

/-- Inside a reference without a list stands the type. -/
theorem of_isChain (h : r.IsChain)
    (hnonNull : ∀ n m item, r = .around .nonNull n (.around .list m item) → False)
    (hlist : ∀ m item, r = .around .list m item → False) :
    itemOf r = r.nullable ∧ r.nullable.kind.wraps = false ∧ r.lists = 0 := by
  refine ⟨itemOf_eq_nullable hnonNull hlist, ?_⟩
  match r, h with
  | .leaf _ _, h => exact ⟨h, rfl⟩
  | .around .nonNull _ (.leaf _ _), h => exact ⟨h.2, rfl⟩
  | .around .nonNull _ (.around .list _ _), _ => exact (hnonNull _ _ _ rfl).elim
  | .around .nonNull _ (.around .nonNull _ _), h => exact absurd rfl h.1
  | .around .list _ _, _ => exact (hlist _ _ rfl).elim
  | .around .nonNull _ (.around .scalar _ _), _ | .around .nonNull _ (.around .enumeration _ _), _
  | .around .nonNull _ (.around .object _ _), _ | .around .nonNull _ (.around .inputObject _ _), _
  | .around .nonNull _ (.around .union _ _), _ | .around .nonNull _ (.around .interface _ _), _
  | .around .scalar _ _, _ | .around .enumeration _ _, _ | .around .object _ _, _
  | .around .inputObject _ _, _ | .around .union _ _, _ | .around .interface _ _, _ =>
    exact ⟨rfl, rfl⟩

/-- What is inside the lists of a reference is what it leads to. -/
theorem itemOf_of_isChain (h : r.IsChain) :
    itemOf r = r.innermost ∧ r.innermost.kind.wraps = false := by
  have hwraps : (itemOf r).kind.wraps = false := by
    induction r using itemOf.induct with
    | case1 _ _ item ih => exact ih h.2
    | case2 _ item ih => exact ih h
    | case3 r hnonNull hlist =>
      obtain ⟨hitem, hkind, -⟩ := of_isChain h hnonNull hlist
      rwa [hitem]
  have hitem : itemOf r = r.innermost := by
    refine (itemOf_eq r).resolve_right fun hkind => ?_
    rw [hkind] at hwraps
    cases hwraps
  exact ⟨hitem, hitem ▸ hwraps⟩

/-! ### The type inside the lists -/

/-- The type of what is no list, before it is decided whether its value can be left empty. -/
def namedType (c : Catalog) (owner member : String) (t : TypeRef) : Except Refusal MemberType :=
  if t.kind = .list then .error (.unresolvedItem owner member)
  else if hasClass t.kind then
    (c.typeOf t.nameOrEmpty).map fun _ => referring (c.className t.nameOrEmpty)
  else
    match c.configuration.mapping.bind fun m => answerOf m owner member t with
    | some answer => checked owner member answer
    | none => defaultType c.configuration owner member t c.className

theorem leafType_eq_map (always : Bool) :
    c.leafType owner member r always = (c.namedType owner member r.nullable).map fun t =>
      t.forReference r always c.configuration.nullableReferences := by
  rw [leafType_eq, namedType]
  split_ifs
  · rfl
  · cases c.typeOf r.nullable.nameOrEmpty <;> rfl
  · rw [resolve]
    cases c.configuration.mapping.bind fun m => answerOf m owner member r.nullable with
    | some answer =>
      dsimp only
      cases checked owner member answer <;> rfl
    | none =>
      dsimp only
      cases defaultType c.configuration owner member r.nullable c.className <;> rfl

/-- A member has a type exactly if what is inside its lists has one. -/
theorem exists_memberType_iff (always : Bool) :
    (∃ m, c.memberType owner member r always = .ok m) ↔
      ∃ d, c.namedType owner member (itemOf r) = .ok d := by
  have around_iff {x : Except Refusal MemberType} (f : MemberType → MemberType) :
      (∃ m, (x >>= fun t => pure (f t)) = .ok m) ↔ ∃ t, x = .ok t := by
    cases x <;> simp [bind, Except.bind, pure, Except.pure]
  induction r, always using memberType.induct with
  | case1 n k item always ih =>
    rw [memberType, itemOf]
    exact (around_iff _).trans ih
  | case2 k item always ih =>
    rw [memberType, itemOf]
    exact (around_iff _).trans ih
  | case3 ref always hnonNull hlist =>
    rw [memberType, leafType_eq_map, itemOf_eq_nullable hnonNull hlist]
    · cases c.namedType owner member ref.nullable <;> simp [Except.map]
    all_goals assumption

/-- What is inside the lists has as a member the type that is found for it. -/
theorem memberType_innermost (h : r.IsChain) (always : Bool) :
    c.memberType owner member r.innermost always =
      (c.namedType owner member (itemOf r)).map fun t =>
        t.forReference r.innermost always c.configuration.nullableReferences := by
  obtain ⟨hitem, hwraps⟩ := itemOf_of_isChain h
  have hnonNull : ∀ n i, r.innermost ≠ .around .nonNull n i := by
    intro n i heq
    rw [heq] at hwraps
    cases hwraps
  have hlist : ∀ n i, r.innermost ≠ .around .list n i := by
    intro n i heq
    rw [heq] at hwraps
    cases hwraps
  have hnullable : r.innermost.nullable = r.innermost := by
    rw [TypeRef.nullable]
    exact hnonNull
  rw [memberType, leafType_eq_map, hnullable, hitem]
  · exact fun n m i => hnonNull n _
  · exact hlist

/-- A description of the type of a member: its text is that of an expression with the levels of the
reference. -/
structure Describes (d : MemberType) (r : TypeRef) (nullableReferences always : Bool)
    (m : MemberType) (e : Expression) : Prop where
  /-- The text of the expression stands at the member. -/
  text : e.text = m.annotation
  /-- The name is that of the type inside the lists. -/
  name : e.name = d.name
  /-- There is one list for each list of the reference. -/
  required : e.required = Expression.listsOf d.name r.lists
  /-- Which values can be left empty. -/
  options : e.options = optionsAt nullableReferences always (levels d r)

/-- The type of a list is described around the description of its items. -/
theorem Describes.list {item : TypeRef} {nullableReferences always : Bool} {m : MemberType}
    {e : Expression} (h : Describes d item nullableReferences false m e) (ref : TypeRef)
    (hlists : ref.lists = item.lists + 1)
    (hlevels : levels d ref = ⟨ref.kind == .nonNull, true, false⟩ :: levels d item) :
    ∃ e', Describes d ref nullableReferences always
      ((listType m).forReference ref always nullableReferences) e' := by
  refine ⟨.list ((levelOf (listType m) ref).isOptional nullableReferences always) e,
    ?_, h.name, ?_, ?_⟩
  · rw [annotation_forReference, Expression.text, h.text]
    rfl
  · rw [Expression.required, h.required, hlists]
    rfl
  · rw [Expression.options, h.options, optionsAt_false, hlevels, levelOf_listType]
    rfl

/-- **The type of a member has an expression with the levels of its reference.** -/
theorem memberType_spec (h : r.IsChain) (hd : c.namedType owner member (itemOf r) = .ok d)
    (always : Bool) :
    ∃ m e, c.memberType owner member r always = .ok m ∧
      Describes d r c.configuration.nullableReferences always m e := by
  induction r, always using memberType.induct with
  | case1 n k item always ih =>
    obtain ⟨m, e, hm, he⟩ := ih h.2 hd
    obtain ⟨e', he'⟩ := he.list (.around .nonNull n (.around .list k item)) rfl rfl
    exact ⟨_, e', by rw [memberType, hm]; rfl, he'⟩
  | case2 k item always ih =>
    obtain ⟨m, e, hm, he⟩ := ih h hd
    obtain ⟨e', he'⟩ := he.list (.around .list k item) rfl rfl
    exact ⟨_, e', by rw [memberType, hm]; rfl, he'⟩
  | case3 ref always hnonNull hlist =>
    obtain ⟨hitem, -, hlists⟩ := of_isChain h hnonNull hlist
    have hlevels : levels d ref = [levelOf d ref] := by
      rw [levels] <;> assumption
    refine ⟨d.forReference ref always c.configuration.nullableReferences,
      .named ((levelOf d ref).isOptional c.configuration.nullableReferences always) d.name,
      ?_, ?_, rfl, ?_, ?_⟩
    · rw [memberType, leafType_eq_map, ← hitem, hd]
      · rfl
      all_goals assumption
    · rw [annotation_forReference, Expression.text]
    · rw [hlists]
      rfl
    · rw [hlevels]
      rfl

/-! ### Names without square brackets -/

theorem isBracketFree_of_isWord {s : String} (h : isWord s = true) : isBracketFree s = true := by
  rw [isWord, List.all_eq_true] at h
  rw [isBracketFree, List.all_eq_true]
  intro ch hch
  have hopen := ne_of_isWordChar (h ch hch) (show isWordChar '[' = false by decide)
  have hclose := ne_of_isWordChar (h ch hch) (show isWordChar ']' = false by decide)
  simp [hopen, hclose]

theorem isBracketFree_trim {s : String} (h : isBracketFree s = true) :
    isBracketFree (Text.trim s) = true := by
  rw [isBracketFree, List.all_eq_true] at h ⊢
  intro ch hch
  rw [Text.trim, String.toList_ofList] at hch
  exact h ch (mem_of_mem_trimBlanks hch)

theorem isBracketFree_fallback (name : Option String) :
    isBracketFree (fallback name).name = true := by
  have hknown : ∀ p ∈ wellKnown, isBracketFree p.2.name = true := by decide
  rw [fallback]
  split_ifs
  · decide
  · cases hlookup : wellKnown.lookup (name.getD "") with
    | none => decide
    | some t =>
      obtain ⟨before, behind, heq, -⟩ := List.lookup_eq_some_iff.mp hlookup
      exact hknown (name.getD "", t) (heq ▸ List.mem_append_right before List.mem_cons_self)

theorem isBracketFree_chosenType {configuration : Configuration} {name : String} {t : MemberType}
    (h : chosenType? configuration name = some (some t)) : isBracketFree t.name = true := by
  unfold chosenType? at h
  split at h
  case h_1 => cases hi : configuration.integers <;> rw [hi] at h <;> cases h <;> decide
  case h_2 => cases hf : configuration.floats <;> rw [hf] at h <;> cases h <;> decide
  case h_3 => cases hi : configuration.ids <;> rw [hi] at h <;> cases h <;> decide
  case h_4 =>
    cases hb : configuration.booleans with
    | boolean =>
      rw [hb] at h
      cases h
      decide
    | custom =>
      rw [hb] at h
      cases h
  case h_5 => cases h

theorem isBracketFree_defaultType {configuration : Configuration} {enumName : String → String}
    (henum : ∀ n, isBracketFree (enumName n) = true)
    (h : defaultType configuration owner member r enumName = .ok d) :
    isBracketFree d.name = true := by
  rw [defaultType] at h
  split at h
  case isTrue =>
    cases h
    exact henum r.nameOrEmpty
  case isFalse =>
    split at h
    case isTrue =>
      cases h
      decide
    case isFalse =>
      split at h
      case h_1 =>
        cases h
        exact isBracketFree_fallback r.name?
      case h_2 chosen hchosen =>
        cases h
        obtain ⟨n, -, hn⟩ := Option.bind_eq_some_iff.mp hchosen
        exact isBracketFree_chosenType hn
      case h_3 => split at h <;> cases h

/-- The name of the type inside the lists has no square bracket, where those of classes and the one
that a mapping gives have none. -/
theorem isBracketFree_of_namedType (hclass : ∀ n, isBracketFree (c.className n) = true)
    (hanswer : ∀ answer, (c.configuration.mapping.bind fun m => answerOf m owner member r) =
      some answer → isBracketFree answer.name = true)
    (h : c.namedType owner member r = .ok d) : isBracketFree d.name = true := by
  rw [namedType] at h
  split_ifs at h
  · obtain ⟨-, -, rfl⟩ := map_eq_ok.mp h
    exact hclass r.nameOrEmpty
  · split at h
    · rename_i answer hgiven
      rw [checked] at h
      split_ifs at h
      cases h
      exact isBracketFree_trim (hanswer answer hgiven)
    · exact isBracketFree_defaultType hclass h

/-- What stands around class names is part of words. -/
theorem affixes_of_check {configuration : Configuration}
    (h : configuration.check = .ok configuration) :
    isWord configuration.classPrefix = true ∧ isWord configuration.classSuffix = true := by
  rw [Configuration.check] at h
  split_ifs at h with hfront hback hindentation
  rw [Bool.and_eq_true, Bool.not_eq_true', Bool.not_eq_true', not_and_or, Bool.not_eq_false,
    Bool.not_eq_false] at hfront hback
  constructor
  · rcases hfront with hempty | hname
    · rw [String.isEmpty_iff.mp hempty]
      rfl
    · exact (word_of_isIdentifier hname).1
  · rcases hback with hempty | hname
    · rw [String.isEmpty_iff.mp hempty]
      rfl
    · exact (isWord_append.mp (word_of_isIdentifier hname).1).2

/-- Class names have no square brackets. -/
theorem isBracketFree_className {configuration : Configuration} {s : Schema}
    (hcheck : configuration.check = .ok configuration)
    (hmake : (make configuration s).2 = .ok c) (name : String) :
    isBracketFree (c.className name) = true := by
  obtain ⟨hfront, hback⟩ := affixes_of_check hcheck
  rw [← configuration_of_make hmake] at hfront hback
  exact isBracketFree_of_isWord ((worded_of_make hmake).isWord_className hfront hback name rfl)

/-! ### The options -/

/-- The catalog in which references follow the schema, or do not. -/
def withReferences (c : Catalog) (nullableReferences : Bool) : Catalog :=
  c.configured { c.configuration with nullableReferences }

/-- Whether references follow the schema makes no difference to the type inside the lists. -/
theorem namedType_withReferences (nullableReferences : Bool) (t : TypeRef) :
    (c.withReferences nullableReferences).namedType owner member t = c.namedType owner member t :=
  rfl

theorem make_withReferences {configuration : Configuration} {s : Schema}
    (hmake : (make configuration s).2 = .ok c) (nullableReferences : Bool) :
    (make { configuration with nullableReferences } s).2 =
      .ok (c.withReferences nullableReferences) := by
  have hagrees : configuration.AgreesWith { configuration with nullableReferences } :=
    ⟨rfl, rfl, rfl, rfl⟩
  rw [withReferences, configuration_of_make hmake]
  exact make_configured hagrees hmake

theorem exists_levels (t : MemberType) (r : TypeRef) : ∃ l ls, levels t r = l :: ls := by
  fun_cases levels t r <;> exact ⟨_, _, rfl⟩

/-- **The expression of a member mirrors its reference.** Where a member has a type, it has one
whether or not references follow the schema and whether or not all members can be left empty, and the
text at the member can be read in one way. Without what says that values can be left empty, it is the
same name inside one list for each list of the reference. If references follow the schema, the values
at exactly those levels can be left empty that do not exclude null and have a type that does not
accept anything; if not, so can those at the other levels where the type is a reference. Whether all
members can be left empty makes a difference at the outermost level only. The names of classes have no
square brackets; those that a mapping gives, which is asked once about a member, must not. -/
theorem annotation_mirrors_reference {configuration : Configuration} {s : Schema}
    (hcheck : configuration.check = .ok configuration) (hmake : (make configuration s).2 = .ok c)
    (hchain : r.IsChain)
    (hanswer : ∀ answer, (configuration.mapping.bind fun m => answerOf m owner member r.innermost) =
      some answer → isBracketFree answer.name = true)
    {always : Bool} {m : MemberType} (hm : c.memberType owner member r always = .ok m) :
    (∀ references, (make { configuration with nullableReferences := references } s).2 =
      .ok (c.withReferences references)) ∧
    ∃ d, c.memberType owner member r.innermost false = .ok d ∧
      ∃ (type : Bool → Bool → MemberType) (e : Bool → Bool → Expression),
        (∀ references always,
          (c.withReferences references).memberType owner member r always =
            .ok (type references always) ∧
          (e references always).Reads (MemberType.annotation (type references always)) ∧
          (e references always).required = Expression.listsOf d.name r.lists) ∧
        (e true false).options = (levels d r).map (fun l => !l.isAny && !l.excludesNull) ∧
        (e false false).options =
          (levels d r).map (fun l => !l.isAny && (!l.excludesNull || l.isReference)) ∧
        ∀ references,
          (e references true).options.head? = (levels d r).head?.map (fun l => !l.isAny) ∧
          (e references true).options.tail = (e references false).options.tail := by
  refine ⟨make_withReferences hmake, ?_⟩
  obtain ⟨t, ht⟩ := (exists_memberType_iff always).mp ⟨m, hm⟩
  obtain ⟨hitem, -⟩ := itemOf_of_isChain hchain
  have hplain : isBracketFree t.name = true := by
    refine isBracketFree_of_namedType (isBracketFree_className hcheck hmake) ?_ ht
    rwa [configuration_of_make hmake, hitem]
  have hspec : ∀ references always, ∃ m e,
      (c.withReferences references).memberType owner member r always = .ok m ∧
        Describes t r references always m e :=
    fun references => memberType_spec hchain ((namedType_withReferences references _).trans ht)
  choose type e htype he using hspec
  refine ⟨t.forReference r.innermost false c.configuration.nullableReferences, ?_, type, e,
    fun references always => ⟨htype references always, ?_, (he references always).required⟩, ?_⟩
  · rw [memberType_innermost hchain, ht]
    rfl
  · rw [← (he references always).text]
    exact Expression.reads_text ((he references always).name ▸ hplain)
  -- the levels of the type do not depend on whether its value can be left empty
  have hlevels : levels (t.forReference r.innermost false c.configuration.nullableReferences) r =
      levels t r := levels_forReference ..
  obtain ⟨l, ls, hl⟩ := exists_levels t r
  simp only [(he _ _).options, hlevels, optionsAt_false]
  refine ⟨List.map_congr_left fun l _ => ?_, List.map_congr_left fun l _ => ?_,
    fun references => ⟨?_, ?_⟩⟩
  · simp [Level.isOptional]
  · simp [Level.isOptional]
  · simp [hl, optionsAt, Level.isOptional]
  · simp [hl, optionsAt]

/-! ### A list of lists -/

/-- A schema of players. -/
def rosterSchema : Schema where
  queryType := none
  mutationType := none
  subscriptionType := none
  types :=
    [⟨.object, "Player", none, [⟨"name", none, .leaf .scalar (some "String"), [], false, none⟩],
      [], [], [], []⟩]
  directives := []

/-- The catalog of the schema. -/
def rosterCatalog : Catalog where
  configuration := {}
  schema := rosterSchema
  types := byName rosterSchema.types
  complex := byName rosterSchema.complexTypes
  directives := .empty
  memberships := .empty
  renamed := .empty
  referenced := []

/-- Lines of players, none of which is missing; a line can be. -/
def rosterLines : TypeRef :=
  .around .nonNull none (.around .list none (.around .list none
    (.around .nonNull none (.leaf .object (some "Player")))))

theorem make_roster : (make {} rosterSchema).2 = .ok rosterCatalog := by
  cbv

theorem rosterLines_isChain : rosterLines.IsChain :=
  ⟨by decide, by decide, rfl⟩

/-- If references follow the schema, a line can be left empty, and with it the whole if all members
can; else so can a player. -/
theorem roster_annotations :
    Configuration.check {} = .ok {} ∧ (make {} rosterSchema).2 = .ok rosterCatalog ∧
      rosterLines.IsChain ∧
      (make { nullableReferences := true } rosterSchema).2 =
        .ok (rosterCatalog.withReferences true) ∧
      ∃ e : Bool → Bool → Expression,
        (e true false).Reads "List[Optional[List[Player]]]" ∧
        (e true false).options = [false, true, false] ∧
        (e false false).options = [true, true, true] ∧
        (e true true).options = [true, true, false] ∧
        ∀ references always,
          (e references always).required = .list false (.list false (.named false "Player")) := by
  have hanswer : ∀ answer, (rosterCatalog.configuration.mapping.bind fun m =>
      answerOf m "Team" "lines" rosterLines.innermost) = some answer →
        isBracketFree answer.name = true := nofun
  have hcheck : Configuration.check {} = .ok {} := by cbv
  have hm : (rosterCatalog.memberType "Team" "lines" rosterLines false) =
      .ok ⟨"List[Optional[List[Optional[Player]]]]", none, true, true⟩ := by cbv
  obtain ⟨hmake, d, hd, type, e, htype, hfollow, hnone, houtermost⟩ :=
    annotation_mirrors_reference hcheck make_roster rosterLines_isChain hanswer hm
  have hplayer : rosterCatalog.memberType "Team" "lines" rosterLines.innermost false =
      .ok ⟨"Player", none, true, true⟩ := by cbv
  have hfollowed : (rosterCatalog.withReferences true).memberType "Team" "lines" rosterLines false =
      .ok ⟨"List[Optional[List[Player]]]", none, true, false⟩ := by cbv
  cases hplayer.symm.trans hd
  obtain ⟨htypes, hreads, -⟩ := htype true false
  have htext : MemberType.annotation (type true false) = "List[Optional[List[Player]]]" := by
    rw [← Except.ok.inj (hfollowed.symm.trans htypes)]
    rfl
  obtain ⟨hhead, htail⟩ := houtermost true
  refine ⟨hcheck, make_roster, rosterLines_isChain, hmake true, e, htext ▸ hreads, hfollow, hnone,
    ?_, fun references always => (htype references always).2.2⟩
  rw [← List.cons_head?_tail hhead, htail, hfollow]
  rfl

end Bindery.Catalog
