import Bindery.Proofs.Document.Named
import Bindery.Proofs.Lexical.Nesting
import Bindery.Proofs.Literal.Denotes
import Bindery.Proofs.Schema.Reference
import Mathlib.Tactic.IntervalCases

/-!
# The lines of a literal

In the indented layout a line starts with as many spaces as brackets are open in front of it, where
a bracket that is closed at its start counts no more. A text is put together of pieces; a piece that
stands where `d` brackets are open has its own lines right for that `d`. Proved here: pieces of
which each is right are right together, and so the text of a literal on a line of a level is right
where as many brackets are open as the level says.
-/

namespace Bindery.Query

open Bindery.Definition (Token Reads IsLevel breaks signs tokensIn levelBehind levelBehind_append
  opensLevel closesLevel isIgnored reads_nil reads_name reads_sign reads_string isLevel_nil
  isLevel_singleton numberToken exists_cons_of_isGraphQLNameChars isNameChar_of_mem_name)
open Bindery.Text

/-! ### Lines -/

/-- The number of brackets that the character closes. -/
def closings (c : Char) : Nat :=
  if c == '}' || c == ']' then 1 else 0

/-- Does the character leave something on the page, and belong to a token? -/
def isInk (c : Char) : Bool :=
  !isBlank c && !isIgnored c

/-- The line starts as it should where `k` brackets are open in front of it: with `n` spaces for
each of them that is not closed right at its start. -/
def StartsLine (n k : Nat) (line : List Char) : Prop :=
  ∃ c r, line = List.replicate (n * (k - closings c)) ' ' ++ c :: r ∧ isInk c = true

theorem StartsLine.append {n k : Nat} {line : List Char} (h : StartsLine n k line)
    (rest : List Char) : StartsLine n k (line ++ rest) := by
  obtain ⟨c, r, rfl, hc⟩ := h
  exact ⟨c, r ++ rest, by simp, hc⟩

/-- A piece with the tokens `ts` that stands where `d` brackets are open: each of its lines but the
first, which starts before the piece, starts as it should. -/
structure Laid (n d : Nat) (closed : Bool) (p : List Char) (ts : List Token) : Prop where
  /-- The piece has the tokens. -/
  reads : Reads closed p ts
  /-- The lines start as they should. -/
  lines : ∀ before line, p = before ++ '\n' :: line →
    StartsLine n (levelBehind d (tokensIn (before ++ ['\n']))) line

section Pieces

variable {n d : Nat} {closed closed' : Bool} {p q : List Char} {ts us : List Token}

theorem Laid.append (h : Laid n d closed p ts) (h' : Laid n (levelBehind d ts) closed' q us)
    (hq : closed = true ∨ breaks q = true) : Laid n d closed' (p ++ q) (ts ++ us) := by
  -- a line that starts in `q` stands behind the tokens of `p`
  have hsecond : ∀ as line, q = as ++ '\n' :: line →
      StartsLine n (levelBehind d (tokensIn (p ++ as ++ ['\n']))) line := by
    intro as line heq
    have hbreak : closed = true ∨ as ++ ['\n'] = [] ∨ breaks (as ++ ['\n']) = true := by
      refine hq.imp_right fun hb => Or.inr ?_
      cases as with
      | nil => rfl
      | cons c r =>
        rw [heq] at hb
        exact hb
    rw [List.append_assoc, h.reads _ hbreak, levelBehind_append]
    exact h'.lines as line heq
  refine ⟨h.reads.append h'.reads hq, fun before line heq => ?_⟩
  rcases List.append_eq_append_iff.mp heq with ⟨as, rfl, hq'⟩ | ⟨cs, hp, hline⟩
  · exact hsecond as line hq'
  · cases cs with
    | nil =>
      rw [List.append_nil] at hp
      subst hp
      simpa using hsecond [] line hline.symm
    | cons c cs =>
      rw [List.cons_append, List.cons.injEq] at hline
      obtain ⟨rfl, rfl⟩ := hline
      exact (h.lines before cs hp).append q

/-- A piece on a single line has no line to be right. -/
theorem laid_flat (h : Reads closed p ts) (hp : '\n' ∉ p) : Laid n d closed p ts := by
  refine ⟨h, fun before line heq => absurd ?_ hp⟩
  rw [heq]
  simp

/-- A piece on a line of its own, which starts with the spaces that it should. -/
theorem Laid.line {c : Char} {r : List Char} (h : Laid n d closed (c :: r) ts)
    (hc : isInk c = true) :
    Laid n d closed ('\n' :: (List.replicate (n * (d - closings c)) ' ' ++ c :: r)) ts := by
  set sp := List.replicate (n * (d - closings c)) ' ' with hsp
  have hgap : ('\n' :: sp).all isIgnored = true := by
    rw [List.all_cons, List.all_eq_true.mpr fun x hx => by rw [List.eq_of_mem_replicate hx]; rfl]
    rfl
  refine ⟨h.reads.gap hgap, fun before line heq => ?_⟩
  cases before with
  | nil =>
    rw [List.nil_append, List.cons.injEq] at heq
    exact ⟨c, r, heq.2.symm, hc⟩
  | cons x before =>
    rw [List.cons_append, List.cons.injEq] at heq
    obtain ⟨rfl, heq⟩ := heq
    rcases List.append_eq_append_iff.mp heq with ⟨as, rfl, hline⟩ | ⟨cs, hsp', hline⟩
    · have := h.lines as line hline
      rwa [← List.cons_append, List.append_assoc, Definition.tokensIn_gap hgap]
    · exfalso
      cases cs with
      | nil =>
        rw [List.nil_append, List.cons.injEq] at hline
        rw [← hline.1] at hc
        cases hc
      | cons y cs =>
        rw [List.cons_append, List.cons.injEq] at hline
        have hmem : '\n' ∈ sp := by
          rw [hsp', ← hline.1]
          simp
        exact absurd (List.eq_of_mem_replicate hmem) (by decide)

/-! ### Pieces that close what they open -/

/-- A piece that is right where `d` brackets are open, and that closes what it opens. -/
def Level (n d : Nat) (closed : Bool) (p : List Char) : Prop :=
  ∃ ts, Laid n d closed p ts ∧ IsLevel ts

theorem Level.append (h : Level n d closed p) (h' : Level n d closed' q)
    (hq : closed = true ∨ breaks q = true) : Level n d closed' (p ++ q) := by
  obtain ⟨ts, hp, hts⟩ := h
  obtain ⟨us, hq', hus⟩ := h'
  refine ⟨ts ++ us, hp.append ?_ hq, hts.append hus⟩
  rwa [hts d]

theorem Level.weaken (h : Level n d closed p) : Level n d false p := by
  obtain ⟨ts, hp, hts⟩ := h
  exact ⟨ts, ⟨hp.reads.weaken, hp.lines⟩, hts⟩

/-- A piece behind another that is nothing or breaks off what stands before it. -/
theorem Level.behind (h : Level n d closed p) (h' : Level n d closed' q)
    (hq : q = [] ∨ breaks q = true) : Level n d false (p ++ q) := by
  rcases hq with rfl | hq
  · rw [List.append_nil]
    exact h.weaken
  · exact h.append h'.weaken (Or.inr hq)

/-- A piece on a single line with one token. -/
theorem level_token {t : Token} (h : Reads closed p [t]) (hp : '\n' ∉ p)
    (ho : opensLevel t = false) (hc : closesLevel t = false) : Level n d closed p :=
  ⟨[t], laid_flat h hp, isLevel_singleton ho hc⟩

theorem level_gap {g : List Char} (hg : g.all isIgnored = true) (hn : '\n' ∉ g) :
    Level n d true g := by
  refine ⟨[], laid_flat ?_ hn, isLevel_nil⟩
  simpa using reads_nil.gap hg

theorem level_nil : Level n d true [] := level_gap rfl (by simp)

theorem level_space : Level n d true [' '] := level_gap rfl (by simp)

/-- A sign that is no bracket of a level. -/
theorem Level.sign {c : Char} (h : Level n d closed p) (hc : c ∈ signs)
    (hb : c ∉ ['{', '}', '[', ']']) : Level n d closed (c :: p) := by
  simp only [List.mem_cons, List.not_mem_nil, or_false, not_or] at hb
  have hone : Level n d true [c] := by
    refine level_token (reads_sign hc) ?_ ?_ ?_
    · rintro hm
      rw [← List.mem_singleton.mp hm] at hc
      revert hc
      decide
    · simp [opensLevel, hb]
    · simp [closesLevel, hb]
  exact hone.append h (Or.inl rfl)

theorem level_name {cs : List Char} (h : isGraphQLNameChars cs = true) : Level n d false cs :=
  level_token (reads_name h)
    (fun hm => absurd (isNameChar_of_mem_name h hm) (by decide)) rfl rfl

theorem level_word {s : String} (h : isGraphQLName s = true) : Level n d false s.toList :=
  level_name h

theorem level_string (cs : List Char) : Level n d false (stringLiteral cs) :=
  level_token (reads_string cs)
    (fun hm => absurd (Definition.le_of_mem_stringLiteral hm) (by decide)) rfl rfl

theorem level_spelt {cs : List Char} (h : Definition.Spelt cs) : Level n d false cs := by
  have hn : '\n' ∉ cs := by
    rcases h with h | ⟨minus, w, rfl, hm, hw⟩
    · exact h.not_mem (by decide) (by decide)
    · rw [List.mem_append, not_or]
      refine ⟨?_, fun hm => absurd (isNameChar_of_mem_name hw hm) (by decide)⟩
      rcases hm with rfl | rfl <;> decide
  rcases h.reads with h | ⟨w, h⟩
  · have hnumber : opensLevel (numberToken cs) = false ∧ closesLevel (numberToken cs) = false := by
      unfold numberToken
      split_ifs <;> exact ⟨rfl, rfl⟩
    exact level_token h hn hnumber.1 hnumber.2
  · exact level_token h hn rfl rfl

/-! ### Items on lines of their own -/

/-- The piece begins with a character on the page that closes no bracket. -/
def Begins (p : List Char) : Prop :=
  ∃ c r, p = c :: r ∧ isInk c = true ∧ closings c = 0

/-- A piece that may stand on a line of its own where `d` brackets are open. -/
structure Item (n d : Nat) (p : List Char) : Prop where
  /-- The piece is right and closes what it opens. -/
  level : Level n d false p
  /-- The piece begins with a character on the page. -/
  begins : Begins p

theorem Begins.append (h : Begins p) (q : List Char) : Begins (p ++ q) := by
  obtain ⟨c, r, rfl, hc⟩ := h
  exact ⟨c, r ++ q, rfl, hc⟩

theorem Item.append (h : Item n d p) (h' : Level n d closed q) (hq : q = [] ∨ breaks q = true) :
    Item n d (p ++ q) :=
  ⟨h.level.behind h' hq, h.begins.append q⟩

theorem Item.line (h : Item n d p) :
    Level n d false ('\n' :: (List.replicate (n * d) ' ' ++ p)) := by
  obtain ⟨⟨ts, hlaid, hts⟩, c, r, rfl, hc, hz⟩ := h
  have := hlaid.line hc
  rw [hz, Nat.sub_zero] at this
  exact ⟨ts, this, hts⟩

theorem begins_name {cs : List Char} (h : isGraphQLNameChars cs = true) : Begins cs := by
  obtain ⟨c, r, rfl, hc, -⟩ := exists_cons_of_isGraphQLNameChars h
  refine ⟨c, r, rfl, ?_, ?_⟩
  · rw [isInk, isBlank_of_isNameChar (Definition.isNameChar_of_isNameStart hc),
      Definition.isIgnored_of_isNameStart hc]
    rfl
  · have h₁ := Definition.ne_of_isNameStart hc (d := '}') (by decide)
    have h₂ := Definition.ne_of_isNameStart hc (d := ']') (by decide)
    simp [closings, h₁, h₂]

theorem begins_spelt {cs : List Char} (h : Definition.Spelt cs) : Begins cs := by
  have hfirst : ∀ c r, c = '-' ∨ c.isDigit = true → Begins (c :: r) := by
    intro c r hc
    have hc' : c ∈ ['-', '0', '1', '2', '3', '4', '5', '6', '7', '8', '9'] := by
      rcases hc with rfl | hc
      · decide
      · exact List.mem_cons_of_mem _ (Definition.mem_of_isDigit hc)
    refine ⟨c, r, rfl, ?_⟩
    clear hc
    simp only [List.mem_cons, List.not_mem_nil, or_false] at hc'
    rcases hc' with rfl | rfl | rfl | rfl | rfl | rfl | rfl | rfl | rfl | rfl | rfl <;>
      exact ⟨by decide, by decide⟩
  rcases h with h | ⟨minus, w, rfl, rfl | rfl, hw⟩
  · obtain ⟨c, r, rfl, hc⟩ := h.exists_cons
    exact hfirst c r hc
  · exact begins_name hw
  · exact hfirst '-' w (Or.inl rfl)

theorem item_name {cs : List Char} (h : isGraphQLNameChars cs = true) : Item n d cs :=
  ⟨level_name h, begins_name h⟩

theorem item_word {s : String} (h : isGraphQLName s = true) : Item n d s.toList :=
  item_name h

/-- The two characters open and close a selection set, an object or a list. -/
def IsPair (opening closing : Char) : Prop :=
  opening = '{' ∧ closing = '}' ∨ opening = '[' ∧ closing = ']'

theorem laid_closing {opening closing : Char} (hb : IsPair opening closing) :
    Laid n d true [closing] [.sign closing] := by
  rcases hb with ⟨rfl, rfl⟩ | ⟨rfl, rfl⟩
  · exact laid_flat (reads_sign (c := '}') (by decide)) (by decide)
  · exact laid_flat (reads_sign (c := ']') (by decide)) (by decide)

/-- A bracket, a piece in front of which one bracket more is open, and a piece that closes it. -/
theorem level_between {opening closing : Char} (hb : IsPair opening closing)
    (h : Level n (d + 1) false p) (hq : Laid n (d + 1) true q [.sign closing])
    (hbreak : breaks q = true) : Level n d true (opening :: (p ++ q)) := by
  obtain ⟨ts, hp, hts⟩ := h
  have hopen : Laid n d true [opening] [.sign opening] := by
    rcases hb with ⟨rfl, rfl⟩ | ⟨rfl, rfl⟩ <;> exact laid_flat (reads_sign (by decide)) (by decide)
  have hlevel : IsLevel ([.sign opening] ++ ts ++ [.sign closing]) := by
    rcases hb with ⟨rfl, rfl⟩ | ⟨rfl, rfl⟩ <;> exact hts.enclosed rfl rfl rfl
  have hbehind : levelBehind d [.sign opening] = d + 1 := by
    rcases hb with ⟨rfl, rfl⟩ | ⟨rfl, rfl⟩ <;> rfl
  have hrest := hp.append (by rwa [hts (d + 1)]) (Or.inr hbreak)
  rw [← hbehind] at hrest
  have := hopen.append hrest (Or.inl rfl)
  rw [← List.append_assoc [Token.sign opening]] at this
  exact ⟨_, this, hlevel⟩

/-- Lines between brackets, of which the second starts a line as the line of the first does. -/
theorem level_enclosed {opening closing : Char} (hb : IsPair opening closing)
    (h : Level n (d + 1) false p) :
    Level n d true (opening :: (p ++ '\n' :: (List.replicate (n * d) ' ' ++ [closing]))) := by
  have hclose : isInk closing = true ∧ closings closing = 1 := by
    rcases hb with ⟨rfl, rfl⟩ | ⟨rfl, rfl⟩ <;> decide
  have hline := (laid_closing (n := n) (d := d + 1) hb).line hclose.1
  rw [hclose.2, Nat.add_sub_cancel] at hline
  exact level_between hb h hline rfl

/-- A piece between brackets on one line. -/
theorem level_inside {opening closing : Char} (hb : IsPair opening closing)
    (h : Level n (d + 1) false p) : Level n d true (opening :: (p ++ [closing])) := by
  refine level_between hb h (laid_closing hb) ?_
  rcases hb with ⟨rfl, rfl⟩ | ⟨rfl, rfl⟩ <;> rfl

theorem indent_eq (n d : Nat) : Layout.indent ⟨true, n⟩ d = List.replicate (n * d) ' ' := by
  have : (max (d : Int) 0 * (n : Int)).toNat = n * d := by
    rw [max_eq_left (Int.natCast_nonneg d), ← Nat.cast_mul, Int.toNat_natCast, Nat.mul_comm]
  rw [Layout.indent, this]

/-- Items with a comma behind each but the last, each on a line of its own. -/
theorem level_lines {items : List (List Char)} (hne : items ≠ []) (h : ∀ p ∈ items, Item n d p) :
    Level n d false
      ('\n' :: separated [',', '\n'] (items.map (Layout.indent ⟨true, n⟩ d ++ ·))) := by
  rw [indent_eq]
  induction items with
  | nil => exact absurd rfl hne
  | cons p ps ih =>
    have hp := (h p (by simp)).line
    cases ps with
    | nil => exact hp
    | cons q r =>
      have hrest := ih (by simp) fun x hx => h x (List.mem_cons_of_mem _ hx)
      have hcomma : Level n d true [','] := level_gap rfl (by decide)
      have := hp.append (hcomma.append hrest (Or.inl rfl)) (Or.inr rfl)
      simpa [separated, List.append_assoc] using this

/-- Items between brackets. -/
theorem item_bracketed {opening closing : Char} (hb : IsPair opening closing)
    {items : List (List Char)} (h : ∀ p ∈ items, Item n (d + 1) p) :
    Item n d (Layout.bracketed ⟨true, n⟩ d opening closing items) := by
  have hopening : isInk opening = true ∧ closings opening = 0 := by
    rcases hb with ⟨rfl, rfl⟩ | ⟨rfl, rfl⟩ <;> exact ⟨by decide, by decide⟩
  unfold Layout.bracketed
  split_ifs with hempty hind
  · exact ⟨(level_inside hb level_nil.weaken).weaken, opening, _, rfl, hopening⟩
  · have hne : items ≠ [] := by simpa using hempty
    have hlevel := level_enclosed hb (level_lines hne h)
    refine ⟨?_, opening, _, rfl, hopening⟩
    rw [indent_eq]
    simpa [List.append_assoc] using hlevel.weaken
  · exact absurd rfl hind

end Pieces

/-! ### Literals -/

mutual

/-- The names of the variables in a literal. -/
def Literal.variableNames : Literal → List String
  | .variable name => [name]
  | .list items => itemVariableNames items
  | .object fields => fieldVariableNames fields
  | _ => []

/-- The names of the variables in the items of a list. -/
def itemVariableNames : List Literal → List String
  | [] => []
  | v :: r => v.variableNames ++ itemVariableNames r

/-- The names of the variables in the fields of an object. -/
def fieldVariableNames : List (String × Literal) → List String
  | [] => []
  | (_, v) :: r => v.variableNames ++ fieldVariableNames r

end

/-- A name, a colon and an item. -/
theorem item_labelled {n d : Nat} {k : String} (hk : isGraphQLName k = true) {p : List Char}
    (h : Item n d p) : Item n d (k.toList ++ ':' :: Layout.space ⟨true, n⟩ ++ p) := by
  have hrest := (level_space.append h.level (Or.inl rfl)).sign (c := ':') (by decide) (by decide)
  have := (item_word hk).append hrest (Or.inr rfl)
  simpa [Layout.space] using this

mutual

/-- The text of a literal on a line of level `d` is right where `d` brackets are open. -/
theorem Literal.Spelt.item (n d : Nat) : ∀ x : Literal, x.Spelt →
    (∀ v ∈ x.variableNames, isGraphQLName v = true) → Item n d (x.print ⟨true, n⟩ d)
  | .null, _, _ => item_word (s := "null") rfl
  | .bool true, _, _ => item_word (s := "true") rfl
  | .bool false, _, _ => item_word (s := "false") rfl
  | .number _, h, _ => ⟨level_spelt h, begins_spelt h⟩
  | .string s, _, _ => ⟨level_string s, '"', _, rfl, by decide, by decide⟩
  | .member _, h, _ => item_name h.1
  | .variable name, _, hv =>
    ⟨(level_word (hv name (List.mem_singleton_self _))).sign (by decide) (by decide),
      '$', _, rfl, by decide, by decide⟩
  | .list items, h, hv => item_bracketed (Or.inr ⟨rfl, rfl⟩) (items_item n (d + 1) items h hv)
  | .object fields, h, hv => item_bracketed (Or.inl ⟨rfl, rfl⟩) (fields_item n (d + 1) fields h hv)

theorem items_item (n d : Nat) : ∀ items : List Literal, SpeltItems items →
    (∀ v ∈ itemVariableNames items, isGraphQLName v = true) →
      ∀ p ∈ printItems ⟨true, n⟩ d items, Item n d p
  | [], _, _ => by simp [printItems]
  | x :: r, h, hv => by
    rw [itemVariableNames, List.forall_mem_append] at hv
    exact List.forall_mem_cons.mpr ⟨Literal.Spelt.item n d x h.1 hv.1, items_item n d r h.2 hv.2⟩

theorem fields_item (n d : Nat) : ∀ fields : List (String × Literal), SpeltFields fields →
    (∀ v ∈ fieldVariableNames fields, isGraphQLName v = true) →
      ∀ p ∈ printFields ⟨true, n⟩ d fields, Item n d p
  | [], _, _ => by simp [printFields]
  | (k, x) :: r, h, hv => by
    rw [fieldVariableNames, List.forall_mem_append] at hv
    exact List.forall_mem_cons.mpr ⟨item_labelled h.1 (Literal.Spelt.item n d x h.2.1 hv.1),
      fields_item n d r h.2.2 hv.2⟩

end

end Bindery.Query
