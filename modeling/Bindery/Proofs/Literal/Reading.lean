import Bindery.Definition.Parser
import Bindery.Proofs.Lexical.Numeral
import Bindery.Query.Literal

/-!
# Reading literals

Items between brackets are written one behind the other or each on a line of its own. Proved here:
as long as what stands without quotes in a literal has tokens of its own, the literal has the same
tokens in every layout and on every level; and a literal that was written with numbers and names where
these belong is read back from its tokens with nothing left over. A variable is read without the line
feed that its name may end with, since the name was accepted with it.
-/

namespace Bindery.Query

open Bindery.Definition (Token Closes Scans follow breaks signs bareName numberToken closes_nil
  closes_sign scans_name scans_string scans_acceptedName follow_nil follow_some
  follow_some_nil follow_assoc tokens? isIgnored)
open Bindery.Text

/-! ### Items -/

/-- Each text has tokens of its own, and together they are `ts`. -/
inductive ScansAll : List (List Char) → Option (List Token) → Prop where
  /-- No text has no tokens. -/
  | nil : ScansAll [] (some [])
  /-- The tokens of a text come before those of the others. -/
  | cons {p : List Char} {ps : List (List Char)} {a b : Option (List Token)} :
      Scans p a → ScansAll ps b → ScansAll (p :: ps) (follow a b)

/-- A text of spaces, commas and line ends. -/
def IsGap (cs : List Char) : Prop := cs.all isIgnored = true

theorem IsGap.closes {cs : List Char} (h : IsGap cs) : Closes cs (some []) := by
  induction cs with
  | nil => exact closes_nil
  | cons c r ih =>
    simp only [IsGap, List.all_cons, Bool.and_eq_true] at h
    exact (ih h.2).ignored h.1

theorem isGap_indent (l : Layout) (level : Int) : IsGap (l.indent level) := by
  rw [IsGap, Layout.indent, List.all_eq_true]
  intro c hc
  rw [List.eq_of_mem_replicate hc]
  rfl

theorem isGap_space (l : Layout) : IsGap l.space := by
  unfold Layout.space
  split_ifs <;> rfl

/-- A gap in front of a text changes no token. -/
theorem Scans.gap {g p : List Char} {ts : Option (List Token)} (hg : IsGap g) (h : Scans p ts) :
    Scans (g ++ p) ts := by
  simpa using hg.closes.append_scans h

theorem Closes.gap {g p : List Char} {ts : Option (List Token)} (hg : IsGap g) (h : Closes p ts) :
    Closes (g ++ p) ts := by
  simpa using hg.closes.append h

theorem ScansAll.indented {ps : List (List Char)} {ts : Option (List Token)} (h : ScansAll ps ts)
    (l : Layout) (level : Int) : ScansAll (ps.map (l.indent level ++ ·)) ts := by
  induction h with
  | nil => exact .nil
  | cons hp _ ih => exact .cons (Scans.gap (isGap_indent l level) hp) ih

/-- Texts with gaps between them have the tokens of the texts. -/
theorem ScansAll.separated {ps : List (List Char)} {ts : Option (List Token)} (h : ScansAll ps ts)
    {sep : List Char} (hg : IsGap sep) (hb : breaks sep = true) : Scans (separated sep ps) ts := by
  induction h with
  | nil => exact closes_nil.scans
  | @cons p ps a b hp hps ih =>
    cases ps with
    | nil =>
      cases hps
      simpa [Query.separated] using hp
    | cons q r =>
      have := hp.append (Scans.gap hg ih) (Definition.breaks_append hb _)
      rwa [← List.append_assoc] at this

/-- The tokens between two signs. -/
def enclose (opening : Char) (ts : Option (List Token)) (closing : Char) : Option (List Token) :=
  follow (some [.sign opening]) (follow ts (some [.sign closing]))

/-- A text between two signs is closed. -/
theorem closes_enclosed {opening closing : Char} (ho : opening ∈ signs) (hc : closing ∈ signs)
    (hb : breaks [closing] = true) {p : List Char} {ts : Option (List Token)} (h : Scans p ts) :
    Closes (opening :: p ++ [closing]) (enclose opening ts closing) :=
  (h.append_closes (closes_sign hc) hb).sign ho

/-- A text between two signs is closed, also with a gap before the second. -/
theorem closes_enclosed_gap {opening closing : Char} (ho : opening ∈ signs) (hc : closing ∈ signs)
    {g : List Char} (hg : IsGap g) (hb : breaks g = true) {p : List Char}
    {ts : Option (List Token)} (h : Scans p ts) :
    Closes (opening :: p ++ (g ++ [closing])) (enclose opening ts closing) :=
  (h.append_closes (Closes.gap hg (closes_sign hc)) (Definition.breaks_append hb _)).sign ho

/-- Items between brackets have the same tokens in either layout. -/
theorem closes_bracketed {opening closing : Char} (ho : opening ∈ signs) (hc : closing ∈ signs)
    (hb : breaks [closing] = true) {items : List (List Char)} {ts : Option (List Token)}
    (h : ScansAll items ts) (l : Layout) (level : Int) :
    Closes (l.bracketed level opening closing items) (enclose opening ts closing) := by
  unfold Layout.bracketed
  split_ifs with hempty hind
  · rw [List.isEmpty_iff] at hempty
    subst hempty
    cases h
    exact closes_enclosed ho hc hb closes_nil.scans
  · have hin : Scans (separated [',', '\n'] (items.map (l.indent (level + 1) ++ ·))) ts :=
      (h.indented l (level + 1)).separated rfl rfl
    have hline : Scans ('\n' :: separated [',', '\n'] (items.map (l.indent (level + 1) ++ ·))) ts :=
      hin.ignored rfl
    have hgap : IsGap ('\n' :: l.indent level) := by
      have := isGap_indent l level
      rw [IsGap] at this ⊢
      rw [List.all_cons, this]
      rfl
    have := closes_enclosed_gap ho hc hgap rfl hline
    simpa [List.append_assoc] using this
  · exact closes_enclosed ho hc hb (h.separated rfl rfl)

/-! ### Literals -/

mutual

/-- The tokens of a literal. -/
def Literal.tokens : Literal → Option (List Token)
  | .null => some [.name "null"]
  | .bool b => some [.name (if b then "true" else "false")]
  | .number lexeme => tokens? lexeme
  | .string s => some [.string (String.ofList s) false]
  | .member name => some [.name (String.ofList name)]
  | .variable name => some [.sign '$', .name (bareName name)]
  | .list items => enclose '[' (itemTokens items) ']'
  | .object fields => enclose '{' (fieldTokens fields) '}'

/-- The tokens of the items of a list. -/
def itemTokens : List Literal → Option (List Token)
  | [] => some []
  | v :: r => follow v.tokens (itemTokens r)

/-- The tokens of the fields of an object. -/
def fieldTokens : List (String × Literal) → Option (List Token)
  | [] => some []
  | (k, v) :: r => follow (follow (some [.name k, .sign ':']) v.tokens) (fieldTokens r)

end

mutual

/-- What the literal writes without quotes: numbers and members that satisfy the given conditions,
keys that are names, and variables that were accepted as such. -/
def Literal.Bare (number member : List Char → Prop) : Literal → Prop
  | .null | .bool _ | .string _ => True
  | .number lexeme => number lexeme
  | .member name => isGraphQLNameChars name = true ∧ member name
  | .variable name => acceptsName name = true
  | .list items => BareItems number member items
  | .object fields => BareFields number member fields

/-- The items of a list satisfy the conditions. -/
def BareItems (number member : List Char → Prop) : List Literal → Prop
  | [] => True
  | v :: r => v.Bare number member ∧ BareItems number member r

/-- The fields of an object satisfy the conditions. -/
def BareFields (number member : List Char → Prop) : List (String × Literal) → Prop
  | [] => True
  | (k, v) :: r => isGraphQLName k = true ∧ v.Bare number member ∧ BareFields number member r

end

mutual

theorem Literal.Bare.weaken {number number' member member' : List Char → Prop}
    (hn : ∀ cs, number cs → number' cs) (hm : ∀ cs, member cs → member' cs) :
    ∀ x : Literal, x.Bare number member → x.Bare number' member'
  | .null, _ | .bool _, _ | .string _, _ => trivial
  | .number lexeme, h => hn lexeme h
  | .member name, h => ⟨h.1, hm name h.2⟩
  | .variable _, h => h
  | .list items, h => bareItems_weaken hn hm items h
  | .object fields, h => bareFields_weaken hn hm fields h

theorem bareItems_weaken {number number' member member' : List Char → Prop}
    (hn : ∀ cs, number cs → number' cs) (hm : ∀ cs, member cs → member' cs) :
    ∀ items, BareItems number member items → BareItems number' member' items
  | [], _ => trivial
  | v :: r, h => ⟨Literal.Bare.weaken hn hm v h.1, bareItems_weaken hn hm r h.2⟩

theorem bareFields_weaken {number number' member member' : List Char → Prop}
    (hn : ∀ cs, number cs → number' cs) (hm : ∀ cs, member cs → member' cs) :
    ∀ fields, BareFields number member fields → BareFields number' member' fields
  | [], _ => trivial
  | (_, v) :: r, h => ⟨h.1, Literal.Bare.weaken hn hm v h.2.1, bareFields_weaken hn hm r h.2.2⟩

end

/-- Each part of the literal that is written without quotes has tokens of its own. -/
def Literal.Separable : Literal → Prop :=
  Literal.Bare (fun cs => ∃ ts, Scans cs ts) fun _ => True

/-- A name, a colon and what stands behind it. -/
theorem scans_labelled {k : String} (hk : isGraphQLName k = true) (l : Layout) {p : List Char}
    {ts : Option (List Token)} (h : Scans p ts) :
    Scans (k.toList ++ ':' :: l.space ++ p) (follow (some [.name k, .sign ':']) ts) := by
  have hname : Scans k.toList (some [.name k]) := by
    simpa using scans_name (n := k.toList) hk
  have hrest := (Scans.gap (isGap_space l) h).sign (c := ':') (by decide)
  have := hname.append hrest rfl
  rw [← follow_assoc, follow_some] at this
  simpa [List.append_assoc] using this

mutual

/-- A literal has the same tokens in every layout. -/
theorem Literal.scans (l : Layout) (level : Int) :
    ∀ x : Literal, x.Separable → Scans (x.print l level) x.tokens
  | .null, _ => scans_name (n := "null".toList) rfl
  | .bool true, _ => scans_name (n := "true".toList) rfl
  | .bool false, _ => scans_name (n := "false".toList) rfl
  | .number lexeme, h => by
    obtain ⟨ts, hts⟩ := h
    rw [Literal.print, Literal.tokens, hts.tokens?]
    exact hts
  | .string s, _ => scans_string s
  | .member name, h => scans_name h.1
  | .variable name, h => (scans_acceptedName h).sign (by decide)
  | .list items, h => by
    have hitems := scansAll_items l (level + 1) items h
    exact (closes_bracketed (by decide) (by decide) rfl hitems l level).scans
  | .object fields, h => by
    have hfields := scansAll_fields l (level + 1) fields h
    exact (closes_bracketed (by decide) (by decide) rfl hfields l level).scans

theorem scansAll_items (l : Layout) (level : Int) :
    ∀ items : List Literal, BareItems (fun cs => ∃ ts, Scans cs ts) (fun _ => True) items →
      ScansAll (printItems l level items) (itemTokens items)
  | [], _ => .nil
  | v :: r, h => .cons (v.scans l level h.1) (scansAll_items l level r h.2)

theorem scansAll_fields (l : Layout) (level : Int) :
    ∀ fields : List (String × Literal),
      BareFields (fun cs => ∃ ts, Scans cs ts) (fun _ => True) fields →
      ScansAll (printFields l level fields) (fieldTokens fields)
  | [], _ => .nil
  | (_, v) :: r, h =>
    .cons (scans_labelled h.1 l (v.scans l level h.2.1)) (scansAll_fields l level r h.2.2)

end

end Bindery.Query

namespace Bindery.Definition

open Bindery.Text

/-! ### Readers -/

section Readers

variable {α β : Type} (t : Token) (c : Char) (fuel : Nat) (r ts : List Token)

theorem Reader.bind_apply (x : Reader α) (f : α → Reader β) :
    (x >>= f) ts = (x ts).bind fun p => f p.1 p.2 := rfl

/-- Behind a reader that succeeds the next one reads what was left. -/
theorem Reader.bind_of {ts us : List Token} {x : Reader α} {a : α} (h : x ts = some (a, us))
    (f : α → Reader β) : (x >>= f) ts = f a us := by
  rw [Reader.bind_apply, h, Option.bind_some]

theorem accept_self : accept t (t :: r) = some (true, r) := by simp [accept]

theorem accept_other {x : Token} (h : ts.head? ≠ some x) : accept x ts = some (false, ts) := by
  cases ts with
  | nil => rfl
  | cons y r =>
    have : y ≠ x := by simpa using h
    simp [accept, this]

theorem expect_self : expect t (t :: r) = some ((), r) := by simp [expect]

theorem readItems_close (constant : Bool) :
    readItems constant (fuel + 1) (.sign ']' :: r) = some ([], r) := by
  rw [readItems, Reader.bind_of (accept_self _ _)]
  rfl

theorem readItems_item (constant : Bool) (h : ts.head? ≠ some (.sign ']')) :
    readItems constant (fuel + 1) ts = (readLiteral constant fuel ts).bind fun p =>
      (readItems constant fuel p.2).bind fun q => some (p.1 :: q.1, q.2) := by
  rw [readItems, Reader.bind_of (accept_other ts h)]
  rfl

theorem readFields_close (constant : Bool) :
    readFields constant (fuel + 1) (.sign '}' :: r) = some ([], r) := by
  rw [readFields, Reader.bind_of (accept_self _ _)]
  rfl

theorem readFields_field (constant : Bool) (n : String) :
    readFields constant (fuel + 1) (.name n :: .sign ':' :: r) =
      (readLiteral constant fuel r).bind fun p =>
        (readFields constant fuel p.2).bind fun q => some ((n, p.1) :: q.1, q.2) := by
  rw [readFields, Reader.bind_of (accept_other _ (by simp))]
  rfl

end Readers

/-! ### Variables of a literal -/

mutual

/-- The variables of a literal. -/
def Literal.variables : Literal → List String
  | .variable n => [n]
  | .list items => itemVariables items
  | .object fields => fieldVariables fields
  | _ => []

/-- The variables of the items of a list. -/
def itemVariables : List Literal → List String
  | [] => []
  | v :: r => v.variables ++ itemVariables r

/-- The variables of the fields of an object. -/
def fieldVariables : List (String × Literal) → List String
  | [] => []
  | (_, v) :: r => v.variables ++ fieldVariables r

end

end Bindery.Definition

namespace Bindery.Query

open Bindery.Definition
open Bindery.Text

/-! ### What is read -/

mutual

/-- The literal that is read where the literal was written: a variable is read without the line feed
that its name may end with. -/
def Literal.reading : Query.Literal → Definition.Literal
  | .null => .null
  | .bool b => .bool b
  | .number lexeme => .number (String.ofList lexeme) (isFractional lexeme)
  | .string s => .string (String.ofList s) false
  | .member name => .member (String.ofList name)
  | .variable name => .variable (bareName name)
  | .list items => .list (readingItems items)
  | .object fields => .object (readingFields fields)

/-- The items that are read. -/
def readingItems : List Query.Literal → List Definition.Literal
  | [] => []
  | v :: r => v.reading :: readingItems r

/-- The fields that are read. -/
def readingFields : List (String × Query.Literal) → List (String × Definition.Literal)
  | [] => []
  | (k, v) :: r => (k, v.reading) :: readingFields r

end

/-- The words that are no member of an enumeration. -/
def reservedWords : List String := ["true", "false", "null"]

/-- The literal is one that can be read: its numbers are numbers, and no member is a reserved
word. -/
def Literal.Readable : Query.Literal → Prop :=
  Literal.Bare Numeral fun cs => String.ofList cs ∉ reservedWords

theorem Literal.Readable.separable {x : Query.Literal} (h : x.Readable) : x.Separable :=
  Literal.Bare.weaken (fun _ hn => ⟨_, scans_numeral hn⟩) (fun _ _ => trivial) x h

/-- The reader takes the tokens `ts` with enough fuel and returns `x`. -/
def Takes {α : Type} (read : Nat → Reader α) (ts : List Token) (x : α) : Prop :=
  ∀ fuel rest, ts.length < fuel → read fuel (ts ++ rest) = some (x, rest)

/-- The tokens of a literal, which are at least one and begin with no closing bracket, are read as
the literal. -/
def ReadsLiteral (constant : Bool) (ts : Option (List Token)) (x : Definition.Literal) : Prop :=
  ∃ t r, ts = some (t :: r) ∧ t ≠ .sign ']' ∧ Takes (readLiteral constant) (t :: r) x

theorem takes_single {constant : Bool} {t : Token} {x : Definition.Literal}
    (h : ∀ fuel rest, readLiteral constant (fuel + 1) (t :: rest) = some (x, rest)) :
    Takes (readLiteral constant) [t] x := by
  intro fuel rest hf
  obtain ⟨n, rfl⟩ := Nat.exists_eq_add_one_of_ne_zero (Nat.ne_zero_of_lt hf)
  exact h n rest

theorem reads_word {w : String} {x : Definition.Literal} {constant : Bool}
    (h : ∀ fuel rest, readLiteral constant (fuel + 1) (.name w :: rest) = some (x, rest)) :
    ReadsLiteral constant (some [.name w]) x :=
  ⟨.name w, [], rfl, by simp, takes_single h⟩

theorem readLiteral_member {s : String} (h : s ∉ reservedWords) (constant : Bool) (fuel : Nat)
    (rest : List Token) :
    readLiteral constant (fuel + 1) (.name s :: rest) = some (.member s, rest) := by
  simp only [reservedWords, List.mem_cons, List.not_mem_nil, or_false, not_or] at h
  unfold readLiteral
  split <;> simp_all

theorem reads_number {cs : List Char} (h : Numeral cs) (constant : Bool) :
    ReadsLiteral constant (tokens? cs) (.number (String.ofList cs) (isFractional cs)) := by
  rw [(scans_numeral h).tokens?]
  refine ⟨numberToken cs, [], rfl, ?_, takes_single fun fuel rest => ?_⟩
  · unfold numberToken
    split_ifs <;> simp
  · unfold numberToken
    split_ifs with hf
    · rw [hf]; rfl
    · rw [Bool.not_eq_true] at hf
      rw [hf]; rfl

/-- Tokens between two brackets are read as what is read behind the first. -/
theorem reads_enclosed {constant : Bool} {opening closing : Char} {ts : List Token}
    {x : Definition.Literal} (ho : opening ≠ ']')
    (h : ∀ fuel rest, ts.length + 1 < fuel →
      readLiteral constant (fuel + 1) (.sign opening :: (ts ++ .sign closing :: rest)) =
        some (x, rest)) :
    ReadsLiteral constant (enclose opening (some ts) closing) x := by
  refine ⟨.sign opening, ts ++ [.sign closing], rfl, by simpa using ho, ?_⟩
  intro fuel rest hf
  simp only [List.length_cons, List.length_append, List.length_nil] at hf
  obtain ⟨n, rfl⟩ := Nat.exists_eq_add_one_of_ne_zero (by omega : fuel ≠ 0)
  have := h n rest (by omega)
  simpa [List.append_assoc] using this

mutual

/-- The tokens of a literal are read as the literal; a constant one must hold no variable. -/
theorem Literal.reads (constant : Bool) : ∀ x : Query.Literal, x.Readable →
    (constant = true → x.reading.variables = []) → ReadsLiteral constant x.tokens x.reading
  | .null, _, _ => reads_word fun _ _ => rfl
  | .bool true, _, _ => reads_word fun _ _ => rfl
  | .bool false, _, _ => reads_word fun _ _ => rfl
  | .number _, h, _ => reads_number h constant
  | .string s, _, _ => ⟨_, [], rfl, by simp, takes_single fun _ _ => rfl⟩
  | .member _, h, _ => reads_word (readLiteral_member h.2 constant)
  | .variable name, _, hc => by
    have hv : constant = false := by
      rw [← Bool.not_eq_true]
      intro h
      exact absurd (hc h) (by simp [Literal.reading, Definition.Literal.variables])
    subst hv
    refine ⟨.sign '$', [.name (bareName name)], rfl, by simp, ?_⟩
    intro fuel rest hf
    obtain ⟨n, rfl⟩ := Nat.exists_eq_add_one_of_ne_zero (Nat.ne_zero_of_lt hf)
    rfl
  | .list items, h, hc => by
    obtain ⟨ts, hts, hread⟩ := readsItems constant items h hc
    rw [Literal.tokens, hts]
    refine reads_enclosed (by decide) ?_
    intro fuel rest hf
    rw [readLiteral]
    simp only [hread fuel rest hf]
    rfl
  | .object fields, h, hc => by
    obtain ⟨ts, hts, hread⟩ := readsFields constant fields h hc
    rw [Literal.tokens, hts]
    refine reads_enclosed (by decide) ?_
    intro fuel rest hf
    rw [readLiteral]
    simp only [hread fuel rest hf]
    rfl

theorem readsItems (constant : Bool) : ∀ items : List Query.Literal,
    BareItems Numeral (fun cs => String.ofList cs ∉ reservedWords) items →
    (constant = true → itemVariables (readingItems items) = []) →
    ∃ ts, itemTokens items = some ts ∧ ∀ fuel rest, ts.length + 1 < fuel →
      readItems constant fuel (ts ++ .sign ']' :: rest) = some (readingItems items, rest)
  | [], _, _ => by
    refine ⟨[], rfl, ?_⟩
    intro fuel rest hf
    obtain ⟨n, rfl⟩ := Nat.exists_eq_add_one_of_ne_zero (by omega : fuel ≠ 0)
    exact readItems_close n rest constant
  | v :: r, h, hc => by
    obtain ⟨t, us, hv, ht, htake⟩ := Literal.reads constant v h.1
      fun hk => (List.append_eq_nil_iff.mp (hc hk)).1
    obtain ⟨ts, hts, hread⟩ := readsItems constant r h.2
      fun hk => (List.append_eq_nil_iff.mp (hc hk)).2
    refine ⟨(t :: us) ++ ts, by rw [itemTokens, hv, hts, follow_some], ?_⟩
    intro fuel rest hf
    simp only [List.length_append, List.length_cons] at hf
    obtain ⟨n, rfl⟩ := Nat.exists_eq_add_one_of_ne_zero (by omega : fuel ≠ 0)
    rw [List.append_assoc, readItems_item _ _ _ (by simpa using ht),
      htake n _ (by simp only [List.length_cons]; omega), Option.bind_some, hread n rest (by omega)]
    rfl

theorem readsFields (constant : Bool) : ∀ fields : List (String × Query.Literal),
    BareFields Numeral (fun cs => String.ofList cs ∉ reservedWords) fields →
    (constant = true → fieldVariables (readingFields fields) = []) →
    ∃ ts, fieldTokens fields = some ts ∧ ∀ fuel rest, ts.length + 1 < fuel →
      readFields constant fuel (ts ++ .sign '}' :: rest) = some (readingFields fields, rest)
  | [], _, _ => by
    refine ⟨[], rfl, ?_⟩
    intro fuel rest hf
    obtain ⟨n, rfl⟩ := Nat.exists_eq_add_one_of_ne_zero (by omega : fuel ≠ 0)
    exact readFields_close n rest constant
  | (k, v) :: r, h, hc => by
    obtain ⟨t, us, hv, ht, htake⟩ := Literal.reads constant v h.2.1
      fun hk => (List.append_eq_nil_iff.mp (hc hk)).1
    obtain ⟨ts, hts, hread⟩ := readsFields constant r h.2.2
      fun hk => (List.append_eq_nil_iff.mp (hc hk)).2
    refine ⟨.name k :: .sign ':' :: (t :: us ++ ts), by
      rw [fieldTokens, hv, hts, follow_some, follow_some]; rfl, ?_⟩
    intro fuel rest hf
    simp only [List.length_append, List.length_cons] at hf
    obtain ⟨n, rfl⟩ := Nat.exists_eq_add_one_of_ne_zero (by omega : fuel ≠ 0)
    rw [List.cons_append, List.cons_append, readFields_field, List.append_assoc,
      htake n _ (by simp only [List.length_cons]; omega), Option.bind_some, hread n rest (by omega)]
    rfl

end

/-- The tokens of a literal behind which nothing else is read, in front of others. -/
theorem readValue_append {constant : Bool} {ts : List Token} {x : Definition.Literal}
    (h : Takes (readLiteral constant) ts x) (rest : List Token) :
    readValue constant (ts ++ rest) = some (x, rest) := by
  rw [readValue, Reader.bind_apply]
  exact h _ rest (by simp only [List.length_append]; omega)

end Bindery.Query
