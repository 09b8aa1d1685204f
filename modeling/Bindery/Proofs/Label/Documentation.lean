import Bindery.Label.Documentation
import Bindery.Proofs.Source.Denoted

/-!
# Descriptions stay inside their literals

The body of the literal in which a description stands holds no three quotes in a row, and none at
its end: three quotes are broken by backslashes, and a space stands behind a quote at the end. All
backslashes of the description are doubled, so each escape stands for one character of it. So the
literal ends where it is closed and denotes the description. A comment is one short line.

## What is proved

* `takeBody_escapeTriple` — the body is read up to its end.
* `denoted?_escapeTriple` — what the body denotes.
* `unifyLines_docstringChars` — the ends of lines in the body are those of the description.
* `description_contained` — a description in a program is one literal that denotes it.
-/

namespace Bindery.Label

open Bindery.Text Bindery.Source

variable {cs r taken tail : List Char} {c : Char}

/-! ### Escaping -/

theorem escapeTriple_backslash : escapeTriple ('\\' :: r) = '\\' :: '\\' :: escapeTriple r := by
  rw [escapeTriple]

/-- A character stays as it is unless it is a backslash or three quotes begin with it. -/
theorem escapeTriple_cons (hescape : c ≠ '\\') (hquotes : c = '"' → ∀ s, r ≠ '"' :: '"' :: s) :
    escapeTriple (c :: r) = c :: escapeTriple r := by
  rw [escapeTriple]
  · exact fun s hc hr => hquotes hc s hr
  · exact hescape

/-- An escaped text begins as the text does, or with a backslash. -/
theorem exists_escapeTriple_cons (c : Char) (r : List Char) :
    ∃ d s, escapeTriple (c :: r) = d :: s ∧ (d = '\\' ∨ d = c) := by
  by_cases hescape : c = '\\'
  · subst hescape
    exact ⟨_, _, escapeTriple_backslash, .inl rfl⟩
  · by_cases hquotes : c = '"' ∧ ∃ s, r = '"' :: '"' :: s
    · obtain ⟨rfl, s, rfl⟩ := hquotes
      exact ⟨_, _, by rw [escapeTriple], .inl rfl⟩
    · exact ⟨c, _, escapeTriple_cons hescape fun hc s hr => hquotes ⟨hc, s, hr⟩, .inr rfl⟩

/-- What stands behind a text: a space if the text ends with a quote, and in any case two
characters. -/
structure Follows (cs tail : List Char) : Prop where
  /-- A space stands behind a quote at the end. -/
  space : cs.getLast? = some '"' → tail.head? = some ' '
  /-- There are two characters. -/
  long : 2 ≤ tail.length

theorem Follows.of_cons (h : Follows (c :: r) tail) : Follows r tail := by
  refine ⟨fun hlast => h.space ?_, h.long⟩
  rw [List.getLast?_cons, hlast]
  rfl

/-- Behind a quote that does not begin three of them, no two quotes come first. -/
theorem exists_behind_quote (hquotes : ∀ s, r ≠ '"' :: '"' :: s) (h : Follows ('"' :: r) tail) :
    ∃ d e s, escapeTriple r ++ tail = d :: e :: s ∧ (d = '"' → e ≠ '"') := by
  obtain ⟨t₁, t₂, t, rfl⟩ : ∃ t₁ t₂ t, tail = t₁ :: t₂ :: t := by
    match tail, h.long with
    | t₁ :: t₂ :: t, _ => exact ⟨t₁, t₂, t, rfl⟩
  cases r with
  | nil =>
    have hspace : t₁ = ' ' := Option.some.inj (h.space rfl)
    exact ⟨t₁, t₂, t, rfl, fun hquote => absurd (hspace.symm.trans hquote) (by decide)⟩
  | cons c r =>
    obtain ⟨d, s, hescape, hd⟩ := exists_escapeTriple_cons c r
    by_cases hquote : d = '"'
    · subst hquote
      obtain rfl := hd.resolve_left (by decide)
      have hcons : escapeTriple ('"' :: r) = '"' :: escapeTriple r :=
        escapeTriple_cons (by decide) fun _ s hr => hquotes ('"' :: s) (by rw [hr])
      rw [hcons, List.cons_append]
      cases r with
      | nil =>
        have hspace : t₁ = ' ' := Option.some.inj (h.space rfl)
        exact ⟨'"', t₁, t₂ :: t, rfl, fun _ hq => absurd (hspace.symm.trans hq) (by decide)⟩
      | cons c' r =>
        obtain ⟨d', s', hescape', hd'⟩ := exists_escapeTriple_cons c' r
        rw [hescape', List.cons_append]
        refine ⟨'"', d', _, rfl, fun _ hq => ?_⟩
        subst hq
        exact hquotes r (by rw [hd'.resolve_left (by decide)])
    · rw [hescape, List.cons_append]
      cases s with
      | nil => exact ⟨d, t₁, t₂ :: t, rfl, fun hq => absurd hq hquote⟩
      | cons e s => exact ⟨d, e, s ++ t₁ :: t₂ :: t, rfl, fun hq => absurd hq hquote⟩

/-- An escaped text is read as a part of the body, whatever follows. -/
theorem takeBody_escapeTriple (h : Follows cs tail) :
    takeBody '"' true taken (escapeTriple cs ++ tail) =
      takeBody '"' true ((escapeTriple cs).reverse ++ taken) tail := by
  fun_induction escapeTriple cs generalizing taken with
  | case1 => rfl
  | case2 r ih =>
    simp only [List.cons_append, takeBody_escape, ih h.of_cons.of_cons.of_cons]
    simp
  | case3 r ih =>
    rw [List.cons_append, List.cons_append, takeBody_escape, ih h.of_cons]
    simp
  | case4 c r hquotes hescape ih =>
    have hescape : c ≠ '\\' := hescape
    rw [List.cons_append]
    have hstep : takeBody '"' true taken (c :: (escapeTriple r ++ tail)) =
        takeBody '"' true (c :: taken) (escapeTriple r ++ tail) := by
      by_cases hquote : c = '"'
      · subst hquote
        obtain ⟨d, e, s, heq, hde⟩ := exists_behind_quote (fun s hr => hquotes s rfl hr) h
        rw [heq, takeBody_quote hde]
      · exact takeBody_plain hquote hescape
    rw [hstep, ih h.of_cons]
    simp

/-- Each escape of an escaped text stands for one character of the text. -/
theorem denoted?_escapeTriple (cs tail : List Char) :
    denoted? (escapeTriple cs ++ tail) = (denoted? tail).map (cs ++ ·) := by
  have hquote : ∀ r, escape? '"' r = some (['"'], 0) := fun _ => rfl
  have hbackslash : ∀ r, escape? '\\' r = some (['\\'], 0) := fun _ => rfl
  fun_induction escapeTriple cs with
  | case1 => simp
  | case2 r ih =>
    simp only [List.cons_append, denoted?_escape (hquote _), ih, Option.map_map]
    rfl
  | case3 r ih =>
    simp only [List.cons_append, denoted?_escape (hbackslash _), ih, Option.map_map]
    rfl
  | case4 c r _ hescape ih =>
    rw [List.cons_append, denoted?_cons hescape, ih, Option.map_map]
    rfl

/-- The escapes of an escaped text are well formed. -/
theorem escapesAreFormed_escapeTriple (cs tail : List Char) :
    escapesAreFormed false (escapeTriple cs ++ tail) = escapesAreFormed false tail := by
  fun_induction escapeTriple cs with
  | case1 => rfl
  | case2 r ih => simpa [escapesAreFormed, escapeIsFormed] using ih
  | case3 r ih => simpa [escapesAreFormed, escapeIsFormed] using ih
  | case4 c r _ hescape ih =>
    rw [List.cons_append, escapesAreFormed, ih]
    exact fun _ _ h => absurd h hescape

/-! ### Ends of lines -/

/-- Ends of lines are unified in a text as in what is made of it. -/
theorem unifyLines_escapeTriple (cs : List Char) :
    unifyLines (escapeTriple cs) = escapeTriple (unifyLines cs) := by
  fun_induction escapeTriple cs with
  | case1 => rfl
  | case2 r ih =>
    have hquote : ∀ s, unifyLines ('"' :: s) = '"' :: unifyLines s :=
      fun _ => unifyLines_cons (by decide)
    have hbackslash : ∀ s, unifyLines ('\\' :: s) = '\\' :: unifyLines s :=
      fun _ => unifyLines_cons (by decide)
    simp only [hquote, hbackslash, ih]
    rw [escapeTriple]
  | case3 r ih =>
    rw [unifyLines_cons (by decide), unifyLines_cons (by decide), ih, unifyLines_cons (by decide),
      escapeTriple_backslash]
  | case4 c r hquotes hescape ih =>
    by_cases hreturn : c = '\r'
    · subst hreturn
      cases r with
      | nil => rfl
      | cons d r =>
        obtain ⟨d', s, hd, hfirst⟩ := exists_escapeTriple_cons d r
        by_cases hfeed : d = '\n'
        · subst hfeed
          have hcons : escapeTriple ('\n' :: r) = '\n' :: escapeTriple r :=
            escapeTriple_cons (by decide) fun h => absurd h (by decide)
          rw [hcons] at ih ⊢
          rw [unifyLines_return_feed, ih, unifyLines_return_feed]
        · have hne : d' ≠ '\n' := by
            rintro rfl
            exact hfeed (hfirst.resolve_left (by decide)).symm
          rw [unifyLines_return (by rw [hd]; simpa using hne), ih,
            unifyLines_return (by simpa using hfeed),
            escapeTriple_cons (by decide) fun h => absurd h (by decide)]
    · rw [unifyLines_cons hreturn, ih, unifyLines_cons hreturn, escapeTriple_cons hescape]
      intro hquote s hs
      obtain ⟨r₁, rfl, hs₁⟩ := of_unifyLines_eq_cons (by decide) hs
      obtain ⟨r₂, rfl, -⟩ := of_unifyLines_eq_cons (by decide) hs₁
      exact hquotes r₂ hquote rfl

/-- The last character stays, unless it ends a line. -/
theorem getLast?_unifyLines (cs : List Char) :
    (unifyLines cs).getLast? = cs.getLast?.map fun c => if c = '\r' then '\n' else c := by
  fun_induction unifyLines cs with
  | case1 r ih | case2 r _ ih =>
    rw [List.getLast?_cons, ih]
    cases hr : r.getLast? <;> simp [List.getLast?_cons, hr]
  | case3 d r _ hd ih =>
    have hd : d ≠ '\r' := hd
    rw [List.getLast?_cons, ih]
    cases hr : r.getLast? <;> simp [List.getLast?_cons, hr, hd]
  | case4 => rfl

/-- A quote at the end was there before ends of lines were unified. -/
theorem getLast?_of_unifyLines (h : (unifyLines cs).getLast? = some '"') :
    cs.getLast? = some '"' := by
  rw [getLast?_unifyLines] at h
  obtain ⟨c, hc, heq⟩ := Option.map_eq_some_iff.mp h
  split at heq
  · cases heq
  · rw [hc, heq]

theorem getLast?_escapeTriple (cs : List Char) : (escapeTriple cs).getLast? = cs.getLast? := by
  fun_induction escapeTriple cs with
  | case1 => rfl
  | case2 r ih => simp [List.getLast?_cons, ih]
  | case3 r ih => simp [List.getLast?_cons, ih]
  | case4 c r _ _ ih => simp [List.getLast?_cons, ih]

/-! ### The body of a description -/

/-- The space behind a text that ends with a quote. -/
def quoteSpace (cs : List Char) : List Char :=
  if cs.getLast? = some '"' then [' '] else []

theorem docstringChars_eq (cs : List Char) :
    docstringChars cs = escapeTriple (trimBlanks cs) ++ quoteSpace (trimBlanks cs) := by
  rw [docstringChars, padQuoteEnd, getLast?_escapeTriple, quoteSpace]
  by_cases h : (trimBlanks cs).getLast? = some '"' <;> simp [h]

theorem unifyLines_docstringChars (cs : List Char) :
    unifyLines (docstringChars cs) =
      escapeTriple (unifyLines (trimBlanks cs)) ++ quoteSpace (trimBlanks cs) := by
  rw [docstringChars_eq, unifyLines_append, unifyLines_escapeTriple]
  · rw [quoteSpace]
    split <;> rfl
  · rw [quoteSpace]
    split <;> simp

/-- The body ends where the quotes close it. -/
theorem takeBody_docstringChars (cs rest : List Char) :
    takeBody '"' true [] (unifyLines (docstringChars cs) ++ tripleQuote ++ rest) =
      some (unifyLines (docstringChars cs), rest) := by
  rw [unifyLines_docstringChars, List.append_assoc, List.append_assoc, takeBody_escapeTriple]
  · rw [quoteSpace]
    split
    · rw [List.cons_append, takeBody_plain (by decide) (by decide), List.nil_append, takeBody_close]
      simp
    · rw [List.nil_append, takeBody_close]
      simp
  · refine ⟨fun hlast => ?_, by simp [tripleQuote]; omega⟩
    rw [quoteSpace, if_pos (getLast?_of_unifyLines hlast)]
    rfl

theorem denoted?_docstringChars (cs : List Char) :
    denoted? (unifyLines (docstringChars cs)) =
      some (unifyLines (trimBlanks cs) ++ quoteSpace (trimBlanks cs)) := by
  have hspace : denoted? (quoteSpace (trimBlanks cs)) = some (quoteSpace (trimBlanks cs)) := by
    rw [quoteSpace]
    split
    · rw [denoted?_cons (by decide), denoted?]
      rfl
    · rw [denoted?]
  rw [unifyLines_docstringChars, denoted?_escapeTriple, hspace]
  rfl

theorem escapesAreFormed_docstringChars (cs : List Char) :
    escapesAreFormed false (unifyLines (docstringChars cs)) = true := by
  rw [unifyLines_docstringChars, escapesAreFormed_escapeTriple, quoteSpace]
  split <;> rfl

/-! ### Which characters there are -/

theorem mem_escapeTriple (h : c ∈ escapeTriple cs) : c ∈ cs ∨ c = '\\' := by
  fun_induction escapeTriple cs <;> grind

theorem mem_unifyLines (h : c ∈ unifyLines cs) : c ∈ cs ∨ c = '\n' := by
  fun_induction unifyLines cs <;> grind

/-- The body of a description holds no null character if the description does not. -/
theorem null_not_mem_docstringChars (h : '\x00' ∉ cs) : '\x00' ∉ unifyLines (docstringChars cs) := by
  rw [unifyLines_docstringChars, List.mem_append, not_or]
  constructor
  · intro hmem
    have hunified := (mem_escapeTriple hmem).resolve_right (by decide)
    exact h (mem_of_mem_trimBlanks ((mem_unifyLines hunified).resolve_right (by decide)))
  · rw [quoteSpace]
    split <;> simp

/-! ### Comments -/

/-- The only blanks of a comment are spaces. -/
theorem eq_space_of_mem_collapseFrom {inRun : Bool} (h : c ∈ collapseFrom inRun cs)
    (hblank : isBlank c = true) : c = ' ' := by
  fun_induction collapseFrom inRun cs <;> grind

theorem eq_space_of_mem_commentChars (h : c ∈ commentChars cs) (hblank : isBlank c = true) :
    c = ' ' := by
  have hshort : c ∈ shorten (collapseBlanks cs) := mem_of_mem_trimBlanks h
  rw [shorten] at hshort
  split at hshort
  · rcases List.mem_append.mp hshort with hmem | hmem
    · exact eq_space_of_mem_collapseFrom (List.mem_of_mem_take hmem) hblank
    · have hdot : c = '.' := by simpa using hmem
      rw [hdot] at hblank
      exact absurd hblank (by decide)
  · exact eq_space_of_mem_collapseFrom hshort hblank

theorem length_commentChars_le (cs : List Char) : (commentChars cs).length ≤ 120 := by
  have htrim : ∀ ds : List Char, (trimBlanks ds).length ≤ ds.length := by
    intro ds
    rw [trimBlanks, dropBlankEnd, List.length_reverse]
    refine Nat.le_trans (List.dropWhile_sublist isBlank).length_le ?_
    rw [List.length_reverse]
    exact (List.dropWhile_sublist isBlank).length_le
  refine Nat.le_trans (htrim _) ?_
  rw [shorten]
  split
  · rw [List.length_append, List.length_take]
    exact Nat.add_le_add_right (Nat.min_le_left 117 _) 3
  · omega

/-! ### Descriptions in programs -/

/-- A description between the triple quotes of a program, whatever is before and behind it: the
scanner finds one literal, which is closed by the closing quotes and goes on behind them, and the
literal denotes the description without blanks at its ends, with a space behind a quote at the end.
A comment has one line of at most 120 characters. -/
theorem description_contained (text : String) (hnull : '\x00' ∉ text.toList)
    (before rest : List Char) :
    ∃ body, unifyLines (before ++ (tripleQuote ++ (docstring text).toList ++ tripleQuote ++ rest)) =
        unifyLines before ++ (tripleQuote ++ body ++ tripleQuote ++ unifyLines rest) ∧
      '\x00' ∉ body ∧
      takeLiteral '"' (tripleQuote.tail ++ body ++ tripleQuote ++ unifyLines rest) =
        some (body, unifyLines rest) ∧
      (∀ k n taken,
        scanFrom (k + 1) false n taken (tripleQuote ++ body ++ tripleQuote ++ unifyLines rest) =
          scanFrom k false n (.literal false [] :: taken) (unifyLines rest)) ∧
      denoted? body = some (unifyLines (trim text).toList ++ quoteSpace (trim text).toList) ∧
      (∀ c ∈ (comment text).toList, isBlank c = true → c = ' ') ∧
      (comment text).length ≤ 120 := by
  have hquote : ∀ s, unifyLines ('"' :: s) = '"' :: unifyLines s :=
    fun _ => unifyLines_cons (by decide)
  have htake := takeBody_docstringChars text.toList (unifyLines rest)
  refine ⟨unifyLines (docstringChars text.toList), ?_, null_not_mem_docstringChars hnull, htake,
    fun k n taken => scanFrom_literal k n taken htake (escapesAreFormed_docstringChars _), ?_, ?_,
    ?_⟩
  · rw [docstring, String.toList_ofList, unifyLines_append before (by simp [tripleQuote])]
    congr 1
    simp only [tripleQuote, List.cons_append, List.nil_append, List.append_assoc, hquote]
    rw [unifyLines_append _ (by simp)]
    simp only [hquote]
  · rw [denoted?_docstringChars, trim, String.toList_ofList]
  · intro c hc
    rw [comment, String.toList_ofList] at hc
    exact eq_space_of_mem_commentChars hc
  · rw [comment, String.length_ofList]
    exact length_commentChars_le _

/-- A description with four quotes in front, a backslash at the end of a line, a line end of each
kind, and two quotes at the end. -/
def awkward : String :=
  "\"\"\"\"A\" \\\r\nend\r\"\" "

theorem awkward_contained :
    '\x00' ∉ awkward.toList ∧
      ∃ body, takeLiteral '"' ("\"\"".toList ++ body ++ "\"\"\"\n".toList) = some (body, ['\n']) ∧
        denoted? body = some "\"\"\"\"A\" \\\nend\n\"\" ".toList := by
  have hnull : '\x00' ∉ awkward.toList := by decide
  obtain ⟨body, -, -, htake, -, hdenoted, -⟩ := description_contained awkward hnull [] ['\n']
  refine ⟨hnull, body, by simpa [tripleQuote, unifyLines] using htake, hdenoted.trans ?_⟩
  cbv

end Bindery.Label
