import Bindery.Proofs.Lexical.Word
import Bindery.Schema.Basic
import Mathlib.Data.List.TakeWhile

/-!
# Which types a variable may have

The text of a reference to a type is a name inside brackets, each perhaps with an exclamation mark
behind it. Proved here: a parameter takes each of these texts as its type, and of the other texts
exactly those that differ from one of these in how many brackets stand in front, or in a line feed
at the end; so among the texts whose brackets are as many on both sides and that no line feed ends,
it takes the texts of references and no others.
-/

namespace Bindery.Schema

open Bindery.Text

/-- Is the reference built from a name by lists and by exclusions of null, none of them right inside
another? -/
def TypeRef.isWritten : TypeRef → Bool
  | .leaf k n => !k.wraps && isGraphQLName (n.getD "")
  | .around .list _ inner => inner.isWritten
  | .around .nonNull _ inner => inner.kind != .nonNull && inner.isWritten
  | .around _ _ _ => false

end Bindery.Schema

namespace Bindery.Query

open Bindery.Text Bindery.Schema
open Bindery.Definition (isNameChar_of_isNameStart exists_cons_of_isGraphQLNameChars
  isNameChar_of_mem_name)

/-! ### The end of a type -/

theorem isClosing_append {a b : List Char} (ha : isClosing a = true) (hb : isClosing b = true) :
    isClosing (a ++ b) = true := by
  fun_induction isClosing a with
  | case1 => exact hb
  | case2 r ih => exact ih ha
  | case3 r hr ih =>
    -- the bracket takes no exclamation mark from `b`, which begins with none
    have : isClosing (']' :: (r ++ b)) = isClosing (r ++ b) := by
      rw [isClosing]
      intro t ht
      cases r with
      | nil =>
        rw [List.nil_append] at ht
        rw [ht] at hb
        simp [isClosing] at hb
      | cons d t' =>
        rw [List.cons_append, List.cons.injEq] at ht
        exact hr t' (by rw [ht.1])
    rw [List.cons_append, this]
    exact ih ha
  | case4 => cases ha

theorem isTypeEnd_append {a b : List Char} (ha : isTypeEnd a = true) (hb : isClosing b = true) :
    isTypeEnd (a ++ b) = true := by
  unfold isTypeEnd at ha
  split at ha
  · exact isClosing_append ha hb
  · rename_i hne
    cases a with
    | nil =>
      rw [List.nil_append]
      unfold isTypeEnd
      split
      · cases hb
      · exact hb
    | cons c r =>
      have hc : c ≠ '!' := by
        rintro rfl
        exact hne r rfl
      unfold isTypeEnd
      split
      · rename_i heq
        rw [List.cons_append, List.cons.injEq] at heq
        exact absurd heq.1 hc
      · exact isClosing_append ha hb

theorem eq_of_mem_isClosing {cs : List Char} (h : isClosing cs = true) {c : Char} (hc : c ∈ cs) :
    c = ']' ∨ c = '!' := by
  fun_induction isClosing cs with
  | case1 => cases hc
  | case2 r ih =>
    rcases List.mem_cons.mp hc with hc | hc
    · exact Or.inl hc
    · rcases List.mem_cons.mp hc with hc | hc
      · exact Or.inr hc
      · exact ih h hc
  | case3 r _ ih =>
    rcases List.mem_cons.mp hc with hc | hc
    · exact Or.inl hc
    · exact ih h hc
  | case4 => cases h

theorem eq_of_mem_isTypeEnd {cs : List Char} (h : isTypeEnd cs = true) {c : Char} (hc : c ∈ cs) :
    c = ']' ∨ c = '!' := by
  unfold isTypeEnd at h
  split at h
  · rcases List.mem_cons.mp hc with hc | hc
    · exact Or.inr hc
    · exact eq_of_mem_isClosing h hc
  · exact eq_of_mem_isClosing h hc

/-! ### The text of a type -/

/-- The text of a type: a name between brackets that open and the end of the type. -/
structure IsTypeText (opening name ending : List Char) : Prop where
  /-- Only brackets stand in front of the name. -/
  opens : ∀ c ∈ opening, c = '['
  /-- The name is one. -/
  named : isGraphQLNameChars name = true
  /-- The end is one. -/
  ends : isTypeEnd ending = true

variable {opening name ending : List Char}

/-- A character outside names and brackets stands nowhere in the text of a type. -/
theorem IsTypeText.not_mem (h : IsTypeText opening name ending) {c : Char}
    (hc : isNameChar c = false) (hs : c ∉ ['[', ']', '!']) : c ∉ opening ++ name ++ ending := by
  simp only [List.mem_cons, List.not_mem_nil, or_false, not_or] at hs
  simp only [List.mem_append, not_or]
  refine ⟨⟨fun hm => hs.1 (h.opens c hm), fun hm => ?_⟩, fun hm => ?_⟩
  · simp [isNameChar_of_mem_name h.named hm] at hc
  · rcases eq_of_mem_isTypeEnd h.ends hm with hm | hm
    · exact hs.2.1 hm
    · exact hs.2.2 hm

theorem IsTypeText.dropWhile_eq (h : IsTypeText opening name ending) :
    (opening ++ name ++ ending).dropWhile (· == '[') = name ++ ending := by
  obtain ⟨c, r, rfl, hc, -⟩ := exists_cons_of_isGraphQLNameChars h.named
  have hne : c ≠ '[' := Definition.ne_of_isNameStart hc (by decide)
  rw [List.append_assoc, List.dropWhile_append_of_pos (by simpa using h.opens)]
  rw [List.cons_append, List.dropWhile_cons_of_neg (by simpa using hne)]

theorem IsTypeText.count_eq (h : IsTypeText opening name ending) :
    (opening ++ name ++ ending).count '[' = opening.length ∧
      (opening ++ name ++ ending).count ']' = ending.count ']' := by
  have hname : ∀ c ∈ ['[', ']'], name.count c = 0 := by
    intro c hc
    rw [List.count_eq_zero]
    intro hm
    have hn := isNameChar_of_mem_name h.named hm
    rcases List.mem_pair.mp hc with rfl | rfl <;> revert hn <;> decide
  have hopening : opening.count '[' = opening.length ∧ opening.count ']' = 0 := by
    refine ⟨List.count_eq_length.mpr fun c hc => (h.opens c hc).symm, ?_⟩
    exact List.count_eq_zero.mpr fun hm => absurd (h.opens _ hm) (by decide)
  have hending : ending.count '[' = 0 := by
    rw [List.count_eq_zero]
    intro hm
    rcases eq_of_mem_isTypeEnd h.ends hm with hm | hm <;> revert hm <;> decide
  simp only [List.count_append, hname '[' (by simp), hname ']' (by simp), hopening, hending]
  omega

/-- Accepted as a type are the texts of types, with any number of brackets in front and perhaps with
a line feed at the end. -/
theorem acceptsTypeName_iff (s : String) :
    acceptsTypeName s = true ↔ ∃ opening name ending,
      dropLineFeed s.toList = opening ++ name ++ ending ∧ IsTypeText opening name ending := by
  constructor
  · intro h
    unfold acceptsTypeName at h
    set cs := dropLineFeed s.toList with hcs
    have hopening : ∀ c ∈ cs.takeWhile (· == '['), c = '[' := fun c hc => by
      simpa using List.mem_takeWhile_imp hc
    dsimp only at h
    split at h
    · cases h
    · rename_i c r heq
      rw [Bool.and_eq_true] at h
      refine ⟨cs.takeWhile (· == '['), c :: r.takeWhile isNameChar, r.dropWhile isNameChar, ?_,
        hopening, ?_, h.2⟩
      · rw [List.append_assoc, List.cons_append, List.takeWhile_append_dropWhile, ← heq,
          List.takeWhile_append_dropWhile]
      · simp [isGraphQLNameChars, h.1]
  · rintro ⟨opening, name, ending, heq, h⟩
    have hdrop := h.dropWhile_eq
    obtain ⟨c, r, rfl, hc, hr⟩ := exists_cons_of_isGraphQLNameChars h.named
    have hending : ending.dropWhile isNameChar = ending := by
      cases ending with
      | nil => rfl
      | cons d t =>
        refine List.dropWhile_cons_of_neg ?_
        rcases eq_of_mem_isTypeEnd h.ends (List.mem_cons_self ..) with rfl | rfl <;> decide
    unfold acceptsTypeName
    rw [heq, hdrop]
    show (isNameStart c && isTypeEnd ((r ++ ending).dropWhile isNameChar)) = true
    rw [List.dropWhile_append_of_pos (by simpa using hr), hending, hc, h.ends]
    rfl

/-! ### The text of a reference -/

theorem text_leaf (k : Kind) (n : Option String) : (TypeRef.leaf k n).text = n.getD "" := rfl

/-- The text of a reference is the text of a type that closes as many brackets as it opens; an
exclamation mark may follow where null is not excluded yet. -/
theorem exists_isTypeText {r : TypeRef} (h : r.isWritten = true) :
    ∃ opening name ending, r.text.toList = opening ++ name ++ ending ∧
      IsTypeText opening name ending ∧ ending.count ']' = opening.length ∧
      (r.kind ≠ .nonNull → isTypeEnd (ending ++ ['!']) = true) := by
  induction r with
  | leaf k n =>
    simp only [TypeRef.isWritten, Bool.and_eq_true] at h
    refine ⟨[], (n.getD "").toList, [], by simp [text_leaf], ⟨by simp, h.2, rfl⟩, rfl, fun _ => rfl⟩
  | around k n inner ih =>
    cases k with
    | list =>
      obtain ⟨opening, name, ending, heq, ht, hn, -⟩ := ih h
      have hclose : isTypeEnd (ending ++ [']']) = true := isTypeEnd_append ht.ends rfl
      refine ⟨'[' :: opening, name, ending ++ [']'], ?_, ⟨?_, ht.named, hclose⟩, ?_, fun _ => ?_⟩
      · simp [TypeRef.text, heq]
      · simpa using ht.opens
      · simp [hn]
      · rw [List.append_assoc]
        exact isTypeEnd_append ht.ends rfl
    | nonNull =>
      simp only [TypeRef.isWritten, Bool.and_eq_true, bne_iff_ne, ne_eq] at h
      obtain ⟨opening, name, ending, heq, ht, hn, hmark⟩ := ih h.2
      refine ⟨opening, name, ending ++ ['!'], ?_, ⟨ht.opens, ht.named, hmark h.1⟩, ?_, ?_⟩
      · simp [TypeRef.text, heq]
      · simp [hn]
      · intro hk
        exact absurd rfl hk
    | _ => cases h

/-- Closing brackets are closed around a reference. -/
theorem exists_isWritten_around {ending : List Char} (h : isClosing ending = true) {r : TypeRef}
    (hr : r.isWritten = true) : ∃ r' : TypeRef, r'.isWritten = true ∧
      r'.text.toList = List.replicate (ending.count ']') '[' ++ r.text.toList ++ ending := by
  fun_induction isClosing ending generalizing r with
  | case1 => exact ⟨r, hr, by simp⟩
  | case2 t ih =>
    obtain ⟨r', hr', heq⟩ := ih h (r := .around .nonNull none (.around .list none r)) hr
    refine ⟨r', hr', ?_⟩
    simp [heq, TypeRef.text, List.replicate_succ']
  | case3 t _ ih =>
    obtain ⟨r', hr', heq⟩ := ih h (r := .around .list none r) hr
    refine ⟨r', hr', ?_⟩
    simp [heq, TypeRef.text, List.replicate_succ']
  | case4 => cases h

/-- The text of a type that closes as many brackets as it opens is the text of a reference. -/
theorem IsTypeText.exists_isWritten (h : IsTypeText opening name ending) :
    ∃ r : TypeRef, r.isWritten = true ∧
      r.text.toList = List.replicate (ending.count ']') '[' ++ name ++ ending := by
  have hleaf : (TypeRef.leaf .scalar (some (String.ofList name))).isWritten = true := by
    simp [TypeRef.isWritten, Kind.wraps, isGraphQLName, h.named]
  have hends := h.ends
  unfold isTypeEnd at hends
  split at hends
  · obtain ⟨r, hr, heq⟩ := exists_isWritten_around hends
      (r := .around .nonNull none (.leaf .scalar (some (String.ofList name)))) hleaf
    exact ⟨r, hr, by simp [heq, TypeRef.text]⟩
  · obtain ⟨r, hr, heq⟩ := exists_isWritten_around hends hleaf
    exact ⟨r, hr, by simp [heq, TypeRef.text]⟩

/-! ### Parameters -/

variable {s : String}

theorem dropLineFeed_of_getLast? {cs : List Char} (h : cs.getLast? ≠ some '\n') :
    dropLineFeed cs = cs :=
  if_neg (by simpa using h)

/-- Accepted are the texts of references, but for how many brackets stand in front and for a line
feed at the end. -/
theorem acceptsTypeName_iff_exists_isWritten : acceptsTypeName s = true ↔
    ∃ r : TypeRef, r.isWritten = true ∧
      (dropLineFeed s.toList).dropWhile (· == '[') = r.text.toList.dropWhile (· == '[') := by
  constructor
  · intro h
    obtain ⟨opening, name, ending, heq, ht⟩ := (acceptsTypeName_iff s).mp h
    obtain ⟨r, hr, htext⟩ := ht.exists_isWritten
    refine ⟨r, hr, ?_⟩
    have ht' : IsTypeText (List.replicate (ending.count ']') '[') name ending :=
      ⟨fun c hc => List.eq_of_mem_replicate hc, ht.named, ht.ends⟩
    rw [heq, htext, ht.dropWhile_eq, ht'.dropWhile_eq]
  · rintro ⟨r, hr, hdrop⟩
    obtain ⟨opening, name, ending, heq, ht, -⟩ := exists_isTypeText hr
    rw [heq, ht.dropWhile_eq] at hdrop
    set cs := dropLineFeed s.toList with hcs
    refine (acceptsTypeName_iff s).mpr ⟨cs.takeWhile (· == '['), name, ending, ?_, ?_, ht.named,
      ht.ends⟩
    · rw [List.append_assoc, ← hdrop, List.takeWhile_append_dropWhile]
    · intro c hc
      simpa using List.mem_takeWhile_imp hc

/-- The texts of references are accepted, and told from the other texts that are by their brackets
and by their last character. -/
theorem exists_isWritten_iff : (∃ r : TypeRef, r.isWritten = true ∧ r.text = s) ↔
    acceptsTypeName s = true ∧ s.toList.count '[' = s.toList.count ']' ∧
      s.toList.getLast? ≠ some '\n' := by
  constructor
  · rintro ⟨r, hr, rfl⟩
    obtain ⟨opening, name, ending, heq, ht, hn, -⟩ := exists_isTypeText hr
    have hlast : r.text.toList.getLast? ≠ some '\n' := by
      rw [heq]
      intro hl
      exact ht.not_mem (by decide) (by decide) (List.mem_of_getLast? hl)
    refine ⟨(acceptsTypeName_iff _).mpr ⟨opening, name, ending, ?_, ht⟩, ?_, hlast⟩
    · rw [dropLineFeed_of_getLast? hlast, heq]
    · rw [heq, ht.count_eq.1, ht.count_eq.2, hn]
  · rintro ⟨h, hcount, hlast⟩
    obtain ⟨opening, name, ending, heq, ht⟩ := (acceptsTypeName_iff s).mp h
    rw [dropLineFeed_of_getLast? hlast] at heq
    obtain ⟨r, hr, htext⟩ := ht.exists_isWritten
    refine ⟨r, hr, String.toList_inj.mp ?_⟩
    have hopening : opening = List.replicate (ending.count ']') '[' := by
      rw [heq, ht.count_eq.1, ht.count_eq.2] at hcount
      exact List.eq_replicate_iff.mpr ⟨hcount, ht.opens⟩
    rw [htext, heq, ← hopening]

theorem makeParameter_of_accepted {n : Option String} {v : Value}
    (hn : ∀ t ∈ n, acceptsName t = true) :
    makeParameter n (some s) v = if acceptsTypeName s then .ok (.parameter ⟨n, some s, none⟩ v)
      else .error (.invalidTypeName s) := by
  cases n with
  | none => by_cases hs : acceptsTypeName s = true <;> simp [makeParameter, hs] <;> rfl
  | some t =>
    have ht : checkName "parameter name" t = .ok t := if_pos (hn t rfl)
    by_cases hs : acceptsTypeName s = true <;> simp [makeParameter, ht, hs] <;> rfl

/-- Where its name is none or is accepted, a parameter takes the text of each reference to a type as
its type. It takes another text exactly where that is the text of a reference but for how many
brackets stand in front and for one line feed at the end, so a text with as many opening as closing
brackets and no line feed at the end is taken exactly where it is the text of a reference; every
text that is not taken is refused as no type. -/
theorem parameter_types_are_references {n : Option String} (v : Value)
    (hn : ∀ t ∈ n, acceptsName t = true) (s : String) :
    (makeParameter n (some s) v = .ok (.parameter ⟨n, some s, none⟩ v) ↔
      ∃ r : TypeRef, r.isWritten = true ∧
        (dropLineFeed s.toList).dropWhile (· == '[') = r.text.toList.dropWhile (· == '[')) ∧
    ((∃ r : TypeRef, r.isWritten = true ∧ r.text = s) ↔
      makeParameter n (some s) v = .ok (.parameter ⟨n, some s, none⟩ v) ∧
        s.toList.count '[' = s.toList.count ']' ∧ s.toList.getLast? ≠ some '\n') ∧
    (makeParameter n (some s) v ≠ .ok (.parameter ⟨n, some s, none⟩ v) →
      makeParameter n (some s) v = .error (.invalidTypeName s)) := by
  have haccept : makeParameter n (some s) v = .ok (.parameter ⟨n, some s, none⟩ v) ↔
      acceptsTypeName s = true := by
    rw [makeParameter_of_accepted hn]
    by_cases hs : acceptsTypeName s = true <;> simp [hs]
  refine ⟨haccept.trans acceptsTypeName_iff_exists_isWritten, ?_, ?_⟩
  · rw [haccept]
    exact exists_isWritten_iff
  · rw [Ne, haccept, makeParameter_of_accepted hn]
    intro hs
    exact if_neg hs

/-- A list of identifiers without null. -/
theorem parameter_types_are_references_identifiers :
    (∀ t ∈ some "ids", acceptsName t = true) ∧
      makeParameter (some "ids") (some "[ID!]!") .null =
        .ok (.parameter ⟨some "ids", some "[ID!]!", none⟩ .null) := by
  have hn : ∀ t ∈ some "ids", acceptsName t = true := by
    intro t ht
    cases ht
    decide +kernel
  refine ⟨hn, ((parameter_types_are_references .null hn "[ID!]!").2.1.mp ?_).1⟩
  exact ⟨.around .nonNull none (.around .list none (.around .nonNull none (.leaf .scalar "ID"))),
    by decide +kernel, by decide +kernel⟩

/-- The brackets of a type that is taken need not pair up. -/
example : (makeParameter (some "x") (some "[Int") .null).isOk = true ∧
    (makeParameter (some "x") (some "Int]]\n") .null).isOk = true := by
  decide +kernel

end Bindery.Query
