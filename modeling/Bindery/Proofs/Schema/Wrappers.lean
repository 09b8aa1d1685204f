import Bindery.Proofs.Lexical.Word
import Bindery.Schema.Basic
import Mathlib.Data.List.TakeWhile

/-!
# Wrappers

A reference to a type puts lists and exclusions of null around a name. In its text each list opens a
bracket in front of the name, and each wrapper, from the inside out, leaves one sign behind it: a
bracket that closes or an exclamation mark. So the signs alone tell the wrappers, however many
exclusions of null follow one another, and the brackets in front of the name tell nothing more.

## What is proved

* `toList_text` — the text is the brackets that open, the name and the signs of the wrappers.
* `readWrapped_text` — where the name is one, the wrappers and the name are read back from the text.
* `text_eq_iff_wrappers_eq` — then two references have the same text exactly if they have the same
  wrappers around the same name.
-/

namespace Bindery.Schema

open Bindery.Text
open Bindery.Definition (exists_cons_of_isGraphQLNameChars isNameChar_of_mem_name ne_of_isNameStart)

variable {r r₁ r₂ : TypeRef} {k : Kind}

/-! ### Signs -/

/-- The sign that a wrapper leaves behind the text of what it stands around. -/
def Kind.closing? : Kind → Option Char
  | .list => some ']'
  | .nonNull => some '!'
  | _ => none

/-- The wrapper that a sign tells. -/
def Kind.ofClosing? : Char → Option Kind
  | ']' => some .list
  | '!' => some .nonNull
  | _ => none

theorem ofClosing?_closing? (h : k.wraps = true) : k.closing?.bind Kind.ofClosing? = some k := by
  cases k with
  | list | nonNull => rfl
  | _ => cases h

theorem not_isNameChar_of_closing? {c : Char} (h : k.closing? = some c) : isNameChar c = false := by
  cases k with
  | list | nonNull =>
    cases h
    decide
  | _ => cases h

/-! ### The text of a reference -/

/-- The wrappers of a reference from the outside in. -/
def TypeRef.wrappers : TypeRef → List Kind
  | .leaf _ _ => []
  | .around k _ inner => if k.wraps then k :: inner.wrappers else []

/-- The signs behind the name of a reference: those of its wrappers from the inside out. -/
def TypeRef.signs (r : TypeRef) : List Char :=
  r.wrappers.reverse.filterMap Kind.closing?

theorem wraps_of_mem_wrappers (h : k ∈ r.wrappers) : k.wraps = true := by
  induction r with
  | leaf => cases h
  | around kind n inner ih =>
    rw [TypeRef.wrappers] at h
    split_ifs at h with hwraps
    · rcases List.mem_cons.mp h with rfl | h
      · exact hwraps
      · exact ih h
    · cases h

theorem signs_list (n : Option String) (inner : TypeRef) :
    (TypeRef.around .list n inner).signs = inner.signs ++ [']'] := by
  simp [TypeRef.signs, TypeRef.wrappers, Kind.wraps, Kind.closing?]

theorem signs_nonNull (n : Option String) (inner : TypeRef) :
    (TypeRef.around .nonNull n inner).signs = inner.signs ++ ['!'] := by
  simp [TypeRef.signs, TypeRef.wrappers, Kind.wraps, Kind.closing?]

/-- The text of a reference is a bracket for each list, the name and a sign for each wrapper. -/
theorem toList_text (r : TypeRef) : r.text.toList =
    List.replicate (r.wrappers.count .list) '[' ++ (r.innermost.nameOrEmpty.toList ++ r.signs) := by
  induction r with
  | leaf k n =>
    simp [TypeRef.text, TypeRef.wrappers, TypeRef.signs, TypeRef.innermost, TypeRef.nameOrEmpty,
      TypeRef.name?]
  | around k n inner ih =>
    cases k with
    | list =>
      rw [signs_list]
      simp [TypeRef.text, TypeRef.wrappers, TypeRef.innermost, Kind.wraps, ih, List.replicate_succ]
    | nonNull =>
      rw [signs_nonNull]
      simp [TypeRef.text, TypeRef.wrappers, TypeRef.innermost, Kind.wraps, ih]
    | _ =>
      -- any other kind is where the wrappers end, whatever is inside
      simp [TypeRef.text, TypeRef.wrappers, TypeRef.signs, TypeRef.innermost, TypeRef.nameOrEmpty,
        TypeRef.name?, Kind.wraps]

/-! ### Reading a text back -/

/-- The wrappers that a text tells and the name inside them: behind the brackets that open come the
characters of the name, and each sign behind these tells a wrapper, the last one the outermost. -/
def readWrapped (s : String) : List Kind × String :=
  let rest := s.toList.dropWhile (· == '[')
  ((rest.dropWhile isNameChar).reverse.filterMap Kind.ofClosing?,
    String.ofList (rest.takeWhile isNameChar))

theorem wrappers_of_signs (r : TypeRef) :
    r.signs.reverse.filterMap Kind.ofClosing? = r.wrappers := by
  have hsome : ∀ k ∈ r.wrappers, k.closing?.bind Kind.ofClosing? = some k :=
    fun k hk => ofClosing?_closing? (wraps_of_mem_wrappers hk)
  rw [TypeRef.signs, ← List.filterMap_reverse, List.reverse_reverse, List.filterMap_filterMap,
    List.filterMap_congr hsome, List.filterMap_some]

theorem takeWhile_signs (r : TypeRef) : r.signs.takeWhile isNameChar = [] := by
  cases hsigns : r.signs with
  | nil => rfl
  | cons c t =>
    have hc : c ∈ r.signs := hsigns ▸ List.mem_cons_self
    obtain ⟨k, -, hk⟩ := List.mem_filterMap.mp hc
    exact List.takeWhile_cons_of_neg (by simp [not_isNameChar_of_closing? hk])

/-- Where the name is one, the wrappers and the name are read back from the text. -/
theorem readWrapped_text (h : isGraphQLName r.innermost.nameOrEmpty = true) :
    readWrapped r.text = (r.wrappers, r.innermost.nameOrEmpty) := by
  have hrest : r.text.toList.dropWhile (· == '[') = r.innermost.nameOrEmpty.toList ++ r.signs := by
    -- the name begins with no bracket, so the brackets that are dropped are those of the lists
    obtain ⟨c, t, heq, hc, -⟩ := exists_cons_of_isGraphQLNameChars h
    have hne : c ≠ '[' := ne_of_isNameStart hc (by decide)
    rw [toList_text, List.dropWhile_append_of_pos (by simp), heq, List.cons_append,
      List.dropWhile_cons_of_neg (by simpa using hne)]
  have hname : ∀ c ∈ r.innermost.nameOrEmpty.toList, isNameChar c = true :=
    fun c hc => isNameChar_of_mem_name h hc
  have hdrop : r.signs.dropWhile isNameChar = r.signs := by
    have happend := List.takeWhile_append_dropWhile (p := isNameChar) (l := r.signs)
    rwa [takeWhile_signs, List.nil_append] at happend
  rw [readWrapped, hrest, List.dropWhile_append_of_pos hname, List.takeWhile_append_of_pos hname,
    hdrop, takeWhile_signs, wrappers_of_signs, List.append_nil, String.ofList_toList]

theorem name?_of_isGraphQLName (h : isGraphQLName r.nameOrEmpty = true) :
    r.name? = some r.nameOrEmpty := by
  cases hn : r.name? with
  | none =>
    rw [TypeRef.nameOrEmpty, hn] at h
    cases h
  | some n => rw [TypeRef.nameOrEmpty, hn, Option.getD_some]

/-- **The text of a reference determines its wrappers and its name, and nothing else.** References
around names have the same text exactly if they have the same wrappers in the same order around the
same name. Null may be excluded any number of times in a row; neither the kind of the type that has
the name nor a name on a wrapper counts. -/
theorem text_eq_iff_wrappers_eq (h₁ : isGraphQLName r₁.innermost.nameOrEmpty = true)
    (h₂ : isGraphQLName r₂.innermost.nameOrEmpty = true) :
    r₁.text = r₂.text ↔
      r₁.wrappers = r₂.wrappers ∧ r₁.innermost.name? = r₂.innermost.name? := by
  constructor
  · intro htext
    have hread : (r₁.wrappers, r₁.innermost.nameOrEmpty) =
        (r₂.wrappers, r₂.innermost.nameOrEmpty) := by
      rw [← readWrapped_text h₁, ← readWrapped_text h₂, htext]
    obtain ⟨hwrappers, hname⟩ := Prod.mk.inj hread
    refine ⟨hwrappers, ?_⟩
    rw [name?_of_isGraphQLName h₁, name?_of_isGraphQLName h₂, hname]
  · rintro ⟨hwrappers, hname⟩
    refine String.toList_inj.mp ?_
    rw [toList_text, toList_text, TypeRef.signs, TypeRef.signs, hwrappers, TypeRef.nameOrEmpty,
      TypeRef.nameOrEmpty, hname]

/-- A list of users, where they are objects. -/
def userList : TypeRef :=
  .around .nonNull none (.around .list none (.around .nonNull none (.leaf .object "User")))

/-- A list of users, where they are the values of an interface and each wrapper has a name. -/
def memberList : TypeRef :=
  .around .nonNull "Some" (.around .list "All" (.around .nonNull "Some" (.leaf .interface "User")))

/-- The lists are different references with one text, so their wrappers and names are the same. -/
theorem user_lists_agree :
    isGraphQLName userList.innermost.nameOrEmpty = true ∧
      isGraphQLName memberList.innermost.nameOrEmpty = true ∧ userList ≠ memberList ∧
      userList.text = memberList.text ∧ userList.wrappers = memberList.wrappers ∧
      userList.innermost.name? = memberList.innermost.name? := by
  have huser : isGraphQLName userList.innermost.nameOrEmpty = true := by decide +kernel
  have hmember : isGraphQLName memberList.innermost.nameOrEmpty = true := by decide +kernel
  have htext : userList.text = memberList.text := by decide +kernel
  exact ⟨huser, hmember, by decide, htext, (text_eq_iff_wrappers_eq huser hmember).mp htext⟩

/-- What is no name may hold the sign of a wrapper. -/
example : (TypeRef.leaf .scalar "Int!").text =
    (TypeRef.around .nonNull none (.leaf .scalar "Int")).text := by
  decide +kernel

end Bindery.Schema
