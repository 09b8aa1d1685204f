import Bindery.Text.Blank
import Mathlib.Data.List.DropRight

/-!
# Trimmed texts

What trimming makes of a text in pieces. Blanks at either end change nothing, and a character that
is no blank keeps what stands between it and the blanks at the ends.

## What is proved

* `trimBlanks_surrounded` — blanks around a text are trimmed, whatever is trimmed of the text itself.
* `trimBlanks_append_cons` — trimming at a character that is no blank.
* `isEmpty_trim` — a text of which nothing is left.
-/

namespace Bindery.Text

variable {cs ds before after : List Char} {c : Char}

/-- The characters are blanks. -/
def AllBlank (cs : List Char) : Prop :=
  ∀ c ∈ cs, isBlank c = true

instance (cs : List Char) : Decidable (AllBlank cs) :=
  decidable_of_iff (cs.all isBlank = true) List.all_eq_true

theorem dropBlankEnd_eq (cs : List Char) : dropBlankEnd cs = cs.rdropWhile isBlank := rfl

theorem dropBlankEnd_append (h : AllBlank after) (cs : List Char) :
    dropBlankEnd (cs ++ after) = dropBlankEnd cs := by
  rw [dropBlankEnd, List.reverse_append, List.dropWhile_append_of_pos]
  · rfl
  · intro c hc
    exact h c (List.mem_reverse.mp hc)

theorem dropBlankEnd_append_cons (h : isBlank c = false) (cs ds : List Char) :
    dropBlankEnd (cs ++ c :: ds) = cs ++ c :: dropBlankEnd ds := by
  rw [dropBlankEnd, List.reverse_append, List.reverse_cons, List.append_assoc, List.dropWhile_append]
  cases hds : ds.reverse.dropWhile isBlank <;> simp [dropBlankEnd, hds, h]

/-- At the end of a text that is trimmed at its end there were blanks. -/
theorem exists_dropBlankEnd (cs : List Char) :
    ∃ after, AllBlank after ∧ cs = dropBlankEnd cs ++ after := by
  refine ⟨cs.rtakeWhile isBlank, fun c => List.mem_rtakeWhile_imp, ?_⟩
  exact List.rdropWhile_append_rtakeWhile.symm

theorem trimBlanks_eq_nil_iff : trimBlanks cs = [] ↔ AllBlank cs := by
  rw [trimBlanks, dropBlankEnd_eq, List.rdropWhile_eq_nil_iff]
  constructor
  · intro h c hc
    rw [← List.takeWhile_append_dropWhile (p := isBlank) (l := cs), List.mem_append] at hc
    exact hc.elim List.mem_takeWhile_imp (h c)
  · exact fun h c hc => h c ((List.dropWhile_sublist isBlank).subset hc)

/-- Blanks at the end change nothing. -/
theorem trimBlanks_append (h : AllBlank after) (cs : List Char) :
    trimBlanks (cs ++ after) = trimBlanks cs := by
  rw [trimBlanks, trimBlanks, List.dropWhile_append]
  split_ifs with hempty
  · rw [List.isEmpty_iff.mp hempty, List.dropWhile_eq_nil_iff.mpr h]
  · exact dropBlankEnd_append h _

theorem trimBlanks_surrounded (hbefore : AllBlank before) (hafter : AllBlank after)
    (cs : List Char) : trimBlanks (before ++ cs ++ after) = trimBlanks cs := by
  rw [trimBlanks_append hafter, trimBlanks, List.dropWhile_append_of_pos hbefore, trimBlanks]

theorem trimBlanks_append_cons (h : isBlank c = false) (cs ds : List Char) :
    trimBlanks (cs ++ c :: ds) = cs.dropWhile isBlank ++ c :: dropBlankEnd ds := by
  rw [trimBlanks, List.dropWhile_append]
  split_ifs with hempty
  · rw [List.isEmpty_iff.mp hempty, List.dropWhile_cons_of_neg (by simp [h])]
    exact dropBlankEnd_append_cons h [] ds
  · exact dropBlankEnd_append_cons h _ ds

theorem trimBlanks_dropWhile (cs : List Char) :
    trimBlanks (cs.dropWhile isBlank) = trimBlanks cs := by
  rw [trimBlanks, List.dropWhile_idempotent, trimBlanks]

theorem trimBlanks_dropBlankEnd (cs : List Char) : trimBlanks (dropBlankEnd cs) = trimBlanks cs := by
  obtain ⟨after, hafter, heq⟩ := exists_dropBlankEnd cs
  conv_rhs => rw [heq]
  exact (trimBlanks_append hafter _).symm

theorem isEmpty_trim (s : String) : (trim s).isEmpty = isBlankText s := by
  rw [Bool.eq_iff_iff, String.isEmpty_iff, trim, ← String.toList_inj, String.toList_ofList, isBlankText,
    List.all_eq_true]
  exact trimBlanks_eq_nil_iff

end Bindery.Text
