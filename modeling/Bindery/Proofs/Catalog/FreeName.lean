import Bindery.Catalog.Naming
import Bindery.Proofs.Label.Unique

/-!
# Class names that collide with nothing

The attempts at a class name differ from each other, and each obstacle stops at most one of them in
each of the ways in which a name can collide. So there is an attempt that collides with nothing, and
the search finds it.

## What is proved

* `attemptName_injective` — no class name is tried twice.
* `exists_free` — one of the rounds tries a class name that collides with nothing.
* `collides_freeName` — the class name that is found collides with nothing.
* `freeName_ne_empty` — a class name that is found in place of another is not empty.
-/

namespace Bindery.Catalog

open Bindery.Label

theorem fullName_injective (c : Configuration) (suffix : String) :
    Function.Injective (c.fullName · suffix) := by
  intro a b h
  simpa [Configuration.fullName] using h

/-- The names of a class and of its builder differ. -/
theorem fullName_ne_builder (c : Configuration) (name : String) :
    c.fullName name "" ≠ c.fullName name builderSuffix := by
  intro h
  have hlength := congrArg String.length h
  simp [Configuration.fullName, builderSuffix] at hlength

theorem isNat_collisionWord (candidate : String) (isInput : Bool) :
    (collisionWord candidate isInput).isNat = false := by
  rw [collisionWord]
  split_ifs <;> cbv

theorem collisionWord_ne_empty (candidate : String) (isInput : Bool) :
    collisionWord candidate isInput ≠ "" := by
  rw [collisionWord]
  split_ifs <;> decide

/-- The word of the first collision is no number. -/
theorem collisionWord_ne_toString (candidate : String) (isInput : Bool) (n : Nat) :
    collisionWord candidate isInput ≠ toString n := by
  intro h
  have hword := isNat_collisionWord candidate isInput
  rw [h, Nat.toString_eq_repr, Nat.isNat_repr] at hword
  cases hword

/-- What an attempt puts behind the candidate. -/
def attemptEnding (candidate : String) (isInput : Bool) : Nat → String
  | 0 => ""
  | 1 => collisionWord candidate isInput
  | n => toString n

theorem attemptName_eq (candidate : String) (isInput : Bool) :
    ∀ n, attemptName candidate isInput n = candidate ++ attemptEnding candidate isInput n
  | 0 => String.append_empty.symm
  | 1 => rfl
  | _ + 2 => rfl

theorem toString_ne_empty (n : Nat) : toString n ≠ "" := by
  rw [Nat.toString_eq_repr]
  exact Nat.repr_ne_empty

theorem attemptEnding_injective (candidate : String) (isInput : Bool) :
    Function.Injective (attemptEnding candidate isInput) := by
  intro m n h
  match m, n with
  | 0, 0 => rfl
  | 0, 1 => exact absurd h.symm (collisionWord_ne_empty candidate isInput)
  | 0, n + 2 => exact absurd h.symm (toString_ne_empty (n + 2))
  | 1, 0 => exact absurd h (collisionWord_ne_empty candidate isInput)
  | 1, 1 => rfl
  | 1, n + 2 => exact absurd h (collisionWord_ne_toString candidate isInput (n + 2))
  | m + 2, 0 => exact absurd h (toString_ne_empty (m + 2))
  | m + 2, 1 => exact absurd h.symm (collisionWord_ne_toString candidate isInput (m + 2))
  | m + 2, n + 2 => exact Nat.repr_inj.mp h

/-- No class name is tried twice. -/
theorem attemptName_injective (candidate : String) (isInput : Bool) :
    Function.Injective (attemptName candidate isInput) := by
  intro m n h
  rw [attemptName_eq, attemptName_eq, String.append_right_inj] at h
  exact attemptEnding_injective candidate isInput h

/-- An attempt other than the first is not empty. -/
theorem attemptName_ne_empty {candidate : String} {isInput : Bool} {n : Nat}
    (h : attemptName candidate isInput n ≠ candidate) : attemptName candidate isInput n ≠ "" := by
  rw [attemptName_eq] at h ⊢
  intro hempty
  obtain ⟨rfl, hending⟩ := String.append_eq_empty_iff.mp hempty
  exact h (by rw [hending, String.append_empty])

namespace Obstacles

variable {o : Obstacles} {c : Configuration} {hasBuilder : Bool} {candidate name : String}

theorem collides_eq_true : o.collides c hasBuilder candidate name = true ↔
    c.fullName name "" ∈ o.members ∨
      (∃ n ∈ takenBy c hasBuilder name, n ∈ o.assigned ∨ n ∈ boundNames) ∨
      name ≠ candidate ∧ name ∈ o.natural := by
  simp [collides, or_assoc]

/-- A class name that collides with nothing is that of no member, and what it takes is neither
assigned nor bound. -/
theorem of_not_collides (h : o.collides c hasBuilder candidate name = false) :
    c.fullName name "" ∉ o.members ∧
      ∀ n ∈ takenBy c hasBuilder name, n ∉ o.assigned ∧ n ∉ boundNames := by
  have hnot := mt collides_eq_true.mpr (Bool.eq_false_iff.mp h)
  exact ⟨fun hm => hnot (.inl hm), fun n hn =>
    ⟨fun ha => hnot (.inr (.inl ⟨n, hn, .inl ha⟩)), fun hb => hnot (.inr (.inl ⟨n, hn, .inr hb⟩))⟩⟩

/-- The ways in which an attempt can collide, each with its obstacles. -/
def ways (o : Obstacles) (c : Configuration) (candidate : String) (isInput : Bool) :
    List ((Nat → String) × List String) :=
  [(fun n => c.fullName (attemptName candidate isInput n) "",
      o.members ++ (o.assigned ++ boundNames)),
    (fun n => c.fullName (attemptName candidate isInput n) builderSuffix,
      o.assigned ++ boundNames),
    (attemptName candidate isInput, o.natural)]

theorem ways_injective (o : Obstacles) (c : Configuration) (candidate : String) (isInput : Bool) :
    ∀ w ∈ o.ways c candidate isInput, Function.Injective w.1 := by
  have hattempt := attemptName_injective candidate isInput
  intro w hw
  simp only [ways, List.mem_cons, List.not_mem_nil, or_false] at hw
  rcases hw with rfl | rfl | rfl
  · exact (fullName_injective c "").comp hattempt
  · exact (fullName_injective c builderSuffix).comp hattempt
  · exact hattempt

/-- An attempt that collides does so in one of the ways. -/
theorem exists_way {isInput : Bool} {n : Nat}
    (h : o.collides c hasBuilder candidate (attemptName candidate isInput n) = true) :
    ∃ w ∈ o.ways c candidate isInput, w.1 n ∈ w.2 := by
  simp only [ways, List.mem_cons, List.not_mem_nil, or_false, exists_eq_or_imp, exists_eq_left,
    List.mem_append]
  rcases collides_eq_true.mp h with hm | ⟨x, hx, hbound⟩ | ⟨-, hnatural⟩
  · exact .inl (.inl hm)
  · rw [takenBy] at hx
    rcases List.mem_cons.mp hx with rfl | hx
    · exact .inl (.inr hbound)
    · cases hasBuilder with
      | false => cases hx
      | true =>
        rw [List.mem_singleton.mp hx] at hbound
        exact .inr (.inl hbound)
  · exact .inr (.inr hnatural)

/-- One of the rounds tries a class name that collides with nothing. -/
theorem exists_free (o : Obstacles) (c : Configuration) (hasBuilder isInput : Bool)
    (candidate : String) :
    ∃ n < o.rounds, o.collides c hasBuilder candidate (attemptName candidate isInput n) = false := by
  by_contra! hall
  have hle := length_le_of_ways (List.nodup_range (n := o.rounds))
    (o.ways_injective c candidate isInput) fun n hn =>
      exists_way (eq_true_of_ne_false (hall n (List.mem_range.mp hn)))
  simp only [ways, List.length_range, rounds, List.map_cons, List.map_nil, List.sum_cons,
    List.sum_nil, List.length_append] at hle
  omega

/-- The class name that is found collides with nothing. -/
theorem collides_freeName (o : Obstacles) (c : Configuration) (hasBuilder isInput : Bool)
    (candidate : String) :
    o.collides c hasBuilder candidate (o.freeName c hasBuilder isInput candidate) = false := by
  obtain ⟨n, hn, hfree⟩ := o.exists_free c hasBuilder isInput candidate
  have hok := ok_searchFrom
    (fun n => !o.collides c hasBuilder candidate (attemptName candidate isInput n))
    (Nat.zero_le n) (by omega : n ≤ 0 + o.rounds) (by rw [hfree]; rfl)
  rwa [Bool.not_eq_true'] at hok

/-- A class name that is found in place of the candidate is not empty. -/
theorem freeName_ne_empty {isInput : Bool}
    (h : o.freeName c hasBuilder isInput candidate ≠ candidate) :
    o.freeName c hasBuilder isInput candidate ≠ "" :=
  attemptName_ne_empty h

end Obstacles

end Bindery.Catalog
