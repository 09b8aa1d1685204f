import Bindery.Query.Literal
import Mathlib.Data.List.Forall2

/-!
# Results that may be refusals

How a result comes about that is no refusal: behind each step of a computation stands a result of
its own, and a list of results stands for the list of what they hold.
-/

namespace Bindery

variable {ε α β : Type}

theorem bind_eq_ok {x : Except ε α} {f : α → Except ε β} {b : β} :
    x >>= f = .ok b ↔ ∃ a, x = .ok a ∧ f a = .ok b := by
  cases x with
  | error e => exact ⟨nofun, nofun⟩
  | ok a =>
    refine ⟨fun h => ⟨a, rfl, h⟩, ?_⟩
    rintro ⟨_, ⟨rfl⟩, h⟩
    exact h

theorem map_eq_ok {x : Except ε α} {f : α → β} {b : β} :
    x.map f = .ok b ↔ ∃ a, x = .ok a ∧ f a = b := by
  cases x with
  | error e => exact ⟨nofun, nofun⟩
  | ok a =>
    constructor
    · rintro ⟨rfl⟩
      exact ⟨a, rfl, rfl⟩
    · rintro ⟨_, ⟨rfl⟩, rfl⟩
      rfl

theorem exists_map_iff {x : Except ε α} {f : α → β} :
    (∃ b, x.map f = .ok b) ↔ ∃ a, x = .ok a := by
  simp only [map_eq_ok]
  exact ⟨fun ⟨_, a, ha, _⟩ => ⟨a, ha⟩, fun ⟨a, ha⟩ => ⟨f a, a, ha, rfl⟩⟩

theorem pure_eq_ok {a b : α} : (pure a : Except ε α) = .ok b ↔ a = b :=
  ⟨fun h => by cases h; rfl, fun h => by rw [h]; rfl⟩

theorem discard_eq_ok {x : Except ε α} {u : Unit} : discard x = .ok u ↔ ∃ a, x = .ok a := by
  cases x with
  | error e => exact ⟨nofun, nofun⟩
  | ok a => exact ⟨fun _ => ⟨a, rfl⟩, fun _ => rfl⟩

theorem mapM_cons_eq_ok {f : α → Except ε β} {x : α} {xs : List α} {ys : List β} :
    (x :: xs).mapM f = .ok ys ↔ ∃ y r, f x = .ok y ∧ xs.mapM f = .ok r ∧ ys = y :: r := by
  rw [List.mapM_cons]
  simp only [bind_eq_ok, pure_eq_ok]
  constructor
  · rintro ⟨y, hy, r, hr, rfl⟩
    exact ⟨y, r, hy, hr, rfl⟩
  · rintro ⟨y, r, hy, hr, rfl⟩
    exact ⟨y, hy, r, hr, rfl⟩

/-- Where each item has a result, all have. -/
theorem exists_mapM {f : α → Except ε β} {xs : List α} (h : ∀ x ∈ xs, ∃ y, f x = .ok y) :
    ∃ ys, xs.mapM f = .ok ys := by
  induction xs with
  | nil => exact ⟨[], rfl⟩
  | cons x xs ih =>
    rw [List.forall_mem_cons] at h
    obtain ⟨y, hy⟩ := h.1
    obtain ⟨ys, hys⟩ := ih h.2
    exact ⟨y :: ys, mapM_cons_eq_ok.mpr ⟨y, ys, hy, hys, rfl⟩⟩

/-- Items in another order have their results in another order. -/
theorem mapM_perm {f : α → Except ε β} {xs xs' : List α} {ys : List β} (hperm : xs.Perm xs')
    (h : xs.mapM f = .ok ys) : ∃ ys', xs'.mapM f = .ok ys' ∧ ys'.Perm ys := by
  induction hperm generalizing ys with
  | nil => exact ⟨ys, h, .refl ys⟩
  | cons x _ ih =>
    obtain ⟨y, r, hy, hr, rfl⟩ := mapM_cons_eq_ok.mp h
    obtain ⟨r', hr', hperm⟩ := ih hr
    exact ⟨y :: r', mapM_cons_eq_ok.mpr ⟨y, r', hy, hr', rfl⟩, hperm.cons y⟩
  | swap x x' xs =>
    obtain ⟨y', rest, hy', hrest, rfl⟩ := mapM_cons_eq_ok.mp h
    obtain ⟨y, r, hy, hr, rfl⟩ := mapM_cons_eq_ok.mp hrest
    have hswapped := mapM_cons_eq_ok.mpr ⟨y', r, hy', hr, rfl⟩
    exact ⟨y :: y' :: r, mapM_cons_eq_ok.mpr ⟨y, _, hy, hswapped, rfl⟩, .swap y' y r⟩
  | trans _ _ ih ih' =>
    obtain ⟨ys₁, h₁, hperm₁⟩ := ih h
    obtain ⟨ys₂, h₂, hperm₂⟩ := ih' h₁
    exact ⟨ys₂, h₂, hperm₂.trans hperm₁⟩

/-- Each item has its result among the results for all. -/
theorem exists_of_mem_mapM {f : α → Except ε β} {x : α} {xs : List α} {ys : List β}
    (h : xs.mapM f = .ok ys) (hx : x ∈ xs) : ∃ y ∈ ys, f x = .ok y := by
  induction xs generalizing ys with
  | nil => cases hx
  | cons z xs ih =>
    obtain ⟨y, r, hy, hr, rfl⟩ := mapM_cons_eq_ok.mp h
    rcases List.mem_cons.mp hx with rfl | hx
    · exact ⟨y, List.mem_cons_self, hy⟩
    · obtain ⟨w, hw, hfw⟩ := ih hr hx
      exact ⟨w, List.mem_cons_of_mem _ hw, hfw⟩

/-- Each of the results for all items is that of one of them. -/
theorem exists_of_mapM {f : α → Except ε β} {y : β} {xs : List α} {ys : List β}
    (h : xs.mapM f = .ok ys) (hy : y ∈ ys) : ∃ x ∈ xs, f x = .ok y := by
  induction xs generalizing ys with
  | nil =>
    rw [← pure_eq_ok.mp h] at hy
    cases hy
  | cons x xs ih =>
    obtain ⟨z, r, hz, hr, rfl⟩ := mapM_cons_eq_ok.mp h
    rcases List.mem_cons.mp hy with rfl | hy
    · exact ⟨x, List.mem_cons_self, hz⟩
    · obtain ⟨w, hw, hfw⟩ := ih hr hy
      exact ⟨w, List.mem_cons_of_mem _ hw, hfw⟩

/-- The result behind some items is that of an item of its own, and so are those before it. -/
theorem exists_of_mapM_append {f : α → Except ε β} {xs : List α} {ys zs : List β} {y : β}
    (h : xs.mapM f = .ok (ys ++ y :: zs)) :
    ∃ before x after, xs = before ++ x :: after ∧ before.mapM f = .ok ys ∧ f x = .ok y := by
  induction ys generalizing xs with
  | nil =>
    cases xs with
    | nil => cases pure_eq_ok.mp h
    | cons x xs =>
      obtain ⟨_, _, hx, -, heq⟩ := mapM_cons_eq_ok.mp h
      obtain ⟨rfl, -⟩ := List.cons.inj heq
      exact ⟨[], x, xs, rfl, rfl, hx⟩
  | cons w ys ih =>
    cases xs with
    | nil => cases pure_eq_ok.mp h
    | cons x xs =>
      obtain ⟨_, _, hx, hr, heq⟩ := mapM_cons_eq_ok.mp h
      obtain ⟨rfl, rfl⟩ := List.cons.inj heq
      obtain ⟨before, z, after, rfl, hbefore, hz⟩ := ih hr
      exact ⟨x :: before, z, after, rfl, mapM_cons_eq_ok.mpr ⟨_, _, hx, hbefore, rfl⟩, hz⟩

/-- Where steps one after the other are refused, one of them is. -/
theorem exists_step_of_foldlM {f : β → α → Except ε β} {xs : List α} {b : β} {e : ε}
    (h : xs.foldlM f b = .error e) : ∃ before x after b', xs = before ++ x :: after ∧
      before.foldlM f b = .ok b' ∧ f b' x = .error e := by
  induction xs generalizing b with
  | nil => cases h
  | cons x xs ih =>
    rw [List.foldlM_cons] at h
    cases hx : f b x with
    | error e' =>
      rw [hx] at h
      cases h
      exact ⟨[], x, xs, b, rfl, rfl, hx⟩
    | ok b₁ =>
      rw [hx] at h
      obtain ⟨before, z, after, b', rfl, hbefore, hz⟩ := ih h
      exact ⟨x :: before, z, after, b', rfl, bind_eq_ok.mpr ⟨b₁, hx, hbefore⟩, hz⟩

/-- Steps one after the other are not refused exactly if none of them is. -/
theorem foldlM_isOk_iff {f : β → α → Except ε β} {xs : List α} {b : β} :
    (∃ b', xs.foldlM f b = .ok b') ↔ ∀ before x after, xs = before ++ x :: after →
      ∀ b', before.foldlM f b = .ok b' → ∃ b'', f b' x = .ok b'' := by
  constructor
  · rintro ⟨b', h⟩ before x after rfl b₁ hbefore
    rw [List.foldlM_append] at h
    obtain ⟨b₂, hb₂, h⟩ := bind_eq_ok.mp h
    cases hbefore.symm.trans hb₂
    rw [List.foldlM_cons] at h
    obtain ⟨b₃, hstep, -⟩ := bind_eq_ok.mp h
    exact ⟨b₃, hstep⟩
  · intro h
    cases hrun : xs.foldlM f b with
    | ok b' => exact ⟨b', rfl⟩
    | error e =>
      obtain ⟨before, x, after, b', hxs, hbefore, hstep⟩ := exists_step_of_foldlM hrun
      obtain ⟨b'', hok⟩ := h before x after hxs b' hbefore
      rw [hstep] at hok
      cases hok

/-- Where no step is refused, there is a result. -/
theorem exists_foldlM {f : β → α → Except ε β} {xs : List α}
    (h : ∀ b, ∀ x ∈ xs, ∃ b', f b x = .ok b') (b : β) : ∃ b', xs.foldlM f b = .ok b' :=
  foldlM_isOk_iff.mpr fun _ x _ hxs b' _ => h b' x (by simp [hxs])

/-- What each step keeps, all steps keep. -/
theorem keeps_of_foldlM {f : β → α → Except ε β} {P : β → Prop} {xs : List α} {b b' : β}
    (hf : ∀ {b b' x}, f b x = .ok b' → P b → P b') (hb : P b) (h : xs.foldlM f b = .ok b') :
    P b' := by
  induction xs generalizing b with
  | nil =>
    rw [← pure_eq_ok.mp h]
    exact hb
  | cons x xs ih =>
    rw [List.foldlM_cons] at h
    obtain ⟨b₁, hstep, hrest⟩ := bind_eq_ok.mp h
    exact ih (hf hstep hb) hrest

/-- Steps that are refused or not whatever was before them are not refused exactly if no item makes
one refused. -/
theorem exists_foldlM_iff {f : β → α → Except ε β} {P : α → Prop} {xs : List α} {b : β}
    (h : ∀ b x, (∃ b', f b x = .ok b') ↔ P x) :
    (∃ b', xs.foldlM f b = .ok b') ↔ ∀ x ∈ xs, P x := by
  induction xs generalizing b with
  | nil => exact ⟨fun _ => nofun, fun _ => ⟨b, rfl⟩⟩
  | cons x xs ih =>
    rw [List.forall_mem_cons, ← h b x, List.foldlM_cons]
    constructor
    · rintro ⟨b', hrun⟩
      obtain ⟨b₁, hstep, hrest⟩ := bind_eq_ok.mp hrun
      exact ⟨⟨b₁, hstep⟩, ih.mp ⟨b', hrest⟩⟩
    · rintro ⟨⟨b₁, hstep⟩, hrest⟩
      obtain ⟨b', hrun⟩ := ih (b := b₁).mpr hrest
      exact ⟨b', bind_eq_ok.mpr ⟨b₁, hstep, hrun⟩⟩

/-- What is known of the result for each item is known of the results for all. -/
theorem map_of_mapM {γ : Type} {f : α → Except ε β} {g : β → γ} {k : α → γ} {xs : List α}
    {ys : List β} (h : xs.mapM f = .ok ys) (hf : ∀ x y, f x = .ok y → g y = k x) :
    ys.map g = xs.map k := by
  induction xs generalizing ys with
  | nil => rw [← pure_eq_ok.mp h]; rfl
  | cons x xs ih =>
    obtain ⟨y, r, hy, hr, rfl⟩ := mapM_cons_eq_ok.mp h
    rw [List.map_cons, List.map_cons, hf x y hy, ih hr]

/-- Where a list is gone through with a state that each step changes, each of the results comes from
an item. -/
theorem exists_of_mem_collected {σ : Type} {g : List α → σ → Except ε (List β)}
    {P : α → β → Prop} (hnil : ∀ s, g [] s = .ok [])
    (hcons : ∀ x xs s ys, g (x :: xs) s = .ok ys →
      ∃ y s' r, P x y ∧ g xs s' = .ok r ∧ ys = y :: r)
    {xs : List α} {s : σ} {ys : List β} {y : β} (h : g xs s = .ok ys) (hy : y ∈ ys) :
    ∃ x ∈ xs, P x y := by
  induction xs generalizing s ys with
  | nil =>
    cases (hnil s).symm.trans h
    cases hy
  | cons x xs ih =>
    obtain ⟨z, s', r, hz, hr, rfl⟩ := hcons x xs s ys h
    rcases List.mem_cons.mp hy with rfl | hy
    · exact ⟨x, List.mem_cons_self, hz⟩
    · obtain ⟨w, hw, hwy⟩ := ih hr hy
      exact ⟨w, List.mem_cons_of_mem _ hw, hwy⟩

/-- A result that is known from its value alone. -/
theorem eq_ok_of_toOption {x : Except ε α} {a : α} (h : x.toOption = some a) : x = .ok a := by
  cases x with
  | error e => cases h
  | ok b => exact congrArg Except.ok (Option.some.inj h)

namespace Query

/-- Results in order are the list of what they hold, or the first refusal. -/
theorem inOrder_cons_eq_ok {x : Except Error α} {xs : List (Except Error α)} {as : List α} :
    inOrder (x :: xs) = .ok as ↔ ∃ a r, x = .ok a ∧ inOrder xs = .ok r ∧ as = a :: r := by
  simp only [inOrder, bind_eq_ok, Except.ok.injEq]
  constructor
  · rintro ⟨a, ha, r, hr, rfl⟩
    exact ⟨a, r, ha, hr, rfl⟩
  · rintro ⟨a, r, ha, hr, rfl⟩
    exact ⟨a, ha, r, hr, rfl⟩

/-- Each result in order is what the function gives for the item in its place. -/
theorem forall₂_of_inOrder {f : α → Except Error β} {xs : List α} {ys : List β}
    (h : inOrder (xs.map f) = .ok ys) : List.Forall₂ (fun x y => f x = .ok y) xs ys := by
  induction xs generalizing ys with
  | nil => cases h; exact .nil
  | cons x xs ih =>
    obtain ⟨y, r, hy, hr, rfl⟩ := inOrder_cons_eq_ok.mp h
    exact .cons hy (ih hr)

/-- What a function gives for a list in order satisfies what it gives for each item. -/
theorem forall_of_inOrder {f : α → Except Error β} {P : β → Prop} {xs : List α} {ys : List β}
    (h : inOrder (xs.map f) = .ok ys) (hf : ∀ x ∈ xs, ∀ y, f x = .ok y → P y) : ∀ y ∈ ys, P y := by
  induction xs generalizing ys with
  | nil => cases h; simp
  | cons x xs ih =>
    obtain ⟨y, r, hy, hr, rfl⟩ := inOrder_cons_eq_ok.mp h
    rw [List.forall_mem_cons]
    exact ⟨hf x (by simp) y hy, ih hr fun z hz => hf z (List.mem_cons_of_mem _ hz)⟩

/-- Where no item is refused, the items have their results in order. -/
theorem exists_inOrder {f : α → Except Error β} {xs : List α} (h : ∀ x ∈ xs, ∃ y, f x = .ok y) :
    ∃ ys, inOrder (xs.map f) = .ok ys := by
  induction xs with
  | nil => exact ⟨[], rfl⟩
  | cons x xs ih =>
    obtain ⟨y, hy⟩ := h x (by simp)
    obtain ⟨ys, hys⟩ := ih fun x hx => h x (List.mem_cons_of_mem _ hx)
    exact ⟨y :: ys, inOrder_cons_eq_ok.mpr ⟨y, ys, hy, hys, rfl⟩⟩

theorem exists_inOrder_iff {f : α → Except Error β} {xs : List α} :
    (∃ ys, inOrder (xs.map f) = .ok ys) ↔ ∀ x ∈ xs, ∃ y, f x = .ok y := by
  refine ⟨?_, exists_inOrder⟩
  rintro ⟨ys, h⟩
  have hforall := forall₂_of_inOrder h
  clear h
  induction hforall with
  | nil => exact nofun
  | cons hy _ ih => exact List.forall_mem_cons.mpr ⟨⟨_, hy⟩, ih⟩

theorem inOrder_map_ok {f : α → Except Error β} {g : α → β} {xs : List α}
    (h : ∀ x ∈ xs, f x = .ok (g x)) : inOrder (xs.map f) = .ok (xs.map g) := by
  induction xs with
  | nil => rfl
  | cons x xs ih =>
    rw [List.forall_mem_cons] at h
    exact inOrder_cons_eq_ok.mpr ⟨g x, xs.map g, h.1, ih h.2, rfl⟩

end Query

end Bindery
