import Bindery.Proofs.Inheritance
import Bindery.Proofs.Keyed
import Bindery.Proofs.Result
import Bindery.Query.Input
import Mathlib.Data.List.Induction

/-!
# The properties of input classes

A class collects the properties of its first base and then its own, and the objects of the class send
what it collects. What can be assigned is more: the properties of every class that it inherits from.
Where no class on the way has a second base, the two are the same.

## What is proved

* `declareInput_eq_ok` — how a class comes about.
* `Described.extend`, `described_declareInput` — one more declaration leaves the classes before it as
  they are, and adds one that is as its declaration and its bases make it.
* `described_declareInputs` — what the declarations make of each class.
-/

namespace Bindery.Query

variable {ds : List InputDeclaration} {d : InputDeclaration} {ts : InputTypes}
  {own : List (String × List InputProperty)} {name : String} {t : InputType}

/-- The properties that the classes of an order add, in this order. -/
def additions (own : List (String × List InputProperty)) (order : List String) :
    List InputProperty :=
  order.flatMap fun n => (own.lookup n).getD []

/-- The properties that a class collects: those that its first base collects, and its own. -/
inductive Collects (ds : List InputDeclaration) : String → List InputProperty → Prop where
  /-- A class without bases collects its own properties. -/
  | own {d : InputDeclaration} (hd : d ∈ ds) (hbases : d.bases = []) :
      Collects ds d.name (distinctProperties d.own)
  /-- A class does not look at its other bases. -/
  | base {d : InputDeclaration} {b : String} {bs : List String} {ps : List InputProperty}
      (hd : d ∈ ds) (hbases : d.bases = b :: bs) (hbase : Collects ds b ps) :
      Collects ds d.name (ps ++ distinctProperties d.own)

/-- No class of the order has a second base. -/
def SingleBases (ds : List InputDeclaration) (order : List String) : Prop :=
  ∀ d ∈ ds, d.name ∈ order → d.bases.length ≤ 1

/-- A class as the declarations make it. -/
structure Described (ds : List InputDeclaration) (own : List (String × List InputProperty))
    (name : String) (t : InputType) : Prop where
  /-- It stands before all that it inherits from. -/
  head : t.order.head? = some name
  /-- It inherits from no class twice. -/
  distinct : t.order.Nodup
  /-- It inherits from classes that are declared. -/
  declared : ∀ n ∈ t.order, n ∈ ds.map InputDeclaration.name
  /-- The properties of all these classes can be assigned. -/
  known : t.known = additions own t.order
  /-- It sends the properties that it collects. -/
  collects : Collects ds name t.cls.properties
  /-- What it collects can be assigned. -/
  known_of_collected : ∀ p ∈ t.cls.properties, p ∈ t.known
  /-- Without a second base, it collects what can be assigned. -/
  collected_of_known : SingleBases ds t.order → ∀ p ∈ t.known, p ∈ t.cls.properties

/-- What the first of some bases collects. -/
def collectedByFirst (bases : List InputType) : List InputProperty :=
  (bases.head?.map fun b => b.cls.properties).getD []

/-! ### One class -/

theorem mem_additions {order : List String} {p : InputProperty} :
    p ∈ additions own order ↔ ∃ n ∈ order, p ∈ (own.lookup n).getD [] :=
  List.mem_flatMap

/-- What a new class adds is no part of orders in which it does not stand. -/
theorem additions_cons_of_not_mem {order : List String} {mine : List InputProperty}
    (hname : name ∉ order) : additions ((name, mine) :: own) order = additions own order := by
  refine List.flatMap_congr fun n hn => ?_
  have hne : n ≠ name := fun heq => hname (heq ▸ hn)
  rw [List.lookup_cons, beq_false_of_ne hne]

theorem additions_cons {order : List String} {mine : List InputProperty} (hname : name ∉ order) :
    additions ((name, mine) :: own) (name :: order) = mine ++ additions own order := by
  rw [additions, List.flatMap_cons, List.lookup_cons, beq_self_eq_true, Option.getD_some]
  exact congrArg (mine ++ ·) (additions_cons_of_not_mem hname)

/-- How a class comes about: its bases are there, and they have an order behind it. -/
theorem declareInput_eq_ok {s : InputTypes × List (String × List InputProperty)}
    (h : declareInput ts own d = .ok s) : ∃ (bases : List InputType) (order : List String),
      d.bases.map ts.get? = bases.map some ∧
      Inheritance.linearize d.name d.bases (bases.map InputType.order) = some order ∧
      s.2 = (d.name, distinctProperties d.own) :: own ∧
      s.1 = ts.put d.name
        ⟨⟨d.name, collectedByFirst bases ++ distinctProperties d.own⟩, order,
          additions s.2 order⟩ := by
  obtain ⟨bases, hbases, h⟩ := bind_eq_ok.mp h
  have hfound : d.bases.map ts.get? = bases.map some := by
    rw [← List.forall₂_eq_eq_eq, List.forall₂_map_left_iff, List.forall₂_map_right_iff]
    refine (forall₂_of_inOrder hbases).imp fun b t hb => ?_
    cases hget : ts.get? b with
    | none => rw [hget] at hb; cases hb
    | some t' => rw [hget] at hb; cases hb; rfl
  split at h
  · cases h
  · rename_i order horder
    rw [← pure_eq_ok.mp h]
    refine ⟨bases, order, hfound, horder, rfl, ?_⟩
    cases bases <;> rfl

/-! ### One more class -/

theorem Collects.mono {ds' : List InputDeclaration} {ps : List InputProperty}
    (h : Collects ds name ps) (hsub : ds ⊆ ds') : Collects ds' name ps := by
  induction h with
  | own hd hbases => exact .own (hsub hd) hbases
  | base hd hbases _ ih => exact .base (hsub hd) hbases ih

theorem SingleBases.mono {order order' : List String} (h : SingleBases (ds ++ [d]) order')
    (hsub : order ⊆ order') : SingleBases ds order :=
  fun d' hd' hname => h d' (List.mem_append_left _ hd') (hsub hname)

/-- One more declaration leaves the classes before it as they are. -/
theorem Described.extend {mine : List InputProperty} (h : Described ds own name t)
    (hnew : d.name ∉ ds.map InputDeclaration.name) :
    Described (ds ++ [d]) ((d.name, mine) :: own) name t where
  head := h.head
  distinct := h.distinct
  declared n hn := by
    rw [List.map_append]
    exact List.mem_append_left _ (h.declared n hn)
  known := by
    rw [h.known, additions_cons_of_not_mem fun hmem => hnew (h.declared _ hmem)]
  collects := h.collects.mono (List.subset_append_left _ _)
  known_of_collected := h.known_of_collected
  collected_of_known hsingle := h.collected_of_known (hsingle.mono (List.Subset.refl _))

section Bases

variable {bases : List InputType} {inherited : List String}
  (hclasses : ∀ name t, ts.get? name = some t → Described ds own name t)
  (hbases : d.bases.map ts.get? = bases.map some)

include hclasses hbases

/-- Each base is as the declarations before make it. -/
theorem described_of_mem_bases {b : InputType} (hb : b ∈ bases) :
    ∃ n ∈ d.bases, Described ds own n b := by
  obtain ⟨n, hn, hget⟩ := List.mem_map.mp (hbases ▸ List.mem_map_of_mem (f := some) hb)
  exact ⟨n, hn, hclasses n b hget⟩

/-- The classes that a class inherits from are declared before it. -/
theorem declared_of_mem_inherited
    (hfrom : ∀ n ∈ inherited, ∃ l ∈ bases.map InputType.order ++ [d.bases], n ∈ l) :
    ∀ n ∈ inherited, n ∈ ds.map InputDeclaration.name := by
  intro n hn
  obtain ⟨l, hl, hnl⟩ := hfrom n hn
  rcases List.mem_append.mp hl with hl | hl
  · obtain ⟨b, hb, rfl⟩ := List.mem_map.mp hl
    obtain ⟨m, -, hdescribed⟩ := described_of_mem_bases hclasses hbases hb
    exact hdescribed.declared n hnl
  · rw [List.mem_singleton.mp hl] at hnl
    obtain ⟨b, hb, hget⟩ := List.mem_map.mp (hbases ▸ List.mem_map_of_mem (f := ts.get?) hnl)
    have hdescribed := hclasses n b hget.symm
    exact hdescribed.declared n (List.mem_of_head? hdescribed.head)

/-- A class with one base at most inherits from what the base is and inherits from. -/
theorem linearize_of_length_le_one (hlength : d.bases.length ≤ 1)
    (horder : Inheritance.linearize d.name d.bases (bases.map InputType.order) =
      some (d.name :: inherited)) :
    inherited = (bases.head?.map InputType.order).getD [] := by
  match hb : d.bases with
  | [] =>
    obtain rfl : bases = [] := by simpa [hb] using hbases.symm
    rw [hb] at horder
    cases horder
    rfl
  | [b] =>
    obtain ⟨t, r, rfl, ht, hr⟩ := List.map_eq_cons_iff.mp (hb ▸ hbases).symm
    obtain rfl := List.map_eq_nil_iff.mp hr
    have hdescribed := hclasses b t ht.symm
    obtain ⟨l, hl⟩ := List.head?_eq_some_iff.mp hdescribed.head
    have hdistinct := hdescribed.distinct
    rw [List.map_singleton, hb, hl, Inheritance.linearize_single (hl ▸ hdistinct)] at horder
    rw [List.head?_cons, Option.map_some, Option.getD_some, hl]
    exact (List.cons.inj (Option.some.inj horder)).2.symm
  | _ :: _ :: _ => rw [hb] at hlength; exact absurd hlength (by simp)

/-- A class collects what its first base collects, and its own properties. -/
theorem collects_collectedByFirst :
    Collects (ds ++ [d]) d.name (collectedByFirst bases ++ distinctProperties d.own) := by
  have hd : d ∈ ds ++ [d] := List.mem_append_right _ (List.mem_singleton_self d)
  cases hb : d.bases with
  | nil =>
    obtain rfl : bases = [] := by simpa [hb] using hbases.symm
    exact .own hd hb
  | cons b bs =>
    obtain ⟨t, r, rfl, ht, -⟩ := List.map_eq_cons_iff.mp (hb ▸ hbases).symm
    have hdescribed := hclasses b t ht.symm
    exact .base hd hb (hdescribed.collects.mono (List.subset_append_left _ _))

/-- What the first base collects is added by the classes that are inherited from. -/
theorem mem_additions_of_mem_collectedByFirst
    (horders : ∀ b ∈ bases, b.order ⊆ inherited) {p : InputProperty}
    (hp : p ∈ collectedByFirst bases) : p ∈ additions own inherited := by
  cases bases with
  | nil => cases hp
  | cons t r =>
    obtain ⟨n, -, hdescribed⟩ := described_of_mem_bases hclasses hbases List.mem_cons_self
    have hmem := hdescribed.known_of_collected p hp
    rw [hdescribed.known, mem_additions] at hmem
    obtain ⟨m, hm, hp⟩ := hmem
    exact mem_additions.mpr ⟨m, horders t List.mem_cons_self hm, hp⟩

/-- Without a second base, what the classes that are inherited from add is collected by the first
one. -/
theorem mem_collectedByFirst_of_mem_additions
    (hsame : inherited = (bases.head?.map InputType.order).getD [])
    (hsingle : SingleBases ds inherited) {p : InputProperty} (hp : p ∈ additions own inherited) :
    p ∈ collectedByFirst bases := by
  cases bases with
  | nil => rw [hsame] at hp; cases hp
  | cons t r =>
    obtain ⟨n, -, hdescribed⟩ := described_of_mem_bases hclasses hbases List.mem_cons_self
    change inherited = t.order at hsame
    subst hsame
    refine hdescribed.collected_of_known hsingle p ?_
    rw [hdescribed.known]
    exact hp

end Bases

/-- A new class is as its declaration and its bases make it. -/
theorem described_declareInput {s : InputTypes × List (String × List InputProperty)}
    (hclasses : ∀ name t, ts.get? name = some t → Described ds own name t)
    (hnew : d.name ∉ ds.map InputDeclaration.name) (h : declareInput ts own d = .ok s)
    (ht : s.1.get? d.name = some t) : Described (ds ++ [d]) s.2 d.name t := by
  obtain ⟨bases, order, hbases, horder, hown, htypes⟩ := declareInput_eq_ok h
  rw [htypes, Keyed.get?_put, if_pos rfl, hown, Option.some.injEq] at ht
  rw [hown]
  obtain ⟨inherited, rfl, hkeeps, hfrom⟩ := Inheritance.linearize_eq_some horder
  have hdeclared := declared_of_mem_inherited hclasses hbases hfrom
  have hfresh : d.name ∉ inherited := fun hmem => hnew (hdeclared _ hmem)
  have hknown : additions ((d.name, distinctProperties d.own) :: own) (d.name :: inherited) =
      distinctProperties d.own ++ additions own inherited := additions_cons hfresh
  subst ht
  constructor
  case head => rfl
  case distinct => exact List.nodup_cons.mpr ⟨hfresh, hkeeps.distinct⟩
  case declared =>
    intro n hn
    rw [List.map_append, List.mem_append]
    exact (List.mem_cons.mp hn).symm.imp (hdeclared n) List.mem_singleton.mpr
  case known => rfl
  case collects => exact collects_collectedByFirst hclasses hbases
  case known_of_collected =>
    intro p hp
    change p ∈ additions _ (d.name :: inherited)
    rw [hknown]
    have horders : ∀ b ∈ bases, b.order ⊆ inherited := fun b hb =>
      (hkeeps.sublist b.order (List.mem_append_left _ (List.mem_map_of_mem hb))).subset
    refine List.mem_append.mpr ((List.mem_append.mp hp).symm.imp_right fun hp => ?_)
    exact mem_additions_of_mem_collectedByFirst hclasses hbases horders hp
  case collected_of_known =>
    intro hsingle p hp
    change p ∈ additions _ (d.name :: inherited) at hp
    rw [hknown] at hp
    have hlength := hsingle d (List.mem_append_right _ (List.mem_singleton_self d))
      List.mem_cons_self
    have hsame := linearize_of_length_le_one hclasses hbases hlength horder
    refine List.mem_append.mpr ((List.mem_append.mp hp).symm.imp_left fun hp => ?_)
    exact mem_collectedByFirst_of_mem_additions hclasses hbases hsame
      (hsingle.mono (List.subset_cons_self _ _)) hp

/-- **What declarations make of a class.** Classes are told apart by their names. The objects of a
class send what it collects, and nothing else that could be assigned unless no class that it inherits
from has a second base. -/
theorem described_declareInputs (hclasses : declareInputs ds = .ok ts)
    (hnames : (ds.map InputDeclaration.name).Nodup) (ht : ts.get? name = some t) :
    ∃ own, Described ds own name t := by
  obtain ⟨s, hs, rfl⟩ := map_eq_ok.mp hclasses
  suffices hall : ∀ name t, s.1.get? name = some t → Described ds s.2 name t from
    ⟨s.2, hall name t ht⟩
  clear ht hclasses
  induction ds using List.reverseRecOn generalizing s with
  | nil =>
    cases hs
    intro name t ht
    cases ht
  | append_singleton ds d ih =>
    rw [List.foldlM_append] at hs
    obtain ⟨s₀, hs₀, hs⟩ := bind_eq_ok.mp hs
    rw [List.map_append, List.nodup_append] at hnames
    have hnew : d.name ∉ ds.map InputDeclaration.name := fun hmem =>
      hnames.2.2 _ hmem _ (List.mem_singleton_self _) rfl
    have hclasses := ih hnames.1 s₀ hs₀
    obtain ⟨s₁, hstep, hs⟩ := bind_eq_ok.mp hs
    obtain rfl := pure_eq_ok.mp hs
    intro name t ht
    by_cases hname : name = d.name
    · subst hname
      exact described_declareInput hclasses hnew hstep ht
    · obtain ⟨_, _, -, -, hown, htypes⟩ := declareInput_eq_ok hstep
      rw [htypes, Keyed.get?_put, if_neg hname] at ht
      rw [hown]
      exact (hclasses name t ht).extend hnew

-- What the second base adds can be assigned, but it is not collected.
example :
    ((declareInputs [⟨"Period", [], [⟨"start", "from", none⟩]⟩, ⟨"Place", [], [⟨"ward", "ward", none⟩]⟩,
      ⟨"VisitFilter", ["Period", "Place"], [⟨"open", "open", none⟩]⟩]).toOption.bind fun ts =>
        ts.get? "VisitFilter").map (fun t => (t.known.map InputProperty.attr,
          t.cls.properties.map InputProperty.attr)) =
      some (["open", "start", "ward"], ["start", "open"]) := by
  decide +kernel

end Bindery.Query
