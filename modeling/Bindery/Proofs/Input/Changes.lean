import Bindery.Proofs.History
import Bindery.Proofs.Input.Declared
import Bindery.Proofs.Literal.Denotes

/-!
# What input objects send

An object keeps its values in the order in which they were assigned, and sends them in the order of
its class. So what it sends depends on nothing but the values that were assigned last, and on no order
of assignments; the same holds of all texts in which the object stands, also where other objects refer
to it. A property that can be assigned is not always sent: the class has to collect it.

## What is proved

* `changed_eq` — an object that is made with values and changed holds what its history leaves.
* `sends_propertyValues` — what such an object sends.
* `propertyValues_assign_of_not_collected` — a property that is not collected sends nothing.
* `literal_input_eq` — the literal of an object is that of the properties that it sends.
* `print_set_congr` — objects that send the same have the same texts among other objects.
* `changed_sends` — what objects send, and that no order of assignments counts.
-/

namespace Bindery.Query

open Bindery.Keyed (Change Present LastPut)

/-! ### Changes of an object -/

/-- A change of a property of an object. -/
inductive PropertyChange where
  /-- A value is assigned. -/
  | assign (attr : String) (v : Value)
  /-- The value is deleted. -/
  | delete (attr : String)
  deriving Repr

/-- The attribute that is changed. -/
def PropertyChange.attr : PropertyChange → String
  | .assign attr _ => attr
  | .delete attr => attr

/-- The change of the values that were assigned. -/
def PropertyChange.recorded : PropertyChange → Change Value
  | .assign attr v => .put attr v
  | .delete attr => .remove attr

/-- The object after a change. -/
def InputObject.change (o : InputObject) : PropertyChange → Except Error InputObject
  | .assign attr v => .ok (o.assign attr v)
  | .delete attr => o.delete attr

/-- An object of a class that is made with values and changed. -/
def InputType.changed (t : InputType) (given : List (String × Value)) (cs : List PropertyChange) :
    Except Error InputObject := do
  cs.foldlM InputObject.change (← t.make given)

/-- The history of the values of an object. -/
def historyOf (given : List (String × Value)) (cs : List PropertyChange) : List (Change Value) :=
  given.map (fun e => .put e.1 e.2) ++ cs.map PropertyChange.recorded

/-- The object of a class with the values that a history leaves. -/
def InputType.after (t : InputType) (h : List (Change Value)) : InputObject :=
  ⟨t, Keyed.run .empty h, .empty⟩

/-- The values are those of properties that the class collects, and so an object can be made with
them. -/
def InputType.Accepts (t : InputType) (given : List (String × Value)) : Prop :=
  ∀ e ∈ given, e.1 ≠ "self" ∧ e.1 ∈ t.cls.properties.map InputProperty.attr

instance (t : InputType) (given : List (String × Value)) : Decidable (t.Accepts given) :=
  inferInstanceAs (Decidable (∀ e ∈ given, e.1 ≠ "self" ∧
    e.1 ∈ t.cls.properties.map InputProperty.attr))

/-- The changes are changes of properties. -/
def InputType.Changes (t : InputType) (cs : List PropertyChange) : Prop :=
  ∀ c ∈ cs, (t.property? c.attr).isSome

instance (t : InputType) (cs : List PropertyChange) : Decidable (t.Changes cs) :=
  inferInstanceAs (Decidable (∀ c ∈ cs, (t.property? c.attr).isSome))

/-- What an object sends after a history: the properties `ps` in the order of their declaration, each
under its name in the schema. -/
structure Sends (t : InputType) (h : List (Change Value)) (ps : List InputProperty)
    (sent : List (String × Value × Option String)) : Prop where
  /-- They stand in the order of their declaration. -/
  order : ps.Sublist t.cls.properties
  /-- None is sent twice. -/
  distinct : (ps.map InputProperty.attr).Nodup
  /-- They are the collected properties that are assigned. -/
  mem_iff : ∀ p ∈ t.cls.properties, p ∈ ps ↔ Present h p.attr
  /-- Each is sent under its name in the schema with the value that was assigned last, and its
  mask. -/
  values : List.Forall₂ (fun p (s : String × Value × Option String) =>
    s.1 = p.graphqlName ∧ LastPut h p.attr s.2.1 ∧ s.2.2 = p.mask) ps sent

variable {t : InputType} {o o' : InputObject} {given : List (String × Value)}
  {cs : List PropertyChange} {c : PropertyChange} {h h' : List (Change Value)}

theorem make_eq (hgiven : t.Accepts given) :
    t.make given = .ok ⟨t, Keyed.ofList given, .empty⟩ := by
  have hkeys : ∀ k ∈ (Keyed.ofList given).keys,
      k ≠ "self" ∧ k ∈ t.cls.properties.map InputProperty.attr := fun k hk => by
    obtain ⟨e, he, rfl⟩ := List.mem_map.mp (Keyed.mem_keys_ofList.mp hk)
    exact hgiven e he
  have hself : (Keyed.ofList given).contains "self" = false := by
    rw [Bool.eq_false_iff, ne_eq, Keyed.contains_iff]
    exact fun hmem => (hkeys _ hmem).1 rfl
  have hknown : ((Keyed.ofList given).keys.find? fun k =>
      !t.cls.properties.any fun p => p.attr == k) = none := by
    rw [List.find?_eq_none]
    intro k hk
    obtain ⟨p, hp, rfl⟩ := List.mem_map.mp (hkeys k hk).2
    simpa using ⟨p, hp, rfl⟩
  simp only [InputType.make, hself, hknown, Bool.false_eq_true, if_false]

/-- A change of a property is a change of the values. -/
theorem change_eq (hc : (o.type.property? c.attr).isSome) :
    o.change c = .ok { o with values := o.values.apply c.recorded } := by
  cases c with
  | assign attr v =>
    change (o.type.property? attr).isSome at hc
    rw [InputObject.change, InputObject.assign, if_pos hc]
    rfl
  | delete attr =>
    change (o.type.property? attr).isSome at hc
    rw [InputObject.change, InputObject.delete, if_pos hc]
    rfl

theorem foldlM_change_eq (hcs : o.type.Changes cs) : cs.foldlM InputObject.change o =
    .ok { o with values := o.values.run (cs.map PropertyChange.recorded) } := by
  induction cs generalizing o with
  | nil => rfl
  | cons c cs ih =>
    rw [InputType.Changes, List.forall_mem_cons] at hcs
    rw [List.foldlM_cons, change_eq hcs.1]
    exact ih hcs.2

/-- An object that is made with values and changed holds what its history leaves. -/
theorem changed_eq (hgiven : t.Accepts given) (hcs : t.Changes cs) :
    t.changed given cs = .ok (t.after (historyOf given cs)) := by
  rw [InputType.changed, make_eq hgiven, InputType.after, historyOf, Keyed.run, List.foldl_append,
    ← Keyed.run, ← Keyed.run, ← Keyed.ofList_eq_run]
  exact foldlM_change_eq hcs

/-! ### What is sent -/

/-- The properties of a list that are assigned are sent under their names. -/
theorem forall₂_filterMap_get? (m : Keyed Value) (ps : List InputProperty) :
    List.Forall₂ (fun p (s : String × Value × Option String) =>
        s.1 = p.graphqlName ∧ m.get? p.attr = some s.2.1 ∧ s.2.2 = p.mask)
      (ps.filter fun p => (m.get? p.attr).isSome)
      (ps.filterMap fun p => (m.get? p.attr).map fun v => (p.graphqlName, v, p.mask)) := by
  induction ps with
  | nil => exact .nil
  | cons p ps ih =>
    cases hv : m.get? p.attr with
    | none =>
      rw [List.filter_cons_of_neg (by simp [hv]), List.filterMap_cons_none (by rw [hv]; rfl)]
      exact ih
    | some v =>
      rw [List.filter_cons_of_pos (by simp [hv]), List.filterMap_cons_some (by rw [hv]; rfl)]
      exact .cons ⟨rfl, hv, rfl⟩ ih

/-- What an object sends after a history. -/
theorem sends_propertyValues (h : List (Change Value))
    (hattrs : (t.cls.properties.map InputProperty.attr).Nodup) :
    ∃ ps, Sends t h ps (t.after h).propertyValues := by
  refine ⟨t.cls.properties.filter fun p => ((Keyed.run .empty h).get? p.attr).isSome,
    List.filter_sublist, hattrs.sublist (List.filter_sublist.map _), fun p hp => ?_, ?_⟩
  · rw [List.mem_filter, and_iff_right hp, Option.isSome_iff_exists,
      Keyed.present_iff_exists_lastPut]
    exact exists_congr fun v => Keyed.get?_run
  · refine (forall₂_filterMap_get? (Keyed.run .empty h) t.cls.properties).imp fun p s hs => ?_
    exact ⟨hs.1, Keyed.get?_run.mp hs.2.1, hs.2.2⟩

theorem property?_eq_some {attr : String} {p : InputProperty} (h : t.property? attr = some p) :
    p ∈ t.known ∧ p.attr = attr := by
  rw [InputType.property?] at h
  have hattr := List.find?_some h
  exact ⟨List.mem_of_find?_eq_some h, beq_iff_eq.mp hattr⟩

/-- Everything that is assigned can be assigned. -/
theorem known_of_present {attr : String} (hgiven : t.Accepts given) (hcs : t.Changes cs)
    (hcollected : ∀ p ∈ t.cls.properties, p ∈ t.known)
    (hpresent : Present (historyOf given cs) attr) : attr ∈ t.known.map InputProperty.attr := by
  obtain ⟨v, hv⟩ := Keyed.exists_put_of_present hpresent
  rcases List.mem_append.mp hv with hv | hv
  · obtain ⟨e, he, heq⟩ := List.mem_map.mp hv
    cases heq
    obtain ⟨p, hp, hattr⟩ := List.mem_map.mp (hgiven e he).2
    exact List.mem_map.mpr ⟨p, hcollected p hp, hattr⟩
  · obtain ⟨c, hc, heq⟩ := List.mem_map.mp hv
    cases c with
    | delete attr => cases heq
    | assign attr v =>
      cases heq
      obtain ⟨p, hp⟩ := Option.isSome_iff_exists.mp (hcs _ hc)
      exact List.mem_map.mpr ⟨p, property?_eq_some hp⟩

/-- Where all that can be assigned is collected, everything that is assigned is sent. -/
theorem Sends.mem_of_present {ps : List InputProperty} {sent : List (String × Value × Option String)}
    {attr : String} (hsends : Sends t h ps sent) (hknown : ∀ p ∈ t.known, p ∈ t.cls.properties)
    (hattr : attr ∈ t.known.map InputProperty.attr) (hpresent : Present h attr) :
    attr ∈ ps.map InputProperty.attr := by
  obtain ⟨p, hp, rfl⟩ := List.mem_map.mp hattr
  exact List.mem_map_of_mem ((hsends.mem_iff p (hknown p hp)).mpr hpresent)

/-- What is assigned to a property that is not collected is not sent. -/
theorem propertyValues_assign_of_not_collected {attr : String} (v : Value)
    (hattr : attr ∉ o.type.cls.properties.map InputProperty.attr) :
    (o.assign attr v).propertyValues = o.propertyValues := by
  have hget : ∀ p ∈ o.type.cls.properties, (o.values.put attr v).get? p.attr =
      o.values.get? p.attr := fun p hp => by
    have hne : p.attr ≠ attr := fun heq => hattr (heq ▸ List.mem_map_of_mem hp)
    rw [Keyed.get?_put, if_neg hne]
  rw [InputObject.assign]
  split_ifs
  · exact List.filterMap_congr fun p hp => by rw [hget p hp]
  · rfl

/-- What an object sends depends on nothing but the values that were assigned last. -/
theorem propertyValues_after_congr (t : InputType)
    (hlast : ∀ attr v, LastPut h attr v ↔ LastPut h' attr v) :
    (t.after h).propertyValues = (t.after h').propertyValues := by
  have hget : ∀ attr, (Keyed.run .empty h).get? attr = (Keyed.run .empty h').get? attr :=
    fun attr => Option.ext fun v => by
      rw [Keyed.get?_run, Keyed.get?_run]
      exact hlast attr v
  simp only [InputObject.propertyValues, InputType.after, hget]

/-! ### Literals -/

theorem inOrder_literalAt_eq (m : Keyed Value) (ps : List InputProperty) :
    inOrder (ps.filterMap fun (p : InputProperty) =>
      (literalAt p.attr p.mask m.entries).map (named p.graphqlName)) =
    literalProperties (ps.filterMap fun p =>
      (m.get? p.attr).map fun v => (p.graphqlName, v, p.mask)) := by
  induction ps with
  | nil => rfl
  | cons p ps ih =>
    rw [List.filterMap_cons, List.filterMap_cons, literalAt_eq, ← Keyed.get?]
    cases m.get? p.attr with
    | none => exact ih
    | some v =>
      simp only [Option.map_some, inOrder, literalProperties, ih]
      cases v.literal p.mask <;> rfl

/-- The literal of an object is that of the properties that it sends. -/
theorem literal_input_eq (o : InputObject) (mask : Option String) :
    (Value.input o.type.cls o.values.entries).literal mask =
      (Value.record o.propertyValues).literal mask := by
  rw [Value.literal, Value.literal, InputObject.propertyValues, inOrder_literalAt_eq]

/-- Objects that send the same are the same records. -/
theorem record_congr {os os' : InputObjects} (fuel : Nat)
    (hsent : ∀ id : Nat, os[id]?.map InputObject.propertyValues =
      os'[id]?.map InputObject.propertyValues) : os.record fuel = os'.record fuel := by
  induction fuel with
  | zero => rfl
  | succ fuel ih =>
    funext id
    have hid := hsent id
    rw [InputObjects.record, InputObjects.record]
    cases hx : os[id]? with
    | none =>
      rw [hx, Option.map_none, eq_comm, Option.map_eq_none_iff] at hid
      rw [hid]
    | some x =>
      rw [hx, Option.map_some, eq_comm, Option.map_eq_some_iff] at hid
      obtain ⟨y, hy, hsame⟩ := hid
      simp only [hy, hsame, ih]

/-- Objects that send the same in one place have the same texts, whatever refers to them. -/
theorem print_set_congr (hsent : o.propertyValues = o'.propertyValues) (os : InputObjects)
    (id : Nat) (l : Layout) (level : Int) (mask : Option String) (v : Value) :
    InputObjects.print (os.set id o) l level mask v =
      InputObjects.print (os.set id o') l level mask v := by
  have hrecord : InputObjects.record (os.set id o) = InputObjects.record (os.set id o') := by
    funext fuel
    refine record_congr fuel fun i => ?_
    rw [List.getElem?_set, List.getElem?_set]
    split_ifs
    · rw [Option.map_some, Option.map_some, hsent]
    · rfl
    · rfl
  rw [InputObjects.print, InputObjects.print, InputObjects.argument, InputObjects.argument, hrecord,
    List.length_set, List.length_set]

/-! ### Every order of assignments -/

/-- **Objects send what is assigned to them in the order of their class.** A class collects the
properties of its first base and its own. Whatever an object is made with and whatever is assigned
and deleted afterwards, it sends those of these properties that are assigned, each once, in the order
of their declaration, under their names in the schema with the values that were assigned last and
their masks. That is all that is assigned where no class that it inherits from has a second base. Two
objects that end up with the same values send the same, and all texts in which they stand are the
same. -/
theorem changed_sends {ds : List InputDeclaration} {ts : InputTypes} {name : String}
    (hclasses : declareInputs ds = .ok ts) (hnames : (ds.map InputDeclaration.name).Nodup)
    (ht : ts.get? name = some t) (hattrs : (t.cls.properties.map InputProperty.attr).Nodup) :
    Collects ds name t.cls.properties ∧
    (∀ given cs, t.Accepts given → t.Changes cs → ∃ o ps,
      t.changed given cs = .ok o ∧ Sends t (historyOf given cs) ps o.propertyValues ∧
      (SingleBases ds t.order → ∀ attr,
        attr ∈ ps.map InputProperty.attr ↔ Present (historyOf given cs) attr)) ∧
    (∀ given cs given' cs', t.Accepts given → t.Changes cs → t.Accepts given' → t.Changes cs' →
      (∀ attr v, LastPut (historyOf given cs) attr v ↔ LastPut (historyOf given' cs') attr v) →
      ∃ o o', t.changed given cs = .ok o ∧ t.changed given' cs' = .ok o' ∧
        o.propertyValues = o'.propertyValues ∧
        (∀ l level mask, (Value.input t.cls o.values.entries).print l level mask =
          (Value.input t.cls o'.values.entries).print l level mask) ∧
        ∀ (os : InputObjects) id l level mask v,
          InputObjects.print (os.set id o) l level mask v =
            InputObjects.print (os.set id o') l level mask v) := by
  obtain ⟨own, hdescribed⟩ := described_declareInputs hclasses hnames ht
  refine ⟨hdescribed.collects, fun given cs hgiven hcs => ?_,
    fun given cs given' cs' hgiven hcs hgiven' hcs' hlast => ?_⟩
  · obtain ⟨ps, hsends⟩ := sends_propertyValues (historyOf given cs) hattrs
    refine ⟨_, ps, changed_eq hgiven hcs, hsends, fun hsingle attr => ⟨fun hattr => ?_, ?_⟩⟩
    · obtain ⟨p, hp, rfl⟩ := List.mem_map.mp hattr
      exact (hsends.mem_iff p (hsends.order.subset hp)).mp hp
    · intro hpresent
      exact hsends.mem_of_present (hdescribed.collected_of_known hsingle)
        (known_of_present hgiven hcs hdescribed.known_of_collected hpresent) hpresent
  · have hsent := propertyValues_after_congr t hlast
    refine ⟨_, _, changed_eq hgiven hcs, changed_eq hgiven' hcs', hsent, fun l level mask => ?_,
      print_set_congr hsent⟩
    have hliteral := literal_input_eq (t.after (historyOf given cs)) mask
    rw [hsent, ← literal_input_eq] at hliteral
    exact congrArg (Except.map fun x => String.ofList (x.print l level)) hliteral

/-- The input classes of a clinic: the visits that are asked for are those of a period, perhaps in one
ward. -/
def clinicInputs : List InputDeclaration :=
  [⟨"Period", [], [⟨"start", "from", some "%Y"⟩, ⟨"stop", "to", none⟩]⟩,
    ⟨"VisitFilter", ["Period"], [⟨"ward", "ward", none⟩]⟩]

/-- The class of the visits that are asked for. -/
def visitFilter : InputType :=
  ⟨⟨"VisitFilter", [⟨"start", "from", some "%Y"⟩, ⟨"stop", "to", none⟩, ⟨"ward", "ward", none⟩]⟩,
    ["VisitFilter", "Period"],
    [⟨"ward", "ward", none⟩, ⟨"start", "from", some "%Y"⟩, ⟨"stop", "to", none⟩]⟩

/-- The end is assigned before the start, and the ward is deleted. -/
def endFirst : List PropertyChange :=
  [.assign "stop" .null, .delete "ward", .assign "start" (.int 2024)]

/-- The start is assigned before the end. -/
def startFirst : List PropertyChange :=
  [.assign "start" (.int 2024), .assign "stop" .null]

theorem visitFilter_sends :
    Collects clinicInputs "VisitFilter" visitFilter.cls.properties ∧
    (∃ o ps, visitFilter.changed [("ward", .text "3B")] endFirst = .ok o ∧
      Sends visitFilter (historyOf [("ward", .text "3B")] endFirst) ps o.propertyValues ∧
      ∀ attr, attr ∈ ps.map InputProperty.attr ↔
        Present (historyOf [("ward", .text "3B")] endFirst) attr) ∧
    (∃ o o', visitFilter.changed [("ward", .text "3B")] endFirst = .ok o ∧
      visitFilter.changed [] startFirst = .ok o' ∧ o.propertyValues = o'.propertyValues) := by
  have htypes : ∃ ts, declareInputs clinicInputs = .ok ts ∧ ts.get? "VisitFilter" = some visitFilter :=
    ⟨_, rfl, rfl⟩
  obtain ⟨ts, hclasses, ht⟩ := htypes
  obtain ⟨hcollects, hsends, hsame⟩ := changed_sends hclasses (by decide +kernel) ht
    (by decide +kernel)
  have hgiven : visitFilter.Accepts [("ward", .text "3B")] := by decide +kernel
  have hend : visitFilter.Changes endFirst := by decide +kernel
  have hstart : visitFilter.Changes startFirst := by decide +kernel
  refine ⟨hcollects, ?_, ?_⟩
  · obtain ⟨o, ps, ho, hps, hall⟩ := hsends _ _ hgiven hend
    exact ⟨o, ps, ho, hps, hall (by unfold SingleBases; decide +kernel)⟩
  · obtain ⟨o, o', ho, ho', hsent, -⟩ := hsame _ _ [] _ hgiven hend nofun hstart fun attr v => by
      rw [← Keyed.get?_run, ← Keyed.get?_run]
      change List.lookup attr [("stop", .null), ("start", .int 2024)] = some v ↔
        List.lookup attr [("start", .int 2024), ("stop", .null)] = some v
      by_cases hstop : attr = "stop"
      · subst hstop
        rfl
      · simp [List.lookup_cons, beq_false_of_ne hstop]
    exact ⟨o, o', ho, ho', hsent⟩

example : (visitFilter.after (historyOf [("ward", .text "3B")] endFirst)).propertyValues =
    [("from", .int 2024, some "%Y"), ("to", .null, none)] :=
  rfl

end Bindery.Query
