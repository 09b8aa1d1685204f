import Bindery.Proofs.Keyed
import Bindery.Storage.Disk
import Bindery.Storage.Path
import Mathlib.Data.List.Infix

/-!
# Changes inside a folder

A path is inside a folder if it goes on from the folder by names of things: no name is empty, a dot
or two dots, and none holds a slash. A path to which a text leads goes on by names of things from
where two dots went up last. So if it has the names of a folder in front, it is inside the folder.

A change of a disk is confined to a folder if the same things stand at every path that is not inside
the folder. Where all folders above a folder stand, whatever is made or written inside the folder is
confined to it: the folders above it are there already.

## What is proved

* `namesOf_eq` — the names of a text as its parts between slashes.
* `isInside_resolve` — a text leads into a folder, or to no path that has the folder in front.
* `isInside_or_mem_above`, `parent_isInside_or_mem_above` — the folders on the way to a path.
* `SameOutside.put`, `SameOutside.putFolders` — changes inside a folder.
* `node?_removeTree`, `SameOutside.removeTree` — what a removed folder leaves.
* `Confined.bind`, `Confined.forM` — actions one after the other.
* `confined_ensureFolder`, `confined_writeFile` — what is done at a path inside a folder.
-/

namespace Bindery.Storage

/-! ### Paths inside a folder -/

/-- Can something have the name? -/
def IsName (name : String) : Prop :=
  name ≠ "" ∧ name ≠ "." ∧ name ≠ ".." ∧ '/' ∉ name.toList

/-- The names of a text are its parts between slashes. -/
theorem namesOf_eq (text : String) :
    namesOf text = (text.toList.splitOnP (· == '/')).map String.ofList := by
  rw [namesOf, ← String.toList_split_bool]
  rfl

/-- The induction is on the characters; the characters before the next slash are collected. -/
theorem not_mem_of_mem_splitOnPPrepend {cs acc part : List Char} (hacc : '/' ∉ acc)
    (h : part ∈ List.splitOnPPrepend (· == '/') cs acc) : '/' ∉ part := by
  induction cs generalizing acc with
  | nil =>
    rw [List.splitOnPPrepend_nil, List.mem_singleton] at h
    rwa [h, List.mem_reverse]
  | cons c cs ih =>
    rw [List.splitOnPPrepend_cons_eq_if] at h
    split at h
    case isTrue =>
      rcases List.mem_cons.mp h with rfl | h
      · rwa [List.mem_reverse]
      · exact ih List.not_mem_nil h
    case isFalse hc =>
      refine ih ?_ h
      rw [List.mem_cons, not_or]
      exact ⟨fun heq => hc (by simp [← heq]), hacc⟩

theorem not_mem_of_mem_namesOf {text name : String} (h : name ∈ namesOf text) :
    '/' ∉ name.toList := by
  rw [namesOf_eq] at h
  obtain ⟨part, hpart, rfl⟩ := List.mem_map.mp h
  rw [String.toList_ofList]
  exact not_mem_of_mem_splitOnPPrepend List.not_mem_nil hpart

namespace Path

variable {root p q : Path}

/-- The path goes on from the folder by names of things. -/
def IsInside (p root : Path) : Prop :=
  ∃ names : List String, (∀ n ∈ names, IsName n) ∧ p = root ++ names

theorem isWithin_iff : p.isWithin root = true ↔ root <+: p :=
  List.isPrefixOf_iff_prefix

theorem isInside_self (root : Path) : root.IsInside root :=
  ⟨[], nofun, (List.append_nil root).symm⟩

theorem IsInside.isWithin (h : p.IsInside root) : p.isWithin root = true := by
  obtain ⟨names, -, rfl⟩ := h
  exact isWithin_iff.mpr (List.prefix_append root names)

/-! ### Where texts lead -/

/-- The path is made of the first names of the folder and of names of things behind them. -/
def GoesBy (root p : Path) : Prop :=
  ∃ (k : Nat) (names : List String), (∀ n ∈ names, IsName n) ∧ p = root.take k ++ names

theorem GoesBy.step {name : String} (h : GoesBy root p) (hname : '/' ∉ name.toList) :
    GoesBy root (p.step name) := by
  obtain ⟨k, names, hnames, rfl⟩ := h
  rw [Path.step]
  split
  case isTrue => exact ⟨k, names, hnames, rfl⟩
  case isFalse hstay =>
    rw [Bool.or_eq_true, beq_iff_eq, beq_iff_eq, not_or] at hstay
    split
    case isTrue =>
      rcases names.eq_nil_or_concat with rfl | ⟨before, last, rfl⟩
      · refine ⟨min ((root.take k).length - 1) k, [], nofun, ?_⟩
        rw [List.append_nil, List.append_nil, List.dropLast_eq_take, List.take_take]
      · refine ⟨k, before, fun n hn => hnames n (by simp [hn]), ?_⟩
        simp
    case isFalse hup =>
      refine ⟨k, names ++ [name], ?_, List.append_assoc ..⟩
      intro n hn
      rcases List.mem_append.mp hn with hn | hn
      · exact hnames n hn
      · rw [List.mem_singleton.mp hn]
        exact ⟨hstay.1, hstay.2, by simpa using hup, hname⟩

theorem goesBy_resolve (root : Path) (text : String) : GoesBy root (root.resolve text) := by
  have hstart : GoesBy root (root.start text) := by
    rw [start]
    split
    · exact ⟨0, [], nofun, rfl⟩
    · exact ⟨root.length, [], nofun, by simp⟩
  have hall : ∀ names : List String, (∀ n ∈ names, '/' ∉ n.toList) → ∀ p, GoesBy root p →
      GoesBy root (names.foldl Path.step p) := by
    intro names hnames
    induction names with
    | nil => exact fun p h => h
    | cons n names ih =>
      rw [List.forall_mem_cons] at hnames
      exact fun p h => ih hnames.2 _ (h.step hnames.1)
  exact hall _ (fun n hn => not_mem_of_mem_namesOf hn) _ hstart

/-- A text leads into a folder if it leads to a path that has the folder in front. -/
theorem isInside_resolve {text : String} (h : (root.resolve text).isWithin root = true) :
    (root.resolve text).IsInside root := by
  obtain ⟨r, hr⟩ := isWithin_iff.mp h
  obtain ⟨k, names, hnames, heq⟩ := goesBy_resolve root text
  refine ⟨r, fun n hn => hnames n ?_, hr.symm⟩
  have hdrop : r = (root.take k ++ names).drop root.length := by
    rw [← heq, ← hr, List.drop_left]
  rw [hdrop, List.drop_append, List.drop_eq_nil_of_le (List.length_take_le' k root)] at hn
  exact List.mem_of_mem_drop hn

/-! ### Folders on the way -/

theorem mem_above_iff : q ∈ p.above ↔ ∃ k < p.length, p.take k = q := by
  simp [above]

/-- A folder above a path inside another folder is inside that folder too, or above it. -/
theorem isInside_or_mem_above (h : p.IsInside root) (hq : q ∈ p.above) :
    q.IsInside root ∨ q ∈ root.above := by
  obtain ⟨k, -, rfl⟩ := mem_above_iff.mp hq
  obtain ⟨names, hnames, rfl⟩ := h
  by_cases hk : root.length ≤ k
  · refine .inl ⟨names.take (k - root.length), fun n hn => hnames n (List.mem_of_mem_take hn), ?_⟩
    rw [List.take_append, List.take_of_length_le hk]
  · refine .inr (mem_above_iff.mpr ⟨k, by omega, ?_⟩)
    rw [List.take_append_of_le_length (by omega)]

theorem mem_above_trans (h : p ∈ root.above) (hq : q ∈ p.above) : q ∈ root.above := by
  obtain ⟨k, hk, rfl⟩ := mem_above_iff.mp h
  obtain ⟨j, hj, rfl⟩ := mem_above_iff.mp hq
  rw [List.length_take] at hj
  refine mem_above_iff.mpr ⟨j, by omega, ?_⟩
  rw [List.take_take, min_eq_left (by omega)]

/-- The folder of a path inside another folder is inside that folder, or the one right above it. -/
theorem parent_isInside_or_mem_above (h : p.IsInside root) (hroot : root ≠ []) :
    p.parent.IsInside root ∨ p.parent ∈ root.above := by
  have hpos : 0 < root.length := List.length_pos_iff.mpr hroot
  have hlength := (isWithin_iff.mp h.isWithin).length_le
  refine isInside_or_mem_above h (mem_above_iff.mpr ⟨p.length - 1, by omega, ?_⟩)
  rw [parent, List.dropLast_eq_take]

theorem not_isInside_of_mem_above (h : q ∈ root.above) : ¬ q.IsInside root := by
  obtain ⟨k, hk, rfl⟩ := mem_above_iff.mp h
  intro hinside
  have hlength := (isWithin_iff.mp hinside.isWithin).length_le
  rw [List.length_take] at hlength
  omega

end Path

variable {root p q : Path} {d d' : Disk} {n : Node}

/-! ### Disks -/

namespace Disk

theorem node?_put_of_ne (h : q ≠ p) : (d.put p n).node? q = d.node? q := by
  simp [node?, put, List.lookup_cons, beq_false_of_ne h, Keyed.lookup_filter (· != p), h]

theorem node?_removeTree_of_not_isWithin (h : p.isWithin root = false) :
    (d.removeTree root).node? p = d.node? p := by
  simp [node?, removeTree, Keyed.lookup_filter (fun q => !Path.isWithin q root), h]

/-- Nothing stands at a removed folder or below it. -/
theorem node?_removeTree (hroot : root ≠ []) (h : p.isWithin root = true) :
    (d.removeTree root).node? p = none := by
  have hp : p ≠ [] := by
    rintro rfl
    exact hroot (List.prefix_nil.mp (Path.isWithin_iff.mp h))
  simp [node?, removeTree, hp, Keyed.lookup_filter (fun q => !Path.isWithin q root), h]

/-- All folders above a path stand. -/
def Reaches (d : Disk) (root : Path) : Prop :=
  ∀ p ∈ root.above, d.isFolder p = true

/-- A folder can be made at the path: all folders above it stand, and nothing stands there. -/
structure Vacant (d : Disk) (root : Path) : Prop where
  /-- The folders above the path stand. -/
  reaches : d.Reaches root
  /-- Nothing stands at the path or below it. -/
  free : ∀ p : Path, p.isWithin root = true → d.node? p = none

theorem Vacant.ne_nil (h : d.Vacant root) : root ≠ [] := by
  rintro rfl
  cases h.free [] rfl

/-- The disks agree at every path that is not inside the folder. -/
def SameOutside (root : Path) (d d' : Disk) : Prop :=
  ∀ p : Path, ¬ p.IsInside root → d'.node? p = d.node? p

namespace SameOutside

theorem refl (root : Path) (d : Disk) : SameOutside root d d := fun _ _ => rfl

theorem trans {d'' : Disk} (h : SameOutside root d d') (h' : SameOutside root d' d'') :
    SameOutside root d d'' := fun p hp => (h' p hp).trans (h p hp)

theorem put (h : p.IsInside root) : SameOutside root d (d.put p n) := by
  intro q hq
  refine node?_put_of_ne ?_
  rintro rfl
  exact hq h

/-- The folders above a folder still stand after changes inside it. -/
theorem reaches (h : SameOutside root d d') (hd : d.Reaches root) : d'.Reaches root := by
  intro p hp
  rw [isFolder, h p (Path.not_isInside_of_mem_above hp)]
  exact hd p hp

/-- The induction is on the folders that are put one after the other: each of them is inside the
folder or stands already. -/
theorem foldl_put {ps : List Path} (hd : d.Reaches root)
    (h : ∀ q ∈ ps, q.IsInside root ∨ q ∈ root.above) :
    SameOutside root d
      (ps.foldl (fun d q => if (d.node? q).isSome then d else d.put q .folder) d) := by
  induction ps generalizing d with
  | nil => exact refl root d
  | cons q ps ih =>
    rw [List.forall_mem_cons] at h
    have hstep : SameOutside root d (if (d.node? q).isSome then d else d.put q .folder) := by
      split
      case isTrue => exact refl root d
      case isFalse hnone =>
        rcases h.1 with hq | hq
        · exact put hq
        · rw [beq_iff_eq.mp (hd q hq)] at hnone
          exact absurd rfl hnone
    exact hstep.trans (ih (hstep.reaches hd) h.2)

theorem putFolders (hd : d.Reaches root) (h : p.IsInside root ∨ p ∈ root.above) :
    SameOutside root d (d.putFolders p) := by
  refine foldl_put hd fun q hq => ?_
  rcases List.mem_append.mp hq with hq | hq
  · exact h.elim (fun h => Path.isInside_or_mem_above h hq)
      fun h => .inr (Path.mem_above_trans h hq)
  · rw [List.mem_singleton.mp hq]
    exact h

/-- Where nothing stood at a folder or below it, its removal leaves what stood at first. -/
theorem removeTree (h : SameOutside root d d') (hd : d.Vacant root) (p : Path) :
    (d'.removeTree root).node? p = d.node? p := by
  cases hp : p.isWithin root with
  | true => rw [node?_removeTree hd.ne_nil hp, hd.free p hp]
  | false =>
    rw [node?_removeTree_of_not_isWithin hp]
    refine h p fun hinside => ?_
    rw [hinside.isWithin] at hp
    cases hp

end SameOutside

end Disk

/-! ### Actions -/

namespace Action

open Disk

variable {α β : Type}

/-- What comes out of an action. -/
def outcome (x : Action α) (d : Disk) : Except Refusal α :=
  (x.run.run d).1

/-- The disk after an action, whether it was refused or not. -/
def after (x : Action α) (d : Disk) : Disk :=
  (x.run.run d).2

theorem outcome_bind (x : Action α) (f : α → Action β) (d : Disk) :
    outcome (x >>= f) d = (outcome x d).bind fun a => outcome (f a) (after x d) := by
  simp only [outcome, after, ExceptT.run_bind, StateT.run_bind]
  rcases x.run.run d with ⟨e | a, d'⟩ <;> rfl

theorem after_bind (x : Action α) (f : α → Action β) (d : Disk) :
    after (x >>= f) d =
      match outcome x d with
      | .ok a => after (f a) (after x d)
      | .error _ => after x d := by
  simp only [outcome, after, ExceptT.run_bind, StateT.run_bind]
  rcases x.run.run d with ⟨e | a, d'⟩ <;> rfl

/-- Where an action is refused, another one follows. -/
theorem run_tryCatch (x : Action α) (f : Refusal → Action α) (d : Disk) :
    (tryCatch x f).run.run d =
      match outcome x d with
      | .ok a => (.ok a, after x d)
      | .error e => (f e).run.run (after x d) := by
  rw [ExceptT.run_tryCatch, StateT.run_bind]
  simp only [outcome, after]
  rcases x.run.run d with ⟨e | a, d'⟩ <;> rfl

/-! ### What the actions do -/

theorem run_ensureFolder (p : Path) (d : Disk) :
    (ensureFolder p).run.run d =
      match d.node? p with
      | some .folder => (.ok (), d)
      | some (.file _) => (.error (.system .present p.shown), d)
      | none =>
        if d.hindrance? p == some .notAFolder then (.error (.system .notAFolder p.shown), d)
        else (.ok (), d.putFolders p) := by
  change (match d.node? p with
    | some .folder => _
    | some (.file _) => _
    | none => _ : Action Unit).run.run d = _
  split
  · rfl
  · rfl
  · split <;> rfl

theorem run_writeFile (p : Path) (c : Content) (d : Disk) :
    (writeFile p c).run.run d =
      match d.node? p, d.hindrance? p with
      | some .folder, _ => (.error (.system .isAFolder p.shown), d)
      | some (.file _), _ => (.ok (), d.put p (.file c))
      | none, some cause => (.error (.system cause p.shown), d)
      | none, none => (.ok (), d.put p (.file c)) := by
  change (match d.node? p, d.hindrance? p with
    | some .folder, _ => _
    | some (.file _), _ => _
    | none, some _ => _
    | none, none => _ : Action Unit).run.run d = _
  split <;> rfl

theorem run_readFile (p : Path) (d : Disk) :
    (readFile p).run.run d =
      match d.node? p with
      | some (.file c) => (.ok c, d)
      | some .folder => (.error (.system .isAFolder p.shown), d)
      | none => (.error (.system .missing p.shown), d) := by
  change (match d.node? p with
    | some (.file _) => _
    | some .folder => _
    | none => _ : Action Content).run.run d = _
  split <;> rfl

/-- The action is refused by the system only. -/
def FailsBySystem (x : Action α) : Prop :=
  ∀ d e, outcome x d = .error e → ∃ cause path, e = .system cause path

theorem failsBySystem_ensureFolder (p : Path) : FailsBySystem (ensureFolder p) := by
  intro d e h
  rw [outcome, run_ensureFolder] at h
  split at h
  · cases h
  · cases h
    exact ⟨_, _, rfl⟩
  · split at h
    · cases h
      exact ⟨_, _, rfl⟩
    · cases h

theorem failsBySystem_writeFile (p : Path) (c : Content) : FailsBySystem (writeFile p c) := by
  intro d e h
  rw [outcome, run_writeFile] at h
  split at h <;> cases h
  · exact ⟨_, _, rfl⟩
  · exact ⟨_, _, rfl⟩

theorem FailsBySystem.bind {x : Action α} {f : α → Action β} (hx : FailsBySystem x)
    (hf : ∀ a, FailsBySystem (f a)) : FailsBySystem (x >>= f) := by
  intro d e h
  rw [outcome_bind] at h
  cases hout : outcome x d with
  | error e' =>
    rw [hout] at h
    cases h
    exact hx d e hout
  | ok a =>
    rw [hout] at h
    exact hf a _ e h

/-! ### Actions inside a folder -/

/-- The action changes nothing but what is inside a folder that can be reached. -/
def Confined (root : Path) (x : Action α) : Prop :=
  ∀ d : Disk, d.Reaches root → SameOutside root d (after x d)

namespace Confined

theorem pure (root : Path) (a : α) : Confined root (Pure.pure a : Action α) :=
  fun d _ => SameOutside.refl root d

theorem throw (root : Path) (e : Refusal) : Confined root (MonadExcept.throw e : Action α) :=
  fun d _ => SameOutside.refl root d

theorem bind {x : Action α} {f : α → Action β} (hx : Confined root x)
    (hf : ∀ a, Confined root (f a)) : Confined root (x >>= f) := by
  intro d hd
  rw [after_bind]
  cases outcome x d with
  | error e => exact hx d hd
  | ok a => exact (hx d hd).trans (hf a _ ((hx d hd).reaches hd))

/-- Actions for items, one after the other. -/
theorem forM {xs : List β} {f : β → Action Unit} (h : ∀ x ∈ xs, Confined root (f x)) :
    Confined root (xs.forM f) := by
  induction xs with
  | nil => exact pure root ()
  | cons x xs ih =>
    rw [List.forall_mem_cons] at h
    exact h.1.bind fun _ => ih h.2

end Confined

theorem confined_ensureFolder (h : p.IsInside root ∨ p ∈ root.above) :
    Confined root (ensureFolder p) := by
  intro d hd
  rw [after, run_ensureFolder]
  split
  · exact SameOutside.refl root d
  · exact SameOutside.refl root d
  · split
    · exact SameOutside.refl root d
    · exact SameOutside.putFolders hd h

theorem confined_writeFile (c : Content) (h : p.IsInside root) : Confined root (writeFile p c) := by
  intro d _
  rw [after, run_writeFile]
  split
  · exact SameOutside.refl root d
  · exact SameOutside.put h
  · exact SameOutside.refl root d
  · exact SameOutside.put h

end Action

end Bindery.Storage
