import Bindery.Inheritance
import Bindery.Keyed
import Bindery.Query.Name
import Bindery.Query.Literal

/-!
# Input objects

Classes of input objects and the objects that are made of them. A class sends the properties of its
first base and then its own; any property that it inherits can be assigned. An object sends the
properties that were assigned to it, in the order of its class. Objects may refer to each other.
-/

namespace Bindery.Query

open Bindery.Number

/-! ### Classes -/

/-- The declaration of an input class. -/
structure InputDeclaration where
  /-- The name of the class. -/
  name : String
  /-- The classes that it inherits from. -/
  bases : List String
  /-- The properties that it adds. -/
  own : List InputProperty
  deriving Repr

/-- An input class as its declaration makes it. -/
structure InputType where
  /-- The properties that objects send. -/
  cls : InputClass
  /-- The class and all that it inherits from. -/
  order : List String
  /-- The properties that can be assigned, the first of an attribute before others. -/
  known : List InputProperty
  deriving Repr

/-- The input classes by their names. -/
abbrev InputTypes := Keyed InputType

/-- The property of an attribute that can be assigned. -/
def InputType.property? (t : InputType) (attr : String) : Option InputProperty :=
  t.known.find? fun p => p.attr == attr

/-- The properties by their attributes: a repeated attribute keeps its place and its last
property. -/
def distinctProperties (ps : List InputProperty) : List InputProperty :=
  (Keyed.ofList (ps.map fun (p : InputProperty) => (p.attr, p))).values

/-- The classes with one more. -/
def declareInput (ts : InputTypes) (own : List (String × List InputProperty))
    (d : InputDeclaration) : Except Error (InputTypes × List (String × List InputProperty)) := do
  let bases ← inOrder (d.bases.map fun b =>
    match ts.get? b with
    | some t => .ok t
    | none => .error .unknownObject)
  match Inheritance.linearize d.name d.bases (bases.map InputType.order) with
  | none => throw .badCall
  | some order =>
    let mine := distinctProperties d.own
    let own := (d.name, mine) :: own
    let inherited :=
      match bases with
      | [] => []
      | b :: _ => b.cls.properties
    let known := order.flatMap fun n => (own.lookup n).getD []
    return (ts.put d.name ⟨⟨d.name, inherited ++ mine⟩, order, known⟩, own)

/-- The classes of declarations, each of which may inherit from earlier ones. -/
def declareInputs (ds : List InputDeclaration) : Except Error InputTypes :=
  (ds.foldlM (fun (s : InputTypes × List (String × List InputProperty)) d =>
    declareInput s.1 s.2 d) (.empty, [])).map Prod.fst

/-! ### Objects -/

/-- An input object. -/
structure InputObject where
  /-- The class. -/
  type : InputType
  /-- The values of the properties that were assigned. -/
  values : Keyed Value
  /-- The values of attributes that are no properties. -/
  others : Keyed Value
  deriving Repr

/-- An object of a class with properties assigned. -/
def InputType.make (t : InputType) (values : List (String × Value)) : Except Error InputObject :=
  let values := Keyed.ofList values
  if values.contains "self" then .error .badCall
  else match values.keys.find? fun k => !t.cls.properties.any fun p => p.attr == k with
    | some k => .error (.unknownProperty t.cls.name k)
    | none => .ok ⟨t, values, .empty⟩

/-- The object with an attribute assigned. -/
def InputObject.assign (o : InputObject) (attr : String) (v : Value) : InputObject :=
  if (o.type.property? attr).isSome then { o with values := o.values.put attr v }
  else { o with others := o.others.put attr v }

/-- The value of an attribute; a parameter that stands for no variable gives its value. -/
def InputObject.get (o : InputObject) (attr : String) : Except Error Value :=
  if (o.type.property? attr).isSome then
    match o.values.get? attr with
    | some (.parameter ⟨none, _, _⟩ v) => .ok v
    | some v => .ok v
    | none => .ok .null
  else match o.others.get? attr with
    | some v => .ok v
    | none => .error .missingMember

/-- The properties that were assigned, in the order of the class: the name of each, its value and the
mask that its moments are written through. -/
def InputObject.propertyValues (o : InputObject) : List (String × Value × Option String) :=
  o.type.cls.properties.filterMap fun p =>
    (o.values.get? p.attr).map fun v => (p.graphqlName, v, p.mask)

/-- The object without the value of an attribute. -/
def InputObject.delete (o : InputObject) (attr : String) : Except Error InputObject :=
  if (o.type.property? attr).isSome then .ok { o with values := (o.values.remove attr).1 }
  else match o.others.remove attr with
    | (others, true) => .ok { o with others := others }
    | _ => .error .missingMember

/-! ### Objects that refer to each other -/

/-- Objects by their numbers. -/
abbrev InputObjects := List InputObject

mutual

/-- The value with the objects that it refers to in their places. -/
def Value.filled (get : Nat → Except Error Value) : Value → Except Error Value
  | .shared id => get id
  | .member wire label => (wire.filled get).map (.member · label)
  | .parameter h v => (v.filled get).map (.parameter h)
  | .list items => (filledItems get items).map .list
  | .tuple items => (filledItems get items).map .tuple
  | .mapping entries => (filledEntries get entries).map .mapping
  | .record properties => (filledProperties get properties).map .record
  | .input cls assigned => (filledAssigned get assigned).map (.input cls)
  | v => .ok v

/-- The items of a sequence with the objects in their places. -/
def filledItems (get : Nat → Except Error Value) : List Value → Except Error (List Value)
  | [] => .ok []
  | v :: r => do
    let x ← v.filled get
    let xs ← filledItems get r
    return x :: xs

/-- The entries of a mapping with the objects in their places. -/
def filledEntries (get : Nat → Except Error Value) :
    List (Value × Value) → Except Error (List (Value × Value))
  | [] => .ok []
  | (k, v) :: r => do
    let x ← v.filled get
    let xs ← filledEntries get r
    return (k, x) :: xs

/-- Named values with the objects in their places. -/
def filledProperties (get : Nat → Except Error Value) :
    List (String × Value × Option String) → Except Error (List (String × Value × Option String))
  | [] => .ok []
  | (n, v, m) :: r => do
    let x ← v.filled get
    let xs ← filledProperties get r
    return (n, x, m) :: xs

/-- Assigned values with the objects in their places. -/
def filledAssigned (get : Nat → Except Error Value) :
    List (String × Value) → Except Error (List (String × Value))
  | [] => .ok []
  | (n, v) :: r => do
    let x ← v.filled get
    let xs ← filledAssigned get r
    return (n, x) :: xs

end

/-- An object as a value, with the objects that it refers to. A path through distinct objects is no
longer than their number, so the fuel runs out only where objects contain each other. -/
def InputObjects.value (os : InputObjects) : Nat → Nat → Except Error Value
  | 0, _ => .error .endless
  | fuel + 1, id =>
    match os[id]? with
    | none => .error .unknownObject
    | some o => (filledAssigned (os.value fuel) o.values.entries).map (.input o.type.cls)

/-- A value with the objects that it refers to. -/
def InputObjects.fill (os : InputObjects) (v : Value) : Except Error Value :=
  v.filled (os.value (os.length + 1))

/-- An object as the record of what it sends, with the objects that this refers to. A reference that
is left where the fuel runs out has no literal, but it may stand where no literal is asked for. -/
def InputObjects.record (os : InputObjects) : Nat → Nat → Except Error Value
  | 0, id => .ok (.shared id)
  | fuel + 1, id =>
    match os[id]? with
    | none => .error .unknownObject
    | some o => (filledProperties (os.record fuel) o.propertyValues).map .record

/-- A value as an argument, with what the objects that it refers to send. -/
def InputObjects.argument (os : InputObjects) (v : Value) : Except Error Value :=
  v.filled (os.record (os.length + 1))

/-- The text of a value as an argument, on a line of the given level. -/
def InputObjects.print (os : InputObjects) (l : Layout) (level : Int) (mask : Option String)
    (v : Value) : Except Error String := do
  (← os.argument v).print l level mask

/-! ### Equality -/

/-- A number as a sign, a coefficient and powers of two and of ten. -/
structure Magnitude where
  /-- Is the number below zero? -/
  negative : Bool
  /-- The numerator. -/
  num : Nat
  /-- The denominator. -/
  den : Nat

/-- The magnitude of a finite number. -/
def Value.magnitude? : Value → Option Magnitude
  | .bool b => some ⟨false, b.toNat, 1⟩
  | .int n => some ⟨n < 0, n.natAbs, 1⟩
  | .float (.finite neg m e) =>
    let (num, den) := scaleBy 2 e m 1
    some ⟨neg, num, den⟩
  | .decimal (.finite neg c e) =>
    let (num, den) := scaleBy 10 e c 1
    some ⟨neg, num, den⟩
  | _ => none

/-- The sign of an infinite number. -/
def Value.infiniteSign? : Value → Option Bool
  | .float (.infinite neg) => some neg
  | .decimal (.infinite neg) => some neg
  | _ => none

/-- Do two magnitudes denote the same number? -/
def Magnitude.same (a b : Magnitude) : Bool :=
  a.num * b.den == b.num * a.den && (a.negative == b.negative || a.num == 0)

/-- The moment in universal time: a time that names its distance is moved by it. -/
def instant? : Moment → Option (Nat × Int × Bool)
  | .date _ => none
  | .time t => some (0, t.micros - t.ahead.getD 0, t.ahead.isSome)
  | .dateTime d t =>
    some (1, d.ordinal * 86400000000 + t.micros - t.ahead.getD 0, t.ahead.isSome)

/-- Do two moments of one kind denote the same point? -/
def sameMoment (a b : Moment) : Bool :=
  match instant? a, instant? b with
  | some x, some y => x == y
  | _, _ => a == b

mutual

/-- Are two values equal? Objects without an equality of their own equal nothing but themselves, and
`sameObject` compares objects that are kept elsewhere. -/
def Value.same (sameObject : Nat → Nat → Bool) : Value → Value → Bool
  | .null, .null => true
  | .text a, .text b => a == b
  | .uuid a, .uuid b => a == b
  | .moment a, .moment b => sameMoment a b
  | .bytes a, .bytes b => a == b
  | .list a, .list b => sameItems sameObject a b
  | .tuple a, .tuple b => sameItems sameObject a b
  | .mapping a, .mapping b => a.length == b.length && sameEntries sameObject a b
  | .input c a, .input d b => c == d && a.length == b.length && sameAssigned sameObject a b
  | .shared a, .shared b => sameObject a b
  | a, b =>
    match a.magnitude?, b.magnitude? with
    | some x, some y => x.same y
    | _, _ => a.infiniteSign?.isSome && a.infiniteSign? == b.infiniteSign?

/-- Are the items equal one by one? -/
def sameItems (sameObject : Nat → Nat → Bool) : List Value → List Value → Bool
  | [], [] => true
  | a :: r, b :: s => a.same sameObject b && sameItems sameObject r s
  | _, _ => false

/-- Does each entry have an equal one among the others? -/
def sameEntries (sameObject : Nat → Nat → Bool) :
    List (Value × Value) → List (Value × Value) → Bool
  | [], _ => true
  | (k, v) :: r, b =>
    b.any (fun e => k.same sameObject e.1 && v.same sameObject e.2) && sameEntries sameObject r b

/-- Does each assigned value have an equal one under its name among the others? -/
def sameAssigned (sameObject : Nat → Nat → Bool) :
    List (String × Value) → List (String × Value) → Bool
  | [], _ => true
  | (k, v) :: r, b =>
    b.any (fun e => k == e.1 && v.same sameObject e.2) && sameAssigned sameObject r b

end

/-- The entries with the value of a key replaced in place, or the key added at the end. -/
def putPair (key value : Value) : List (Value × Value) → List (Value × Value)
  | [] => [(key, value)]
  | (k, v) :: r =>
    if k.same (· == ·) key then (k, value) :: r else (k, v) :: putPair key value r

/-- The mapping that arises from putting entries one after the other. -/
def mappingOf (entries : List (Value × Value)) : Value :=
  .mapping (entries.foldl (fun m e => putPair e.1 e.2 m) [])

/-! ### Data models -/

/-- The values that a data model with the given attributes and aliases sends when it is made from
named values: each attribute that is given under its alias or, failing that, under its own name. -/
def modelRecord (fields : List (String × Option String)) (values : List (String × Value)) : Value :=
  let given := Keyed.ofList values
  .record (fields.filterMap fun f =>
    let key := f.2.getD f.1
    let found :=
      match given.get? key with
      | some v => some v
      | none => given.get? f.1
    found.map fun v => (if key.isEmpty then f.1 else key, v, none))

/-! ### Equality of objects -/

/-- Are two objects equal? They are of one class and were assigned equal values. -/
def InputObjects.same (os : InputObjects) : Nat → Nat → Nat → Bool
  | 0, _, _ => false
  | fuel + 1, a, b =>
    a == b ||
      match os[a]?, os[b]? with
      | some x, some y =>
        x.type.cls == y.type.cls && x.values.size == y.values.size &&
          sameAssigned (os.same fuel) x.values.entries y.values.entries
      | _, _ => false

/-- Are two objects equal? -/
def InputObjects.equal (os : InputObjects) (a b : Nat) : Bool :=
  os.same (os.length + 1) a b

end Bindery.Query
