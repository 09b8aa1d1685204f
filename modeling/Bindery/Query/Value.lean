import Bindery.Number.Binary64
import Bindery.Number.Calendar
import Bindery.Text.Quoted

/-!
# Argument values

The values that a caller may pass as an argument of a field: scalars, dates, members of an
enumeration, parameters, lists, mappings and input objects. A value is a finite tree; a place that
stands for an object kept elsewhere is filled in before the value is written.
-/

namespace Bindery.Query

open Bindery.Number Bindery.Text

/-- One field of an input class. -/
structure InputProperty where
  /-- The name of the field in the client. -/
  attr : String
  /-- The name of the field in the schema. -/
  graphqlName : String
  /-- The mask through which a moment is written. -/
  mask : Option String
  deriving DecidableEq, Repr

/-- A class of input objects with the fields that it sends, in order. -/
structure InputClass where
  /-- The name of the class. -/
  name : String
  /-- The fields that are sent. -/
  properties : List InputProperty
  deriving DecidableEq, Repr

/-- What a parameter is besides its value. -/
structure ParameterHead where
  /-- The name of the operation variable, for a parameter that stands for one. -/
  name : Option String
  /-- The text of the variable's type. -/
  typeName : Option String
  /-- The number of the declaration, for a parameter that declares an operation variable. -/
  declaration : Option Nat
  deriving DecidableEq, Repr

/-- An argument value. -/
inductive Value where
  /-- No value. -/
  | null
  /-- A truth value. -/
  | bool (b : Bool)
  /-- An integer. -/
  | int (n : Int)
  /-- A number of double precision. -/
  | float (x : Binary64)
  /-- A decimal number. -/
  | decimal (d : Decimal)
  /-- A text. -/
  | text (s : String)
  /-- A universally unique identifier, as lower-case digits in five groups. -/
  | uuid (s : String)
  /-- A date, a time or both. -/
  | moment (m : Moment)
  /-- A member of an enumeration that is sent as `wire`; `label` names the member. -/
  | member (wire : Value) (label : String)
  /-- A parameter. -/
  | parameter (head : ParameterHead) (value : Value)
  /-- A list. -/
  | list (items : List Value)
  /-- A fixed sequence. -/
  | tuple (items : List Value)
  /-- A mapping from keys to values. -/
  | mapping (entries : List (Value × Value))
  /-- Named values, each with the mask through which a moment is written. -/
  | record (properties : List (String × Value × Option String))
  /-- An object of an input class with the values that were assigned. -/
  | input (cls : InputClass) (assigned : List (String × Value))
  /-- A string of bytes. -/
  | bytes (bs : List Nat)
  /-- An object that is kept elsewhere under a number. -/
  | shared (id : Nat)
  deriving Repr

instance : Inhabited Value := ⟨.null⟩

/-! ### The shown form -/

/-- Texts with a separator between them. -/
def joinWith (sep : String) (parts : List String) : String :=
  sep.intercalate parts

/-- The text of an integer. -/
def integerText (n : Int) : String :=
  String.ofList (integerChars n)

/-- The byte as it is shown between the quotes `quote`. -/
def shownByte (quote : Char) (n : Nat) : List Char :=
  let c := Char.ofNat n
  if n < 0x80 then quoteChar quote c else '\\' :: 'x' :: hexDigits 2 n

/-- A string of bytes as it is shown. -/
def shownBytes (bs : List Nat) : String :=
  let quote := quoteFor (bs.map Char.ofNat)
  String.ofList ('b' :: quote :: bs.flatMap (shownByte quote) ++ [quote])

/-- The distance from universal time as it is shown. -/
def shownZone (ahead : Int) : String :=
  if ahead == 0 then "datetime.timezone.utc"
  else
    let days := ahead.fdiv 86400000000
    let rest := ahead.fmod 86400000000
    let part (name : String) (n : Int) : List String :=
      if n == 0 then [] else [name ++ "=" ++ integerText n]
    "datetime.timezone(datetime.timedelta(" ++
      joinWith ", " (part "days" days ++ part "seconds" (rest / 1000000) ++
        part "microseconds" (rest % 1000000)) ++ "))"

/-- The arguments that show a time of day; seconds and microseconds only where they are needed. -/
def shownClock (t : Time) : List String :=
  let nat (n : Nat) := integerText n
  [nat t.hour, nat t.minute] ++
    (if t.second == 0 && t.micro == 0 then [] else [nat t.second]) ++
    (if t.micro == 0 then [] else [nat t.micro])

/-- The argument that shows the distance from universal time. -/
def shownZoneOf (t : Time) : List String :=
  (t.ahead.map fun a => "tzinfo=" ++ shownZone a).toList

/-- The arguments that show a day. -/
def shownDay (d : Date) : List String :=
  [integerText d.year, integerText d.month, integerText d.day]

/-- A moment as it is shown. -/
def shownMoment : Moment → String
  | .date d => "datetime.date(" ++ joinWith ", " (shownDay d) ++ ")"
  | .time t => "datetime.time(" ++ joinWith ", " (shownClock t ++ shownZoneOf t) ++ ")"
  | .dateTime d t =>
    "datetime.datetime(" ++ joinWith ", " (shownDay d ++ shownClock t ++ shownZoneOf t) ++ ")"

/-- The name of the class of a parameter. -/
def ParameterHead.className (h : ParameterHead) : String :=
  if h.declaration.isSome then "GraphQlQueryParameter" else "QueryBuilderParameter"

/-- A named parameter as it is shown. -/
def ParameterHead.shownVariable (h : ParameterHead) (name : String) : String :=
  h.className ++ "($" ++ name ++ ": " ++ h.typeName.getD "None" ++ ")"

mutual

/-- The value as it is shown in messages. -/
def Value.shown : Value → String
  | .null => "None"
  | .bool b => if b then "True" else "False"
  | .int n => integerText n
  | .float x => String.ofList x.chars
  | .decimal d => "Decimal('" ++ String.ofList d.chars ++ "')"
  | .text s => quoted s
  | .uuid s => "UUID('" ++ s ++ "')"
  | .moment m => shownMoment m
  | .member wire label => "<" ++ label ++ ": " ++ wire.shown ++ ">"
  | .parameter h v =>
    match h.name with
    | some name => h.shownVariable name
    | none => h.className ++ "(" ++ v.shown ++ ")"
  | .list items => "[" ++ joinWith ", " (shownItems items) ++ "]"
  | .tuple items =>
    "(" ++ joinWith ", " (shownItems items) ++ (if items.length == 1 then ",)" else ")")
  | .mapping entries => "\x7b" ++ joinWith ", " (shownEntries entries) ++ "\x7d"
  | .record _ => "<object>"
  | .input cls assigned => cls.name ++ "(" ++ joinWith ", " (shownAssigned assigned) ++ ")"
  | .bytes bs => shownBytes bs
  | .shared _ => "<object>"

/-- The items of a sequence as they are shown. -/
def shownItems : List Value → List String
  | [] => []
  | v :: r => v.shown :: shownItems r

/-- The entries of a mapping as they are shown. -/
def shownEntries : List (Value × Value) → List String
  | [] => []
  | (k, v) :: r => (k.shown ++ ": " ++ v.shown) :: shownEntries r

/-- The assigned values of an input object as they are shown. -/
def shownAssigned : List (String × Value) → List String
  | [] => []
  | (k, v) :: r => (k ++ "=" ++ v.shown) :: shownAssigned r

end

/-- The day and the time with a space between them, or the ISO form of one of them. -/
def plainMoment : Moment → String
  | .dateTime d t => String.ofList (d.iso ++ ' ' :: t.iso)
  | m => String.ofList m.iso

/-- The text that stands for the value itself: a text is its own. -/
def Value.plain : Value → String
  | .text s => s
  | .uuid s => s
  | .decimal d => String.ofList d.chars
  | .moment m => plainMoment m
  | .member _ label => label
  | v => v.shown

end Bindery.Query
