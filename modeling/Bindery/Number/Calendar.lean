import Bindery.Number.Digits

/-!
# Dates and times

Days of the Gregorian calendar, times of day with an optional distance from universal time, and both
together. A moment is written in the ISO form, or through a mask in which a percent sign and a
letter stand for one part of it.
-/

namespace Bindery.Number

/-- A day of the Gregorian calendar. -/
structure Date where
  /-- The year. -/
  year : Nat
  /-- The month, from 1. -/
  month : Nat
  /-- The day of the month, from 1. -/
  day : Nat
  deriving DecidableEq, Repr

/-- A time of day. -/
structure Time where
  /-- The hour, from 0. -/
  hour : Nat
  /-- The minute. -/
  minute : Nat
  /-- The second. -/
  second : Nat
  /-- The microsecond. -/
  micro : Nat
  /-- How many microseconds the local time is ahead of universal time, where this is known. -/
  ahead : Option Int
  deriving DecidableEq, Repr

/-- A day, a time of day, or both. -/
inductive Moment where
  /-- A day. -/
  | date (d : Date)
  /-- A time of day. -/
  | time (t : Time)
  /-- A time on a day. -/
  | dateTime (d : Date) (t : Time)
  deriving DecidableEq, Repr

/-! ### The calendar -/

/-- Does the year have a day more? -/
def isLeap (y : Nat) : Bool :=
  y % 4 == 0 && (y % 100 != 0 || y % 400 == 0)

/-- The lengths of the months of a year. -/
def monthLengths (y : Nat) : List Nat :=
  [31, if isLeap y then 29 else 28, 31, 30, 31, 30, 31, 31, 30, 31, 30, 31]

/-- The day of the year, from 1. -/
def Date.dayOfYear (d : Date) : Nat :=
  ((monthLengths d.year).take (d.month - 1)).foldl (· + ·) d.day

/-- The number of days since the first day of the year 1, which counts as day 1. -/
def Date.ordinal (d : Date) : Nat :=
  let y := d.year - 1
  y * 365 + y / 4 - y / 100 + y / 400 + d.dayOfYear

/-- The day of the week, Monday being 0. -/
def Date.weekday (d : Date) : Nat :=
  (d.ordinal + 6) % 7

/-- Is this a day of the calendar? -/
def Date.isValid (d : Date) : Bool :=
  1 ≤ d.year && d.year ≤ 9999 && 1 ≤ d.month && d.month ≤ 12 && 1 ≤ d.day &&
    d.day ≤ (monthLengths d.year).getD (d.month - 1) 0

/-- The time as microseconds since midnight. -/
def Time.micros (t : Time) : Nat :=
  ((t.hour * 60 + t.minute) * 60 + t.second) * 1000000 + t.micro

/-! ### The ISO form -/

/-- A day as year, month and day. -/
def Date.iso (d : Date) : List Char :=
  paddedDigits 4 d.year ++ '-' :: paddedDigits 2 d.month ++ '-' :: paddedDigits 2 d.day

/-- Hours, minutes and seconds. -/
def clock (h m s : Nat) : List Char :=
  paddedDigits 2 h ++ ':' :: paddedDigits 2 m ++ ':' :: paddedDigits 2 s

/-- A fraction of a second, where there is one. -/
def fraction (micro : Nat) : List Char :=
  if micro == 0 then [] else '.' :: paddedDigits 6 micro

/-- A distance from universal time, with seconds and a fraction only where they are needed. -/
def offset (ahead : Int) : List Char :=
  let n := ahead.natAbs
  let micro := n % 1000000
  let s := n / 1000000 % 60
  let m := n / 60000000 % 60
  let h := n / 3600000000
  (if ahead < 0 then '-' else '+') :: paddedDigits 2 h ++ ':' :: paddedDigits 2 m ++
    (if s == 0 && micro == 0 then [] else ':' :: paddedDigits 2 s ++ fraction micro)

/-- A time of day with its fraction and its distance from universal time, where they exist. -/
def Time.iso (t : Time) : List Char :=
  clock t.hour t.minute t.second ++ fraction t.micro ++ (t.ahead.map offset).getD []

/-- The ISO form of a moment. -/
def Moment.iso : Moment → List Char
  | .date d => d.iso
  | .time t => t.iso
  | .dateTime d t => d.iso ++ 'T' :: t.iso

/-! ### Masks -/

/-- The names of the days of the week from Monday. -/
def dayNames : List String :=
  ["Monday", "Tuesday", "Wednesday", "Thursday", "Friday", "Saturday", "Sunday"]

/-- The names of the months. -/
def monthNames : List String :=
  ["January", "February", "March", "April", "May", "June", "July", "August", "September", "October",
   "November", "December"]

/-- The day of a moment; a time alone is taken on the first of January 1900. -/
def Moment.day : Moment → Date
  | .date d => d
  | .time _ => ⟨1900, 1, 1⟩
  | .dateTime d _ => d

/-- The time of a moment; a day alone begins at midnight. -/
def Moment.clockTime : Moment → Time
  | .date _ => ⟨0, 0, 0, 0, none⟩
  | .time t => t
  | .dateTime _ t => t

/-- The part of a moment that a letter of a mask stands for. -/
def Moment.part? (m : Moment) (letter : Char) : Option (List Char) :=
  let d := m.day
  let t := m.clockTime
  match letter with
  | 'd' => some (paddedDigits 2 d.day)
  | 'm' => some (paddedDigits 2 d.month)
  | 'Y' => some (digitsOf d.year)
  | 'y' => some (paddedDigits 2 (d.year % 100))
  | 'H' => some (paddedDigits 2 t.hour)
  | 'M' => some (paddedDigits 2 t.minute)
  | 'S' => some (paddedDigits 2 t.second)
  | 'f' => some (paddedDigits 6 t.micro)
  | 'I' => some (paddedDigits 2 ((t.hour + 11) % 12 + 1))
  | 'p' => some (if t.hour < 12 then ['A', 'M'] else ['P', 'M'])
  | 'j' => some (paddedDigits 3 d.dayOfYear)
  | 'a' => some ((dayNames.getD d.weekday "").toList.take 3)
  | 'A' => some (dayNames.getD d.weekday "").toList
  | 'b' => some ((monthNames.getD (d.month - 1) "").toList.take 3)
  | 'B' => some (monthNames.getD (d.month - 1) "").toList
  | '%' => some ['%']
  | _ => none

/-- A moment through a mask; a percent sign before another character stands for itself. -/
def Moment.masked (m : Moment) : List Char → List Char
  | [] => []
  | '%' :: c :: r =>
    match m.part? c with
    | some text => text ++ m.masked r
    | none => '%' :: c :: m.masked r
  | c :: r => c :: m.masked r

/-! ### Reading the ISO form -/

/-- The number written by the first `n` characters, all digits, and the characters after them. -/
def takeNumber (n : Nat) (cs : List Char) : Option (Nat × List Char) :=
  let ds := cs.take n
  if ds.length == n && ds.all Char.isDigit then some (readDigits 0 ds, cs.drop n) else none

/-- A day, with or without hyphens, and the characters after it. -/
def readDate (cs : List Char) : Option (Date × List Char) := do
  let (y, r) ← takeNumber 4 cs
  match r with
  | '-' :: r =>
    let (m, r) ← takeNumber 2 r
    match r with
    | '-' :: r =>
      let (d, r) ← takeNumber 2 r
      if (Date.mk y m d).isValid then some (⟨y, m, d⟩, r) else none
    | _ => none
  | r =>
    let (m, r) ← takeNumber 2 r
    let (d, r) ← takeNumber 2 r
    if (Date.mk y m d).isValid then some (⟨y, m, d⟩, r) else none

/-- The microseconds that the digits of a fraction write; more than six digits are cut. -/
def readFraction (ds : List Char) : Nat :=
  let six := ds.take 6
  readDigits 0 six * Nat.pow 10 (6 - six.length)

/-- Hours, and minutes, seconds and a fraction where they follow, and the characters after them. -/
def readClock (cs : List Char) : Option ((Nat × Nat × Nat × Nat) × List Char) := do
  let (h, r) ← takeNumber 2 cs
  let next (r : List Char) : Option (Nat × List Char) :=
    match r with
    | ':' :: r => takeNumber 2 r
    | r => takeNumber 2 r
  match next r with
  | none => some ((h, 0, 0, 0), r)
  | some (m, r) =>
    match next r with
    | none => some ((h, m, 0, 0), r)
    | some (s, r) =>
      match r with
      | '.' :: f | ',' :: f =>
        let ds := f.takeWhile Char.isDigit
        if ds.isEmpty then none else some ((h, m, s, readFraction ds), f.dropWhile Char.isDigit)
      | r => some ((h, m, s, 0), r)

/-- A distance from universal time that fills the characters. -/
def readOffset (cs : List Char) : Option (Option Int) := do
  let signed (sign : Int) (r : List Char) : Option (Option Int) := do
    let ((h, m, s, f), rest) ← readClock r
    if rest.isEmpty then some (some (sign * ((Time.mk h m s f none).micros : Int))) else none
  match cs with
  | [] => some none
  | ['Z'] => some (some 0)
  | '+' :: r => signed 1 r
  | '-' :: r => signed (-1) r
  | _ => none

/-- A time of day that fills the characters. -/
def readTime (cs : List Char) : Option Time := do
  let ((h, m, s, f), r) ← readClock cs
  let ahead ← readOffset r
  if h < 24 && m < 60 && s < 60 then some ⟨h, m, s, f, ahead⟩ else none

/-- The day that an ISO text writes. -/
def Date.ofText? (s : String) : Option Date := do
  let (d, r) ← readDate s.toList
  if r.isEmpty then some d else none

/-- The time of day that an ISO text writes. -/
def Time.ofText? (s : String) : Option Time :=
  match s.toList with
  | 'T' :: r => readTime r
  | cs => readTime cs

/-- The day and the time that an ISO text writes; without a time it is midnight. -/
def dateTimeOfText? (s : String) : Option Moment := do
  let (d, r) ← readDate s.toList
  match r with
  | [] => some (.dateTime d ⟨0, 0, 0, 0, none⟩)
  | _ :: r =>
    let t ← readTime r
    some (.dateTime d t)

end Bindery.Number
