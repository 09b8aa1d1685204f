import Bindery.Text.Quoted

/-!
# Encodings

Where bytes fail to be the UTF-8 form of a text, and where a text fails to be plain ASCII. A fault
tells its place and its cause.
-/

namespace Bindery.Text

/-! ### UTF-8 -/

/-- Why bytes are no UTF-8. -/
inductive Utf8Cause where
  /-- A byte cannot begin a character. -/
  | start
  /-- A byte cannot continue a character. -/
  | continuation
  /-- The bytes end within a character. -/
  | ending
  deriving DecidableEq, Repr

/-- The wording of a cause. -/
def Utf8Cause.message : Utf8Cause → String
  | .start => "invalid start byte"
  | .continuation => "invalid continuation byte"
  | .ending => "unexpected end of data"

/-- The first place at which bytes are no UTF-8. -/
structure Utf8Fault where
  /-- The number of bytes before the fault. -/
  position : Nat
  /-- The number of bytes at fault. -/
  size : Nat
  /-- The first byte at fault. -/
  byte : Nat
  /-- The cause. -/
  cause : Utf8Cause
  deriving DecidableEq, Repr

/-- Can the byte continue a character? -/
def isContinuation (b : UInt8) : Bool :=
  0x80 ≤ b && b ≤ 0xBF

/-- Can the second byte follow the first one? Forms that are longer than needed, surrogates and
numbers beyond the last character are excluded by it. -/
def secondFits (first second : UInt8) : Bool :=
  isContinuation second && (first != 0xE0 || 0xA0 ≤ second) && (first != 0xED || second < 0xA0) &&
    (first != 0xF0 || 0x90 ≤ second) && (first != 0xF4 || second < 0x90)

/-- The first fault of bytes that begin at a position. -/
def utf8FaultFrom (position : Nat) : List UInt8 → Option Utf8Fault
  | [] => none
  | b :: r =>
    let fault (size : Nat) (cause : Utf8Cause) : Option Utf8Fault :=
      some ⟨position, size, b.toNat, cause⟩
    if b < 0x80 then utf8FaultFrom (position + 1) r
    else if b < 0xC2 || 0xF4 < b then fault 1 .start
    else if b < 0xE0 then
      match r with
      | [] => fault 1 .ending
      | c :: r => if isContinuation c then utf8FaultFrom (position + 2) r else fault 1 .continuation
    else if b < 0xF0 then
      match r with
      | [] => fault 1 .ending
      | [c] => if secondFits b c then fault 2 .ending else fault 1 .continuation
      | c :: d :: r =>
        if !secondFits b c then fault 1 .continuation
        else if !isContinuation d then fault 2 .continuation
        else utf8FaultFrom (position + 3) r
    else
      match r with
      | [] => fault 1 .ending
      | [c] => if secondFits b c then fault 2 .ending else fault 1 .continuation
      | [c, d] =>
        if !secondFits b c then fault 1 .continuation
        else if isContinuation d then fault 3 .ending
        else fault 2 .continuation
      | c :: d :: e :: r =>
        if !secondFits b c then fault 1 .continuation
        else if !isContinuation d then fault 2 .continuation
        else if !isContinuation e then fault 3 .continuation
        else utf8FaultFrom (position + 4) r

/-- The wording of a fault. -/
def Utf8Fault.message (f : Utf8Fault) : String :=
  let place := if f.size == 1 then
      "byte 0x" ++ String.ofList (hexDigits 2 f.byte) ++ " in position " ++ toString f.position
    else
      "bytes in position " ++ toString f.position ++ "-" ++ toString (f.position + f.size - 1)
  "'utf-8' codec can't decode " ++ place ++ ": " ++ f.cause.message

/-! ### ASCII -/

/-- Is the character one of ASCII? -/
def isAscii (c : Char) : Bool :=
  c.toNat < 0x80

/-- The shortest numeric escape of a character. -/
def numericEscape (c : Char) : List Char :=
  let n := c.toNat
  if n < 0x100 then '\\' :: 'x' :: hexDigits 2 n
  else if n < 0x10000 then '\\' :: 'u' :: hexDigits 4 n
  else '\\' :: 'U' :: hexDigits 8 n

/-- The wording of the refusal of a text that is not plain: its first run of other characters is at
fault. -/
def asciiFault (s : String) : String :=
  let position := (s.toList.takeWhile isAscii).length
  let run := (s.toList.drop position).takeWhile fun c => !isAscii c
  let place := match run with
    | [c] => "character '" ++ String.ofList (numericEscape c) ++ "' in position " ++ toString position
    | run => "characters in position " ++ toString position ++ "-" ++
        toString (position + run.length - 1)
  "'ascii' codec can't encode " ++ place ++ ": ordinal not in range(128)"

end Bindery.Text
