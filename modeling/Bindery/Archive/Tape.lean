import Bindery.Archive.Gzip
import Bindery.Archive.Name

/-!
# Packed tapes

A tape is made of blocks. Each member has a block that describes it, followed by the blocks of its
bytes. A member can be preceded by others that give it a longer name. A block of zeros, or one that
describes nothing, ends the tape.
-/

namespace Bindery.Archive

open Bindery.Storage

/-- The size of a block. -/
def blockSize : Nat := 512

/-- The size of the blocks that hold a number of bytes. -/
def blocksFor (size : Nat) : Nat :=
  (size + blockSize - 1) / blockSize * blockSize

/-! ### Descriptions -/

/-- The text of bytes; bytes that are no text stand for the characters of their numbers. -/
def textOf (b : ByteArray) : String :=
  match String.fromUTF8? b with
  | some s => s
  | none => String.ofList (b.toList.map fun x => Char.ofNat x.toNat)

/-- The text in a field, up to a zero. -/
def textField (b : ByteArray) (place width : Nat) : String :=
  let field := part b place width
  textOf (part field 0 (zeroFrom field field.size 0))

/-- The number of digits to the base eight. -/
def octal? (cs : List Char) : Option Nat :=
  cs.foldlM (fun n c => if '0' ≤ c && c ≤ '7' then some (8 * n + (c.toNat - 48)) else none) 0

/-- The number in a field: digits to the base eight between blanks, or bytes after a mark, the
lowest byte last. -/
def numberField? (b : ByteArray) (place width : Nat) : Option Nat :=
  if byteAt b place == 0x80 then
    some (((List.range width).drop 1).foldl (fun n i => 256 * n + byteAt b (place + i)) 0)
  else
    octal? ((textField b place width).trimAscii.toString.toList)

/-- The sum of the bytes of a block, in which the sum itself counts as blanks. -/
def blockSum (b : ByteArray) (place : Nat) : Nat :=
  (List.range blockSize).foldl (fun sum i =>
    sum + if 148 ≤ i && i < 156 then 32 else byteAt b (place + i)) 0

/-- What describes a member. -/
structure Description where
  /-- The name. -/
  name : String
  /-- The number of bytes. -/
  size : Nat
  /-- The letter of its kind. -/
  letter : Char
  deriving Repr

/-- What a block is. -/
inductive Block where
  /-- The end of the bytes. -/
  | ending
  /-- Less than a block. -/
  | incomplete
  /-- A block of zeros. -/
  | zeros
  /-- A block that describes nothing. -/
  | malformed
  /-- A description. -/
  | description (d : Description)
  deriving Repr

/-- The description that a block holds. -/
def description? (b : ByteArray) (place : Nat) : Option Description := do
  let sum ← numberField? b (place + 148) 8
  if sum != blockSum b place then none
  let size ← numberField? b (place + 124) 12
  let letter := Char.ofNat (byteAt b (place + 156))
  let name := textField b place 100
  let start := textField b (place + 345) 155
  let isFolder := letter == '5' || (letter == '\x00' && name.endsWith "/")
  let name := if start.isEmpty || letter == 'L' || letter == 'K' || letter == 'S' then name
    else start ++ "/" ++ name
  return ⟨name, size, if isFolder then '5' else letter⟩

/-- The block at a place. -/
def blockAt (b : ByteArray) (place : Nat) : Block :=
  if b.size ≤ place then .ending
  else if b.size < place + blockSize then .incomplete
  else if (List.range blockSize).all fun i => byteAt b (place + i) == 0 then .zeros
  else ((description? b place).map .description).getD .malformed

/-! ### Names that precede a member -/

/-- What precedes a member. -/
structure Preceding where
  /-- Its name. -/
  name : Option String := none
  /-- The number of its bytes. -/
  size : Option Nat := none
  deriving Repr

/-- The records of an extended description: each has its length, a key and a value. The second
argument bounds their number. -/
def recordsFrom (b : ByteArray) : Nat → Nat → List (String × String)
  | 0, _ => []
  | fuel + 1, place =>
    let digits := ((part b place 20).toList.map fun x => Char.ofNat x.toNat).takeWhile Char.isDigit
    let size := digits.foldl (fun n c => 10 * n + (c.toNat - 48)) 0
    if digits.isEmpty || size < 5 || b.size < place + size then []
    else
      let start := digits.length + 1
      let record := (textOf (part b (place + start) (size - start - 1))).toList
      let key := record.takeWhile (· != '=')
      (String.ofList key, String.ofList (record.drop (key.length + 1))) ::
        recordsFrom b fuel (place + size)

/-- What an extended description says of a member. -/
def precedingOf (b : ByteArray) : Preceding :=
  let records := (recordsFrom b b.size 0).reverse
  ⟨(records.lookup "path").map fun s => String.ofList (dropSlashEnd s.toList),
    (records.lookup "size").bind fun s => decimal? s⟩
where
  decimal? (s : String) : Option Nat :=
    if !s.isEmpty && s.toList.all Char.isDigit then
      some (s.toList.foldl (fun n c => 10 * n + (c.toNat - 48)) 0)
    else none

/-! ### Members -/

/-- Is the letter that of a file? -/
def isFileLetter (letter : Char) : Bool :=
  letter == '0' || letter == '\x00' || letter == '7' || letter == 'S'

/-- Do bytes follow the description of a kind? -/
def hasBytes (letter : Char) : Bool :=
  !(['1', '2', '3', '4', '5', '6'].contains letter)

/-- The members from a place on, if the tape is not damaged before its end; the first argument
bounds their number. -/
def membersFrom (x : Unpacked) : Nat → Nat → Option Preceding → Except Damage (List Member)
  | 0, _, _ => .error .malformed
  | fuel + 1, place, preceding =>
    let ends : Except Damage (List Member) :=
      if preceding.isSome || place == 0 then .error .malformed else .ok []
    match x.damage, blockAt x.bytes place with
    | some e, .ending => .error e
    | some e, .incomplete => .error e
    | none, .ending => if x.bytes.size < place then .error .malformed else ends
    | _, .zeros => if preceding.isSome then .error .malformed else .ok []
    | _, .incomplete | _, .malformed => ends
    | _, .description d =>
      let start := place + blockSize
      let p := preceding.getD {}
      let size := p.size.getD d.size
      let next := if hasBytes d.letter then start + blocksFor size else start
      let bytes := part x.bytes start size
      match d.letter with
      | 'L' =>
        let name := p.name <|> some (textField bytes 0 bytes.size)
        membersFrom x fuel next (some { p with name })
      | 'x' | 'X' =>
        let q := precedingOf bytes
        membersFrom x fuel next (some ⟨p.name <|> q.name, p.size <|> q.size⟩)
      | 'K' | 'g' => membersFrom x fuel next (some p)
      | letter =>
        let kind : MemberKind := if letter == '5' then .folder
          else if isFileLetter letter then .file (.ofBytes bytes)
          else .other
        (membersFrom x fuel next none).map fun ms => onTape ⟨p.name.getD d.name, kind⟩ :: ms

/-- The members of a packed tape. -/
def unpackTape (b : ByteArray) : Except Damage (List Member) :=
  let x := gunzip b
  membersFrom x (x.bytes.size / blockSize + 2) 0 none

end Bindery.Archive
