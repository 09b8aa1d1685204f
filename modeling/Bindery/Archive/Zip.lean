import Bindery.Archive.Inflate
import Bindery.Archive.Name
import Bindery.Text.Encoding

/-!
# Archives of packed files

An archive ends with a record that tells where its directory is. The directory names each file and
tells where its bytes are, which are stored as they are or deflated.
-/

namespace Bindery.Archive

open Bindery.Storage

/-! ### Names -/

/-- The characters of the upper half of the code page in which old names are written. -/
def upperHalf : List Char :=
  ("ÇüéâäàåçêëèïîìÄÅÉæÆôöòûùÿÖÜ¢£¥₧ƒáíóúñÑªº¿⌐¬½¼¡«»░▒▓│┤╡╢╖╕╣║╗╝╜╛┐└┴┬├─┼╞╟╚╔╩╦╠═╬╧╨╤╥╙╘╒╓╫╪┘┌█▄▌▐▀" ++
    "αßΓπΣσµτΦΘΩδ∞φε∩≡±≥≤⌠⌡÷≈°∙·√ⁿ²■\u00a0").toList

/-- The character of a byte in the code page. -/
def pageChar (b : UInt8) : Char :=
  if b < 0x80 then Char.ofNat b.toNat else upperHalf.getD (b.toNat - 0x80) ' '

/-- The name that bytes write, in UTF-8 or in the code page. -/
def nameOf (isUtf8 : Bool) (b : ByteArray) : Except Refusal String :=
  if isUtf8 then
    match String.fromUTF8? b with
    | some s => .ok s
    | none => .error (.notText ((Text.utf8FaultFrom 0 b.toList).getD ⟨0, 1, 0, .start⟩))
  else .ok (String.ofList (b.toList.map pageChar))

/-! ### The directory -/

/-- The size of the record at the end. -/
def endSize : Nat := 22

/-- Does the record at the end stand at a place? -/
def isEndAt (b : ByteArray) (place : Nat) : Bool :=
  numberAt b place 4 == 0x06054B50

/-- The last place of a record at the end, which may be followed by a comment; the first argument
bounds the search. -/
def endFrom (b : ByteArray) : Nat → Nat → Option Nat
  | 0, _ => none
  | fuel + 1, place =>
    if isEndAt b place then if b.size < place + endSize then none else some place
    else if place == 0 then none
    else endFrom b fuel (place - 1)

/-- The place of the record at the end. -/
def endPlace? (b : ByteArray) : Option Nat :=
  let last := b.size - endSize
  if b.size < endSize then none
  else if isEndAt b last && numberAt b (b.size - 2) 2 == 0 then some last
  else endFrom b (Nat.pow 2 16 + endSize + 1) (b.size - 4)

/-- A file in the directory. -/
structure Packed where
  /-- The bytes of the name. -/
  nameBytes : ByteArray
  /-- The name. -/
  name : String
  /-- Is it encrypted? -/
  isLocked : Bool
  /-- How it is packed. -/
  method : Nat
  /-- The check sum of its bytes. -/
  sum : Nat
  /-- The size of the packed bytes. -/
  packedSize : Nat
  /-- The place of its head. -/
  place : Nat

/-- The files of the directory up to a place. The places of their heads are counted from `shift`.
The first argument behind these bounds the number of files. -/
def packedFrom (b : ByteArray) (shift : Int) (stop : Nat) : Nat → Nat → Except Refusal (List Packed)
  | 0, _ => .error .notZipped
  | fuel + 1, place =>
    if stop ≤ place then .ok []
    else if stop < place + 46 || numberAt b place 4 != 0x02014B50 then .error .notZipped
    else do
      let flags := numberAt b (place + 8) 2
      let nameSize := numberAt b (place + 28) 2
      let further := numberAt b (place + 30) 2 + numberAt b (place + 32) 2
      let nameBytes := part b (place + 46) nameSize
      let name ← nameOf (flags / 0x800 % 2 == 1) nameBytes
      let rest ← packedFrom b shift stop fuel (place + 46 + nameSize + further)
      return {
        nameBytes, name
        isLocked := flags % 2 == 1
        method := numberAt b (place + 10) 2
        sum := numberAt b (place + 16) 4
        packedSize := numberAt b (place + 20) 4
        place := (numberAt b (place + 42) 4 + shift).toNat } :: rest

/-! ### Files -/

/-- The bytes of a packed file. -/
def unpack (b : ByteArray) (f : Packed) : Except Refusal ByteArray :=
  let nameSize := numberAt b (f.place + 26) 2
  let start := f.place + 30 + nameSize + numberAt b (f.place + 28) 2
  let packed := part b start f.packedSize
  let bytes? : Option ByteArray :=
    if f.method == 0 then some packed
    else if f.method == 8 then
      let x := inflate packed 0
      if x.rest.toOption.isSome then some x.output else none
    else none
  if numberAt b f.place 4 != 0x04034B50 || part b (f.place + 30) nameSize != f.nameBytes ||
      f.isLocked then .error .notZipped
  else match bytes? with
    | some bytes => if checkSum bytes == f.sum then .ok bytes else .error .notZipped
    | none => .error .notZipped

/-- The member that a packed file is. -/
def memberOf (b : ByteArray) (f : Packed) : Except Refusal Member :=
  if f.name.endsWith "/" then .ok (inZip ⟨f.name, .folder⟩)
  else (unpack b f).map fun bytes => inZip ⟨f.name, .file (.ofBytes bytes)⟩

/-- The members of an archive of packed files. -/
def unpackZip (b : ByteArray) : Except Refusal (List Member) :=
  match endPlace? b with
  | none => .error .notZipped
  | some place =>
    let size := numberAt b (place + 12) 4
    let start := numberAt b (place + 16) 4
    if place < size then .error .notZipped
    else do
      let shift : Int := place - size - start
      let files ← packedFrom b shift place (size + 1) (place - size)
      files.mapM (memberOf b)

end Bindery.Archive
