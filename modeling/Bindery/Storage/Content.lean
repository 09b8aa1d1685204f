import Bindery.Refusal

/-!
# The content of files

A file holds a text, other bytes, or members that are packed into an archive. A text is read with a
line feed at the end of every line, whichever line end the file has.
-/

namespace Bindery.Storage

/-- The bytes of a file, as a text if they are one. -/
inductive Data where
  /-- A text. -/
  | text (text : String)
  /-- Bytes that are no text. -/
  | bytes (bytes : List UInt8)
  deriving DecidableEq, Repr

/-- What bytes are. -/
def Data.ofBytes (b : ByteArray) : Data :=
  match String.fromUTF8? b with
  | some s => .text s
  | none => .bytes b.toList

/-- The bytes. -/
def Data.toBytes : Data → ByteArray
  | .text s => s.toUTF8
  | .bytes bs => ⟨bs.toArray⟩

/-- What a member of an archive is. -/
inductive MemberKind where
  /-- A folder. -/
  | folder
  /-- A file. -/
  | file (data : Data)
  /-- A link, or a device. -/
  | other
  deriving DecidableEq, Repr

/-- A member of an archive. -/
structure Member where
  /-- The name, in which slashes divide folders. -/
  name : String
  /-- What the member is. -/
  kind : MemberKind
  deriving DecidableEq, Repr

/-- What a file holds. -/
inductive Content where
  /-- Bytes. -/
  | plain (data : Data)
  /-- Members that are packed one by one. -/
  | zip (members : List Member)
  /-- Members that are packed as one tape. -/
  | tape (members : List Member)
  deriving DecidableEq, Repr

/-- The characters with a line feed at the end of every line. -/
def unifyLineEnds : List Char → List Char
  | [] => []
  | '\r' :: '\n' :: r => '\n' :: unifyLineEnds r
  | '\r' :: r => '\n' :: unifyLineEnds r
  | c :: r => c :: unifyLineEnds r

/-- The first bytes of a packed tape, of which the second one begins no character. -/
def tapeStart : List UInt8 :=
  [0x1F, 0x8B]

/-- The text of a file. -/
def Content.text : Content → Except Refusal String
  | .plain (.text s) => .ok (String.ofList (unifyLineEnds s.toList))
  | .plain (.bytes bs) => .error (.notText ((Text.utf8FaultFrom 0 bs).getD ⟨0, 1, 0, .start⟩))
  | .zip _ => .error (.notText ⟨0, 1, 0, .start⟩)
  | .tape _ => .error (.notText ((Text.utf8FaultFrom 0 tapeStart).getD ⟨0, 1, 0, .start⟩))

end Bindery.Storage
