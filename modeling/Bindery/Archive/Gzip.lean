import Bindery.Archive.Inflate

/-!
# Compressed bytes

Compressed bytes are one or more members, each of them a head, deflated bytes, a check sum and a
size. Zeros may stand between members. What comes before damage can still be read.
-/

namespace Bindery.Archive

/-- Bytes that have been unpacked, and why there are no more of them. -/
structure Unpacked where
  /-- The bytes. -/
  bytes : ByteArray
  /-- The damage at which they end. -/
  damage : Option Damage

/-- The place behind a text that ends with a zero. -/
def behindText (b : ByteArray) (place : Nat) : Nat :=
  zeroFrom b (b.size - place) place + 1

/-- The place behind the head of a member. -/
def behindHead (b : ByteArray) (place : Nat) : Except Damage Nat :=
  if b.size < place + 2 || numberAt b place 2 != 0x8B1F then .error .malformed
  else if b.size < place + 10 then .error .cutOff
  else if byteAt b (place + 2) != 8 then .error .malformed
  else
    let flags := byteAt b (place + 3)
    let has (flag : Nat) : Bool := flags / flag % 2 == 1
    let place := place + 10
    let place := if has 4 then place + 2 + numberAt b place 2 else place
    let place := if has 8 then behindText b place else place
    let place := if has 16 then behindText b place else place
    let place := if has 2 then place + 2 else place
    if b.size < place then .error .cutOff else .ok place

/-- The place of the first byte other than zero; the first argument bounds the search. -/
def behindZeros (b : ByteArray) : (fuel place : Nat) → Nat
  | 0, place => place
  | fuel + 1, place =>
    if place < b.size && byteAt b place == 0 then behindZeros b fuel (place + 1) else place

/-- The bytes of the members from a place on; the first argument bounds their number. -/
def gunzipFrom (b : ByteArray) : Nat → Nat → ByteArray → Unpacked
  | 0, _, out => ⟨out, none⟩
  | fuel + 1, place, out =>
    if b.size ≤ place then ⟨out, none⟩
    else match behindHead b place with
      | .error e => ⟨out, some e⟩
      | .ok start =>
        let x := inflate b start
        let all := out ++ x.output
        match x.rest with
        | .error e => ⟨all, some e⟩
        | .ok rest =>
          let place := rest.place
          if b.size < place + 8 then ⟨all, some .cutOff⟩
          else if numberAt b place 4 != checkSum x.output ||
              numberAt b (place + 4) 4 != x.output.size % Nat.pow 2 32 then ⟨all, some .malformed⟩
          else gunzipFrom b fuel (behindZeros b (b.size - place) (place + 8)) all

/-- The bytes of all members. -/
def gunzip (b : ByteArray) : Unpacked :=
  gunzipFrom b (b.size + 1) 0 .empty

end Bindery.Archive
