/-!
# Deflated bytes

Deflated bytes are read bit by bit, the lowest bit of a byte first. They are made of blocks. A block
is stored as it is, or it is a sequence of symbols: bytes, and copies of what was written before.
Symbols are written in prefix codes, which are fixed or given by the lengths of their words.
-/

namespace Bindery.Archive

/-! ### Bytes -/

/-- The byte at a place; behind the end there are zeros. -/
def byteAt (b : ByteArray) (place : Nat) : Nat :=
  (b[place]?.map UInt8.toNat).getD 0

/-- The number that bytes write, the lowest byte first. -/
def numberAt (b : ByteArray) (place : Nat) : (width : Nat) → Nat
  | 0 => 0
  | width + 1 => byteAt b place + 256 * numberAt b (place + 1) width

/-- The bytes from a place on; at the end there may be fewer. -/
def part (b : ByteArray) (place size : Nat) : ByteArray :=
  b.extract place (place + size)

/-- The place of the first zero from a place on; the first argument bounds the search. -/
def zeroFrom (b : ByteArray) : (fuel place : Nat) → Nat
  | 0, place => place
  | fuel + 1, place => if byteAt b place == 0 then place else zeroFrom b fuel (place + 1)

/-- The check sum after a number of bits. -/
def checkBits : Nat → UInt32 → UInt32
  | 0, c => c
  | n + 1, c => checkBits n (if c &&& 1 == 1 then (c >>> 1) ^^^ 0xEDB88320 else c >>> 1)

/-- The check sum of bytes. -/
def checkSum (b : ByteArray) : Nat :=
  ((b.foldl (fun c x => checkBits 8 (c ^^^ x.toUInt32)) 0xFFFFFFFF) ^^^ 0xFFFFFFFF).toNat

/-- Why packed bytes cannot be unpacked. -/
inductive Damage where
  /-- They are not of the form of packed bytes. -/
  | malformed
  /-- They end too early. -/
  | cutOff
  deriving DecidableEq, Repr

/-! ### Bits -/

/-- Bytes that are read bit by bit. -/
structure Bits where
  /-- The bytes. -/
  bytes : ByteArray
  /-- The number of bits that have been read. -/
  position : Nat

namespace Bits

/-- The next bit. -/
def bit (b : Bits) : Except Damage (Nat × Bits) :=
  if b.position / 8 < b.bytes.size then
    let byte := byteAt b.bytes (b.position / 8)
    .ok (byte / Nat.pow 2 (b.position % 8) % 2, { b with position := b.position + 1 })
  else .error .cutOff

/-- The number of a width, the lowest bit first. -/
def number (b : Bits) : (width : Nat) → Except Damage (Nat × Bits)
  | 0 => .ok (0, b)
  | width + 1 => do
    let (low, b) ← b.bit
    let (high, b) ← b.number width
    return (low + 2 * high, b)

/-- The place of the next byte. -/
def place (b : Bits) : Nat :=
  (b.position + 7) / 8

/-- The number of bits that are left. -/
def left (b : Bits) : Nat :=
  8 * b.bytes.size - b.position

end Bits

/-! ### Prefix codes -/

/-- A prefix code: the numbers of its words by their lengths, and the symbols in the order of their
words. -/
structure Code where
  /-- The numbers of words of one bit, two bits, and so on. -/
  counts : List Nat
  /-- The symbols. -/
  symbols : Array Nat
  deriving Repr

namespace Code

/-- The longest word. -/
def longest : Nat := 15

/-- The code of symbols whose words have these lengths; a symbol of length zero has no word. -/
def ofLengths (lengths : List Nat) : Code :=
  let widths := (List.range longest).map (· + 1)
  let indexed := lengths.zipIdx
  ⟨widths.map fun w => lengths.count w,
    (widths.flatMap fun w => (indexed.filter fun e => e.1 == w).map Prod.snd).toArray⟩

/-- How many words of the longest length could be added, if the counts leave room for their
words. -/
def room : Nat → List Nat → Option Nat
  | free, [] => some free
  | free, count :: r => if 2 * free < count then none else room (2 * free - count) r

/-- Can the code be used? Its words must be all that there is room for, unless it has one word of
one bit, or none. -/
def isUsable (c : Code) : Bool :=
  match room 1 c.counts with
  | none => false
  | some 0 => true
  | some _ => (c.counts.drop 1).all (· == 0)

/-- Is there room for more words? -/
def isIncomplete (c : Code) : Bool :=
  room 1 c.counts != some 0

/-- Reads the rest of a word. Of the words of the lengths that are left, the first one is `first`,
and its symbol stands at `place`. -/
def readFrom (c : Code) (word first place : Nat) : List Nat → Bits → Except Damage (Nat × Bits)
  | [], _ => .error .malformed
  | count :: r, b => do
    let (bit, b) ← b.bit
    let word := 2 * word + bit
    let first := 2 * first
    if word < first + count then
      match c.symbols[place + (word - first)]? with
      | some s => return (s, b)
      | none => throw .malformed
    else c.readFrom word (first + count) (place + count) r b

/-- Reads a word. -/
def read (c : Code) (b : Bits) : Except Damage (Nat × Bits) :=
  c.readFrom 0 0 0 c.counts b

end Code

/-! ### Lengths and distances -/

/-- The least value and the number of further bits of each symbol for a length. -/
def lengthBases : List (Nat × Nat) :=
  [(3, 0), (4, 0), (5, 0), (6, 0), (7, 0), (8, 0), (9, 0), (10, 0), (11, 1), (13, 1), (15, 1), (17, 1),
    (19, 2), (23, 2), (27, 2), (31, 2), (35, 3), (43, 3), (51, 3), (59, 3), (67, 4), (83, 4), (99, 4),
    (115, 4), (131, 5), (163, 5), (195, 5), (227, 5), (258, 0)]

/-- The least value and the number of further bits of each symbol for a distance. -/
def distanceBases : List (Nat × Nat) :=
  [(1, 0), (2, 0), (3, 0), (4, 0), (5, 1), (7, 1), (9, 2), (13, 2), (17, 3), (25, 3), (33, 4), (49, 4),
    (65, 5), (97, 5), (129, 6), (193, 6), (257, 7), (385, 7), (513, 8), (769, 8), (1025, 9), (1537, 9),
    (2049, 10), (3073, 10), (4097, 11), (6145, 11), (8193, 12), (12289, 12), (16385, 13), (24577, 13)]

/-- The value of a symbol with its further bits. -/
def valueOf (bases : List (Nat × Nat)) (symbol : Nat) (b : Bits) : Except Damage (Nat × Bits) :=
  match bases[symbol]? with
  | none => .error .malformed
  | some (base, width) => (b.number width).map fun x => (base + x.1, x.2)

/-- The bytes with a number of bytes added, each of which was written a distance ago. -/
def copyBack (distance : Nat) : Nat → ByteArray → ByteArray
  | 0, out => out
  | n + 1, out => copyBack distance n (out.push (out[out.size - distance]?.getD 0))

/-! ### Blocks -/

/-- Bytes that have been written, and what is left to be read or why nothing can be. -/
structure Inflated where
  /-- The bytes. -/
  output : ByteArray
  /-- What is left. -/
  rest : Except Damage Bits

/-- The bytes that symbols write; the first argument bounds the number of symbols. -/
def inflateSymbols (symbols distances : Code) : Nat → Bits → ByteArray → Inflated
  | 0, _, out => ⟨out, .error .cutOff⟩
  | fuel + 1, b, out =>
    match symbols.read b with
    | .error e => ⟨out, .error e⟩
    | .ok (symbol, b) =>
      if symbol < 256 then inflateSymbols symbols distances fuel b (out.push (UInt8.ofNat symbol))
      else if symbol == 256 then ⟨out, .ok b⟩
      else
        let copy : Except Damage ((Nat × Nat) × Bits) := do
          let (size, b) ← valueOf lengthBases (symbol - 257) b
          let (s, b) ← distances.read b
          let (distance, b) ← valueOf distanceBases s b
          if out.size < distance then throw .malformed
          return ((size, distance), b)
        match copy with
        | .error e => ⟨out, .error e⟩
        | .ok ((size, distance), b) =>
          inflateSymbols symbols distances fuel b (copyBack distance size out)

/-- The bytes of a block that is stored as it is. -/
def inflateStored (b : Bits) (out : ByteArray) : Inflated :=
  let place := b.place
  let size := numberAt b.bytes place 2
  if b.bytes.size < place + 4 then ⟨out, .error .cutOff⟩
  else if size + numberAt b.bytes (place + 2) 2 != 0xFFFF then ⟨out, .error .malformed⟩
  else
    let out := out ++ part b.bytes (place + 4) size
    if b.bytes.size < place + 4 + size then ⟨out, .error .cutOff⟩
    else ⟨out, .ok { b with position := 8 * (place + 4 + size) }⟩

/-- The fixed code of the symbols. -/
def fixedSymbols : Code :=
  .ofLengths (List.replicate 144 8 ++ List.replicate 112 9 ++ List.replicate 24 7 ++
    List.replicate 8 8)

/-- The fixed code of the distances. -/
def fixedDistances : Code :=
  .ofLengths (List.replicate 30 5)

/-- The order in which the lengths of the words for lengths are given. -/
def lengthOrder : List Nat :=
  [16, 17, 18, 0, 8, 7, 9, 6, 10, 5, 11, 4, 12, 3, 13, 2, 14, 1, 15]

/-- Numbers of three bits each. -/
def readTriples : Nat → Bits → Except Damage (List Nat × Bits)
  | 0, b => .ok ([], b)
  | n + 1, b => do
    let (x, b) ← b.number 3
    let (xs, b) ← readTriples n b
    return (x :: xs, b)

/-- Reads lengths of words up to a number of them, of which some are given, the last one first; the
first argument bounds the number of steps. -/
def Code.readLengths (c : Code) (total : Nat) :
    Nat → List Nat → Bits → Except Damage (List Nat × Bits)
  | 0, _, _ => .error .malformed
  | fuel + 1, given, b =>
    if total ≤ given.length then
      if total < given.length then .error .malformed else .ok (given.reverse, b)
    else do
      let (symbol, b) ← c.read b
      if symbol < 16 then c.readLengths total fuel (symbol :: given) b
      else
        let (value, least, width) ← match symbol, given with
          | 16, last :: _ => pure (last, 3, 2)
          | 16, [] => throw Damage.malformed
          | 17, _ => pure (0, 3, 3)
          | _, _ => pure (0, 11, 7)
        let (more, b) ← b.number width
        c.readLengths total fuel (List.replicate (least + more) value ++ given) b

/-- Reads the two codes of a block. -/
def readCodes (b : Bits) : Except Damage ((Code × Code) × Bits) := do
  let (symbolCount, b) ← b.number 5
  let (distanceCount, b) ← b.number 5
  let (lengthCount, b) ← b.number 4
  let symbolCount := symbolCount + 257
  let distanceCount := distanceCount + 1
  if 286 < symbolCount || 30 < distanceCount then throw .malformed
  let (triples, b) ← readTriples (lengthCount + 4) b
  let given := lengthOrder.zip triples
  let lengthCode := Code.ofLengths ((List.range 19).map fun s => (given.lookup s).getD 0)
  if lengthCode.isIncomplete then throw .malformed
  let total := symbolCount + distanceCount
  let (lengths, b) ← lengthCode.readLengths total (total + 1) [] b
  let symbols := Code.ofLengths (lengths.take symbolCount)
  let distances := Code.ofLengths (lengths.drop symbolCount)
  if lengths[256]?.getD 0 == 0 || !symbols.isUsable || !distances.isUsable then throw .malformed
  return ((symbols, distances), b)

/-- The bytes of a block of a kind. -/
def inflateBlock (kind : Nat) (b : Bits) (out : ByteArray) : Inflated :=
  match kind with
  | 0 => inflateStored b out
  | 1 => inflateSymbols fixedSymbols fixedDistances (b.left + 1) b out
  | 2 =>
    match readCodes b with
    | .error e => ⟨out, .error e⟩
    | .ok ((symbols, distances), b) => inflateSymbols symbols distances (b.left + 1) b out
  | _ => ⟨out, .error .malformed⟩

/-- The bytes of blocks up to the last one; the first argument bounds their number. -/
def inflateBlocks : Nat → Bits → ByteArray → Inflated
  | 0, _, out => ⟨out, .error .cutOff⟩
  | fuel + 1, b, out =>
    let start : Except Damage ((Nat × Nat) × Bits) := do
      let (isLast, b) ← b.bit
      let (kind, b) ← b.number 2
      return ((isLast, kind), b)
    match start with
    | .error e => ⟨out, .error e⟩
    | .ok ((isLast, kind), b) =>
      let x := inflateBlock kind b out
      match x.rest with
      | .error _ => x
      | .ok b => if isLast == 1 then x else inflateBlocks fuel b x.output

/-- The bytes that are deflated from a place on. -/
def inflate (b : ByteArray) (place : Nat) : Inflated :=
  let bits : Bits := ⟨b, 8 * place⟩
  inflateBlocks (bits.left + 1) bits .empty

end Bindery.Archive
