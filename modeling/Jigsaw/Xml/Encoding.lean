/-!
# Xml/Encoding — documents stored in 16-bit units

A document starts with a character that needs one byte.  So a first or second byte that is zero
tells that every unit of the text has two bytes, and in which order they stand.
-/

namespace Jigsaw.Xml

/-- The order of the two bytes of a unit. -/
inductive ByteOrder where
  /-- High byte first. -/
  | bigEndian
  /-- Low byte first. -/
  | littleEndian
deriving DecidableEq

namespace ByteOrder

/-- The order that the start of a text shows, if its units have two bytes. -/
def detect? : List Char → Option ByteOrder
  | '\x00' :: _ => some .bigEndian
  | c :: '\x00' :: _ => if c.utf8Size = 1 then some .littleEndian else none
  | _ => none

/-- The unit of two bytes. -/
def unit (order : ByteOrder) (first second : UInt8) : Nat :=
  match order with
  | bigEndian => 256 * first.toNat + second.toNat
  | littleEndian => 256 * second.toNat + first.toNat

/-- The units of bytes, a byte left over not counted. -/
def units (order : ByteOrder) : List UInt8 → List Nat
  | first :: second :: rest => order.unit first second :: order.units rest
  | _ => []

end ByteOrder

/-- A unit that is the first half of a character. -/
def isLeadUnit (n : Nat) : Bool := 0xD800 ≤ n && n < 0xDC00

/-- A unit that is the second half of a character. -/
def isTrailUnit (n : Nat) : Bool := 0xDC00 ≤ n && n < 0xE000

/-- The characters of units; a half without its other half is no legal character. -/
def unitChars : List Nat → List Char
  | [] => []
  | [n] => [if isLeadUnit n || isTrailUnit n then '\x00' else Char.ofNat n]
  | n :: m :: rest =>
    if isLeadUnit n then
      Char.ofNat (0x10000 + (n - 0xD800) * 0x400 + m % 0x400) :: unitChars rest
    else (if isTrailUnit n then '\x00' else Char.ofNat n) :: unitChars (m :: rest)

/-- The characters of a document, and whether a byte is left over. -/
def decode (text : String) : List Char × Bool :=
  match ByteOrder.detect? text.toList with
  | none => (text.toList, false)
  | some order =>
    let bytes := text.toUTF8.toList
    (unitChars (order.units bytes), bytes.length % 2 = 1)

end Jigsaw.Xml
