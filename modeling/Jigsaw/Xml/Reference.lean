import Jigsaw.Text.Digit
import Jigsaw.Xml.Char
import Jigsaw.Xml.Fault

/-!
# Xml/Reference — references to characters and entities

A reference runs from an ampersand to a semicolon.  It names an entity, or gives the number of a
character in decimal or hexadecimal digits.
-/

namespace Jigsaw.Xml

/-- A complete reference. -/
inductive Reference where
  /-- `&name;` -/
  | entity (name : String)
  /-- `&#number;`; numbers past the last character count as one past it. -/
  | character (number : Nat)

namespace Reference

/-- A reference read up to some point after its ampersand. -/
inductive Draft where
  /-- Nothing yet. -/
  | start
  /-- The first characters of a name. -/
  | name (chars : String)
  /-- The number sign. -/
  | hash
  /-- Decimal digits. -/
  | decimal (number : Nat)
  /-- The number sign and the `x`. -/
  | hexStart
  /-- Hexadecimal digits. -/
  | hex (number : Nat)

/-- The value of a decimal digit. -/
def decimalValue? (c : Char) : Option Nat :=
  if '0' ≤ c && c ≤ '9' then some (c.toNat - '0'.toNat) else none

/-- A number with one more digit, kept at one past the last character. -/
def grow (base number digit : Nat) : Nat := min (number * base + digit) 0x110000

/-- The first character after the ampersand. -/
def Draft.first (c : Char) : Progress Draft Reference :=
  if c = '#' then .more .hash
  else if isNameStart c then .more (.name (String.singleton c))
  else .refused

/-- One more character of a reference. -/
def Draft.step (d : Draft) (c : Char) : Progress Draft Reference :=
  match d with
  | .start => Draft.first c
  | .name chars =>
    if isNameChar c then .more (.name (chars.push c))
    else if c = ';' then .done (.entity chars)
    else .refused
  | .hash =>
    if c = 'x' then .more .hexStart
    else
      match decimalValue? c with
      | some v => .more (.decimal v)
      | none => .refused
  | .decimal number =>
    if c = ';' then .done (.character number)
    else
      match decimalValue? c with
      | some v => .more (.decimal (grow 10 number v))
      | none => .refused
  | .hexStart =>
    match Text.hexValue? c with
    | some v => .more (.hex v)
    | none => .refused
  | .hex number =>
    if c = ';' then .done (.character number)
    else
      match Text.hexValue? c with
      | some v => .more (.hex (grow 16 number v))
      | none => .refused

/-- The character with a number, if a document may hold it. -/
def character? (number : Nat) : Option Char :=
  if isLegalCode number then some (Char.ofNat number) else none

/-- The entities that every document knows. -/
def predefined? : String → Option Char
  | "lt" => some '<'
  | "gt" => some '>'
  | "amp" => some '&'
  | "quot" => some '"'
  | "apos" => some '\''
  | _ => none

end Reference

end Jigsaw.Xml
