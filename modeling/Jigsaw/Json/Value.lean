import Jigsaw.Text.Digit

/-!
# Json/Value — written JSON

The values are texts, lists and records.  A list or record that holds something is written over
several lines, two spaces deeper for every level; texts are written with printable ASCII characters
alone, all others as escapes.
-/

namespace Jigsaw.Json

/-- A value to be written. -/
inductive Value where
  /-- A text. -/
  | text (chars : String)
  /-- Values one after the other. -/
  | list (items : List Value)
  /-- Names with values. -/
  | record (entries : List (String × Value))

/-! ## Texts -/

/-- The escape for a 16-bit unit: four hexadecimal digits. -/
def unitEscape (n : Nat) : List Char :=
  ['\\', 'u', Text.hexDigit (n / 4096 % 16), Text.hexDigit (n / 256 % 16),
    Text.hexDigit (n / 16 % 16), Text.hexDigit (n % 16)]

/-- The 16-bit units of a character: one, or a surrogate pair. -/
def units (c : Char) : List Nat :=
  let n := c.toNat
  if n < 0x10000 then [n]
  else [0xD800 + (n - 0x10000) / 0x400, 0xDC00 + (n - 0x10000) % 0x400]

/-- How one character is written inside a text. -/
def escapeChar : Char → List Char
  | '"' => ['\\', '"']
  | '\\' => ['\\', '\\']
  | '\n' => ['\\', 'n']
  | '\r' => ['\\', 'r']
  | '\t' => ['\\', 't']
  | '\x08' => ['\\', 'b']
  | '\x0c' => ['\\', 'f']
  | c => if ' ' ≤ c && c ≤ '~' then [c] else (units c).flatMap unitEscape

/-- A text in double quotes. -/
def quote (s : String) : List Char := '"' :: s.toList.flatMap escapeChar ++ ['"']

/-! ## Values -/

/-- The start of a line at a depth. -/
def lineStart (depth : Nat) : List Char := '\n' :: List.replicate (2 * depth) ' '

namespace Value

mutual

/-- A value as written at a depth. -/
def chars (depth : Nat) : Value → List Char
  | text s => quote s
  | list items =>
    if items.isEmpty then ['[', ']']
    else '[' :: itemChars (depth + 1) items ++ lineStart depth ++ [']']
  | record entries =>
    if entries.isEmpty then ['\x7b', '\x7d']
    else '\x7b' :: entryChars (depth + 1) entries ++ lineStart depth ++ ['\x7d']
termination_by structural v => v

/-- Values as written at a depth, each on a line of its own. -/
def itemChars (depth : Nat) : List Value → List Char
  | [] => []
  | v :: rest =>
    lineStart depth ++ chars depth v ++ (if rest.isEmpty then [] else [','])
      ++ itemChars depth rest
termination_by structural vs => vs

/-- Entries as written at a depth, each on a line of its own. -/
def entryChars (depth : Nat) : List (String × Value) → List Char
  | [] => []
  | entry :: rest =>
    lineStart depth ++ oneEntry depth entry ++ (if rest.isEmpty then [] else [','])
      ++ entryChars depth rest
termination_by structural entries => entries

/-- One entry as written at a depth. -/
def oneEntry (depth : Nat) : String × Value → List Char
  | (name, v) => quote name ++ [':', ' '] ++ chars depth v
termination_by structural entry => entry

end

/-- The text of a value. -/
def write (v : Value) : String := String.ofList (v.chars 0)

end Value

end Jigsaw.Json
