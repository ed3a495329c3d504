import Jigsaw.Render.NameRules

/-!
# Render/TextRules — rules for blocks on texts
-/

namespace Jigsaw.Render

/-- The natural number that an expression is the literal of. -/
def naturalLiteral? : Expr → Option Int
  | .numeral (.integer n) => if 0 ≤ n then some n else none
  | _ => none

/-- The `size` characters of a text from index `start` on.  Literal bounds are added up now, where
their digits allow; an end that could be computed but not written is an error. -/
def segment (text start size : Expr) : RenderM Expr :=
  match naturalLiteral? start, naturalLiteral? size with
  | some s, some k =>
    if Integer.fits s && Integer.fits k then
      if Integer.fits (s + k) then pure (.slice text start (.int (s + k)))
      else throw .oversizedInteger
    else pure (.sliceTo (.sliceFrom text start) size)
  | _, _ => pure (.sliceTo (.sliceFrom text start) size)

/-- The last `count` characters of a text; the last none are the first none. -/
def lastChars (text count : Expr) : Expr :=
  match count with
  | .numeral (.integer 0) => .sliceTo text count
  | _ => .sliceFrom text (.negate count)

namespace Node

/-- The text in a slot; an empty slot holds the empty text. -/
def textValue (n : Node) (slot : String) : RenderM Expr := n.value slot (.text "")

/-- A value as a text. -/
def asText (e : Expr) : Expr := .call "str" [e]

/-- A text literal. -/
def textLiteral (n : Node) : Expr := .text (n.block.field "TEXT")

/-- Several values as one text. -/
def textJoin (n : Node) : RenderM Expr := do
  let operands ← n.valueList "ADD" n.block.itemCount (.text "")
  match operands with
  | [] => pure (.text "")
  | [e] => pure (asText e)
  | [e, f] => pure (.binary .add (asText e) (asText f))
  | _ =>
    let binder ← distinct "temp_value"
    pure (.method (.text "") "join" [.collect (asText (.name binder)) binder (.list operands)])

/-- The number of characters. -/
def textLength (n : Node) : RenderM Expr := do
  let text ← n.textValue "VALUE"
  pure (.call "len" [text])

/-- Whether there are no characters. -/
def textIsEmpty (n : Node) : RenderM Expr := do
  let text ← n.textValue "VALUE"
  pure (.not (.call "len" [text]))

/-- The first or the last characters. -/
def textEnd (n : Node) : RenderM Expr := do
  let text ← n.textValue "TEXT"
  let count ← n.value "NUM" (.int 1)
  if n.block.fieldOr "END" "FIRST" = "FIRST" then pure (.sliceTo text count)
  else pure (lastChars text count)

/-- The position that `selector` finds a piece at, counted from one. -/
def positionOf (text : Expr) (selector : String) (piece : Expr) : Expr :=
  .binary .add (.method text selector [piece]) (.int 1)

/-- The first or last position of a text in another. -/
def textPosition (n : Node) : RenderM Expr := do
  let piece ← n.textValue "FIND"
  let text ← n.textValue "VALUE"
  pure (positionOf text (if n.block.fieldOr "END" "FIRST" = "FIRST" then "find" else "rfind") piece)

/-- The position at which a piece starts. -/
def textStartsAt (n : Node) : RenderM Expr := do
  let text ← n.textValue "TEXT"
  let piece ← n.textValue "PIECE"
  pure (positionOf text "find" piece)

/-- The character at a position. -/
def textChar (n : Node) : RenderM Expr := do
  let index ← n.index "AT"
  let text ← n.textValue "VALUE"
  pure (.item text index)

/-- A number of characters from a position on. -/
def textSegment (n : Node) : RenderM Expr := do
  let text ← n.textValue "TEXT"
  let start ← n.index "START"
  let size ← n.value "LENGTH" (.int 1)
  segment text start size

/-- A text through a method without arguments. -/
def textThrough (n : Node) (selector : String) : RenderM Expr := do
  let text ← n.textValue "TEXT"
  pure (.method text selector [])

/-- A text in upper or lower case. -/
def textCase (n : Node) : RenderM Expr :=
  n.textThrough (if n.block.field "OP" = "DOWNCASE" then "lower" else "upper")

/-- Whether a text holds a piece. -/
def textContains (n : Node) : RenderM Expr := do
  let text ← n.textValue "TEXT"
  let piece ← n.textValue "PIECE"
  pure (.binary .within piece text)

/-- A text with every segment replaced. -/
def textReplaceAll (n : Node) : RenderM Expr := do
  let text ← n.textValue "TEXT"
  let old ← n.textValue "SEGMENT"
  let new ← n.textValue "REPLACEMENT"
  pure (.method text "replace" [old, new])

/-- The comparison that a field names. -/
def comparison : String → BinaryOp
  | "LT" => .less
  | "GT" => .greater
  | "NEQ" => .unequal
  | _ => .equal

/-- Compares two texts. -/
def textCompare (n : Node) : RenderM Expr := do
  let left ← n.textValue "TEXT1"
  let right ← n.textValue "TEXT2"
  pure (.binary (comparison (n.block.field "OP")) left right)

/-- The routine that asks for a line of input. -/
def promptSource (identifier : String) : String :=
  Text.joinLines
    ["def " ++ identifier ++ "(msg):",
     "    try:",
     "        return raw_input(msg)",
     "    except NameError:",
     "        return input(msg)"]

/-- Asks for a text or a number. -/
def textPrompt (n : Node) : RenderM Expr := do
  let function ← helper "text_prompt" promptSource
  let answer := .call function [n.textLiteral]
  pure (if n.block.field "TYPE" = "NUMBER" then .call "float" [answer] else answer)

/-! ## Statements -/

/-- Appends to the text in a variable. -/
def textAppend (n : Node) : RenderM (List Stmt) := do
  let identifier ← n.lexicalName
  let text ← n.textValue "TEXT"
  pure [assignLine identifier (.binary .add (asText (.name identifier)) (asText text))]

/-- Prints a value. -/
def textPrint (n : Node) : RenderM (List Stmt) := do
  let text ← n.textValue "TEXT"
  pure [.simple (.expr (.call "print" [text]))]

end Node

end Jigsaw.Render
