import Jigsaw.Block.Basic
import Jigsaw.Name.Scope
import Jigsaw.Text.Lines

/-!
# Render/Error — why a workspace cannot be rendered

A defect of the workspace names the block and the slot where it was found, as far as they are known.
-/

namespace Jigsaw.Render

/-- Where in a workspace a defect was found; what is not known is empty. -/
structure Site where
  /-- The type of the block. -/
  blockType : String := ""
  /-- The id of the block. -/
  blockId : String := ""
  /-- The slot or field of the block. -/
  slot : String := ""
deriving DecidableEq

/-- A block as a whole. -/
def Site.ofBlock (b : Block) : Site := { blockType := b.type, blockId := b.id }

/-- One slot or field of a block. -/
def Site.ofSlot (b : Block) (slot : String) : Site :=
  { blockType := b.type, blockId := b.id, slot }

/-- The parts of a site that are known, in words. -/
def Site.parts (s : Site) : List String :=
  (if s.blockType = "" then [] else ["block '" ++ s.blockType ++ "'"])
    ++ (if s.blockId = "" then [] else ["id '" ++ s.blockId ++ "'"])
    ++ (if s.slot = "" then [] else ["slot '" ++ s.slot ++ "'"])

/-- Why rendering stopped. -/
inductive Error where
  /-- A defect in words of its own. -/
  | general (text : String) (site : Site)
  /-- A block that no rule covers in its place. -/
  | unsupported (text : String) (site : Site)
  /-- A reference to a name that is not in sight. -/
  | unresolved (reference : Name.Unresolved) (site : Site)
  /-- An integer that would have to be written with more digits than the limit allows. -/
  | oversizedInteger
deriving DecidableEq

namespace Error

/-- A block of a type that no rule covers. -/
def unknownType (b : Block) : Error := .unsupported "unsupported block type" (.ofBlock b)

/-- A statement where a value is wanted. -/
def statementAsValue (b : Block) : Error :=
  .unsupported "statement block used as a value" (.ofBlock b)

/-- The defect in words, without its site. -/
def summary : Error → String
  | general text _ => text
  | unsupported text _ => text
  | unresolved reference _ =>
    "unresolved " ++ reference.kind.label ++ " '" ++ reference.name ++ "'"
  | oversizedInteger =>
    "Exceeds the limit (4300 digits) for integer string conversion; use "
      ++ "sys.set_int_max_str_digits() to increase the limit"

/-- Where the defect was found. -/
def site : Error → Site
  | general _ site => site
  | unsupported _ site => site
  | unresolved _ site => site
  | oversizedInteger => {}

/-- The defect in words, with what is known of its site. -/
def message (e : Error) : String :=
  let parts := e.site.parts
  if parts.isEmpty then e.summary else e.summary ++ " (" ++ Text.joinItems parts ++ ")"

end Error

end Jigsaw.Render
