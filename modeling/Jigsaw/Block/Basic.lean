import Jigsaw.Number.Integer

/-!
# Block/Basic — blocks and forests of blocks

A block is one node of a visual program.  It has a type, fields with text, slots that hold other
blocks as values or as chains of statements, a link to the block below it, and a mutation: the
attributes that give this one block its shape.  Slots, fields and attributes keep the order in which
they were first given.
-/

namespace Jigsaw

/-- A record of names with values, in the order of their first entry. -/
abbrev Record (α : Type) := List (String × α)

namespace Record

variable {α : Type}

/-- Enters a value: a name that is present keeps its place and takes the new value. -/
def put (name : String) (value : α) : Record α → Record α
  | [] => [(name, value)]
  | (n, v) :: rest => if n = name then (n, value) :: rest else (n, v) :: put name value rest

/-- The value of a name. -/
def get? (record : Record α) (name : String) : Option α := record.lookup name

/-- Whether a name is present. -/
def has (record : Record α) (name : String) : Bool := (record.get? name).isSome

/-- The names, in order. -/
def names (record : Record α) : List String := record.map Prod.fst

/-- Entries put one after the other. -/
def ofList (entries : List (String × α)) : Record α :=
  entries.foldl (fun record entry => record.put entry.1 entry.2) []

end Record

/-- One node of a visual program. -/
inductive Block where
  /-- The block with all its parts. -/
  | mk (type id : String) (fields : List (String × String))
      (values statements : List (String × Block)) (next : Option Block)
      (mutation : List (String × String))
deriving Inhabited

/-- The top-level blocks of a workspace, in order. -/
abbrev Forest := List Block

namespace Block

/-- What kind of block this is. -/
def type : Block → String
  | mk type _ _ _ _ _ _ => type

/-- The name that the workspace gave to this one block, or nothing. -/
def id : Block → String
  | mk _ id _ _ _ _ _ => id

/-- Texts entered on the block. -/
def fields : Block → Record String
  | mk _ _ fields _ _ _ _ => fields

/-- Blocks plugged in as values. -/
def values : Block → Record Block
  | mk _ _ _ values _ _ _ => values

/-- First blocks of the chains plugged in as statements. -/
def statements : Block → Record Block
  | mk _ _ _ _ statements _ _ => statements

/-- The block below this one in the same chain. -/
def next : Block → Option Block
  | mk _ _ _ _ _ next _ => next

/-- The attributes that shape this one block. -/
def mutation : Block → Record String
  | mk _ _ _ _ _ _ mutation => mutation

/-- The block with another one below it. -/
def withNext (below : Option Block) : Block → Block
  | mk type id fields values statements _ mutation =>
    mk type id fields values statements below mutation

/-- The text of a field, or `default` if the block has no such field. -/
def fieldOr (b : Block) (name default : String) : String := (b.fields.get? name).getD default

/-- The text of a field, empty if the block has no such field. -/
def field (b : Block) (name : String) : String := b.fieldOr name ""

/-- A count in the mutation; zero if it is absent or no count. -/
def count (b : Block) (name : String) : Nat :=
  Integer.count ((b.mutation.get? name).getD "")

/-- The number of operands that the mutation asks for. -/
def itemCount (b : Block) : Nat := b.count "items"

/-- The texts of the fields `stem0`, `stem1`, …, up to the first that is missing or empty.  A block
with `n` fields has at most `n` of them. -/
def numberedFields (b : Block) (stem : String) : List String :=
  ((List.range b.fields.length).map fun i => b.field (stem ++ toString i)).takeWhile (· ≠ "")

/-- The block and the blocks below it. -/
def chain : Block → List Block
  | mk type id fields values statements next mutation =>
    mk type id fields values statements next mutation ::
      match next with
      | none => []
      | some below => below.chain

/-- Blocks linked into one chain, first block on top. -/
def link : List Block → Option Block
  | [] => none
  | b :: rest => some (b.withNext (link rest))

end Block

end Jigsaw
