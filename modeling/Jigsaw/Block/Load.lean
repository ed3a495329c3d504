import Jigsaw.Block.Basic
import Jigsaw.Xml.Document

/-!
# Block/Load — blocks from workspace documents

A workspace is an `xml` element with one `block` element for each top-level block, or a single
block.  The children of a block element are its parts; tags count without their namespaces, and a
child with an unknown tag is no part.  A slot is filled by its first `block`, and by its first
`shadow` only if it has no block; a slot element without either changes nothing.
-/

namespace Jigsaw

/-- Why a text is no workspace. -/
inductive LoadError where
  /-- The text is no document. -/
  | malformed (fault : Xml.Fault)
  /-- A block has no type. -/
  | missingType
  /-- A field or slot has no name; its tag and the type of its block. -/
  | missingName (tag blockType : String)
  /-- The root is neither a workspace nor a block; its tag. -/
  | unexpectedRoot (tag : String)
deriving DecidableEq

namespace LoadError

/-- The defect in words. -/
def message : LoadError → String
  | malformed fault => "malformed XML: " ++ fault.message
  | missingType => "block without type"
  | missingName tag blockType => "<" ++ tag ++ "> without name in block '" ++ blockType ++ "'"
  | unexpectedRoot tag => "expected <xml> or <block> root, got <" ++ tag ++ ">"

/-- The place of the defect; a defect of structure has none, and is placed at zero. -/
def position : LoadError → Xml.Position
  | malformed fault => fault.position
  | _ => ⟨0, 0⟩

end LoadError

namespace Load

open Xml (Element)

/-- What a child element contributes to its block. -/
inductive Part where
  /-- The attributes that shape the block. -/
  | mutation (attributes : Record String)
  /-- The text of a field. -/
  | field (name text : String)
  /-- A block for a value slot, if the slot is filled. -/
  | value (name : String) (filling : Option Block)
  /-- A chain for a statement slot, if the slot is filled. -/
  | statement (name : String) (filling : Option Block)
  /-- The chain below the block, if there is one. -/
  | next (filling : Option Block)
  /-- Nothing. -/
  | other

/-- Enters a filling into a slot; without one the slot stays as it is. -/
def fill (name : String) (filling : Option Block) (slots : Record Block) : Record Block :=
  match filling with
  | some b => slots.put name b
  | none => slots

/-- The block with one more part. -/
def addPart : Block → Part → Block
  | .mk type id fields values statements next _, .mutation attributes =>
    .mk type id fields values statements next attributes
  | .mk type id fields values statements next mutation, .field name text =>
    .mk type id (Record.put name text fields) values statements next mutation
  | .mk type id fields values statements next mutation, .value name filling =>
    .mk type id fields (fill name filling values) statements next mutation
  | .mk type id fields values statements next mutation, .statement name filling =>
    .mk type id fields values (fill name filling statements) next mutation
  | .mk type id fields values statements next mutation, .next filling =>
    .mk type id fields values statements (filling.or next) mutation
  | b, .other => b

/-- An attribute that has to be there and not empty. -/
def required (e : Element) (name : String) (error : LoadError) : Except LoadError String :=
  match e.attribute? name with
  | none => .error error
  | some text => if text = "" then .error error else .ok text

/-- The mutation that an element writes down: its attributes, and the number of its `arg` children
unless an attribute already says it. -/
def mutation (e : Element) : Record String :=
  let attributes : Record String := e.attributes.map fun a => (a.1.text, a.2)
  let args := e.children.filter fun child => child.tag = "arg"
  if args.isEmpty || attributes.has "args" then attributes
  else attributes ++ [("args", toString args.length)]

/-- What fills a slot: its block, or else its shadow. -/
def filling (block shadow : Option (Except LoadError Block)) : Except LoadError (Option Block) :=
  match block.or shadow with
  | some b => b.map some
  | none => .ok none

mutual

/-- The block that an element writes down. -/
def block : Element → Except LoadError Block
  | .mk name attributes text children => do
    let element := Element.mk name attributes text children
    let type ← required element "type" .missingType
    let id := (element.attribute? "id").getD ""
    let parts ← parts type children
    .ok (parts.foldl addPart (.mk type id [] [] [] none []))
termination_by structural e => e

/-- The parts that elements contribute to a block of a type, in order. -/
def parts (type : String) : List Element → Except LoadError (List Part)
  | [] => .ok []
  | e :: rest => do
    let first ← part type e
    let others ← parts type rest
    .ok (first :: others)
termination_by structural es => es

/-- The part that an element contributes to a block of a type. -/
def part (type : String) : Element → Except LoadError Part
  | .mk name attributes text children =>
    let element := Element.mk name attributes text children
    let slot := required element "name" (.missingName element.tag type)
    match element.tag with
    | "mutation" => .ok (.mutation (mutation element))
    | "field" | "title" => do
      let name ← slot
      .ok (.field name text)
    | "value" => do
      let name ← slot
      let filling ← filling (firstOf "block" children) (firstOf "shadow" children)
      .ok (.value name filling)
    | "statement" => do
      let name ← slot
      let filling ← filling (firstOf "block" children) (firstOf "shadow" children)
      .ok (.statement name filling)
    | "next" => do
      let filling ← filling (firstOf "block" children) (firstOf "shadow" children)
      .ok (.next filling)
    | _ => .ok .other
termination_by structural e => e

/-- The block that the first element with a tag writes down. -/
def firstOf (tag : String) : List Element → Option (Except LoadError Block)
  | [] => none
  | e :: rest => if e.tag = tag then some (block e) else firstOf tag rest
termination_by structural es => es

end

/-- The blocks that the `block` elements among these write down, in order. -/
def blocks (es : List Element) : Except LoadError Forest :=
  (es.filter fun e => e.tag = "block").mapM block

end Load

namespace Forest

/-- The workspace that a root element writes down. -/
def ofElement (root : Xml.Element) : Except LoadError Forest :=
  match root.tag with
  | "xml" => Load.blocks root.children
  | "block" | "shadow" => (Load.block root).map ([·])
  | tag => .error (.unexpectedRoot tag)

/-- The workspace that a text holds. -/
def read (text : String) : Except LoadError Forest :=
  match Xml.Document.read text with
  | .ok root => ofElement root
  | .error fault => .error (.malformed fault)

end Forest

end Jigsaw
