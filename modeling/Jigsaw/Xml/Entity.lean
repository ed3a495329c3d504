import Jigsaw.Xml.Reference

/-!
# Xml/Entity — declared entities and attribute types

The document type declares entities, whose text stands for references to them, and the types and
default values of attributes.  Of two declarations of one thing the first counts.
-/

namespace Jigsaw.Xml

/-- What a reference to an entity stands for. -/
inductive Entity where
  /-- Text inside the document. -/
  | internal (text : List Char)
  /-- Text outside the document. -/
  | external
  /-- Something that is no text. -/
  | binary

/-- A declared attribute. -/
structure AttributeType where
  /-- The element, as written. -/
  element : String
  /-- The attribute, as written. -/
  name : String
  /-- Whether spaces in its values are kept as they are. -/
  verbatim : Bool
  /-- Its value where it is left out. -/
  default : Option String

/-- What the document type declares. -/
structure Doctype where
  /-- General entities by name. -/
  entities : List (String × Entity) := []
  /-- Attributes, in the order of their declarations. -/
  attributes : List AttributeType := []
  /-- Whether declarations outside the document may exist. -/
  external : Bool := false
  /-- Whether the document says that it needs none of them. -/
  standalone : Bool := false
  /-- Whether declarations still count: not after a reference that was not followed. -/
  counting : Bool := true

namespace Doctype

/-- Whether an entity without a declaration is an error. -/
def closed (t : Doctype) : Bool := !t.external || t.standalone

/-- Declares an entity, unless its name is taken. -/
def declare (t : Doctype) (name : String) (entity : Entity) : Doctype :=
  if !t.counting || (Reference.predefined? name).isSome || (t.entities.lookup name).isSome then t
  else { t with entities := t.entities ++ [(name, entity)] }

/-- The declaration that counts for an attribute. -/
def attributeType? (t : Doctype) (element name : String) : Option AttributeType :=
  t.attributes.find? fun a => a.element = element && a.name = name

/-- Declares an attribute. -/
def declareAttribute (t : Doctype) (a : AttributeType) : Doctype :=
  if !t.counting then t
  else if a.default.isSome && (t.attributeType? a.element a.name).isSome then t
  else { t with attributes := t.attributes ++ [a] }

/-- The default values of an element's attributes. -/
def defaults (t : Doctype) (element : String) : List (String × String) :=
  t.attributes.filterMap fun a =>
    if a.element = element then a.default.map fun value => (a.name, value) else none

end Doctype

/-! ## Attribute values

A tab or line end in a value becomes a space.  Where spaces are not kept as they are, those around
the value go and those inside it shrink to one. -/

/-- An attribute value read up to some point. -/
structure ValueDraft where
  /-- Where the next character stands. -/
  cursor : Cursor
  /-- The value so far, latest character first. -/
  out : List Char
  /-- Whether the last character was a carriage return. -/
  afterReturn : Bool := false
  /-- An unfinished reference and the place of its ampersand. -/
  reference : Option (Position × Reference.Draft) := none

namespace ValueDraft

/-- Adds a space; where spaces are not kept, only after another character. -/
def space (verbatim : Bool) (out : List Char) : List Char :=
  if verbatim then ' ' :: out
  else
    match out with
    | [] => []
    | ' ' :: _ => out
    | _ => ' ' :: out

/-- Adds a character given by its number. -/
def charByNumber (verbatim : Bool) (c : Char) (out : List Char) : List Char :=
  if c = ' ' then space verbatim out else c :: out

/-- One more character of a value.  `expand` adds the text of an entity, referred to at a place. -/
def step (verbatim : Bool) (expand : String → Position → List Char → Reading (List Char))
    (d : ValueDraft) (c : Char) : Reading ValueDraft :=
  let here := d.cursor.position
  let next := d.cursor.next c
  match d.reference with
  | some (start, r) =>
    match r.step c with
    | .more r => .ok { d with cursor := next, reference := some (start, r) }
    | .refused => fail .invalidToken here
    | .done (.character number) =>
      match Reference.character? number with
      | some ch => .ok { cursor := next, out := charByNumber verbatim ch d.out }
      | none => fail .invalidCharacterNumber start
    | .done (.entity name) =>
      match Reference.predefined? name with
      | some ch => .ok { cursor := next, out := ch :: d.out }
      | none => (expand name start d.out).map fun out => { cursor := next, out }
  | none =>
    match c with
    | '&' => .ok { cursor := next, out := d.out, reference := some (here, .start) }
    | '<' => fail .invalidToken here
    | '\r' => .ok { cursor := next, out := space verbatim d.out, afterReturn := true }
    | '\n' =>
      .ok { cursor := next, out := if d.afterReturn then d.out else space verbatim d.out }
    | '\t' | ' ' => .ok { cursor := next, out := space verbatim d.out }
    | _ => .ok { cursor := next, out := c :: d.out }

/-- The whole value; a reference may not be left unfinished. -/
def finish (d : ValueDraft) : Reading (List Char) :=
  match d.reference with
  | some (start, _) => fail .invalidToken start
  | none => .ok d.out

end ValueDraft

namespace Doctype

/-- Adds the text of a value to `out`, latest character first.  Faults inside an entity are placed
at `anchor`; `opened` are the entities being expanded, and `depth` bounds their number. -/
def expandValue (t : Doctype) (verbatim : Bool) (anchor : Position) :
    Nat → List String → Cursor → List Char → List Char → Reading (List Char)
  | 0, _, cursor, out, chars => do
    let d ← chars.foldlM
      (ValueDraft.step verbatim fun _ _ _ => fail .recursiveEntity anchor) { cursor, out }
    d.finish
  | depth + 1, opened, cursor, out, chars => do
    let expand := fun (name : String) (place : Position) (out : List Char) =>
      match t.entities.lookup name with
      | none => if t.closed then fail .undefinedEntity anchor else .ok out
      | some entity =>
        if name ∈ opened then fail .recursiveEntity anchor
        else
          match entity with
          | .binary => fail .binaryEntity place
          | .external => fail .externalEntityInAttribute place
          | .internal text =>
            t.expandValue verbatim anchor depth (name :: opened) (.fixedAt anchor) out text
    let d ← chars.foldlM (ValueDraft.step verbatim expand) { cursor, out }
    d.finish

/-- The value of an attribute as written, from the place of its first character on. -/
def attributeValue (t : Doctype) (verbatim : Bool) (anchor : Position) (cursor : Cursor)
    (chars : List Char) : Reading String := do
  let out ← t.expandValue verbatim anchor (t.entities.length + 1) [] cursor [] chars
  let out := if !verbatim && out.head? = some ' ' then out.drop 1 else out
  pure (String.ofList out.reverse)

end Doctype

/-! ## Entity values

In the text of an entity, references to characters are followed at once and references to entities
where the entity is used. -/

/-- What an entity value may be in the middle of. -/
inductive EntityValueDraft.Pending where
  /-- Nothing. -/
  | none
  /-- A line end, after a carriage return. -/
  | lineEnd
  /-- A reference: the place of its ampersand and its characters, latest first. -/
  | reference (start : Position) (raw : List Char) (draft : Reference.Draft)
  /-- A percent sign. -/
  | percent (start : Position)
  /-- A percent sign and the start of a name. -/
  | parameter (start : Position)

/-- An entity value read up to some point. -/
structure EntityValueDraft where
  /-- Where the next character stands. -/
  cursor : Cursor
  /-- The text so far, latest character first. -/
  out : List Char := []
  /-- What is not finished. -/
  pending : EntityValueDraft.Pending := .none

namespace EntityValueDraft

/-- One more character where nothing is pending. -/
def plain (d : EntityValueDraft) (afterReturn : Bool) (c : Char) : EntityValueDraft :=
  let here := d.cursor.position
  let next := d.cursor.next c
  match c with
  | '&' => { cursor := next, out := d.out, pending := .reference here ['&'] .start }
  | '%' => { cursor := next, out := d.out, pending := .percent here }
  | '\r' => { cursor := next, out := '\n' :: d.out, pending := .lineEnd }
  | '\n' => { cursor := next, out := if afterReturn then d.out else '\n' :: d.out }
  | _ => { cursor := next, out := c :: d.out }

/-- One more character of an entity value. -/
def step (d : EntityValueDraft) (c : Char) : Reading EntityValueDraft :=
  let here := d.cursor.position
  let next := d.cursor.next c
  match d.pending with
  | .none => .ok (d.plain false c)
  | .lineEnd => .ok (d.plain true c)
  | .reference start raw draft =>
    match draft.step c with
    | .more draft => .ok { d with cursor := next, pending := .reference start (c :: raw) draft }
    | .refused => fail .invalidToken here
    | .done (.entity _) => .ok { cursor := next, out := c :: raw ++ d.out }
    | .done (.character number) =>
      match Reference.character? number with
      | some ch => .ok { cursor := next, out := ch :: d.out }
      | none => fail .invalidCharacterNumber start
  | .percent start =>
    if isNameStart c then .ok { d with cursor := next, pending := .parameter start }
    else fail .invalidToken here
  | .parameter start =>
    if isNameChar c then .ok { d with cursor := next }
    else if c = ';' then fail .parameterReference start
    else fail .invalidToken here

/-- The whole text; nothing may be left unfinished. -/
def finish (d : EntityValueDraft) : Reading (List Char) :=
  match d.pending with
  | .none | .lineEnd => .ok d.out.reverse
  | .reference start _ _ | .percent start | .parameter start => fail .invalidToken start

/-- The text of an entity as written, from the place of its first character on. -/
def read (cursor : Cursor) (chars : List Char) : Reading (List Char) := do
  let d ← chars.foldlM step { cursor }
  d.finish

end EntityValueDraft

end Jigsaw.Xml
