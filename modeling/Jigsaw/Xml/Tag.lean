import Jigsaw.Xml.Entity
import Jigsaw.Xml.Namespace

/-!
# Xml/Tag — start tags

A start tag is a name and attributes, each a name with a quoted value.  Its characters are checked
one by one; what its attributes mean is settled when the tag is complete.
-/

namespace Jigsaw.Xml

/-- A name with at most one colon, read up to some point. -/
structure NameDraft where
  /-- The characters so far. -/
  chars : String
  /-- Whether a colon was among them. -/
  colon : Bool := false
  /-- Whether the next character has to start a name. -/
  fresh : Bool := false

/-- A name with one more character, if the character continues it. -/
def NameDraft.step? (d : NameDraft) (c : Char) : Option NameDraft :=
  if d.fresh then
    if isNameStart c then some { d with chars := d.chars.push c, fresh := false } else none
  else if isNameChar c then some { d with chars := d.chars.push c }
  else if c = ':' && !d.colon then some { chars := d.chars.push c, colon := true, fresh := true }
  else none

/-- An attribute as written. -/
structure RawAttribute where
  /-- Its name. -/
  name : String
  /-- The place of its name. -/
  position : Position
  /-- What stands between its quotes. -/
  value : List Char
  /-- The place of its value. -/
  cursor : Cursor

/-- A start tag as written. -/
structure Tag where
  /-- The place of its angle bracket. -/
  start : Position
  /-- Its name. -/
  name : String
  /-- Its attributes, in order. -/
  attributes : List RawAttribute
  /-- Whether it closes its element at once. -/
  empty : Bool

namespace Tag

/-- What a start tag is in the middle of. -/
inductive Part where
  /-- The name of the tag. -/
  | name (name : NameDraft)
  /-- Spaces between attributes. -/
  | space
  /-- The name of an attribute and its place. -/
  | attrName (name : NameDraft) (position : Position)
  /-- Spaces in front of the equals sign. -/
  | equals (name : String) (position : Position)
  /-- Spaces in front of the value. -/
  | quote (name : String) (position : Position)
  /-- A value: its quote, its place, its characters, latest first, and an unfinished reference. -/
  | value (name : String) (position : Position) (quote : Char) (cursor : Cursor)
      (chars : List Char) (reference : Option Reference.Draft)
  /-- The end of a value. -/
  | afterValue
  /-- The slash of a tag that closes its element at once. -/
  | slash

/-- A start tag read up to some point. -/
structure Draft where
  /-- The place of its angle bracket. -/
  start : Position
  /-- Its name, once it is known. -/
  name : String := ""
  /-- Its complete attributes, latest first. -/
  attributes : List RawAttribute := []
  /-- What comes next. -/
  part : Part

/-- The complete tag. -/
def Draft.finish (d : Draft) (empty : Bool) : Tag :=
  { start := d.start, name := d.name, attributes := d.attributes.reverse, empty }

/-- One more character after a name or a value: a space, or the end of the tag. -/
def Draft.boundary (d : Draft) (c : Char) : Progress Draft Tag :=
  if isSpace c then .more { d with part := .space }
  else if c = '>' then .done (d.finish false)
  else if c = '/' then .more { d with part := .slash }
  else .refused

/-- One more character inside a value. -/
def Draft.inValue (d : Draft) (name : String) (position : Position) (quote : Char)
    (cursor : Cursor) (chars : List Char) (reference : Option Reference.Draft) (c : Char) :
    Progress Draft Tag :=
  let go := fun reference =>
    .more { d with part := .value name position quote cursor (c :: chars) reference }
  match reference with
  | some r =>
    match r.step c with
    | .more r => go (some r)
    | .done _ => go none
    | .refused => .refused
  | none =>
    if c = quote then
      .more
        { d with
          attributes := ⟨name, position, chars.reverse, cursor⟩ :: d.attributes
          part := .afterValue }
    else if c = '&' then go (some .start)
    else if c = '<' || !isLegal c then .refused
    else go none

/-- One more character of a start tag, at a cursor. -/
def Draft.step (d : Draft) (k : Cursor) (c : Char) : Progress Draft Tag :=
  match d.part with
  | .name name =>
    match name.step? c with
    | some name => .more { d with part := .name name }
    | none => if name.fresh then .refused else Draft.boundary { d with name := name.chars } c
  | .space =>
    if isNameStart c then
      .more { d with part := .attrName { chars := String.singleton c } k.position }
    else d.boundary c
  | .attrName name position =>
    match name.step? c with
    | some name => .more { d with part := .attrName name position }
    | none =>
      if name.fresh then .refused
      else if isSpace c then .more { d with part := .equals name.chars position }
      else if c = '=' then .more { d with part := .quote name.chars position }
      else .refused
  | .equals name position =>
    if isSpace c then .more d
    else if c = '=' then .more { d with part := .quote name position }
    else .refused
  | .quote name position =>
    if isSpace c then .more d
    else if c = '"' || c = '\'' then
      .more { d with part := .value name position c (k.next c) [] none }
    else .refused
  | .value name position quote cursor chars reference =>
    d.inValue name position quote cursor chars reference c
  | .afterValue => d.boundary c
  | .slash => if c = '>' then .done (d.finish true) else .refused

/-! ## What a tag means -/

/-- Attributes with their values, and the namespaces that they declare. -/
structure Settled where
  /-- Attributes that are no namespace declarations: names as written, with values. -/
  attributes : List (String × String) := []
  /-- The names of all attributes. -/
  names : List String := []
  /-- The namespaces in force. -/
  spaces : Namespaces

/-- Adds an attribute that was not there. -/
def Settled.add (tag : Tag) (s : Settled) (name value : String) : Reading Settled :=
  let names := s.names ++ [name]
  match Namespaces.declaredPrefix? name with
  | some pre =>
    match Namespaces.refusal? pre value with
    | some reason => fail reason tag.start
    | none => .ok { s with names, spaces := (pre, value) :: s.spaces }
  | none => .ok { s with names, attributes := s.attributes ++ [(name, value)] }

/-- Adds an attribute as written. -/
def Settled.addRaw (doctype : Doctype) (tag : Tag) (s : Settled) (a : RawAttribute) :
    Reading Settled :=
  if a.name ∈ s.names then fail .duplicateAttribute a.position
  else do
    let verbatim := ((doctype.attributeType? tag.name a.name).map AttributeType.verbatim).getD true
    let value ← doctype.attributeValue verbatim tag.start a.cursor a.value
    s.add tag a.name value

/-- Adds a default value, unless the attribute is there. -/
def Settled.addDefault (tag : Tag) (s : Settled) (a : String × String) : Reading Settled :=
  if a.1 ∈ s.names then .ok s else s.add tag a.1 a.2

/-- The attributes of a tag and the namespaces in force inside it. -/
def settle (tag : Tag) (doctype : Doctype) (spaces : Namespaces) : Reading Settled := do
  let s ← tag.attributes.foldlM (Settled.addRaw doctype tag) { spaces }
  (doctype.defaults tag.name).foldlM (Settled.addDefault tag) s

/-- Adds the expanded name of an attribute; two attributes may not share one. -/
def addExpanded (tag : Tag) (spaces : Namespaces) (done : List (ExpandedName × String))
    (a : String × String) : Reading (List (ExpandedName × String)) :=
  match spaces.attributeName? a.1 with
  | none => fail .unboundPrefix tag.start
  | some name =>
    if (done.lookup name).isSome then fail .duplicateAttribute tag.start
    else .ok (done ++ [(name, a.2)])

/-- A tag with its namespaces resolved. -/
structure Resolved where
  /-- The name of the element. -/
  name : ExpandedName
  /-- Its attributes, in order. -/
  attributes : List (ExpandedName × String)
  /-- The namespaces in force inside it. -/
  spaces : Namespaces

/-- The meaning of a tag inside given namespaces. -/
def resolve (tag : Tag) (doctype : Doctype) (spaces : Namespaces) : Reading Resolved := do
  let s ← tag.settle doctype spaces
  let attributes ← s.attributes.foldlM (addExpanded tag s.spaces) []
  match s.spaces.elementName? tag.name with
  | none => fail .unboundPrefix tag.start
  | some name => .ok { name, attributes, spaces := s.spaces }

end Tag

end Jigsaw.Xml
