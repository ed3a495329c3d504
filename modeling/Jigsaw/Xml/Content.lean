import Jigsaw.Xml.Markup
import Jigsaw.Xml.Tag

/-!
# Xml/Content — the inside of the root element

Content is read one character at a time: the state holds the elements that are open and the piece of
text or markup that is being read.  The text of an entity is content of its own: it has to close
what it opens, and all its faults are placed at the reference to it.
-/

namespace Jigsaw.Xml

/-- An element whose end tag has not come. -/
structure OpenElement where
  /-- The name in its start tag, as written. -/
  written : String
  /-- What its start tag means. -/
  tag : Tag.Resolved
  /-- The text in front of the first child, latest character first. -/
  text : List Char := []
  /-- The complete children, latest first. -/
  children : List Element := []

namespace OpenElement

/-- The complete element. -/
def close (e : OpenElement) : Element :=
  .mk e.tag.name e.tag.attributes (String.ofList e.text.reverse) e.children.reverse

/-- Adds a character; it matters in front of the first child only. -/
def addChar (e : OpenElement) (c : Char) : OpenElement :=
  if e.children.isEmpty then { e with text := c :: e.text } else e

/-- Adds a child. -/
def addChild (e : OpenElement) (child : Element) : OpenElement :=
  { e with children := child :: e.children }

end OpenElement

/-- What content is in the middle of. -/
inductive Piece where
  /-- Text, after so many closing brackets in a row, or after a carriage return. -/
  | text (brackets : Nat) (afterReturn : Bool)
  /-- `<` -/
  | lessThan
  /-- `<!` -/
  | bang
  /-- A comment or instruction. -/
  | markup (draft : Markup.Draft)
  /-- The characters after `<![`, latest first, with their places. -/
  | cdataOpen (chars : List (Char × Position))
  /-- A literal section, after so many closing brackets that are not text yet, or after a carriage
  return. -/
  | cdata (brackets : Nat) (afterReturn : Bool)
  /-- A start tag. -/
  | tag (draft : Tag.Draft)
  /-- `</` -/
  | endOpen
  /-- The name in an end tag. -/
  | endName (name : String)
  /-- Spaces after the name in an end tag. -/
  | endSpace (name : String)
  /-- A reference. -/
  | reference (draft : Reference.Draft)

/-- Plain text. -/
def Piece.plain : Piece := .text 0 false

/-- Content read up to some point. -/
structure Content where
  /-- Where the next character stands. -/
  cursor : Cursor
  /-- Where the current piece started, or the carriage return just read. -/
  start : Cursor
  /-- The open elements, innermost first. -/
  opened : List OpenElement := []
  /-- The root element, once it is complete. -/
  root : Option Element := none
  /-- The current piece. -/
  piece : Piece := .plain

namespace Content

/-- Moves past a character into a piece that has already started. -/
def go (s : Content) (c : Char) (piece : Piece) : Content :=
  { s with cursor := s.cursor.next c, piece }

/-- Moves past a character into a piece that starts with it. -/
def enter (s : Content) (c : Char) (piece : Piece) : Content :=
  { s with start := s.cursor, cursor := s.cursor.next c, piece }

/-- The character at the cursor cannot stand there. -/
def refuse (s : Content) : Reading Content := fail .invalidToken s.cursor.position

/-- Adds a character to the innermost element. -/
def addChar (s : Content) (c : Char) : Content :=
  match s.opened with
  | [] => s
  | e :: outer => { s with opened := e.addChar c :: outer }

/-- Adds several characters. -/
def addChars (s : Content) (cs : List Char) : Content := cs.foldl addChar s

/-- Adds a complete element to the innermost open one; without one it is the root. -/
def addElement (s : Content) (e : Element) : Content :=
  match s.opened with
  | [] => { s with root := some e }
  | parent :: outer => { s with opened := parent.addChild e :: outer }

/-- The namespaces in force. -/
def spaces (s : Content) : Namespaces :=
  match s.opened with
  | [] => .initial
  | e :: _ => e.tag.spaces

/-- Takes a complete start tag. -/
def openTag (s : Content) (doctype : Doctype) (tag : Tag) : Reading Content := do
  let resolved ← tag.resolve doctype s.spaces
  let e : OpenElement := { written := tag.name, tag := resolved }
  if tag.empty then .ok (s.addElement e.close) else .ok { s with opened := e :: s.opened }

/-- Takes a complete end tag; `base` elements were open where the text at hand started. -/
def closeTag (s : Content) (base : Nat) (name : String) : Reading Content :=
  match s.opened with
  | [] => fail .asynchronousEntity s.start.position
  | e :: outer =>
    if s.opened.length ≤ base then fail .asynchronousEntity s.start.position
    else if e.written = name then .ok (addElement { s with opened := outer } e.close)
    else fail .mismatchedTag (s.start.skip ['<', '/']).position

/-- One more character of text. -/
def textStep (s : Content) (brackets : Nat) (afterReturn : Bool) (c : Char) : Reading Content :=
  match c with
  | '<' => .ok (s.enter c .lessThan)
  | '&' => .ok (s.enter c (.reference .start))
  | '\r' => .ok ((s.addChar '\n').enter c (.text 0 true))
  | '\n' => .ok ((if afterReturn then s else s.addChar '\n').go c .plain)
  | ']' => .ok ((s.addChar c).go c (.text (min (brackets + 1) 2) false))
  | _ =>
    if (c = '>' && brackets = 2) || !isLegal c then s.refuse else .ok ((s.addChar c).go c .plain)

/-- The literal section opened by `<![` and the given characters, latest first; none while they are
too few to tell. -/
def cdataOpened (s : Content) (c : Char) (chars : List (Char × Position)) : Reading Content :=
  if chars.foldl (fun size e => size + e.1.utf8Size) 0 < 6 then .ok (s.go c (.cdataOpen chars))
  else
    match (chars.reverse.zip "CDATA[".toList).find? fun e => e.1.1 ≠ e.2 with
    | some (wrong, _) => fail .invalidToken wrong.2
    | none => .ok (s.go c (.cdata 0 false))

/-- One more character of a literal section. -/
def cdataStep (s : Content) (brackets : Nat) (afterReturn : Bool) (c : Char) : Reading Content :=
  if c = ']' then
    if brackets = 2 then .ok ((s.addChar ']').go c (.cdata 2 false))
    else .ok (s.go c (.cdata (brackets + 1) false))
  else if c = '>' && brackets = 2 then .ok (s.go c .plain)
  else
    let s := s.addChars (List.replicate brackets ']')
    match c with
    | '\r' => .ok ((s.addChar '\n').enter c (.cdata 0 true))
    | '\n' => .ok ((if afterReturn then s else s.addChar '\n').go c (.cdata 0 false))
    | _ => if isLegal c then .ok ((s.addChar c).go c (.cdata 0 false)) else s.refuse

/-- Takes a complete reference.  `expand` adds the content of an entity. -/
def takeReference (s : Content) (expand : String → Content → Reading Content) :
    Reference → Reading Content
  | .character number =>
    match Reference.character? number with
    | some c => .ok (s.addChar c)
    | none => fail .invalidCharacterNumber s.start.position
  | .entity name =>
    match Reference.predefined? name with
    | some c => .ok (s.addChar c)
    | none => expand name s

/-- One more character of content; `base` elements were open where the text at hand started. -/
def step (doctype : Doctype) (base : Nat) (expand : String → Content → Reading Content)
    (s : Content) (c : Char) : Reading Content :=
  match s.piece with
  | .text brackets afterReturn => s.textStep brackets afterReturn c
  | .lessThan =>
    if isNameStart c then
      .ok (s.go c
        (.tag { start := s.start.position, part := .name { chars := String.singleton c } }))
    else
      match c with
      | '!' => .ok (s.go c .bang)
      | '?' => .ok (s.go c (.markup .targetOpen))
      | '/' => .ok (s.go c .endOpen)
      | _ => s.refuse
  | .bang =>
    match c with
    | '-' => .ok (s.go c (.markup .commentOpen))
    | '[' => .ok (s.go c (.cdataOpen []))
    | _ => s.refuse
  | .markup draft =>
    match draft.step c with
    | .more draft => .ok (s.go c (.markup draft))
    | .done (.declaration _) => fail .misplacedDeclaration s.start.position
    | .done _ => .ok (s.go c .plain)
    | .refused => s.refuse
  | .cdataOpen chars => s.cdataOpened c ((c, s.cursor.position) :: chars)
  | .cdata brackets afterReturn => s.cdataStep brackets afterReturn c
  | .tag draft =>
    match draft.step s.cursor c with
    | .more draft => .ok (s.go c (.tag draft))
    | .done tag => (s.go c .plain).openTag doctype tag
    | .refused => s.refuse
  | .endOpen => if isNameStart c then .ok (s.go c (.endName (String.singleton c))) else s.refuse
  | .endName name =>
    if isNameChar c || c = ':' then .ok (s.go c (.endName (name.push c)))
    else if isSpace c then .ok (s.go c (.endSpace name))
    else if c = '>' then (s.go c .plain).closeTag base name
    else s.refuse
  | .endSpace name =>
    if isSpace c then .ok (s.go c (.endSpace name))
    else if c = '>' then (s.go c .plain).closeTag base name
    else s.refuse
  | .reference draft =>
    match draft.step c with
    | .more draft => .ok (s.go c (.reference draft))
    | .done reference => (s.go c .plain).takeReference expand reference
    | .refused => s.refuse

/-- Why content that stops here stops too early, where `base` elements were open at its start. -/
def unfinished? (s : Content) (base : Nat) : Option Reason :=
  match s.piece with
  | .text _ _ => if s.opened.length = base then none else some .asynchronousEntity
  | .cdata _ _ => some .unclosedCdata
  | _ => some .unclosedToken

/-- The end of the text of an entity. -/
def endEntity (s : Content) (base : Nat) : Reading Content :=
  match s.unfinished? base with
  | some reason => fail reason s.cursor.position
  | none => .ok s

/-- One more character of content, where `base` elements were open at the start of the text at hand
and `entities` are being expanded; `depth` bounds the number of those to come. -/
def stepWith (doctype : Doctype) :
    Nat → Nat → List String → Content → Char → Reading Content
  | 0, base, _, s, c =>
    s.step doctype base (fun _ s => fail .recursiveEntity s.start.position) c
  | depth + 1, base, entities, s, c =>
    let expand := fun (name : String) (s : Content) =>
      let place := s.start.position
      match doctype.entities.lookup name with
      | none => fail (if doctype.closed then .undefinedEntity else .unknownEntity name) place
      | some entity =>
        if name ∈ entities then fail .recursiveEntity place
        else
          match entity with
          | .binary => fail .binaryEntity place
          | .external => fail (.unknownEntity name) place
          | .internal text => do
            let inner ← text.foldlM
              (stepWith doctype depth s.opened.length (name :: entities))
              { s with cursor := .fixedAt place }
            let inner ← inner.endEntity s.opened.length
            .ok { inner with cursor := s.cursor, piece := .plain }
    s.step doctype base expand c

/-- One more character of the root element. -/
def read (doctype : Doctype) (s : Content) (c : Char) : Reading Content :=
  s.stepWith doctype (doctype.entities.length + 1) 0 [] c

/-- The fault of a document that ends inside its root element. -/
def endFault (s : Content) : Fault :=
  let here := s.cursor.position
  match s.piece with
  | .text _ afterReturn => ⟨.noElement, if afterReturn then s.start.position else here⟩
  | .cdata brackets afterReturn =>
    ⟨.unclosedCdata,
      if afterReturn then s.start.position else ⟨here.line, here.column - brackets⟩⟩
  | _ => ⟨.unclosedToken, s.start.position⟩

end Content

end Jigsaw.Xml
