import Jigsaw.Xml.Declaration
import Jigsaw.Xml.Entity
import Jigsaw.Xml.Markup

/-!
# Xml/Prolog — what stands around the root element

In front of the root element a document may have an XML declaration and a document type, whose inner
part declares entities, attributes, elements and notations.  Behind it, as everywhere here,
comments, instructions and spaces may follow.  The text is cut into tokens, and at every point the
tokens that may come next are known.
-/

namespace Jigsaw.Xml.Prolog

/-- The mark after a name or a group in a content model. -/
inductive Repeat where
  | once | optional | many | some
deriving DecidableEq

/-- A token outside the root element. -/
inductive Token where
  /-- A name; `colon` if it has a prefix. -/
  | name (chars : String) (colon : Bool)
  /-- A name with a mark for repetition. -/
  | repeated
  /-- Characters of names that are no name. -/
  | nameToken
  /-- `#name` -/
  | pound (name : String)
  /-- A quoted text and the place of its first character. -/
  | literal (chars : List Char) (cursor : Cursor)
  /-- `%` alone. -/
  | percent
  /-- `%name;` -/
  | parameter
  /-- `<!KEYWORD` -/
  | declaration (keyword : String)
  /-- `<![` or `]]>` -/
  | conditional
  /-- `[` -/
  | openBracket
  /-- `]` -/
  | closeBracket
  /-- `(` -/
  | openParen
  /-- `)` with its mark. -/
  | closeParen (mark : Repeat)
  /-- `,` -/
  | comma
  /-- `|` -/
  | bar
  /-- `>` -/
  | close
  /-- A comment or instruction. -/
  | markup (markup : Markup)

/-- What may come next outside the root element. -/
inductive Expect where
  /-- The very start, where an XML declaration may stand. -/
  | start
  /-- In front of the document type. -/
  | doctype
  /-- In front of the root element. -/
  | root
  /-- Behind the root element. -/
  | nothing
  /-- The name of the document type, what may follow it, its ids, its inner part, its end. -/
  | doctypeName | doctypeId | doctypePublic | doctypeSystem | doctypeSubset | doctypeClose
  /-- A declaration in the inner part. -/
  | subset
  /-- The end of a declaration. -/
  | close
  /-- The name of an entity, or of a parameter entity. -/
  | entityName | parameterName
  /-- The value or the id of an entity; no name for a parameter entity. -/
  | entityValue (name : Option String)
  /-- The public id of an entity. -/
  | entityPublic (name : Option String)
  /-- The system id of an entity. -/
  | entitySystem (name : Option String)
  /-- The end of an external entity, or what kind of data it holds. -/
  | entityData (name : Option String)
  /-- The name of a notation after `NDATA`. -/
  | entityNotation (name : Option String)
  /-- The name of a notation, its kind of id, its ids. -/
  | notationName | notationId | notationPublic | notationSystem | notationClose
  /-- The element of an attribute list. -/
  | attributeElement
  /-- The next attribute of a list. -/
  | attributeName (element : String)
  /-- The type of an attribute. -/
  | attributeType (element name : String)
  /-- A group of notations. -/
  | attributeGroup (element name : String)
  /-- A member of an enumeration, of names only for notations. -/
  | attributeMember (element name : String) (notations : Bool)
  /-- The end of an enumeration or its next member. -/
  | attributeMore (element name : String) (notations : Bool)
  /-- What holds where an attribute is left out. -/
  | attributeDefault (element name : String) (verbatim : Bool)
  /-- The only value of an attribute. -/
  | attributeFixed (element name : String) (verbatim : Bool)
  /-- The name of an element and its content model. -/
  | elementName | elementModel
  /-- The start of a model in parentheses. -/
  | modelStart
  /-- Mixed content: after `#PCDATA`, after a bar, after a name. -/
  | mixedFirst | mixedName | mixedMore
  /-- A part of a model, inside groups with these connectors, innermost first. -/
  | modelPart (groups : List (Option Char))
  /-- What follows a part of a model. -/
  | modelMore (groups : List (Option Char))

/-- Why a token that may not come here is refused. -/
def refusal : Token → Reason
  | .parameter => .parameterReference
  | .markup (.declaration _) => .misplacedDeclaration
  | _ => .syntaxError

/-- A character of a public id. -/
def isPublicIdChar (c : Char) : Bool :=
  c.isAlphanum || c ∈ " \r\n-'()+,./:=?;!*#@$_%".toList

/-- The place of the first character that may not stand in a public id. -/
def badPublicId? : List Char → Cursor → Option Position
  | [], _ => none
  | c :: cs, k => if isPublicIdChar c then badPublicId? cs (k.next c) else some k.position

/-- A public id that holds only the characters it may. -/
def checkPublicId (chars : List Char) (cursor : Cursor) : Reading Unit :=
  match badPublicId? chars cursor with
  | some place => fail .invalidPublicId place
  | none => .ok ()

/-- The types of attributes that are one word, other than `CDATA`. -/
def tokenizedTypes : List String :=
  ["ID", "IDREF", "IDREFS", "ENTITY", "ENTITIES", "NMTOKEN", "NMTOKENS"]

/-- What is known of the document type, and what may come next. -/
structure State where
  /-- What was declared. -/
  doctype : Doctype := {}
  /-- What may come next. -/
  expect : Expect := .start

namespace State

/-- The state in which something else may come next. -/
def awaits (s : State) (expect : Expect) : Reading State := .ok { s with expect }

/-- The end of an attribute's declaration. -/
def declareAttribute (s : State) (element name : String) (verbatim : Bool)
    (default : Option String) : Reading State :=
  .ok
    { doctype := s.doctype.declareAttribute { element, name, verbatim, default }
      expect := .attributeName element }

/-- The default value of an attribute, written at a place. -/
def attributeLiteral (s : State) (element name : String) (verbatim : Bool) (chars : List Char)
    (cursor : Cursor) (start : Position) : Reading State :=
  if s.doctype.counting then do
    let value ← s.doctype.attributeValue verbatim start cursor chars
    s.declareAttribute element name verbatim (some value)
  else s.awaits (.attributeName element)

/-- The connector of the innermost group, which may not change. -/
def connect (s : State) (connector : Char) (groups : List (Option Char)) (start : Position) :
    Reading State :=
  match groups with
  | none :: outer => s.awaits (.modelPart (some connector :: outer))
  | some c :: outer =>
    if c = connector then s.awaits (.modelPart (some c :: outer)) else fail .syntaxError start
  | [] => fail .syntaxError start

/-- The end of the innermost group. -/
def leaveGroup (s : State) (groups : List (Option Char)) : Reading State :=
  match groups with
  | _ :: next :: outer => s.awaits (.modelMore (next :: outer))
  | _ => s.awaits .close

/-- The XML declaration, at a cursor. -/
def declare (s : State) (body : List Char) (start : Cursor) : Reading State :=
  match Declaration.standalone body with
  | .ok standalone => .ok { doctype := { s.doctype with standalone }, expect := .doctype }
  | .error bad =>
    fail .malformedDeclaration
      (start.skip ("<?xml".toList ++ body.take (body.length - bad.length))).position

/-- Takes a token in the inner part of the document type. -/
def acceptSubset (s : State) (token : Token) (start : Position) : Reading State :=
  match token with
  | .declaration "ENTITY" => s.awaits .entityName
  | .declaration "ATTLIST" => s.awaits .attributeElement
  | .declaration "ELEMENT" => s.awaits .elementName
  | .declaration "NOTATION" => s.awaits .notationName
  | .markup .comment | .markup .instruction => .ok s
  | .parameter =>
    .ok
      { s with
        doctype :=
          { s.doctype with
            external := true
            counting := s.doctype.counting && s.doctype.standalone } }
  | .closeBracket => s.awaits .doctypeClose
  | _ => fail (refusal token) start

/-- Takes the token that comes next; `start` is its place. -/
def accept (s : State) (token : Token) (start : Cursor) : Reading State :=
  let place := start.position
  match s.expect, token with
  | .nothing, .markup .comment => .ok s
  | .nothing, .markup .instruction => .ok s
  | .nothing, _ => fail .junkAfterRoot place
  | .start, .markup (.declaration body) => s.declare body start
  | .start, .markup _ => s.awaits .doctype
  | .start, .declaration "DOCTYPE" => s.awaits .doctypeName
  | .doctype, .markup .comment => .ok s
  | .doctype, .markup .instruction => .ok s
  | .doctype, .declaration "DOCTYPE" => s.awaits .doctypeName
  | .root, .markup .comment => .ok s
  | .root, .markup .instruction => .ok s
  | .doctypeName, .name _ _ => s.awaits .doctypeId
  | .doctypeId, .openBracket => s.awaits .subset
  | .doctypeId, .close => s.awaits .root
  | .doctypeId, .name "SYSTEM" false => s.awaits .doctypeSystem
  | .doctypeId, .name "PUBLIC" false => s.awaits .doctypePublic
  | .doctypePublic, .literal chars cursor => do
    checkPublicId chars cursor
    s.awaits .doctypeSystem
  | .doctypeSystem, .literal _ _ =>
    .ok { doctype := { s.doctype with external := true }, expect := .doctypeSubset }
  | .doctypeSubset, .openBracket => s.awaits .subset
  | .doctypeSubset, .close => s.awaits .root
  | .doctypeClose, .close => s.awaits .root
  | .subset, _ => s.acceptSubset token place
  | .close, .close => s.awaits .subset
  | .entityName, .percent => s.awaits .parameterName
  | .entityName, .name name false => s.awaits (.entityValue (some name))
  | .parameterName, .name _ false => s.awaits (.entityValue none)
  | .entityValue name, .literal chars cursor =>
    if s.doctype.counting then do
      let text ← EntityValueDraft.read cursor chars
      match name with
      | some name => .ok { doctype := s.doctype.declare name (.internal text), expect := .close }
      | none => s.awaits .close
    else s.awaits .close
  | .entityValue name, .name "SYSTEM" false => s.awaits (.entitySystem name)
  | .entityValue name, .name "PUBLIC" false => s.awaits (.entityPublic name)
  | .entityPublic name, .literal chars cursor => do
    checkPublicId chars cursor
    s.awaits (.entitySystem name)
  | .entitySystem name, .literal _ _ => s.awaits (.entityData name)
  | .entityData (some name), .close =>
    .ok { doctype := s.doctype.declare name .external, expect := .subset }
  | .entityData none, .close => s.awaits .subset
  | .entityData (some name), .name "NDATA" false => s.awaits (.entityNotation (some name))
  | .entityNotation name, .name _ false =>
    match name with
    | some name => .ok { doctype := s.doctype.declare name .binary, expect := .close }
    | none => s.awaits .close
  | .notationName, .name _ false => s.awaits .notationId
  | .notationId, .name "SYSTEM" false => s.awaits .notationSystem
  | .notationId, .name "PUBLIC" false => s.awaits .notationPublic
  | .notationPublic, .literal chars cursor => do
    checkPublicId chars cursor
    s.awaits .notationClose
  | .notationSystem, .literal _ _ => s.awaits .close
  | .notationClose, .literal _ _ => s.awaits .close
  | .notationClose, .close => s.awaits .subset
  | .attributeElement, .name element _ => s.awaits (.attributeName element)
  | .attributeName _, .close => s.awaits .subset
  | .attributeName element, .name name _ => s.awaits (.attributeType element name)
  | .attributeType element name, .name "CDATA" false =>
    s.awaits (.attributeDefault element name true)
  | .attributeType element name, .name "NOTATION" false =>
    s.awaits (.attributeGroup element name)
  | .attributeType element name, .name type false =>
    if type ∈ tokenizedTypes then s.awaits (.attributeDefault element name false)
    else fail .syntaxError place
  | .attributeType element name, .openParen => s.awaits (.attributeMember element name false)
  | .attributeGroup element name, .openParen => s.awaits (.attributeMember element name true)
  | .attributeMember element name notations, .name _ colon =>
    if notations && colon then fail .syntaxError place
    else s.awaits (.attributeMore element name notations)
  | .attributeMember element name false, .nameToken => s.awaits (.attributeMore element name false)
  | .attributeMore element name _, .closeParen .once =>
    s.awaits (.attributeDefault element name false)
  | .attributeMore element name notations, .bar =>
    s.awaits (.attributeMember element name notations)
  | .attributeDefault element name verbatim, .pound "IMPLIED" =>
    s.declareAttribute element name verbatim none
  | .attributeDefault element name verbatim, .pound "REQUIRED" =>
    s.declareAttribute element name verbatim none
  | .attributeDefault element name verbatim, .pound "FIXED" =>
    s.awaits (.attributeFixed element name verbatim)
  | .attributeDefault element name verbatim, .literal chars cursor =>
    s.attributeLiteral element name verbatim chars cursor place
  | .attributeFixed element name verbatim, .literal chars cursor =>
    s.attributeLiteral element name verbatim chars cursor place
  | .elementName, .name _ _ => s.awaits .elementModel
  | .elementModel, .name "EMPTY" false => s.awaits .close
  | .elementModel, .name "ANY" false => s.awaits .close
  | .elementModel, .openParen => s.awaits .modelStart
  | .modelStart, .pound "PCDATA" => s.awaits .mixedFirst
  | .modelStart, .openParen => s.awaits (.modelPart [none, none])
  | .modelStart, .name _ _ => s.awaits (.modelMore [none])
  | .modelStart, .repeated => s.awaits (.modelMore [none])
  | .mixedFirst, .closeParen .once => s.awaits .close
  | .mixedFirst, .closeParen .many => s.awaits .close
  | .mixedFirst, .bar => s.awaits .mixedName
  | .mixedName, .name _ _ => s.awaits .mixedMore
  | .mixedMore, .closeParen .many => s.awaits .close
  | .mixedMore, .bar => s.awaits .mixedName
  | .modelPart groups, .openParen => s.awaits (.modelPart (none :: groups))
  | .modelPart groups, .name _ _ => s.awaits (.modelMore groups)
  | .modelPart groups, .repeated => s.awaits (.modelMore groups)
  | .modelMore groups, .closeParen _ => s.leaveGroup groups
  | .modelMore groups, .comma => s.connect ',' groups place
  | .modelMore groups, .bar => s.connect '|' groups place
  | _, _ => fail (refusal token) place

/-- Takes spaces: after them no XML declaration may come. -/
def acceptSpace (s : State) : State :=
  match s.expect with
  | .start => { s with expect := .doctype }
  | _ => s

/-- Why the root element may not start here, if it may not. -/
def rootRefusal? (s : State) : Option Reason :=
  match s.expect with
  | .start | .doctype | .root => none
  | .nothing => some .junkAfterRoot
  | _ => some .syntaxError

end State

/-! ## Tokens -/

/-- What a token that starts like a name may turn out to be. -/
inductive WordKind where
  | name | prefixed | nameToken
deriving DecidableEq

/-- The token of a complete word. -/
def WordKind.token (kind : WordKind) (chars : String) : Token :=
  match kind with
  | .name => .name chars false
  | .prefixed => .name chars true
  | .nameToken => .nameToken

/-- What the text outside the root element is in the middle of. -/
inductive Piece where
  /-- Nothing. -/
  | none
  /-- `<` -/
  | lessThan
  /-- `<!` -/
  | bang
  /-- A comment or instruction. -/
  | markup (draft : Markup.Draft)
  /-- `<!` and letters. -/
  | keyword (chars : String)
  /-- `<!`, letters and a percent sign at a cursor. -/
  | keywordPercent (chars : String) (percent : Cursor)
  /-- Characters of a name. -/
  | word (kind : WordKind) (chars : String)
  /-- A name and a colon. -/
  | wordColon (chars : String)
  /-- A quoted text: its quote, the place of its first character, its characters, latest first. -/
  | literal (quote : Char) (cursor : Cursor) (chars : List Char)
  /-- A quoted text after its end. -/
  | literalEnd (cursor : Cursor) (chars : List Char)
  /-- `%` -/
  | percent
  /-- `%` and characters of a name. -/
  | parameter
  /-- `]` -/
  | bracket
  /-- `]]`, the second at a cursor. -/
  | brackets (second : Cursor)
  /-- `)` -/
  | paren
  /-- `#` -/
  | pound
  /-- `#` and characters of a name. -/
  | poundName (chars : String)

end Prolog

/-- The text outside the root element, read up to some point. -/
structure Prolog where
  /-- Where the next character stands. -/
  cursor : Cursor := {}
  /-- Where the current piece started. -/
  start : Cursor := {}
  /-- What is known and what may come next. -/
  state : Prolog.State := {}
  /-- The current piece. -/
  piece : Prolog.Piece := .none

namespace Prolog

/-- Moves past a character into a piece that has already started. -/
def go (p : Prolog) (c : Char) (piece : Piece) : Prolog :=
  { p with cursor := p.cursor.next c, piece }

/-- Moves past a character into a piece that starts with it. -/
def enter (p : Prolog) (c : Char) (piece : Piece) : Prolog :=
  { p with start := p.cursor, cursor := p.cursor.next c, piece }

/-- The character at the cursor cannot stand there. -/
def refuse {α : Type} (p : Prolog) : Reading α := fail .invalidToken p.cursor.position

/-- Takes the token that ends in front of the cursor. -/
def accept (p : Prolog) (token : Token) : Reading Prolog := do
  let state ← p.state.accept token p.start
  .ok { p with state, piece := .none }

/-- Takes the token that a character ends. -/
def acceptWith (p : Prolog) (c : Char) (token : Token) : Reading Prolog :=
  (p.go c .none).accept token

/-- Takes a token that is one character. -/
def single (p : Prolog) (c : Char) (token : Token) : Reading Prolog :=
  (p.enter c .none).accept token

/-- One more character where a token may start. -/
def idleStep (p : Prolog) (c : Char) : Reading Prolog :=
  match c with
  | '"' | '\'' => .ok (p.enter c (.literal c (p.cursor.next c) []))
  | '<' => .ok (p.enter c .lessThan)
  | '%' => .ok (p.enter c .percent)
  | ',' => p.single c .comma
  | '[' => p.single c .openBracket
  | ']' => .ok (p.enter c .bracket)
  | '(' => p.single c .openParen
  | ')' => .ok (p.enter c .paren)
  | '|' => p.single c .bar
  | '>' => p.single c .close
  | '#' => .ok (p.enter c .pound)
  | _ =>
    if isSpace c then .ok { p.enter c .none with state := p.state.acceptSpace }
    else if isNameStart c then .ok (p.enter c (.word .name (String.singleton c)))
    else if isNameChar c || c = ':' then
      .ok (p.enter c (.word .nameToken (String.singleton c)))
    else p.refuse

/-- A token ends in front of a character that may start the next. -/
def acceptBefore (p : Prolog) (token : Token) (c : Char) : Reading Prolog := do
  let p ← p.accept token
  p.idleStep c

/-- One more character of a word. -/
def wordStep (p : Prolog) (kind : WordKind) (chars : String) (c : Char) : Reading Prolog :=
  if isNameChar c then .ok (p.go c (.word kind (chars.push c)))
  else if isSpace c || c ∈ [')', '>', ',', '|', '[', '%'] then p.acceptBefore (kind.token chars) c
  else if c = ':' then
    match kind with
    | .name => .ok (p.go c (.wordColon (chars.push c)))
    | _ => .ok (p.go c (.word .nameToken (chars.push c)))
  else if c ∈ ['?', '*', '+'] && kind ≠ .nameToken then p.acceptWith c .repeated
  else p.refuse

/-- One more character after a percent sign. -/
def percentStep (p : Prolog) (c : Char) : Reading Prolog :=
  if isNameStart c then .ok (p.go c .parameter)
  else if isSpace c || c = '%' then p.acceptBefore .percent c
  else p.refuse

/-- One more character after a closing bracket. -/
def bracketStep (p : Prolog) (c : Char) : Reading Prolog :=
  if c = ']' then .ok (p.go c (.brackets p.cursor)) else p.acceptBefore .closeBracket c

/-- The character that tells how a group repeats. -/
def mark? : Char → Option Repeat
  | '*' => some .many
  | '?' => some .optional
  | '+' => some .some
  | _ => none

/-- One more character outside the root element, where no root element starts. -/
def step (p : Prolog) (c : Char) : Reading Prolog :=
  match p.piece with
  | .none => p.idleStep c
  | .lessThan =>
    match c with
    | '!' => .ok (p.go c .bang)
    | '?' => .ok (p.go c (.markup .targetOpen))
    | _ => p.refuse
  | .bang =>
    match c with
    | '-' => .ok (p.go c (.markup .commentOpen))
    | '[' => p.acceptWith c .conditional
    | _ => if c.isAlpha || c = '_' then .ok (p.go c (.keyword (String.singleton c))) else p.refuse
  | .markup draft =>
    match draft.step c with
    | .more draft => .ok (p.go c (.markup draft))
    | .done markup => p.acceptWith c (.markup markup)
    | .refused => p.refuse
  | .keyword chars =>
    if c.isAlpha || c = '_' then .ok (p.go c (.keyword (chars.push c)))
    else if isSpace c then p.acceptBefore (.declaration chars) c
    else if c = '%' then .ok (p.go c (.keywordPercent chars p.cursor))
    else p.refuse
  | .keywordPercent chars percent =>
    if isSpace c || c = '%' then fail .invalidToken percent.position
    else do
      let p ← p.accept (.declaration chars)
      percentStep { p with start := percent, piece := .percent } c
  | .word kind chars => p.wordStep kind chars c
  | .wordColon chars =>
    if isNameChar c then .ok (p.go c (.word .prefixed (chars.push c)))
    else if c.toNat < 0x80 then p.wordStep .nameToken chars c
    else p.refuse
  | .literal quote cursor chars =>
    if c = quote then .ok (p.go c (.literalEnd cursor chars))
    else if isLegal c then .ok (p.go c (.literal quote cursor (c :: chars)))
    else p.refuse
  | .literalEnd cursor chars =>
    if isSpace c || c = '>' || c = '%' || c = '[' then
      p.acceptBefore (.literal chars.reverse cursor) c
    else p.refuse
  | .percent => p.percentStep c
  | .parameter =>
    if isNameChar c then .ok (p.go c .parameter)
    else if c = ';' then p.acceptWith c .parameter
    else p.refuse
  | .bracket => p.bracketStep c
  | .brackets second =>
    if c = '>' then p.acceptWith c .conditional
    else do
      let p ← p.accept .closeBracket
      bracketStep { p with start := second, piece := .bracket } c
  | .paren =>
    match mark? c with
    | some mark => p.acceptWith c (.closeParen mark)
    | none =>
      if isSpace c || c ∈ ['>', ',', '|', ')'] then p.acceptBefore (.closeParen .once) c
      else p.refuse
  | .pound => if isNameStart c then .ok (p.go c (.poundName (String.singleton c))) else p.refuse
  | .poundName chars =>
    if isNameChar c then .ok (p.go c (.poundName (chars.push c)))
    else if isSpace c || c ∈ [')', '>', '%', '|'] then p.acceptBefore (.pound chars) c
    else p.refuse

/-- Whether a character starts a root element here. -/
def startsRoot (p : Prolog) (c : Char) : Bool :=
  match p.piece with
  | .lessThan => c.isAlpha || c = '_' || 0x80 ≤ c.toNat
  | _ => false

/-- The end of the text: pieces that may end with it are taken as tokens. -/
def finish (p : Prolog) : Reading Prolog :=
  match p.piece with
  | .none => .ok p
  | .word kind chars => p.accept (kind.token chars)
  | .literalEnd cursor chars => p.accept (.literal chars.reverse cursor)
  | .bracket => p.accept .closeBracket
  | .paren => p.accept (.closeParen .once)
  | .poundName chars => p.accept (.pound chars)
  | _ => fail .unclosedToken p.start.position

end Prolog

end Jigsaw.Xml
