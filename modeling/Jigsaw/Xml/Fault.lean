/-!
# Xml/Fault — what is wrong with a document, and where

A fault is a reason and a position.  Lines count from one and end at a line feed, at a carriage
return, or at both together; columns count characters from zero.
-/

namespace Jigsaw.Xml

/-- A place in a document. -/
structure Position where
  /-- The line, from one. -/
  line : Nat
  /-- The column, from zero. -/
  column : Nat
deriving DecidableEq

/-- Where the next character of a text stands. -/
structure Cursor where
  /-- The place. -/
  position : Position := ⟨1, 0⟩
  /-- Whether the character before was a carriage return. -/
  afterReturn : Bool := false
  /-- Whether the place stays: the text of an entity counts as the place that refers to it. -/
  fixed : Bool := false

namespace Cursor

/-- The cursor after a character. -/
def next (k : Cursor) (c : Char) : Cursor :=
  if k.fixed then k
  else
    match c with
    | '\n' =>
      if k.afterReturn then { k with afterReturn := false }
      else { k with position := ⟨k.position.line + 1, 0⟩ }
    | '\r' => { k with position := ⟨k.position.line + 1, 0⟩, afterReturn := true }
    | _ => { k with position := ⟨k.position.line, k.position.column + 1⟩, afterReturn := false }

/-- The cursor after several characters. -/
def skip (k : Cursor) (cs : List Char) : Cursor := cs.foldl next k

/-- A cursor that stays at a place. -/
def fixedAt (p : Position) : Cursor := { position := p, fixed := true }

end Cursor

/-- Why a text is no document. -/
inductive Reason where
  | syntaxError
  | noElement
  | invalidToken
  | unclosedToken
  | unclosedCdata
  | mismatchedTag
  | duplicateAttribute
  | junkAfterRoot
  | parameterReference
  | undefinedEntity
  /-- A reference that a declaration outside the document might define. -/
  | unknownEntity (name : String)
  | recursiveEntity
  | asynchronousEntity
  | invalidCharacterNumber
  | binaryEntity
  | externalEntityInAttribute
  | misplacedDeclaration
  | malformedDeclaration
  | invalidPublicId
  | unboundPrefix
  | undeclaredPrefix
  | reservedXmlPrefix
  | reservedXmlnsPrefix
  | reservedNamespace
deriving DecidableEq

/-- The characters of a text that fit into a number of bytes; a character cut in two is replaced. -/
def cutBytes (room : Nat) : List Char → List Char
  | [] => []
  | c :: cs =>
    if c.utf8Size ≤ room then c :: cutBytes (room - c.utf8Size) cs
    else if room = 0 then [] else ['�']

/-- A reason in words. -/
def Reason.message : Reason → String
  | syntaxError => "syntax error"
  | noElement => "no element found"
  | invalidToken => "not well-formed (invalid token)"
  | unclosedToken => "unclosed token"
  | unclosedCdata => "unclosed CDATA section"
  | mismatchedTag => "mismatched tag"
  | duplicateAttribute => "duplicate attribute"
  | junkAfterRoot => "junk after document element"
  | parameterReference => "illegal parameter entity reference"
  | undefinedEntity => "undefined entity"
  | unknownEntity name =>
    "undefined entity " ++ String.ofList (cutBytes 100 ("&" ++ name ++ ";").toList)
  | recursiveEntity => "recursive entity reference"
  | asynchronousEntity => "asynchronous entity"
  | invalidCharacterNumber => "reference to invalid character number"
  | binaryEntity => "reference to binary entity"
  | externalEntityInAttribute => "reference to external entity in attribute"
  | misplacedDeclaration => "XML or text declaration not at start of entity"
  | malformedDeclaration => "XML declaration not well-formed"
  | invalidPublicId => "illegal character(s) in public id"
  | unboundPrefix => "unbound prefix"
  | undeclaredPrefix => "must not undeclare prefix"
  | reservedXmlPrefix =>
    "reserved prefix (xml) must not be undeclared or bound to another namespace name"
  | reservedXmlnsPrefix => "reserved prefix (xmlns) must not be declared or undeclared"
  | reservedNamespace => "prefix must not be bound to one of the reserved namespace names"

/-- A reason and its place. -/
structure Fault where
  /-- Why. -/
  reason : Reason
  /-- Where. -/
  position : Position
deriving DecidableEq

/-- A fault in words. -/
def Fault.message (f : Fault) : String :=
  f.reason.message ++ ": line " ++ toString f.position.line ++ ", column "
    ++ toString f.position.column

/-- Reading that stops at the first fault. -/
abbrev Reading := Except Fault

/-- Stops with a reason at a place. -/
def fail {α : Type} (reason : Reason) (position : Position) : Reading α := .error ⟨reason, position⟩

/-- What one more character makes of an unfinished piece of markup. -/
inductive Progress (σ α : Type) where
  /-- The piece goes on. -/
  | more (state : σ)
  /-- The piece is complete. -/
  | done (result : α)
  /-- The character cannot stand here. -/
  | refused

end Jigsaw.Xml
