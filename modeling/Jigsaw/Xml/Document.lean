import Jigsaw.Xml.Content
import Jigsaw.Xml.Encoding
import Jigsaw.Xml.Prolog

/-!
# Xml/Document — reading a document

A document is what stands in front of the root element, the root element, and what stands behind it.
`Document.read` takes a text one character at a time and stops at the first fault.
-/

namespace Jigsaw.Xml

/-- A document read up to some point. -/
inductive Document where
  /-- In front of the root element. -/
  | before (prolog : Prolog)
  /-- Inside the root element, with what the document type declares. -/
  | inside (doctype : Doctype) (content : Content)
  /-- Behind the root element. -/
  | after (root : Element) (epilog : Prolog)

namespace Document

/-- Nothing read yet. -/
def initial : Document := .before {}

/-- Inside the root element, or behind it as soon as it is complete. -/
def ofContent (doctype : Doctype) (content : Content) : Document :=
  match content.root with
  | some root => .after root { cursor := content.cursor, state := { expect := .nothing } }
  | none => .inside doctype content

/-- One more character inside the root element. -/
def insideStep (doctype : Doctype) (content : Content) (c : Char) : Reading Document :=
  (content.read doctype c).map (ofContent doctype)

/-- One more character. -/
def step (d : Document) (c : Char) : Reading Document :=
  match d with
  | .before p =>
    if p.startsRoot c then
      match p.state.rootRefusal? with
      | some reason => fail reason p.start.position
      | none =>
        insideStep p.state.doctype { cursor := p.cursor, start := p.start, piece := .lessThan } c
    else (p.step c).map .before
  | .inside doctype content => insideStep doctype content c
  | .after root p =>
    if p.startsRoot c then fail .junkAfterRoot p.start.position
    else (p.step c).map (.after root)

/-- The end of the text. -/
def finish (d : Document) : Reading Element :=
  match d with
  | .before p => do
    let p ← p.finish
    fail .noElement p.cursor.position
  | .inside _ content => .error content.endFault
  | .after root p => do
    let _ ← p.finish
    .ok root

/-- Where an unfinished character would start a new piece, if the text is between two pieces. -/
def idle? (d : Document) : Option Position :=
  match d with
  | .before p | .after _ p =>
    match p.piece with
    | .none => some p.cursor.position
    | _ => none
  | .inside _ content =>
    match content.piece with
    | .text 0 false => some content.cursor.position
    | _ => none

/-- The end of a text that stops in the middle of a character. -/
def finishCut (d : Document) : Reading Element :=
  match d.idle? with
  | some place => fail .unclosedToken place
  | none => d.finish

/-- The first state of a text: a byte order mark in front of it is passed over. -/
def start : List Char → Document × List Char
  | '\ufeff' :: chars => (.before { cursor := Cursor.next {} '\ufeff' }, chars)
  | chars => (initial, chars)

/-- The root element of a document. -/
def read (text : String) : Reading Element := do
  let (chars, cut) := decode text
  let (d, chars) := start chars
  let d ← chars.foldlM step d
  if cut then d.finishCut else d.finish

end Document

end Jigsaw.Xml
