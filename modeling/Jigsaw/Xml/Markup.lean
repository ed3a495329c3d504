import Jigsaw.Xml.Char
import Jigsaw.Xml.Fault

/-!
# Xml/Markup — comments and processing instructions

They may stand anywhere between other pieces of a document and leave no trace in it.  The XML
declaration has the shape of a processing instruction.
-/

namespace Jigsaw.Xml

/-- A complete comment or instruction. -/
inductive Markup where
  /-- `<!-- … -->` -/
  | comment
  /-- `<?target … ?>` -/
  | instruction
  /-- `<?xml … ?>`, with what stands between target and end. -/
  | declaration (body : List Char)

namespace Markup

/-- A comment or instruction read up to some point. -/
inductive Draft where
  /-- `<!-` -/
  | commentOpen
  /-- Inside a comment, after so many hyphens in a row. -/
  | comment (hyphens : Nat)
  /-- `<?` -/
  | targetOpen
  /-- Inside the target. -/
  | target (name : String)
  /-- A question mark directly after the target. -/
  | targetEnd (name : String)
  /-- After the target: what was read, latest character first, and whether it ends in a question
  mark. -/
  | body (name : String) (chars : List Char) (question : Bool)

/-- Whether a target spells `xml` with a capital, which no target may. -/
def isReservedTarget (name : String) : Bool :=
  name ≠ "xml" && name.toList.map Char.toLower = ['x', 'm', 'l']

/-- The instruction with a target and what stands after it. -/
def ofTarget (name : String) (body : List Char) : Markup :=
  if name = "xml" then .declaration body else .instruction

/-- One more character of a comment or instruction. -/
def Draft.step (d : Draft) (c : Char) : Progress Draft Markup :=
  match d with
  | .commentOpen => if c = '-' then .more (.comment 0) else .refused
  | .comment 2 => if c = '>' then .done .comment else .refused
  | .comment hyphens =>
    if c = '-' then .more (.comment (hyphens + 1))
    else if isLegal c then .more (.comment 0)
    else .refused
  | .targetOpen => if isNameStart c then .more (.target (String.singleton c)) else .refused
  | .target name =>
    if isNameChar c then .more (.target (name.push c))
    else if isReservedTarget name then .refused
    else if isSpace c then .more (.body name [c] false)
    else if c = '?' then .more (.targetEnd name)
    else .refused
  | .targetEnd name => if c = '>' then .done (ofTarget name []) else .refused
  | .body name chars question =>
    if c = '>' && question then .done (ofTarget name (chars.drop 1).reverse)
    else if isLegal c then .more (.body name (c :: chars) (c = '?'))
    else .refused

end Markup

end Jigsaw.Xml
