/-!
# Xml/Element — elements of a document

An element keeps what a workspace is read from: its name and its attributes with their namespaces,
the text in front of its first child, and its children.
-/

namespace Jigsaw.Xml

/-- A name with its namespace. -/
structure ExpandedName where
  /-- The namespace, if the name has one. -/
  space : Option String
  /-- The name inside the namespace. -/
  stem : String
deriving DecidableEq

/-- A name without a namespace. -/
def ExpandedName.plain (stem : String) : ExpandedName := ⟨none, stem⟩

/-- The name as one text, with its namespace in braces. -/
def ExpandedName.text (n : ExpandedName) : String :=
  match n.space with
  | some uri => "\x7b" ++ uri ++ "\x7d" ++ n.stem
  | none => n.stem

/-- An element of a document. -/
inductive Element where
  /-- Name, attributes in document order, text in front of the first child, children. -/
  | mk (name : ExpandedName) (attributes : List (ExpandedName × String)) (text : String)
      (children : List Element)

namespace Element

/-- The name. -/
def name : Element → ExpandedName
  | mk name _ _ _ => name

/-- The attributes, in document order. -/
def attributes : Element → List (ExpandedName × String)
  | mk _ attributes _ _ => attributes

/-- The text in front of the first child. -/
def text : Element → String
  | mk _ _ text _ => text

/-- The children, in document order. -/
def children : Element → List Element
  | mk _ _ _ children => children

/-- The name without its namespace. -/
def tag (e : Element) : String := e.name.stem

/-- The value of an attribute without a namespace. -/
def attribute? (e : Element) (name : String) : Option String :=
  e.attributes.lookup (.plain name)

end Element

end Jigsaw.Xml
