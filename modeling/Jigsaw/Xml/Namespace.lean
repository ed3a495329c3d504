import Jigsaw.Xml.Element
import Jigsaw.Xml.Fault

/-!
# Xml/Namespace — namespaces and their prefixes

A name as written is a stem with an optional prefix and a colon.  Attributes `xmlns` and `xmlns:p`
bind the empty prefix and the prefix `p` for an element and everything in it.
-/

namespace Jigsaw.Xml

/-- A name as written: what stands before the colon, if there is one, and the rest. -/
def splitName (name : String) : Option String × String :=
  let cs := name.toList
  if ':' ∈ cs then
    (some (String.ofList (cs.takeWhile (· ≠ ':'))),
      String.ofList ((cs.dropWhile (· ≠ ':')).drop 1))
  else (none, name)

/-- The namespaces that prefixes stand for, innermost first; the empty prefix is for names without
one, and an empty namespace there means none. -/
abbrev Namespaces := List (String × String)

namespace Namespaces

/-- The namespace of the prefix `xml`. -/
def xmlUri : String := "http://www.w3.org/XML/1998/namespace"

/-- The namespace of namespace declarations. -/
def xmlnsUri : String := "http://www.w3.org/2000/xmlns/"

/-- What every document starts with. -/
def initial : Namespaces := [("xml", xmlUri)]

/-- Why a prefix cannot be bound to a namespace, if it cannot. -/
def refusal? (pre uri : String) : Option Reason :=
  if uri = "" && pre ≠ "" then some .undeclaredPrefix
  else if pre = "xmlns" then some .reservedXmlnsPrefix
  else if '\x7d' ∈ uri.toList then some .syntaxError
  else if pre = "xml" then if uri = xmlUri then none else some .reservedXmlPrefix
  else if uri = xmlUri || uri = xmlnsUri then some .reservedNamespace
  else none

/-- The prefix that an attribute binds, if it is a namespace declaration. -/
def declaredPrefix? (name : String) : Option String :=
  match splitName name with
  | (none, "xmlns") => some ""
  | (some "xmlns", pre) => some pre
  | _ => none

/-- The name of an attribute; none if its prefix is not bound. -/
def attributeName? (spaces : Namespaces) (name : String) : Option ExpandedName :=
  match splitName name with
  | (none, stem) => some (.plain stem)
  | (some pre, stem) => (spaces.lookup pre).map fun uri => ⟨some uri, stem⟩

/-- The name of an element; none if its prefix is not bound. -/
def elementName? (spaces : Namespaces) (name : String) : Option ExpandedName :=
  match splitName name with
  | (none, stem) =>
    match spaces.lookup "" with
    | some uri => some ⟨if uri = "" then none else some uri, stem⟩
    | none => some (.plain stem)
  | (some pre, stem) => (spaces.lookup pre).map fun uri => ⟨some uri, stem⟩

end Namespaces

end Jigsaw.Xml
