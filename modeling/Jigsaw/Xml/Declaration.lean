import Jigsaw.Xml.Char
import Jigsaw.Xml.Fault

/-!
# Xml/Declaration — the XML declaration

The declaration gives a version, then perhaps an encoding, then perhaps whether the document stands
alone.  Only the last matters here: the text has been decoded, and every version is read alike.
-/

namespace Jigsaw.Xml.Declaration

/-- A name with a quoted value. -/
structure Setting where
  /-- The name. -/
  name : List Char
  /-- The value. -/
  value : List Char
  /-- The text from the name on. -/
  fromName : List Char
  /-- The text from the value on, without its quote. -/
  fromValue : List Char

/-- A character that a value may hold. -/
def isValueChar (c : Char) : Bool :=
  c.toNat < 0x80 && (c.isAlphanum || c == '.' || c == '-' || c == '_')

/-- A character that ends the name of a setting. -/
def endsName (c : Char) : Bool := c == '=' || isSpace c || 0x80 ≤ c.toNat

/-- The value after the equals sign; on failure the text from the offending place on. -/
def value (name fromName text : List Char) : Except (List Char) (Setting × List Char) :=
  match text.dropWhile isSpace with
  | [] => .error []
  | q :: inner =>
    if q = '"' || q = '\'' then
      let value := inner.takeWhile isValueChar
      match inner.dropWhile isValueChar with
      | [] => .error []
      | c :: rest =>
        if c = q then .ok (⟨name, value, fromName, inner⟩, rest) else .error (c :: rest)
    else .error (q :: inner)

/-- The next setting, if there is one, and the text after it; on failure the text from the offending
place on. -/
def setting (text : List Char) : Except (List Char) (Option Setting × List Char) :=
  match text with
  | [] => .ok (none, [])
  | c :: _ =>
    if !isSpace c then .error text
    else
      let fromName := text.dropWhile isSpace
      if fromName.isEmpty then .ok (none, text)
      else
        let name := fromName.takeWhile fun c => !endsName c
        let afterName := fromName.dropWhile fun c => !endsName c
        match afterName.dropWhile isSpace with
        | '=' :: rest =>
          if name.isEmpty then .error afterName
          else (value name fromName rest).map fun (s, rest) => (some s, rest)
        | other => .error other

/-- The last setting, whether the document stands alone. -/
def standaloneSetting (s : Setting) (rest : List Char) : Except (List Char) Bool :=
  if s.name ≠ "standalone".toList then .error s.fromName
  else
    let blank := rest.dropWhile isSpace
    if s.value = "yes".toList then if blank.isEmpty then .ok true else .error blank
    else if s.value = "no".toList then if blank.isEmpty then .ok false else .error blank
    else .error s.fromValue

/-- Whether the document stands alone, from what the declaration holds between its target and its
end; on failure the text from the offending place on. -/
def standalone (body : List Char) : Except (List Char) Bool := do
  match ← setting body with
  | (none, _) => .error body
  | (some version, rest) =>
    if version.name ≠ "version".toList then .error version.fromName
    else
      match ← setting rest with
      | (none, _) => .ok false
      | (some second, rest) =>
        if second.name = "encoding".toList then
          if (second.value.head?.map Char.isAlpha).getD false then
            match ← setting rest with
            | (none, _) => .ok false
            | (some third, rest) => standaloneSetting third rest
          else .error second.fromValue
        else standaloneSetting second rest

end Jigsaw.Xml.Declaration
