import Jigsaw.Name.Scope
import Jigsaw.Text.Lines

/-!
# Render/Library — helpers and imports of a program

A rule that needs a support routine asks for it by key.  The first request gives the routine an
identifier in the outermost frame and writes its source; later requests get the same identifier.
The sources stand in front of the program in the order of their first request, after the imports.
-/

namespace Jigsaw.Render

/-- A support routine of a program. -/
structure Helper where
  /-- What it is asked for by. -/
  key : String
  /-- What the program calls it. -/
  identifier : String
  /-- Its definition. -/
  source : String

/-- What stands in front of a program. -/
structure Library where
  /-- Support routines, in the order of their first request. -/
  helpers : List Helper := []
  /-- Imported modules, in the order of their first request. -/
  imports : List String := []

namespace Library

/-- The routine with a key. -/
def find? (l : Library) (key : String) : Option Helper := l.helpers.find? (·.key = key)

/-- Whether a routine was asked for. -/
def contains (l : Library) (key : String) : Bool := (l.find? key).isSome

/-- The definitions, in the order of their first request. -/
def definitions (l : Library) : List String := l.helpers.map Helper.source

/-- Adds an import, unless it is there. -/
def withImport (l : Library) (module : String) : Library :=
  if module ∈ l.imports then l else { l with imports := l.imports ++ [module] }

/-- The sections of a program that are not empty, from the imports to the body. -/
def sections (l : Library) (body : String) : List String :=
  (if l.imports.isEmpty then [] else [Text.joinLines (l.imports.map ("import " ++ ·))])
    ++ l.definitions ++ (if body = "" then [] else [body])

/-- The program with everything in front of its body. -/
def assemble (l : Library) (body : String) : String :=
  match l.sections body with
  | [] => ""
  | sections => Text.joinWith "\n\n\n" sections ++ "\n"

end Library

/-- The state of rendering one program. -/
structure Pass where
  /-- The names in sight. -/
  scope : Name.Scope := {}
  /-- What stands in front of the program so far. -/
  library : Library := {}

/-- The identifier of a helper, whose definition is written on the first request. -/
def Pass.helper (p : Pass) (key : String) (define : String → String) : String × Pass :=
  match p.library.find? key with
  | some h => (h.identifier, p)
  | none =>
    let (identifier, scope) := p.scope.bindGlobal key .ofHelper
    let helpers := p.library.helpers ++ [⟨key, identifier, define identifier⟩]
    (identifier, { scope, library := { p.library with helpers } })

end Jigsaw.Render
