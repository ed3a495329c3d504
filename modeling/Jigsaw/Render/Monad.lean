import Jigsaw.Program.Stmt
import Jigsaw.Render.Error
import Jigsaw.Render.Library

/-!
# Render/Monad — the steps that rendering is made of

Rendering reads and extends a `Pass` and stops at the first defect.  What was allocated before the
defect stays allocated; a frame is closed again whether its body succeeds or not.
-/

namespace Jigsaw.Render

/-- A step of rendering: it may stop with an error, and its changes to the pass outlive it. -/
abbrev RenderM := EStateM Error Pass

/-- Runs a step on a pass: its outcome and the pass after it. -/
def RenderM.runOn {α : Type} (m : RenderM α) (p : Pass) : Except Error α × Pass :=
  match m p with
  | .ok a q => (.ok a, q)
  | .error e q => (.error e, q)

/-- A step that changes names only. -/
def onScope {α : Type} (f : Name.Scope → α × Name.Scope) : RenderM α := fun p =>
  let (a, scope) := f p.scope
  .ok a { p with scope }

/-- Binds a variable in the innermost frame. -/
def bindLocal (name : String) : RenderM String := onScope (·.bind name .ofVariable)

/-- Binds a name in the outermost frame. -/
def bindGlobal (name : String) (kind : Name.Kind) : RenderM Unit :=
  onScope fun s => ((), (s.bindGlobal name kind).2)

/-- An identifier for a name that ends with the expression that introduces it. -/
def distinct (name : String) : RenderM String := onScope fun s => (s.distinct name, s)

/-- Variables of the outermost frame, in binding order. -/
def globalVariables : RenderM (List String) := onScope fun s => (s.globalIdentifiers .ofVariable, s)

/-- Runs a step inside a frame of its own. -/
def frame {α : Type} (body : RenderM α) : RenderM α := fun p =>
  match body { p with scope := p.scope.push } with
  | .ok a q => .ok a { q with scope := q.scope.pop }
  | .error e q => .error e { q with scope := q.scope.pop }

/-- A reference found at a slot of a block. -/
def reference (b : Block) (slot : String) (found : Name.Scope → Except Name.Unresolved String) :
    RenderM String := fun p =>
  match found p.scope with
  | .ok identifier => .ok identifier p
  | .error unresolved => .error (.unresolved unresolved (.ofSlot b slot)) p

/-- The identifier of the nearest binding of a name that a slot of a block refers to. -/
def resolve (b : Block) (slot name : String) (kind : Name.Kind) : RenderM String :=
  reference b slot (·.resolve name kind)

/-- The identifier of the outermost binding of a name that a slot of a block refers to. -/
def resolveGlobal (b : Block) (slot name : String) (kind : Name.Kind) : RenderM String :=
  reference b slot (·.resolveGlobal name kind)

/-- The identifier of a helper. -/
def helper (key : String) (define : String → String) : RenderM String := fun p =>
  let (identifier, q) := p.helper key define
  .ok identifier q

/-- Asks for an import. -/
def requireImport (module : String) : RenderM Unit := fun p =>
  .ok () { p with library := p.library.withImport module }

end Jigsaw.Render
