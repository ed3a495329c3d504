import Jigsaw.Render.Node

/-!
# Render/NameRules — rules for variables, local declarations and procedures

A lexical reference may say where its name lives: `global x` means the outermost binding even where
a local one hides it, `local x`, `param x` and plain `x` mean the nearest.  A procedure body
declares every global variable, so that assignments inside it reach the outermost frame.
-/

namespace Jigsaw

namespace Render

/-- The words that may stand in front of a lexical name. -/
def scopeWords : List String := ["global", "local", "param"]

/-- The scope word in front of a name, or nothing, and the name without it. -/
def splitScopeWord (name : String) : String × String :=
  let chars := name.toList
  let head := String.ofList (chars.takeWhile (· ≠ ' '))
  let rest := (chars.dropWhile (· ≠ ' ')).drop 1
  if head ∈ scopeWords ∧ rest ≠ [] then (head, String.ofList rest) else ("", name)

/-- A name without a scope word in front. -/
def plainName (name : String) : String := (splitScopeWord name).2

end Render

namespace Block

/-- The names that a local declaration or a procedure declares. -/
def declaredNames (b : Block) : List String := (b.numberedFields "VAR").map Render.plainName

/-- The number in a slot name `ARG` and digits, which a line feed may follow. -/
def argumentNumber? (slot : String) : Option Nat :=
  match slot.toList with
  | 'A' :: 'R' :: 'G' :: rest =>
    (Integer.digits? (Integer.dropLineFeed rest)).map fun ds => Integer.count (String.ofList ds)
  | _ => none

/-- The number of arguments of a call: what the mutation says, and no fewer than the slots show. -/
def argumentCount (b : Block) : Nat :=
  (b.values.names.filterMap argumentNumber?).foldl (fun count i => max count (i + 1))
    (max b.itemCount (b.count "args"))

end Block

namespace Render.Node

/-- The identifier that a lexical reference means. -/
def lexicalName (n : Node) : RenderM String :=
  let (word, name) := splitScopeWord (n.block.field "VAR")
  if word = "global" then resolveGlobal n.block "VAR" name .ofVariable
  else resolve n.block "VAR" name .ofVariable

/-- A variable's value. -/
def variableGet (n : Node) : RenderM Expr := do
  let identifier ← resolve n.block "VAR" (n.block.field "VAR") .ofVariable
  pure (.name identifier)

/-- A lexical variable's value. -/
def lexicalGet (n : Node) : RenderM Expr := do
  let identifier ← n.lexicalName
  pure (.name identifier)

/-- An assignment. -/
def assignLine (identifier : String) (value : Expr) : Stmt := .simple (.assign identifier value)

/-- Assigns to a variable. -/
def variableSet (n : Node) : RenderM (List Stmt) := do
  let value ← n.value "VALUE" .zero
  let identifier ← resolve n.block "VAR" (n.block.field "VAR") .ofVariable
  pure [assignLine identifier value]

/-- Gives a global variable its first value. -/
def globalDeclaration (n : Node) : RenderM (List Stmt) := do
  let identifier ← resolveGlobal n.block "NAME" (n.block.field "NAME") .ofVariable
  let value ← n.value "VALUE" .zero
  pure [assignLine identifier value]

/-- Assigns to a lexical variable. -/
def lexicalSet (n : Node) : RenderM (List Stmt) := do
  let identifier ← n.lexicalName
  let value ← n.value "VALUE" .zero
  pure [assignLine identifier value]

/-! ## Local declarations

The first values are rendered outside the frame of the names they belong to. -/

/-- The first values of the declared names. -/
def firstValues (n : Node) : RenderM (List Expr) :=
  n.valueList "DECL" n.block.declaredNames.length .zero

/-- Binds the declared names in the innermost frame. -/
def bindDeclared (n : Node) : RenderM (List String) := n.block.declaredNames.mapM bindLocal

/-- Local names for a chain of statements. -/
def localStatement (n : Node) : RenderM (List Stmt) := do
  let values ← n.firstValues
  frame do
    let identifiers ← n.bindDeclared
    let body ← n.suite "STACK"
    pure (List.zipWith assignLine identifiers values ++ body)

/-- Local names for a value. -/
def localExpression (n : Node) : RenderM Expr := do
  let values ← n.firstValues
  frame do
    let identifiers ← n.bindDeclared
    let body ← n.value "RETURN" .none
    pure (.letIn identifiers values body)

/-- Local names for a value that is returned at once: assignments take the place of the inner
scope. -/
def localResult (n : Node) : RenderM (List Stmt) := do
  let values ← n.firstValues
  frame do
    let identifiers ← n.bindDeclared
    let body ← n.result "RETURN"
    pure (List.zipWith assignLine identifiers values ++ body)

/-! ## Procedures -/

/-- A procedure with its body; `returns` says whether it gives a value back. -/
def procedureDefine (n : Node) (returns : Bool) : RenderM (List Stmt) := do
  let identifier ← resolveGlobal n.block "NAME" (n.block.field "NAME") .ofProcedure
  let outermost ← globalVariables
  frame do
    let parameters ← n.bindDeclared
    let body ← n.suite "STACK"
    let tail ← if returns then n.result "RETURN" else pure []
    let declared := if outermost.isEmpty then [] else [.simple (.globals outermost)]
    pure [.block (.define identifier parameters) (declared ++ body ++ tail)]

/-- A call of a procedure. -/
def procedureCall (n : Node) : RenderM Expr := do
  let identifier ← resolve n.block "PROCNAME" (n.block.field "PROCNAME") .ofProcedure
  let arguments ← n.valueList "ARG" n.block.argumentCount .none
  pure (.call identifier arguments)

end Render.Node

end Jigsaw
