import Jigsaw.Program.Expr

/-!
# Program/Stmt — statements and their layout

A program is a forest of lines: a simple statement is one line, a header opens a suite of lines one
level deeper.  A conditional is a row of headers, `if`, `elif` and `else`, each with its own suite.
-/

namespace Jigsaw

/-- The statements that fit on one line. -/
inductive Simple where
  /-- An expression on a line of its own. -/
  | expr (value : Expr)
  /-- `target = value` -/
  | assign (target : String) (value : Expr)
  /-- `receiver[index] = value` -/
  | assignItem (receiver index value : Expr)
  /-- `global a, b` -/
  | globals (identifiers : List String)
  /-- `return value` -/
  | result (value : Expr)
  /-- `pass` -/
  | pass

/-- The lines that open a suite. -/
inductive Header where
  /-- `if test:` -/
  | when (test : Expr)
  /-- `elif test:` -/
  | orWhen (test : Expr)
  /-- `else:` -/
  | otherwise
  /-- `def name(a, b):` -/
  | define (name : String) (parameters : List String)

/-- A statement: one line, or a header with the suite below it. -/
inductive Stmt where
  /-- One line. -/
  | simple (line : Simple)
  /-- A header and its suite. -/
  | compound (header : Header) (suite : List Stmt)

/-- The line of a simple statement. -/
def Simple.code : Simple → String
  | .expr value => value.code
  | .assign target value => target ++ " = " ++ value.code
  | .assignItem receiver index value => (Expr.item receiver index).code ++ " = " ++ value.code
  | .globals identifiers => "global " ++ Text.joinItems identifiers
  | .result value => "return " ++ value.code
  | .pass => "pass"

/-- The line of a header. -/
def Header.code : Header → String
  | .when test => "if " ++ test.code ++ ":"
  | .orWhen test => "elif " ++ test.code ++ ":"
  | .otherwise => "else:"
  | .define name parameters => "def " ++ name ++ "(" ++ Text.joinItems parameters ++ "):"

namespace Stmt

/-- A header with a body; an empty body is written `pass`. -/
def block (header : Header) (body : List Stmt) : Stmt :=
  .compound header (if body.isEmpty then [.simple .pass] else body)

mutual

/-- The lines of a statement, where a suite is indented by `indent`. -/
def code (indent : String) : Stmt → String
  | .simple line => line.code
  | .compound header suite =>
    header.code ++ "\n" ++ Text.indentLines indent (Text.joinLines (codes indent suite))

/-- The lines of several statements, each statement's apart. -/
def codes (indent : String) : List Stmt → List String
  | [] => []
  | s :: rest => s.code indent :: codes indent rest

end

/-- The lines of a suite. -/
def suiteCode (indent : String) (suite : List Stmt) : String := Text.joinLines (codes indent suite)

/-- Whether a suite opens with a procedure definition. -/
def opensWithDefinition : List Stmt → Bool
  | .compound (.define _ _) _ :: _ => true
  | _ => false

/-- What stands between two parts of a program: a definition has two empty lines on both sides. -/
def gap (before after : List Stmt) : String :=
  if opensWithDefinition before || opensWithDefinition after then "\n\n\n" else "\n"

/-- The lines of a program's parts, each part a suite. -/
def partsCode (indent : String) : List (List Stmt) → String
  | [] => ""
  | [part] => suiteCode indent part
  | part :: next :: rest =>
    suiteCode indent part ++ gap part next ++ partsCode indent (next :: rest)

end Stmt

end Jigsaw
