import Jigsaw.Number.Integer

/-!
# Command/Options — arguments of the command

Arguments are read from left to right.  A flag takes the argument after it as its value, whatever
that looks like, and a later flag overrides an earlier one; any other argument names the input.  The
first argument that does not fit decides the outcome, and so does the wish for help.
-/

namespace Jigsaw.Command

/-- The last thing to do with a workspace. -/
inductive Phase where
  /-- Show its blocks. -/
  | parse
  /-- Write its program. -/
  | generate
deriving DecidableEq

/-- The phase with a name. -/
def Phase.ofName? : String → Option Phase
  | "parse" => some .parse
  | "generate" => some .generate
  | _ => none

/-- What the arguments ask for. -/
structure Options where
  /-- The last phase. -/
  phase : Phase := .generate
  /-- Spaces for each level of indentation. -/
  indent : Nat := 4
  /-- The input file, or none for standard input. -/
  input : Option String := none
  /-- The output file, or none for standard output. -/
  output : Option String := none
deriving DecidableEq

/-- Why arguments are refused. -/
inductive ArgumentError where
  /-- A flag without its value. -/
  | missingValue (flag : String)
  /-- A phase that does not exist. -/
  | unknownPhase (value : String)
  /-- An indent that is no positive count. -/
  | invalidIndent (value : String)
  /-- A flag that does not exist. -/
  | unknownFlag (flag : String)
  /-- A second input. -/
  | surplus (argument : String)
deriving DecidableEq

/-- The reason in words. -/
def ArgumentError.message : ArgumentError → String
  | missingValue flag => flag ++ " requires an argument"
  | unknownPhase value => "unknown phase '" ++ value ++ "'"
  | invalidIndent value => "invalid indent '" ++ value ++ "'"
  | unknownFlag flag => "unknown flag '" ++ flag ++ "'"
  | surplus argument => "unexpected argument '" ++ argument ++ "'"

/-- A flag that takes a value. -/
inductive Flag where
  | stopAt | indent | output
deriving DecidableEq

/-- The flag with a spelling. -/
def Flag.ofText? : String → Option Flag
  | "--stop-at" => some .stopAt
  | "--indent" => some .indent
  | "-o" | "--output" => some .output
  | _ => none

/-- Whether an argument starts like a flag; a dash alone does not. -/
def looksLikeFlag (argument : String) : Bool :=
  argument.toList.head? = some '-' && argument ≠ "-"

/-- A request that arguments make. -/
inductive Request where
  /-- To explain the command. -/
  | help
  /-- To run. -/
  | run (options : Options)
deriving DecidableEq

namespace Options

/-- The options with the value of a flag. -/
def set (o : Options) (flag : Flag) (value : String) : Except ArgumentError Options :=
  match flag with
  | .stopAt =>
    match Phase.ofName? value with
    | some phase => .ok { o with phase }
    | none => .error (.unknownPhase value)
  | .indent =>
    let indent := Integer.count value
    if indent = 0 then .error (.invalidIndent value) else .ok { o with indent }
  | .output => .ok { o with output := some value }

/-- The options with an argument that is no flag; a dash is standard input. -/
def operand (o : Options) (argument : String) : Except ArgumentError Options :=
  if o.input.isSome then .error (.surplus argument)
  else if argument = "-" then .ok o
  else .ok { o with input := some argument }

/-- The request that arguments make, on top of options that hold already. -/
def request (o : Options) : List String → Except ArgumentError Request
  | [] => .ok (.run o)
  | argument :: rest =>
    if argument = "--help" || argument = "-h" then .ok .help
    else
      match Flag.ofText? argument with
      | some flag =>
        match rest with
        | [] => .error (.missingValue argument)
        | value :: rest =>
          match o.set flag value with
          | .ok o => o.request rest
          | .error e => .error e
      | none =>
        if looksLikeFlag argument then .error (.unknownFlag argument)
        else
          match o.operand argument with
          | .ok o => o.request rest
          | .error e => .error e

/-- The request that a list of arguments makes. -/
def read (arguments : List String) : Except ArgumentError Request := request {} arguments

end Options

end Jigsaw.Command
