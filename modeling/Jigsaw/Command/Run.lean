import Jigsaw.Block.Dump
import Jigsaw.Block.Load
import Jigsaw.Command.Disk
import Jigsaw.Command.Options
import Jigsaw.Render.Forest

/-!
# Command/Run — one run of the command

A run reads its arguments, then its input, then makes its output, and writes it last of all.  A
failure at any stage ends it: most are told in one line, a few break the run off.

What a run does is given for any machine that can be read from and written to (`execute`).  A
`World` is such a machine: standard input, a disk, and what was written to the standard streams.
-/

namespace Jigsaw.Command

/-- The explanation of the command. -/
def usage : String :=
  "blockgen [OPTIONS] [INPUT] [-o OUTPUT]\n\n"
    ++ "Generate a Python program from a block workspace (XML). Reads INPUT, or\n"
    ++ "stdin when INPUT is omitted.\n\n"
    ++ "Options:\n"
    ++ "  --stop-at PHASE     Stop after phase: parse (print block tree as JSON)\n"
    ++ "  --indent N          Spaces per indentation level (default 4)\n"
    ++ "  -o, --output FILE   Write output to FILE instead of stdout\n"
    ++ "  --help              Show this help message\n"

/-! ## Failures -/

/-- The faults that break a run off. -/
inductive Fault where
  /-- A file name holds the null character. -/
  | nullInName
  /-- An integer of the program has too many digits to be written. -/
  | oversizedInteger
  /-- A level of indentation has more spaces than a text can have characters. -/
  | oversizedIndent
deriving DecidableEq

/-- The fault in words. -/
def Fault.message : Fault → String
  | nullInName => "embedded null byte"
  | oversizedInteger => Render.Error.message .oversizedInteger
  | oversizedIndent => "cannot fit 'int' into an index-sized integer"

/-- Why a run fails. -/
inductive Failure where
  /-- The arguments are refused. -/
  | arguments (error : ArgumentError)
  /-- The input file cannot be read. -/
  | unreadable (name : String)
  /-- The input is not UTF-8. -/
  | invalidEncoding
  /-- The input is blank. -/
  | blankInput
  /-- The input is no workspace. -/
  | load (error : LoadError)
  /-- The indentation cannot be made. -/
  | oversizedIndent
  /-- The workspace has no program. -/
  | render (error : Render.Error)
  /-- The output file cannot be opened, or it does not take the whole output. -/
  | unwritable (name : String)
  /-- A file name holds the null character. -/
  | nullInName

namespace Failure

/-- The fault that breaks the run off, if the failure is not told. -/
def fault? : Failure → Option Fault
  | nullInName => some .nullInName
  | render .oversizedInteger => some .oversizedInteger
  | oversizedIndent => some .oversizedIndent
  | _ => none

/-- The failure in words. -/
def message : Failure → String
  | arguments error => error.message
  | unreadable name => "cannot open '" ++ name ++ "'"
  | invalidEncoding => "invalid utf-8 in input"
  | blankInput => "no input provided"
  | load error =>
    toString error.position.line ++ ":" ++ toString error.position.column ++ ": " ++ error.message
  | oversizedIndent => Fault.message .oversizedIndent
  | render error => error.message
  | unwritable name => "cannot write '" ++ name ++ "'"
  | nullInName => Fault.message .nullInName

/-- The exit code: two for a wrong use of the command, one for everything else. -/
def exitCode : Failure → Nat
  | arguments _ | blankInput => 2
  | _ => 1

end Failure

/-- The line that tells a failure. -/
def diagnostic (failure : Failure) : String := "error: " ++ failure.message ++ "\n"

/-! ## From input to output -/

/-- The text of an input. -/
def source (bytes : ByteArray) : Except Failure String :=
  match String.fromUTF8? bytes with
  | none => .error .invalidEncoding
  | some text => if Text.allBlank text then .error .blankInput else .ok text

/-- The most characters that a text can have. -/
def textLimit : Nat := 0x7FFFFFFFFFFFFFFF

/-- So many spaces. -/
def spaces (n : Nat) : String := String.ofList (List.replicate n ' ')

/-- So many spaces, if a text can have them. -/
def spaces? (n : Nat) : Option String := if n ≤ textLimit then some (spaces n) else none

/-- The output for the text of an input. -/
def output (options : Options) (text : String) : Except Failure String :=
  match Forest.read text with
  | .error e => .error (.load e)
  | .ok forest =>
    match options.phase with
    | .parse => .ok (Forest.dump forest)
    | .generate =>
      match spaces? options.indent with
      | none => .error .oversizedIndent
      | some indent =>
        match Forest.generate indent forest with
        | .ok program => .ok program
        | .error e => .error (.render e)

/-! ## Stages on a machine -/

/-- What a run asks of the machine that it is on. -/
structure Machine (m : Type → Type) where
  /-- All of standard input. -/
  stdin : m ByteArray
  /-- The bytes of a file, if it can be read. -/
  read : String → m (Option ByteArray)
  /-- Writes a text to a file, and says whether all of it arrived. -/
  write : String → String → m Bool
  /-- Writes to standard output. -/
  print : String → m Unit
  /-- Writes to standard error. -/
  tell : String → m Unit

/-- A file name that no file can have. -/
def hasNull (name : String) : Bool := '\x00' ∈ name.toList

/-- How a run ends. -/
inductive Ending where
  /-- With an exit code. -/
  | exit (code : Nat)
  /-- By breaking off. -/
  | broken (fault : Fault)
deriving DecidableEq

section

variable {m : Type → Type} [Monad m] (machine : Machine m)

/-- The bytes of the input. -/
def input (options : Options) : ExceptT Failure m ByteArray :=
  match options.input with
  | none => liftM machine.stdin
  | some name =>
    if hasNull name then throw .nullInName
    else do
      match ← machine.read name with
      | some bytes => pure bytes
      | none => throw (.unreadable name)

/-- Writes the output. -/
def deliver (options : Options) (product : String) : ExceptT Failure m Unit :=
  match options.output with
  | none => liftM (machine.print product)
  | some name =>
    if hasNull name then throw .nullInName
    else do
      let arrived ← machine.write name product
      if arrived then pure () else throw (.unwritable name)

/-- All stages, one after the other. -/
def stages (arguments : List String) : ExceptT Failure m Unit :=
  match Options.read arguments with
  | .error e => throw (.arguments e)
  | .ok .help => liftM (machine.print usage)
  | .ok (.run options) => do
    let bytes ← input machine options
    let text ← liftExcept (source bytes)
    let product ← liftExcept (output options text)
    deliver machine options product

/-- The end of a run, from the result of its stages: a failure is told, or it breaks the run off. -/
def conclude : Except Failure Unit → m Ending
  | .ok _ => pure (.exit 0)
  | .error failure =>
    match failure.fault? with
    | some fault => pure (.broken fault)
    | none => do
      machine.tell (diagnostic failure)
      pure (.exit failure.exitCode)

/-- **One run of the command.** -/
def execute (arguments : List String) : m Ending :=
  (stages machine arguments).run >>= conclude machine

end

/-! ## Worlds -/

/-- All that a run can read and write. -/
structure World where
  /-- Standard input. -/
  stdin : ByteArray := .empty
  /-- The disk. -/
  disk : Disk := {}
  /-- What was written to standard output. -/
  stdout : String := ""
  /-- What was written to standard error. -/
  stderr : String := ""

/-- A world as a machine. -/
def World.machine : Machine (StateM World) where
  stdin w := (w.stdin, w)
  read name w := (w.disk.read? name, w)
  write name text w :=
    let written := w.disk.write name text.toUTF8
    (written.1, { w with disk := written.2 })
  print text w := ((), { w with stdout := w.stdout ++ text })
  tell text w := ((), { w with stderr := w.stderr ++ text })

/-- How a run ends in a world, and the world after it. -/
def run (arguments : List String) (w : World) : Ending × World := execute World.machine arguments w

end Jigsaw.Command
