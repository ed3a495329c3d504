import Jigsaw.Command.Run

/-!
# Main — the command line

A run of the command with the files, standard input and standard output of the machine.
-/

namespace Jigsaw.Command

/-- The bytes up to the end of a stream, after those read already. -/
partial def readAll (stream : IO.FS.Stream) (done : ByteArray) : IO ByteArray := do
  let bytes ← stream.read 65536
  if bytes.isEmpty then return done else readAll stream (done ++ bytes)

/-- The machine that the process runs on. -/
def hostMachine : Machine IO where
  stdin := do readAll (← IO.getStdin) .empty
  read name := do
    try
      return some (← IO.FS.readBinFile name)
    catch _ => return none
  write name text := do
    try
      IO.FS.writeFile name text
      return true
    catch _ => return false
  print := IO.print
  tell := IO.eprint

end Jigsaw.Command

open Jigsaw.Command

/-- The command: a run that breaks off is an error of the process. -/
def main (arguments : List String) : IO UInt32 := do
  match ← execute hostMachine arguments with
  | .exit code => return code.toUInt32
  | .broken fault => throw (IO.userError fault.message)
