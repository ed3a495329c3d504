import Jigsaw.Block.Basic
import Jigsaw.Json.Value

/-!
# Block/Dump — a workspace as JSON

Every block is a record of its parts.  What is empty is left out, so that only what the workspace
says is shown; the order of slots, fields and attributes stays.
-/

namespace Jigsaw

open Json (Value)

/-- A text entry, left out if the text is empty. -/
def Dump.textEntry (name text : String) : List (String × Value) :=
  if text = "" then [] else [(name, .text text)]

/-- An entry for several others, left out if there are none. -/
def Dump.recordEntry (name : String) (entries : List (String × Value)) : List (String × Value) :=
  if entries.isEmpty then [] else [(name, .record entries)]

/-- Texts with their names. -/
def Dump.texts (record : Record String) : List (String × Value) :=
  record.map fun entry => (entry.1, .text entry.2)

mutual

/-- The record of a block. -/
def Block.dump : Block → Value
  | .mk type id fields values statements next mutation =>
    .record
      ((("type", .text type) :: Dump.textEntry "id" id)
        ++ Dump.recordEntry "mutation" (Dump.texts mutation)
        ++ Dump.recordEntry "fields" (Dump.texts fields)
        ++ Dump.recordEntry "values" (dumpSlots values)
        ++ Dump.recordEntry "statements" (dumpSlots statements)
        ++ dumpBelow next)
termination_by structural b => b

/-- The records of the blocks in slots. -/
def dumpSlots : List (String × Block) → List (String × Value)
  | [] => []
  | (slot, child) :: rest => (slot, child.dump) :: dumpSlots rest
termination_by structural slots => slots

/-- The entry for the block below. -/
def dumpBelow : Option Block → List (String × Value)
  | none => []
  | some below => [("next", below.dump)]
termination_by structural below => below

end

/-- A workspace as JSON text, ended by a line feed. -/
def Forest.dump (forest : Forest) : String :=
  (Value.list (forest.map Block.dump)).write ++ "\n"

end Jigsaw
