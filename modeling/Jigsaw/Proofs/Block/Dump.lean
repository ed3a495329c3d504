import Jigsaw.Block.Dump
import Jigsaw.Proofs.Json.Reader

/-!
# Proofs/Block/Dump — a dump loses nothing

A dump leaves out what is empty: ids, maps, the link to the block below.  Each entry that is there
says by its name which part of the block it is, so a block is put together again from its entries
(`Block.ofDump`), and a part without entry is the empty one it was.  With the reader of JSON this
reads a workspace back from the text of its dump; two workspaces with one dump are one workspace.
-/

namespace Jigsaw

open Json (Value)

/-! ## Blocks from dumps -/

namespace Dump

/-- A part of a block, as an entry of its dump tells it. -/
inductive Part where
  | type (text : String)
  | id (text : String)
  | mutation (attributes : Record String)
  | fields (texts : Record String)
  | values (slots : Record Block)
  | statements (slots : Record Block)
  | next (below : Block)

/-- The block with one of its parts. -/
def addPart : Block → Part → Block
  | .mk _ id fields values statements next mutation, .type text =>
    .mk text id fields values statements next mutation
  | .mk type _ fields values statements next mutation, .id text =>
    .mk type text fields values statements next mutation
  | .mk type id fields values statements next _, .mutation attributes =>
    .mk type id fields values statements next attributes
  | .mk type id _ values statements next mutation, .fields texts =>
    .mk type id texts values statements next mutation
  | .mk type id fields _ statements next mutation, .values slots =>
    .mk type id fields slots statements next mutation
  | .mk type id fields values _ next mutation, .statements slots =>
    .mk type id fields values slots next mutation
  | .mk type id fields values statements _ mutation, .next below =>
    .mk type id fields values statements (some below) mutation

/-- The block that parts make, the others empty. -/
def assemble (parts : List Part) : Block := parts.foldl addPart (.mk "" "" [] [] [] none [])

/-- The text of a value that is one. -/
def text? : Value → Option String
  | .text s => some s
  | _ => none

/-- Names with texts. -/
def texts? : List (String × Value) → Option (Record String)
  | [] => some []
  | (name, v) :: rest => do
    let text ← text? v
    let others ← texts? rest
    some ((name, text) :: others)

end Dump

mutual

/-- The block that a record tells. -/
def Block.ofDump : Value → Option Block
  | .record entries => (Dump.parts entries).map Dump.assemble
  | _ => none
termination_by structural v => v

/-- The parts that entries tell. -/
def Dump.parts : List (String × Value) → Option (List Dump.Part)
  | [] => some []
  | entry :: rest => do
    let first ← Dump.part entry
    let others ← Dump.parts rest
    some (first :: others)
termination_by structural entries => entries

/-- The part that an entry tells. -/
def Dump.part : String × Value → Option Dump.Part
  | ("type", .text s) => some (.type s)
  | ("id", .text s) => some (.id s)
  | ("mutation", .record entries) => (Dump.texts? entries).map .mutation
  | ("fields", .record entries) => (Dump.texts? entries).map .fields
  | ("values", .record entries) => (Dump.slots entries).map .values
  | ("statements", .record entries) => (Dump.slots entries).map .statements
  | ("next", v) => (Block.ofDump v).map .next
  | _ => none
termination_by structural entry => entry

/-- The slots that entries tell. -/
def Dump.slots : List (String × Value) → Option (Record Block)
  | [] => some []
  | entry :: rest => do
    let first ← Dump.slot entry
    let others ← Dump.slots rest
    some (first :: others)
termination_by structural entries => entries

/-- The slot that an entry tells. -/
def Dump.slot : String × Value → Option (String × Block)
  | (name, v) => (Block.ofDump v).map (name, ·)
termination_by structural entry => entry

end

/-- The workspace that the text of a dump tells. -/
def Forest.ofDump (text : String) : Option Forest :=
  match Value.read? text with
  | some (.list items) => items.mapM Block.ofDump
  | _ => none

/-! ## Parts -/

namespace Dump

theorem parts_append : ∀ {entries later : List (String × Value)} {ps qs : List Part},
    parts entries = some ps → parts later = some qs → parts (entries ++ later) = some (ps ++ qs)
  | [], _, _, _, h, hlater => by
      rw [parts] at h
      obtain rfl := Option.some.inj h
      exact hlater
  | entry :: rest, later, ps, qs, h, hlater => by
      rw [parts] at h
      obtain ⟨first, hfirst, h⟩ := Option.bind_eq_some_iff.mp h
      obtain ⟨others, hothers, h⟩ := Option.bind_eq_some_iff.mp h
      obtain rfl := Option.some.inj h
      rw [List.cons_append, parts, hfirst, parts_append hothers hlater]
      rfl

/-- An entry that is there tells its part. -/
theorem parts_singleton {entry : String × Value} {p : Part} (h : part entry = some p) :
    parts [entry] = some [p] := by
  rw [parts, h, parts]
  rfl

/-- A text that was left out has no part, -/
theorem parts_textEntry (name text : String) {p : Part} (h : part (name, .text text) = some p) :
    parts (textEntry name text) = some (if text = "" then [] else [p]) := by
  unfold textEntry
  split
  · rw [parts]
  · exact parts_singleton h

/-- …and neither has a record. -/
theorem parts_recordEntry (name : String) {entries : List (String × Value)} {p : Part}
    (h : part (name, .record entries) = some p) :
    parts (recordEntry name entries) = some (if entries.isEmpty then [] else [p]) := by
  unfold recordEntry
  split
  · rw [parts]
  · exact parts_singleton h

/-- Names with texts are told by their entries. -/
theorem texts?_texts : ∀ record : Record String, texts? (texts record) = some record
  | [] => rfl
  | (name, text) :: rest => by
      change (texts? (texts rest)).bind (fun others => some ((name, text) :: others)) = _
      rw [texts?_texts rest]
      rfl

theorem isEmpty_texts (record : Record String) : (texts record).isEmpty = record.isEmpty := by
  cases record <;> rfl

/-- **Parts that were left out were empty**: with the others they make the whole block. -/
theorem assemble_parts (type id : String) (fields mutation : Record String)
    (values statements : Record Block) (next : Option Block) :
    assemble ([.type type] ++ (if id = "" then [] else [.id id])
        ++ (if mutation.isEmpty then [] else [.mutation mutation])
        ++ (if fields.isEmpty then [] else [.fields fields])
        ++ (if values.isEmpty then [] else [.values values])
        ++ (if statements.isEmpty then [] else [.statements statements])
        ++ (next.map Part.next).toList)
      = .mk type id fields values statements next mutation := by
  have hid (b : Block) (h : b.id = "") : (if id = "" then [] else [Part.id id]).foldl addPart b
      = addPart b (.id id) := by
    obtain ⟨_, _, _, _, _, _, _⟩ := b
    obtain rfl := h
    split
    · simp_all [addPart]
    · rfl
  simp only [assemble, List.foldl_append, List.foldl_cons, List.foldl_nil, addPart]
  rw [hid _ rfl]
  cases mutation <;> cases fields <;> cases values <;> cases statements <;> cases next <;> rfl

end Dump

theorem isEmpty_dumpSlots (slots : Record Block) : (dumpSlots slots).isEmpty = slots.isEmpty := by
  cases slots with
  | nil => rw [dumpSlots]; rfl
  | cons slot rest =>
    obtain ⟨name, child⟩ := slot
    rw [dumpSlots]
    rfl

mutual

/-- **A block is read back from its dump.** -/
theorem Block.ofDump_dump : ∀ b : Block, Block.ofDump b.dump = some b
  | .mk type id fields values statements next mutation => by
      have htype : Dump.parts [("type", .text type)] = some [.type type] :=
        Dump.parts_singleton rfl
      have hid := Dump.parts_textEntry "id" id rfl
      have hmutation := Dump.parts_recordEntry "mutation"
        (congrArg (Option.map Dump.Part.mutation) (Dump.texts?_texts mutation))
      have hfields := Dump.parts_recordEntry "fields"
        (congrArg (Option.map Dump.Part.fields) (Dump.texts?_texts fields))
      have hvalues := Dump.parts_recordEntry "values"
        (congrArg (Option.map Dump.Part.values) (Dump.slots_dumpSlots values))
      have hstatements := Dump.parts_recordEntry "statements"
        (congrArg (Option.map Dump.Part.statements) (Dump.slots_dumpSlots statements))
      have hparts := Dump.parts_append (Dump.parts_append (Dump.parts_append (Dump.parts_append
        (Dump.parts_append (Dump.parts_append htype hid) hmutation) hfields) hvalues) hstatements)
        (Dump.parts_dumpBelow next)
      rw [isEmpty_dumpSlots, isEmpty_dumpSlots, Dump.isEmpty_texts, Dump.isEmpty_texts] at hparts
      rw [Block.dump, Block.ofDump]
      refine (congrArg (Option.map Dump.assemble) hparts).trans (congrArg some ?_)
      exact Dump.assemble_parts type id fields mutation values statements next
termination_by structural b => b

/-- Slots are read back from their dumps, -/
theorem Dump.slots_dumpSlots : ∀ slots : List (String × Block),
    Dump.slots (dumpSlots slots) = some slots
  | [] => by rw [dumpSlots, Dump.slots]
  | (name, child) :: rest => by
      rw [dumpSlots, Dump.slots, Dump.slot, child.ofDump_dump, Dump.slots_dumpSlots rest]
      rfl
termination_by structural slots => slots

/-- …and so is the block below. -/
theorem Dump.parts_dumpBelow : ∀ below : Option Block,
    Dump.parts (dumpBelow below) = some (below.map Dump.Part.next).toList
  | none => by rw [dumpBelow, Dump.parts]; rfl
  | some below => by
      rw [dumpBelow]
      exact Dump.parts_singleton (congrArg (Option.map Dump.Part.next) below.ofDump_dump)
termination_by structural below => below

end

/-- The items of a workspace's dump tell its blocks. -/
theorem mapM_ofDump : ∀ forest : Forest, (forest.map Block.dump).mapM Block.ofDump = some forest
  | [] => rfl
  | b :: rest => by
      rw [List.map_cons, List.mapM_cons, b.ofDump_dump, mapM_ofDump rest]
      rfl

/-- **A dump loses nothing.**  The reader of JSON, followed by the way back from records to blocks,
finds in the dump of a workspace that workspace, with its maps in their order; so two workspaces
with one dump are equal. -/
theorem Forest.dump_lossless (forest other : Forest) :
    Forest.ofDump (Forest.dump forest) = some forest ∧
      (Forest.dump forest = Forest.dump other ↔ forest = other) := by
  have hread (f : Forest) : Forest.ofDump (Forest.dump f) = some f := by
    rw [Forest.ofDump, Forest.dump, Value.read?_write]
    exact mapM_ofDump f
  refine ⟨hread forest, fun h => ?_, fun h => h ▸ rfl⟩
  exact Option.some.inj ((hread forest).symm.trans (h ▸ hread other))

end Jigsaw
