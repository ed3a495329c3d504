import Jigsaw.Block.Basic

/-!
# Command/Disk — files by name

The files and folders that a run can reach form one tree.  A name is a path through it, with slashes
between its steps: from the root if it starts with a slash, and otherwise from the folder that the
run is in.  The step `..` leads to the folder around, and at the root nowhere else.  Every step is
taken in a folder that exists and may be searched.  What lies at the end may be missing or be a
folder, and a file that lies there may be closed to readers or to writers.

A file is written in two moves.  Opening empties it, or makes it if there is none.  Then it takes
the bytes: all of them or, where files have a greatest size, as many as fit.
-/

namespace Jigsaw.Command

/-- A file. -/
structure File where
  /-- What it holds. -/
  bytes : ByteArray := .empty
  /-- Whether it may be read. -/
  readable : Bool := true
  /-- Whether it may be written. -/
  writable : Bool := true

/-- What may be done in a folder. -/
structure Access where
  /-- Whether a path may lead through it. -/
  searchable : Bool := true
  /-- Whether files may be made in it. -/
  writable : Bool := true

/-- A file or a folder, with all that lies in it. -/
inductive Entry where
  /-- A file. -/
  | file (file : File)
  /-- A folder, with its entries by name. -/
  | folder (access : Access) (entries : List (String × Entry))

/-- What is found at the end of a path: a folder counts without its entries. -/
inductive Found where
  /-- A file. -/
  | file (file : File)
  /-- A folder. -/
  | folder (access : Access)

namespace Entry

/-- What lies at the end of a path. -/
def find? : List String → Entry → Option Found
  | [], .file held => some (.file held)
  | [], .folder access _ => some (.folder access)
  | _ :: _, .file _ => none
  | step :: rest, .folder _ entries => (Record.get? entries step).bind (find? rest)

/-- The entry with a file put into the folder that a path leads to. -/
def put (name : String) (new : File) : List String → Entry → Entry
  | _, .file held => .file held
  | [], .folder access entries => .folder access (Record.put name (.file new) entries)
  | step :: rest, .folder access entries =>
    match Record.get? entries step with
    | some inner => .folder access (Record.put step (put name new rest inner) entries)
    | none => .folder access entries

end Entry

/-- A place for a file: a folder, by the steps from the root, and a name in it. -/
structure Place where
  /-- The folder. -/
  folder : List String
  /-- The name. -/
  name : String
deriving DecidableEq

/-- The steps from the root to a place. -/
def Place.path (place : Place) : List String := place.folder ++ [place.name]

/-- The files and folders that a run can reach. -/
structure Disk where
  /-- The root folder. -/
  root : Entry := .folder {} []
  /-- The folder that the run is in. -/
  current : List String := []
  /-- The greatest size of a file that is written, if there is one. -/
  limit : Option Nat := none

/-! ## Paths -/

/-- The characters of a path, cut at its slashes. -/
def splitSteps : List Char → List (List Char)
  | [] => [[]]
  | '/' :: cs => [] :: splitSteps cs
  | c :: cs =>
    match splitSteps cs with
    | [] => [[c]]
    | step :: rest => (c :: step) :: rest

/-- The steps that a name consists of. -/
def steps (name : String) : List String := (splitSteps name.toList).map String.ofList

/-- The most bytes that a step of a path may have. -/
def stepLimit : Nat := 255

/-- The most bytes that a path may have. -/
def pathLimit : Nat := 4095

namespace Disk

/-- What lies at the end of a path from the root. -/
def find? (disk : Disk) (path : List String) : Option Found := disk.root.find? path

/-- Whether a path leads to a folder that may be searched. -/
def searches (disk : Disk) (path : List String) : Bool :=
  match disk.find? path with
  | some (.folder access) => access.searchable
  | _ => false

/-- Whether a path leads to a folder that files may be made in. -/
def admits (disk : Disk) (path : List String) : Bool :=
  match disk.find? path with
  | some (.folder access) => access.writable
  | _ => false

/-- One step of a path; whether it led to a folder shows at the next one. -/
def enter (disk : Disk) (path : List String) (step : String) : Option (List String) :=
  if step = "" then some path
  else if disk.searches path && step.utf8ByteSize ≤ stepLimit then
    if step = "." then some path
    else if step = ".." then some path.dropLast
    else some (path ++ [step])
  else none

/-- Where the path of a name starts. -/
def start (disk : Disk) (name : String) : List String :=
  if name.toList.head? = some '/' then [] else disk.current

/-- The place that a name stands for, whether or not there is a file. -/
def place? (disk : Disk) (name : String) : Option Place :=
  if pathLimit < name.utf8ByteSize then none
  else do
    let last ← (steps name).getLast?
    let folder ← (steps name).dropLast.foldlM disk.enter (disk.start name)
    if last ∈ ["", ".", ".."] || stepLimit < last.utf8ByteSize || !disk.searches folder then none
    else some ⟨folder, last⟩

/-! ## Files -/

/-- The bytes of the file that a name stands for. -/
def read? (disk : Disk) (name : String) : Option ByteArray := do
  let place ← disk.place? name
  match disk.find? place.path with
  | some (.file file) => if file.readable then some file.bytes else none
  | _ => none

/-- The file that is open for writing under a name, empty, and its place. -/
def opened? (disk : Disk) (name : String) : Option (Place × File) := do
  let place ← disk.place? name
  match disk.find? place.path with
  | some (.file file) => if file.writable then some (place, { file with bytes := .empty }) else none
  | some (.folder _) => none
  | none => if disk.admits place.folder then some (place, {}) else none

/-- The disk with a file at a place. -/
def put (disk : Disk) (place : Place) (file : File) : Disk :=
  { disk with root := disk.root.put place.name file place.folder }

/-- Whether a file can take so many bytes. -/
def fits (disk : Disk) (bytes : ByteArray) : Bool := disk.limit.all (bytes.size ≤ ·)

/-- The bytes that a file takes. -/
def taken (disk : Disk) (bytes : ByteArray) : ByteArray :=
  match disk.limit with
  | none => bytes
  | some size => bytes.extract 0 size

/-- Writes bytes to the file that a name stands for, and says whether all of them arrived. -/
def write (disk : Disk) (name : String) (bytes : ByteArray) : Bool × Disk :=
  match disk.opened? name with
  | none => (false, disk)
  | some (place, file) =>
    let emptied := disk.put place file
    (emptied.fits bytes, emptied.put place { file with bytes := emptied.taken bytes })

end Disk

end Jigsaw.Command
