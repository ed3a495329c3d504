import Jigsaw.Name.Fresh
import Jigsaw.Name.Reserved

/-!
# Name/Scope — which identifier a name stands for

A scope is a stack of frames.  The outermost frame holds what the whole program sees; a block that
declares names opens a frame while its body is rendered.  No two open bindings share an identifier,
and an identifier of the outermost frame is also different from every earlier one.
-/

namespace Jigsaw.Name

/-- What a name is the name of; names of different kinds do not meet. -/
structure Kind where
  /-- The word for the kind in messages. -/
  label : String
deriving DecidableEq

/-- Variables. -/
def Kind.ofVariable : Kind := ⟨"variable"⟩

/-- Procedures. -/
def Kind.ofProcedure : Kind := ⟨"procedure"⟩

/-- Helpers, which the program text brings along. -/
def Kind.ofHelper : Kind := ⟨"helper"⟩

/-- A name of some kind with its identifier. -/
structure Binding where
  /-- The name in the workspace. -/
  name : String
  /-- Its kind. -/
  kind : Kind
  /-- Its identifier in the program. -/
  identifier : String
deriving DecidableEq

/-- One level of names.  A frame keeps two stores: one is asked for names, the other for
identifiers. -/
structure Frame where
  /-- Its bindings in the order they were made. -/
  bindings : List Binding := []
  /-- The identifiers that it owns. -/
  owned : List String := []
deriving DecidableEq

/-- The identifier that a frame binds to a name. -/
def Frame.identifier? (frame : Frame) (name : String) (kind : Kind) : Option String :=
  (frame.bindings.find? fun b => b.name = name && b.kind = kind).map Binding.identifier

/-- A frame with one more binding, whose identifier it owns. -/
def Frame.add (frame : Frame) (b : Binding) : Frame :=
  ⟨frame.bindings ++ [b], frame.owned.insert b.identifier⟩

/-- A reference to a name that no frame in sight binds. -/
structure Unresolved where
  /-- The name. -/
  name : String
  /-- Its kind. -/
  kind : Kind
deriving DecidableEq

/-- The open frames and the identifiers handed out so far. -/
structure Scope where
  /-- Words that are never handed out. -/
  reserved : List String := Name.reserved
  /-- The outermost frame. -/
  globals : Frame := {}
  /-- The frames inside it, innermost first. -/
  locals : List Frame := []
  /-- Every identifier bound so far, in open frames or not. -/
  allocated : List String := []

namespace Scope

/-- The number of open frames. -/
def depth (s : Scope) : Nat := s.locals.length + 1

/-- The open frames, innermost first. -/
def frames (s : Scope) : List Frame := s.locals ++ [s.globals]

/-- The identifiers that open frames own. -/
def openIdentifiers (s : Scope) : List String := s.frames.flatMap Frame.owned

/-- What a local identifier has to differ from. -/
def taken (s : Scope) : List String := s.reserved ++ s.openIdentifiers

/-- What a global identifier has to differ from: earlier local ones count too. -/
def everTaken (s : Scope) : List String := s.reserved ++ s.allocated ++ s.openIdentifiers

/-- Binds a name in the outermost frame, unless that frame binds it already. -/
def bindGlobal (s : Scope) (name : String) (kind : Kind) : String × Scope :=
  match s.globals.identifier? name kind with
  | some identifier => (identifier, s)
  | none =>
    let identifier := firstFree s.everTaken (base name)
    (identifier,
      { s with
        globals := s.globals.add ⟨name, kind, identifier⟩
        allocated := s.allocated.insert identifier })

/-- Binds a name in the innermost frame, unless that frame binds it already. -/
def bind (s : Scope) (name : String) (kind : Kind) : String × Scope :=
  match s.locals with
  | [] => s.bindGlobal name kind
  | frame :: outer =>
    match frame.identifier? name kind with
    | some identifier => (identifier, s)
    | none =>
      let identifier := firstFree s.taken (base name)
      (identifier,
        { s with
          locals := frame.add ⟨name, kind, identifier⟩ :: outer
          allocated := s.allocated.insert identifier })

/-- The identifier of the nearest binding of a name. -/
def lookup (s : Scope) (name : String) (kind : Kind) : Option String :=
  s.frames.findSome? fun frame => frame.identifier? name kind

/-- The identifier of the nearest binding of a name, which has to exist. -/
def resolve (s : Scope) (name : String) (kind : Kind) : Except Unresolved String :=
  match s.lookup name kind with
  | some identifier => .ok identifier
  | none => .error ⟨name, kind⟩

/-- The identifier of a name in the outermost frame, whatever hides it. -/
def resolveGlobal (s : Scope) (name : String) (kind : Kind) : Except Unresolved String :=
  match s.globals.identifier? name kind with
  | some identifier => .ok identifier
  | none => .error ⟨name, kind⟩

/-- An identifier that no open frame owns, bound to no name: for a name that ends with the
expression that introduces it. -/
def distinct (s : Scope) (name : String) : String := firstFree s.taken (base name)

/-- The identifiers of one kind in the outermost frame, in binding order. -/
def globalIdentifiers (s : Scope) (kind : Kind) : List String :=
  (s.globals.bindings.filter fun b => b.kind = kind).map Binding.identifier

/-- Opens a frame. -/
def push (s : Scope) : Scope := { s with locals := {} :: s.locals }

/-- Closes the innermost frame; the outermost stays open. -/
def pop (s : Scope) : Scope := { s with locals := s.locals.tail }

end Scope

end Jigsaw.Name
