import Jigsaw.Proofs.Source.Tree
import Jigsaw.Render.BlockType

/-!
# Proofs/Render/BlockTree — the syntax tree that a block stands for

`Block.tree` reads a value block as an expression, from its structure alone: no level, no
parenthesis, no identifier.  Its names are references, which say what is meant: a variable, the
outermost variable of a name, a procedure, a support routine or a fixed word of the language.
-/

namespace Jigsaw

/-- What a name in a block's tree refers to. -/
inductive Ref where
  /-- The nearest variable with a name. -/
  | nearest (name : String)
  /-- The variable with a name in the outermost frame. -/
  | outermost (name : String)
  /-- The nearest procedure with a name. -/
  | procedure (name : String)
  /-- The procedure with a name in the outermost frame. -/
  | definition (name : String)
  /-- The support routine with a key. -/
  | helper (key : String)
  /-- A built-in name or an imported module. -/
  | fixed (word : String)
  /-- The variable of a comprehension, which no block names. -/
  | temporary
deriving DecidableEq

namespace Tree

variable {ν : Type}

/-- The index counted from zero, for an index counted from one: a literal that `lowers` admits
becomes the literal before it, any other expression has one taken off. -/
def lowered (lowers : Int → Bool) (t : Tree ν) : Tree ν :=
  match t.int? with
  | some k => if lowers k then ofInt (k - 1) else .binary .subtract t (.integer 1)
  | Option.none => .binary .subtract t (.integer 1)

/-- The natural number that a tree is the literal of. -/
def natural? (t : Tree ν) : Option Int := t.int?.filter (0 ≤ ·)

/-- The `size` characters of a text from index `start` on; literal bounds are added up. -/
def segment (text start size : Tree ν) : Tree ν :=
  match start.natural?, size.natural? with
  | some s, some k =>
    if Integer.fits s && Integer.fits k then .slice text start (ofInt (s + k))
    else .sliceTo (.sliceFrom text start) size
  | _, _ => .sliceTo (.sliceFrom text start) size

/-- The last `count` characters of a text; the last none are the first none. -/
def lastChars (text count : Tree ν) : Tree ν :=
  if count.int? = some 0 then .sliceTo text count else .sliceFrom text (.negate count)

/-- A call of a built-in function. -/
def builtin (word : String) (arguments : List (Tree Ref)) : Tree Ref :=
  .call (.name (.fixed word)) arguments

/-- Several values as one text: none is the empty text, one or two are converted where they stand,
more are converted one by one and joined. -/
def joined : List (Tree Ref) → Tree Ref
  | [] => .text ""
  | [t] => builtin "str" [t]
  | [t, u] => .binary .add (builtin "str" [t]) (builtin "str" [u])
  | ts =>
    .method (.text "") "join"
      [.collect (builtin "str" [.name .temporary]) .temporary (.list ts)]

end Tree

namespace Render

/-- A block with the trees of what is plugged into it as values. -/
structure Sketch where
  /-- The block. -/
  block : Block
  /-- The trees of the values. -/
  trees : Record (Tree Ref)

namespace Sketch

/-- The tree of the value in a slot, or `default` if the slot is empty. -/
def slot (k : Sketch) (name : String) (default : Tree Ref) : Tree Ref :=
  (k.trees.get? name).getD default

/-- The tree of the text in a slot; an empty slot holds the empty text. -/
def text (k : Sketch) (name : String) : Tree Ref := k.slot name (.text "")

/-- The tree of the list in a slot; an empty slot holds the empty list. -/
def list (k : Sketch) (name : String) : Tree Ref := k.slot name (.list [])

/-- The tree of the index in a slot, counted from zero. -/
def index (lowers : Int → Bool) (k : Sketch) (name : String) : Tree Ref :=
  (k.slot name (.integer 1)).lowered lowers

/-- The trees of the values in the slots `stem0`, `stem1`, …, as many as `count`. -/
def slots (k : Sketch) (stem : String) (count : Nat) (default : Tree Ref) : List (Tree Ref) :=
  (List.range count).map fun i => k.slot (stem ++ toString i) default

/-- What a lexical reference means. -/
def lexicalRef (k : Sketch) : Ref :=
  let (word, name) := splitScopeWord (k.block.field "VAR")
  if word = "global" then .outermost name else .nearest name

/-- The position that `selector` finds a piece at, counted from one. -/
def positionOf (text : Tree Ref) (selector : String) (piece : Tree Ref) : Tree Ref :=
  .binary .add (.method text selector [piece]) (.integer 1)

end Sketch

/-- The tree of a block of a value type. -/
def ValueType.tree (lowers : Int → Bool) (k : Sketch) : ValueType → Tree Ref
  | .emptyList => .list []
  | .listOf => .list (k.slots "ADD" k.block.itemCount .none)
  | .listRepeat => .binary .multiply (.list [k.slot "ITEM" .none]) (k.slot "NUM" (.integer 0))
  | .listLength => .builtin "len" [k.list "LIST"]
  | .listIsEmpty => .not (.builtin "len" [k.list "LIST"])
  | .listPosition =>
    let key := if k.block.fieldOr "END" "FIRST" = "LAST" then "last_index" else "first_index"
    .call (.name (.helper key)) [k.list "LIST", k.slot "ITEM" (.text "")]
  | .listItem => .item (k.list "LIST") (k.index lowers (if k.trees.has "AT" then "AT" else "NUM"))
  | .listCopy => .builtin "list" [k.list "LIST"]
  | .listMember => .binary .within (k.slot "ITEM" .none) (k.list "LIST")
  | .listRandomItem => .method (.name (.fixed "random")) "choice" [k.list "LIST"]
  | .isList => .binary .same (.builtin "type" [k.slot "ITEM" .none]) (.name (.fixed "list"))
  | .text => .text (k.block.field "TEXT")
  | .textJoin => .joined (k.slots "ADD" k.block.itemCount (.text ""))
  | .textLength => .builtin "len" [k.text "VALUE"]
  | .textIsEmpty => .not (.builtin "len" [k.text "VALUE"])
  | .textEnd =>
    if k.block.fieldOr "END" "FIRST" = "FIRST" then
      .sliceTo (k.text "TEXT") (k.slot "NUM" (.integer 1))
    else .lastChars (k.text "TEXT") (k.slot "NUM" (.integer 1))
  | .textPosition =>
    let selector := if k.block.fieldOr "END" "FIRST" = "FIRST" then "find" else "rfind"
    Sketch.positionOf (k.text "VALUE") selector (k.text "FIND")
  | .textStartsAt => Sketch.positionOf (k.text "TEXT") "find" (k.text "PIECE")
  | .textChar => .item (k.text "VALUE") (k.index lowers "AT")
  | .textSegment => .segment (k.text "TEXT") (k.index lowers "START") (k.slot "LENGTH" (.integer 1))
  | .textCase =>
    .method (k.text "TEXT") (if k.block.field "OP" = "DOWNCASE" then "lower" else "upper") []
  | .textTrim => .method (k.text "TEXT") "strip" []
  | .textContains => .binary .within (k.text "PIECE") (k.text "TEXT")
  | .textSplit => .method (k.text "TEXT") "split" []
  | .textReplaceAll =>
    .method (k.text "TEXT") "replace" [k.text "SEGMENT", k.text "REPLACEMENT"]
  | .textCompare =>
    .binary (Node.comparison (k.block.field "OP")) (k.text "TEXT1") (k.text "TEXT2")
  | .textPrompt =>
    let answer := .call (.name (.helper "text_prompt")) [.text (k.block.field "TEXT")]
    if k.block.field "TYPE" = "NUMBER" then .builtin "float" [answer] else answer
  | .variableGet => .name (.nearest (k.block.field "VAR"))
  | .lexicalGet => .name k.lexicalRef
  | .localExpression =>
    .call (.lambda (k.block.declaredNames.map .nearest) (k.slot "RETURN" .none))
      (k.slots "DECL" k.block.declaredNames.length (.integer 0))
  | .number => .ofNumeral (.ofText (k.block.fieldOr "NUM" "0"))
  | .arithmetic =>
    .binary (Node.arithmeticOp (k.block.field "OP")) (k.slot "A" (.integer 0))
      (k.slot "B" (.integer 0))
  | .truth => .truth (k.block.field "BOOL" = "TRUE")
  | .negation => .not (k.slot "BOOL" (.truth true))
  | .logic =>
    .operation (if k.block.field "OP" = "OR" then .or else .and) (k.slot "A" (.truth false))
      (k.slot "B" (.truth false))
  | .procedureCall =>
    .call (.name (.procedure (k.block.field "PROCNAME")))
      (k.slots "ARG" k.block.argumentCount .none)

end Render

open Render

mutual

/-- **The syntax tree of a value block.**  A block that is no value has none of its own. -/
def Block.tree (lowers : Int → Bool) : Block → Tree Ref
  | .mk type id fields values statements next mutation =>
    let k : Sketch :=
      { block := .mk type id fields values statements next mutation
        trees := slotTrees lowers values }
    match ValueType.ofName? type with
    | some valueType => valueType.tree lowers k
    | none => .none
termination_by structural b => b

/-- The trees of the blocks in slots. -/
def slotTrees (lowers : Int → Bool) : List (String × Block) → Record (Tree Ref)
  | [] => []
  | (slot, child) :: rest => (slot, child.tree lowers) :: slotTrees lowers rest
termination_by structural slots => slots

end

/-- The block with the trees of its values. -/
def Block.sketch (lowers : Int → Bool) (b : Block) : Sketch :=
  { block := b, trees := slotTrees lowers b.values }

end Jigsaw
