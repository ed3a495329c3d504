import Jigsaw.Render.Node

/-!
# Render/ListRules — rules for blocks on lists

Positions in a workspace count from one, in the program from zero; a position of zero means that the
item is absent.
-/

namespace Jigsaw.Render.Node

/-- The list in a slot; an empty slot holds the empty list. -/
def listValue (n : Node) (slot : String) : RenderM Expr := n.value slot (.list [])

/-- A list of the given items. -/
def listOf (n : Node) : RenderM Expr := do
  let items ← n.valueList "ADD" n.block.itemCount .none
  pure (.list items)

/-- A list that repeats one item. -/
def listRepeat (n : Node) : RenderM Expr := do
  let item ← n.value "ITEM" .none
  let count ← n.value "NUM" .zero
  pure (.binary .multiply (.list [item]) count)

/-- The number of items. -/
def listLength (n : Node) : RenderM Expr := do
  let target ← n.listValue "LIST"
  pure (.call "len" [target])

/-- Whether there are no items. -/
def listIsEmpty (n : Node) : RenderM Expr := do
  let target ← n.listValue "LIST"
  pure (.not (.call "len" [target]))

/-- The routine for the first position of an item. -/
def firstIndexSource (identifier : String) : String :=
  Text.joinLines
    ["def " ++ identifier ++ "(my_list, elem):",
     "    try:",
     "        return my_list.index(elem) + 1",
     "    except ValueError:",
     "        return 0"]

/-- The routine for the last position of an item. -/
def lastIndexSource (identifier : String) : String :=
  Text.joinLines
    ["def " ++ identifier ++ "(my_list, elem):",
     "    try:",
     "        return len(my_list) - my_list[::-1].index(elem)",
     "    except ValueError:",
     "        return 0"]

/-- The position of an item. -/
def listPosition (n : Node) : RenderM Expr := do
  let target ← n.listValue "LIST"
  let item ← n.value "ITEM" (.text "")
  let function ←
    if n.block.fieldOr "END" "FIRST" = "LAST" then helper "last_index" lastIndexSource
    else helper "first_index" firstIndexSource
  pure (.call function [target, item])

/-- The item at a position. -/
def listItem (n : Node) : RenderM Expr := do
  let target ← n.listValue "LIST"
  let index ← n.index (if n.values.has "AT" then "AT" else "NUM")
  pure (.item target index)

/-- A copy. -/
def listCopy (n : Node) : RenderM Expr := do
  let target ← n.listValue "LIST"
  pure (.call "list" [target])

/-- Whether an item is in a list. -/
def listMember (n : Node) : RenderM Expr := do
  let item ← n.value "ITEM" .none
  let target ← n.listValue "LIST"
  pure (.binary .within item target)

/-- An item picked at random. -/
def listRandomItem (n : Node) : RenderM Expr := do
  requireImport "random"
  let target ← n.listValue "LIST"
  pure (.method (.name "random") "choice" [target])

/-- Whether a value is a list. -/
def isList (n : Node) : RenderM Expr := do
  let item ← n.value "ITEM" .none
  pure (.binary .same (.call "type" [item]) (.name "list"))

/-! ## Statements -/

/-- A call that stands as a statement. -/
def callLine (receiver : Expr) (selector : String) (arguments : List Expr) : List Stmt :=
  [.simple (.expr (.method receiver selector arguments))]

/-- Replaces the item at the position in slot `place` by the value in slot `replacement`. -/
def listReplace (n : Node) (place replacement : String) : RenderM (List Stmt) := do
  let target ← n.listValue "LIST"
  let index ← n.index place
  let value ← n.value replacement .none
  pure [.simple (.assignItem target index value)]

/-- Appends one item or several. -/
def listAddItems (n : Node) : RenderM (List Stmt) := do
  let target ← n.listValue "LIST"
  let items ← n.valueList "ITEM" (max n.block.itemCount 1) .none
  match items with
  | [item] => pure (callLine target "append" [item])
  | _ => pure (callLine target "extend" [.list items])

/-- Inserts an item before a position. -/
def listInsert (n : Node) : RenderM (List Stmt) := do
  let target ← n.listValue "LIST"
  let index ← n.index "INDEX"
  let item ← n.value "ITEM" .none
  pure (callLine target "insert" [index, item])

/-- Removes the item at a position. -/
def listRemove (n : Node) : RenderM (List Stmt) := do
  let target ← n.listValue "LIST"
  let index ← n.index "INDEX"
  pure (callLine target "pop" [index])

/-- Appends the items of another list. -/
def listAppendList (n : Node) : RenderM (List Stmt) := do
  let target ← n.listValue "LIST0"
  let other ← n.listValue "LIST1"
  pure (callLine target "extend" [other])

end Jigsaw.Render.Node
