import Jigsaw.Render.ListRules
import Jigsaw.Render.LogicRules
import Jigsaw.Render.TextRules

/-!
# Render/BlockType — the block types and their rules

The types are closed: some blocks are values, some are statements, and every other type is a defect
of the workspace.  A value may also stand alone as a statement, never the other way round.
-/

namespace Jigsaw.Render

/-- The types of blocks that are values. -/
inductive ValueType where
  | emptyList | listOf | listRepeat | listLength | listIsEmpty | listPosition | listItem | listCopy
  | listMember | listRandomItem | isList
  | text | textJoin | textLength | textIsEmpty | textEnd | textPosition | textStartsAt | textChar
  | textSegment | textCase | textTrim | textContains | textSplit | textReplaceAll | textCompare
  | textPrompt
  | variableGet | lexicalGet | localExpression
  | number | arithmetic | truth | negation | logic
  | procedureCall
deriving DecidableEq

/-- The types of blocks that are statements. -/
inductive StatementType where
  | listSetItem | listAddItems | listInsert | listReplaceItem | listRemove | listAppendList
  | textAppend | textPrint
  | variableSet | globalDeclaration | lexicalSet | localStatement
  | conditional
  | procedure | function | procedureCall
deriving DecidableEq

/-- The value type with a name. -/
def ValueType.ofName? : String → Option ValueType
  | "lists_create_empty" => some .emptyList
  | "lists_create_with" => some .listOf
  | "lists_repeat" => some .listRepeat
  | "lists_length" => some .listLength
  | "lists_is_empty" => some .listIsEmpty
  | "lists_indexOf" | "lists_position_in" => some .listPosition
  | "lists_getIndex" | "lists_select_item" => some .listItem
  | "lists_copy" => some .listCopy
  | "lists_is_in" => some .listMember
  | "lists_pick_random_item" => some .listRandomItem
  | "lists_is_list" => some .isList
  | "text" => some .text
  | "text_join" => some .textJoin
  | "text_length" => some .textLength
  | "text_isEmpty" => some .textIsEmpty
  | "text_endString" => some .textEnd
  | "text_indexOf" => some .textPosition
  | "text_starts_at" => some .textStartsAt
  | "text_charAt" => some .textChar
  | "text_segment" => some .textSegment
  | "text_changeCase" => some .textCase
  | "text_trim" => some .textTrim
  | "text_contains" => some .textContains
  | "text_split_at_spaces" => some .textSplit
  | "text_replace_all" => some .textReplaceAll
  | "text_compare" => some .textCompare
  | "text_prompt" => some .textPrompt
  | "variables_get" => some .variableGet
  | "lexical_variable_get" => some .lexicalGet
  | "local_declaration_expression" => some .localExpression
  | "math_number" => some .number
  | "math_arithmetic" => some .arithmetic
  | "logic_boolean" => some .truth
  | "logic_negate" => some .negation
  | "logic_operation" => some .logic
  | "procedures_callreturn" => some .procedureCall
  | _ => none

/-- The statement type with a name. -/
def StatementType.ofName? : String → Option StatementType
  | "lists_setIndex" => some .listSetItem
  | "lists_add_items" => some .listAddItems
  | "lists_insert_item" => some .listInsert
  | "lists_replace_item" => some .listReplaceItem
  | "lists_remove_item" => some .listRemove
  | "lists_append_list" => some .listAppendList
  | "text_append" => some .textAppend
  | "text_print" => some .textPrint
  | "variables_set" => some .variableSet
  | "global_declaration" => some .globalDeclaration
  | "lexical_variable_set" => some .lexicalSet
  | "local_declaration_statement" => some .localStatement
  | "controls_if" => some .conditional
  | "procedures_defnoreturn" => some .procedure
  | "procedures_defreturn" => some .function
  | "procedures_callnoreturn" => some .procedureCall
  | _ => none

/-- The rule of a value type. -/
def ValueType.render (n : Node) : ValueType → RenderM Expr
  | .emptyList => pure (.list [])
  | .listOf => n.listOf
  | .listRepeat => n.listRepeat
  | .listLength => n.listLength
  | .listIsEmpty => n.listIsEmpty
  | .listPosition => n.listPosition
  | .listItem => n.listItem
  | .listCopy => n.listCopy
  | .listMember => n.listMember
  | .listRandomItem => n.listRandomItem
  | .isList => n.isList
  | .text => pure n.textLiteral
  | .textJoin => n.textJoin
  | .textLength => n.textLength
  | .textIsEmpty => n.textIsEmpty
  | .textEnd => n.textEnd
  | .textPosition => n.textPosition
  | .textStartsAt => n.textStartsAt
  | .textChar => n.textChar
  | .textSegment => n.textSegment
  | .textCase => n.textCase
  | .textTrim => n.textThrough "strip"
  | .textContains => n.textContains
  | .textSplit => n.textThrough "split"
  | .textReplaceAll => n.textReplaceAll
  | .textCompare => n.textCompare
  | .textPrompt => n.textPrompt
  | .variableGet => n.variableGet
  | .lexicalGet => n.lexicalGet
  | .localExpression => n.localExpression
  | .number => pure n.number
  | .arithmetic => n.arithmetic
  | .truth => pure n.truth
  | .negation => n.negation
  | .logic => n.logic
  | .procedureCall => n.procedureCall

/-- An expression as a statement. -/
def exprLine (e : Expr) : List Stmt := [.simple (.expr e)]

/-- The rule of a statement type. -/
def StatementType.render (n : Node) : StatementType → RenderM (List Stmt)
  | .listSetItem => n.listReplace "AT" "TO"
  | .listAddItems => n.listAddItems
  | .listInsert => n.listInsert
  | .listReplaceItem => n.listReplace "NUM" "ITEM"
  | .listRemove => n.listRemove
  | .listAppendList => n.listAppendList
  | .textAppend => n.textAppend
  | .textPrint => n.textPrint
  | .variableSet => n.variableSet
  | .globalDeclaration => n.globalDeclaration
  | .lexicalSet => n.lexicalSet
  | .localStatement => n.localStatement
  | .conditional => n.conditional
  | .procedure => n.procedureDefine false
  | .function => n.procedureDefine true
  | .procedureCall => exprLine <$> n.procedureCall

namespace Node

/-- The block as a value. -/
def asValue (n : Node) : RenderM Expr :=
  match ValueType.ofName? n.block.type with
  | some type => type.render n
  | none =>
    throw <| match StatementType.ofName? n.block.type with
      | some _ => Error.statementAsValue n.block
      | none => Error.unknownType n.block

/-- The block as statements; a value stands as an expression on its own line. -/
def asStatement (n : Node) : RenderM (List Stmt) :=
  match StatementType.ofName? n.block.type with
  | some type => type.render n
  | none => exprLine <$> n.asValue

/-- The statements that return the block's value. -/
def asResult (n : Node) : RenderM (List Stmt) :=
  match ValueType.ofName? n.block.type with
  | some .localExpression => n.localResult
  | _ => do
    let value ← n.asValue
    pure [.simple (.result value)]

end Node

end Jigsaw.Render
