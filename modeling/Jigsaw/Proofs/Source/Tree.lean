import Mathlib.Data.List.Basic
import Jigsaw.Program.Expr

/-!
# Proofs/Source/Tree — syntax trees of expressions

A tree is what a reader makes of an expression: no parentheses, no levels, a sign in front of a
number as an operation, and a row of `and` or of `or` as one flat chain.  The names at its leaves
are of any type: identifiers where program text was read, references where a workspace says what is
meant.  `Tree.resolve` replaces every name by the place it is bound at, by the scoping of lambda
parameters and comprehension variables; two trees that resolve to the same one differ in the
spelling of their bound names only.
-/

namespace Jigsaw

/-- The syntax tree of an expression, with names from `ν`. -/
inductive Tree (ν : Type) where
  /-- A name. -/
  | name (n : ν)
  /-- An integer literal. -/
  | integer (value : Nat)
  /-- A number literal with a point or an exponent. -/
  | floating (literal : String)
  /-- A string literal. -/
  | text (content : String)
  /-- `True` or `False`. -/
  | truth (value : Bool)
  /-- `None` -/
  | none
  /-- `[a, b]` -/
  | list (items : List (Tree ν))
  /-- `[element for binder in source]` -/
  | collect (element : Tree ν) (binder : ν) (source : Tree ν)
  /-- `(lambda a, b: body)` -/
  | lambda (parameters : List ν) (body : Tree ν)
  /-- `function(a, b)` -/
  | call (function : Tree ν) (arguments : List (Tree ν))
  /-- `receiver.selector(a, b)` -/
  | method (receiver : Tree ν) (selector : String) (arguments : List (Tree ν))
  /-- `receiver[index]` -/
  | item (receiver index : Tree ν)
  /-- `receiver[start:]` -/
  | sliceFrom (receiver start : Tree ν)
  /-- `receiver[:stop]` -/
  | sliceTo (receiver stop : Tree ν)
  /-- `receiver[start:stop]` -/
  | slice (receiver start stop : Tree ν)
  /-- `-operand` -/
  | negate (operand : Tree ν)
  /-- `not operand` -/
  | not (operand : Tree ν)
  /-- A comparison or an arithmetic operation. -/
  | binary (op : BinaryOp) (left right : Tree ν)
  /-- A flat chain of `and` or of `or`. -/
  | chain (op : BinaryOp) (operands : List (Tree ν))

namespace Tree

variable {ν : Type}

/-! ## Literals and chains -/

/-- The literal of an integer: a sign is an operation. -/
def ofInt (k : Int) : Tree ν := if k < 0 then .negate (.integer k.natAbs) else .integer k.natAbs

/-- The integer that a tree is the literal of. -/
def int? : Tree ν → Option Int
  | .integer n => some n
  | .negate (.integer n) => some (-n)
  | _ => Option.none

/-- The literal of a number. -/
def ofNumeral : Numeral → Tree ν
  | .integer n => ofInt n
  | .floating negative x => if negative then .negate (.floating x.text) else .floating x.text

/-- The operands of a chain; any other tree is the one operand of itself. -/
def operands (op : BinaryOp) : Tree ν → List (Tree ν)
  | .chain op' ts => if op' = op then ts else [.chain op' ts]
  | t => [t]

/-- An operation on two trees: `and` and `or` join the chains of their operands. -/
def operation (op : BinaryOp) (left right : Tree ν) : Tree ν :=
  if op = .and ∨ op = .or then .chain op (left.operands op ++ right.operands op)
  else .binary op left right

@[simp] theorem int?_ofInt (k : Int) : (ofInt k : Tree ν).int? = some k := by
  unfold ofInt
  split
  · simp only [int?, Option.some.injEq]
    omega
  · simp only [int?, Option.some.injEq]
    omega

/-! ## Places -/

end Tree

/-- Where a name is bound: at a parameter of an enclosing binder, counted from the innermost, or
nowhere in the tree. -/
inductive Place (μ : Type) where
  /-- The parameter at `position` of the binder `depth` binders up. -/
  | bound (depth position : Nat)
  /-- No enclosing binder has the name, which means this outside. -/
  | free (meaning : μ)
deriving DecidableEq

/-- The same place seen from one binder further inside. -/
def Place.deepen {μ : Type} : Place μ → Place μ
  | .bound depth position => .bound (depth + 1) position
  | .free meaning => .free meaning

namespace Tree

variable {ν μ : Type} [DecidableEq ν]

/-- The place of a name inside binders, innermost first: the nearest binder that has the name, and
the first of its parameters that is it.  `outside` says what free names mean. -/
def place (outside : ν → μ) (n : ν) : List (List ν) → Place μ
  | [] => .free (outside n)
  | group :: outer => if n ∈ group then .bound 0 (group.idxOf n) else (place outside n outer).deepen

mutual

/-- The tree with every name replaced by its place.  The source of a comprehension stands outside
its binder. -/
def resolve (outside : ν → μ) (binders : List (List ν)) : Tree ν → Tree (Place μ)
  | .name n => .name (place outside n binders)
  | .integer value => .integer value
  | .floating literal => .floating literal
  | .text content => .text content
  | .truth value => .truth value
  | .none => .none
  | .list items => .list (resolveAll outside binders items)
  | .collect element binder source =>
    .collect (resolve outside ([binder] :: binders) element)
      (place outside binder ([binder] :: binders)) (resolve outside binders source)
  | .lambda parameters body =>
    .lambda (parameters.map fun n => place outside n (parameters :: binders))
      (resolve outside (parameters :: binders) body)
  | .call function arguments =>
    .call (resolve outside binders function) (resolveAll outside binders arguments)
  | .method receiver selector arguments =>
    .method (resolve outside binders receiver) selector (resolveAll outside binders arguments)
  | .item receiver index =>
    .item (resolve outside binders receiver) (resolve outside binders index)
  | .sliceFrom receiver start =>
    .sliceFrom (resolve outside binders receiver) (resolve outside binders start)
  | .sliceTo receiver stop =>
    .sliceTo (resolve outside binders receiver) (resolve outside binders stop)
  | .slice receiver start stop =>
    .slice (resolve outside binders receiver) (resolve outside binders start)
      (resolve outside binders stop)
  | .negate operand => .negate (resolve outside binders operand)
  | .not operand => .not (resolve outside binders operand)
  | .binary op left right =>
    .binary op (resolve outside binders left) (resolve outside binders right)
  | .chain op operands => .chain op (resolveAll outside binders operands)

/-- The trees with every name replaced by its place. -/
def resolveAll (outside : ν → μ) (binders : List (List ν)) : List (Tree ν) → List (Tree (Place μ))
  | [] => []
  | t :: rest => resolve outside binders t :: resolveAll outside binders rest

end

variable {outside : ν → μ} {binders : List (List ν)}

theorem resolveAll_append : ∀ ts us : List (Tree ν),
    resolveAll outside binders (ts ++ us)
      = resolveAll outside binders ts ++ resolveAll outside binders us
  | [], _ => rfl
  | t :: ts, us => by rw [List.cons_append, resolveAll, resolveAll_append ts us]; rfl

/-- Places change no literal, -/
theorem int?_resolve (t : Tree ν) : (t.resolve outside binders).int? = t.int? := by
  cases t with
  | negate operand => cases operand <;> rfl
  | _ => rfl

/-- …and no chain. -/
theorem operands_resolve (op : BinaryOp) (t : Tree ν) :
    (t.resolve outside binders).operands op = resolveAll outside binders (t.operands op) := by
  cases t with
  | chain op' ts =>
    rw [resolve, operands, operands]
    split <;> rfl
  | _ => rfl

theorem resolve_operation (op : BinaryOp) (t u : Tree ν) :
    (operation op t u).resolve outside binders
      = operation op (t.resolve outside binders) (u.resolve outside binders) := by
  rw [operation, operation]
  split
  · rw [resolve, resolveAll_append, operands_resolve, operands_resolve]
  · rfl

end Tree

end Jigsaw
