import Jigsaw.Name.Reserved
import Jigsaw.Proofs.Source.Token
import Jigsaw.Proofs.Source.Tree

/-!
# Proofs/Source/Grammar — the expressions of the generated language

    disjunction ▸ conjunction ▸ negation ▸ comparison ▸ sum ▸ product ▸ sign ▸ power
      ▸ primary ▸ atom

Ten nonterminals, each of which includes the next tighter one.  A row of `or` or of `and` is one
flat chain; a comparison has two operands and no more; sums and products lean to the left; a power
has a primary as its base and a signed expression as its exponent.  `Derives n ts t` says that the
tokens `ts` are an `n` with the tree `t`, and `Reads n code t` that the characters of `code` are
such tokens.
-/

namespace Jigsaw.Source

/-- The kinds of expressions, loosest first. -/
inductive Nonterminal where
  | disjunction | conjunction | negation | comparison
  | sum | product | sign | power | primary | atom
deriving DecidableEq

namespace Nonterminal

/-- The next tighter kind, all of which belong to this one. -/
def tighter? : Nonterminal → Option Nonterminal
  | disjunction => some conjunction
  | conjunction => some negation
  | negation => some comparison
  | comparison => some sum
  | sum => some product
  | product => some sign
  | sign => some power
  | power => some primary
  | primary => some atom
  | atom => none

end Nonterminal

/-- The token of an operator. -/
def opToken : BinaryOp → Token
  | .or => .word "or"
  | .and => .word "and"
  | .less => .mark "<"
  | .greater => .mark ">"
  | .equal => .mark "=="
  | .unequal => .mark "!="
  | .within => .word "in"
  | .same => .word "is"
  | .add => .mark "+"
  | .subtract => .mark "-"
  | .multiply => .mark "*"
  | .divide => .mark "/"
  | .power => .mark "**"

/-- The kinds of the whole, of the left and of the right operand; `and` and `or` have chains of
their own. -/
def production : BinaryOp → Option (Nonterminal × Nonterminal × Nonterminal)
  | .or | .and => none
  | .less | .greater | .equal | .unequal | .within | .same => some (.comparison, .sum, .sum)
  | .add | .subtract => some (.sum, .sum, .product)
  | .multiply | .divide => some (.product, .product, .sign)
  | .power => some (.power, .primary, .sign)

/-- The kinds of a chain and of its operands. -/
def chainProduction : BinaryOp → Option (Nonterminal × Nonterminal)
  | .or => some (.disjunction, .conjunction)
  | .and => some (.conjunction, .negation)
  | _ => none

/-- The tokens of a parameter list. -/
def parameterTokens : List String → List Token
  | [] => []
  | [x] => [.word x]
  | x :: rest => .word x :: .mark "," :: parameterTokens rest

mutual

/-- **The grammar**: the tokens are an expression of a kind, with this tree. -/
inductive Derives : Nonterminal → List Token → Tree String → Prop
  /-- An expression of the next tighter kind. -/
  | descend {n m : Nonterminal} {ts : List Token} {t : Tree String} (hm : n.tighter? = some m)
      (h : Derives m ts t) : Derives n ts t
  /-- `a or b or c`, `a and b and c` -/
  | chain {op : BinaryOp} {n m : Nonterminal} {ts : List Token} {operands : List (Tree String)}
      (hop : chainProduction op = some (n, m)) (htwo : 2 ≤ operands.length)
      (h : Separated m (opToken op) ts operands) : Derives n ts (.chain op operands)
  /-- `not a` -/
  | not {ts : List Token} {t : Tree String} (h : Derives .negation ts t) :
      Derives .negation (.word "not" :: ts) (.not t)
  /-- `a < b`, `a + b`, `a * b`, `a ** b` -/
  | binary {op : BinaryOp} {n l r : Nonterminal} {ls rs : List Token} {t u : Tree String}
      (hop : production op = some (n, l, r)) (hl : Derives l ls t) (hr : Derives r rs u) :
      Derives n (ls ++ opToken op :: rs) (.binary op t u)
  /-- `-a` -/
  | negate {ts : List Token} {t : Tree String} (h : Derives .sign ts t) :
      Derives .sign (.mark "-" :: ts) (.negate t)
  /-- `f(a, b)` -/
  | call {fs ts : List Token} {f : Tree String} {arguments : List (Tree String)}
      (hf : Derives .primary fs f) (h : Separated .disjunction (.mark ",") ts arguments) :
      Derives .primary (fs ++ .mark "(" :: (ts ++ [.mark ")"])) (.call f arguments)
  /-- `a.selector(b, c)` -/
  | method {rs ts : List Token} {r : Tree String} {selector : String}
      {arguments : List (Tree String)} (hr : Derives .primary rs r)
      (hselector : selector ∉ Name.keywords)
      (h : Separated .disjunction (.mark ",") ts arguments) :
      Derives .primary (rs ++ .mark "." :: .word selector :: .mark "(" :: (ts ++ [.mark ")"]))
        (.method r selector arguments)
  /-- `a[i]` -/
  | item {rs ts : List Token} {r t : Tree String} (hr : Derives .primary rs r)
      (h : Derives .disjunction ts t) :
      Derives .primary (rs ++ .mark "[" :: (ts ++ [.mark "]"])) (.item r t)
  /-- `a[i:]` -/
  | sliceFrom {rs ts : List Token} {r t : Tree String} (hr : Derives .primary rs r)
      (h : Derives .disjunction ts t) :
      Derives .primary (rs ++ .mark "[" :: (ts ++ [.mark ":", .mark "]"])) (.sliceFrom r t)
  /-- `a[:j]` -/
  | sliceTo {rs ts : List Token} {r t : Tree String} (hr : Derives .primary rs r)
      (h : Derives .disjunction ts t) :
      Derives .primary (rs ++ .mark "[" :: .mark ":" :: (ts ++ [.mark "]"])) (.sliceTo r t)
  /-- `a[i:j]` -/
  | slice {rs ts us : List Token} {r t u : Tree String} (hr : Derives .primary rs r)
      (ht : Derives .disjunction ts t) (hu : Derives .disjunction us u) :
      Derives .primary (rs ++ .mark "[" :: (ts ++ .mark ":" :: (us ++ [.mark "]"])))
        (.slice r t u)
  /-- A name, which is no keyword. -/
  | name {x : String} (hx : x ∉ Name.keywords) : Derives .atom [.word x] (.name x)
  | integer (value : Nat) : Derives .atom [.integer value] (.integer value)
  | floating (literal : String) : Derives .atom [.floating literal] (.floating literal)
  | text (content : String) : Derives .atom [.text content] (.text content)
  | truth (value : Bool) : Derives .atom [.word (if value then "True" else "False")] (.truth value)
  | none : Derives .atom [.word "None"] .none
  /-- `[a, b]` -/
  | list {ts : List Token} {items : List (Tree String)}
      (h : Separated .disjunction (.mark ",") ts items) :
      Derives .atom (.mark "[" :: (ts ++ [.mark "]"])) (.list items)
  /-- `[a for x in b]` -/
  | collect {es ss : List Token} {element source : Tree String} {binder : String}
      (he : Derives .disjunction es element) (hbinder : binder ∉ Name.keywords)
      (hs : Derives .disjunction ss source) :
      Derives .atom
        (.mark "[" :: (es ++ .word "for" :: .word binder :: .word "in" :: (ss ++ [.mark "]"])))
        (.collect element binder source)
  /-- `(a)` -/
  | parens {ts : List Token} {t : Tree String} (h : Derives .disjunction ts t) :
      Derives .atom (.mark "(" :: (ts ++ [.mark ")"])) t
  /-- `(lambda x, y: a)` -/
  | lambda {parameters : List String} {ts : List Token} {body : Tree String}
      (hparameters : ∀ x ∈ parameters, x ∉ Name.keywords) (h : Derives .disjunction ts body) :
      Derives .atom
        (.mark "(" :: .word "lambda" ::
          (parameterTokens parameters ++ .mark ":" :: (ts ++ [.mark ")"])))
        (.lambda parameters body)

/-- Expressions of one kind with a token between neighbours. -/
inductive Separated : Nonterminal → Token → List Token → List (Tree String) → Prop
  | nil (n : Nonterminal) (separator : Token) : Separated n separator [] []
  | single {n : Nonterminal} {separator : Token} {ts : List Token} {t : Tree String}
      (h : Derives n ts t) : Separated n separator ts [t]
  | cons {n : Nonterminal} {separator : Token} {ts us : List Token} {t u : Tree String}
      {rest : List (Tree String)} (h : Derives n ts t)
      (hrest : Separated n separator us (u :: rest)) :
      Separated n separator (ts ++ separator :: us) (t :: u :: rest)

end

/-- The code is an expression of a kind, with this tree. -/
def Reads (n : Nonterminal) (code : String) (t : Tree String) : Prop :=
  ∃ ts, scan code.toList = some ts ∧ Derives n ts t

/-! ## Levels

The levels between comparisons and sums have no operators here. -/

/-- The kind of expression that a level stands for. -/
def nonterminal : Precedence → Nonterminal
  | .any | .lambda | .conditional | .disjunction => .disjunction
  | .conjunction => .conjunction
  | .negation => .negation
  | .comparison => .comparison
  | .bitOr | .bitXor | .bitAnd | .shift | .sum => .sum
  | .product => .product
  | .sign => .sign
  | .power => .power
  | .member | .call => .primary
  | .atom => .atom

namespace Nonterminal

/-- The number of kinds that are looser. -/
def rank : Nonterminal → Nat
  | disjunction => 0
  | conjunction => 1
  | negation => 2
  | comparison => 3
  | sum => 4
  | product => 5
  | sign => 6
  | power => 7
  | primary => 8
  | atom => 9

theorem eq_atom_of_tighter?_eq_none {n : Nonterminal} (h : n.tighter? = none) : n = atom := by
  cases n with
  | atom => rfl
  | _ => cases h

theorem rank_of_tighter? {n m : Nonterminal} (h : n.tighter? = some m) : m.rank = n.rank + 1 := by
  cases n <;> cases h <;> rfl

theorem rank_le_atom (n : Nonterminal) : n.rank ≤ atom.rank := by cases n <;> decide

theorem rank_injective {n m : Nonterminal} (h : n.rank = m.rank) : n = m := by
  revert h
  cases n <;> cases m <;> decide

end Nonterminal

/-- **A tighter expression is also a looser one.** -/
theorem Derives.loosen {n m : Nonterminal} {ts : List Token} {t : Tree String}
    (h : Derives m ts t) (hle : n.rank ≤ m.rank) : Derives n ts t := by
  -- By induction on how many kinds lie between the two.
  generalize hgap : m.rank - n.rank = gap
  induction gap generalizing n with
  | zero =>
    obtain rfl : n = m := Nonterminal.rank_injective (by omega)
    exact h
  | succ gap ih =>
    cases htighter : n.tighter? with
    | none =>
      obtain rfl := Nonterminal.eq_atom_of_tighter?_eq_none htighter
      have hm := m.rank_le_atom
      omega
    | some k =>
      have hk := Nonterminal.rank_of_tighter? htighter
      exact .descend htighter (ih (by omega) (by omega))

/-- Two rows with a separator between them are one row. -/
theorem Separated.append {n : Nonterminal} {separator : Token} {us : List Token} {u : Tree String}
    {bs : List (Tree String)} (h' : Separated n separator us (u :: bs)) :
    ∀ {as : List (Tree String)} {ts : List Token} {t : Tree String},
      Separated n separator ts (t :: as) →
        Separated n separator (ts ++ separator :: us) (t :: as ++ u :: bs)
  | [], _, _, .single h => .cons h h'
  | v :: as, _, _, .cons h hrest => by
      rw [List.append_assoc, List.cons_append]
      exact .cons h (Separated.append h' hrest)

/-- A looser level stands for a kind that is no tighter. -/
theorem rank_nonterminal_le {p q : Precedence} (h : p.rank ≤ q.rank) :
    (nonterminal p).rank ≤ (nonterminal q).rank := by
  revert h
  cases p <;> cases q <;> decide

end Jigsaw.Source
