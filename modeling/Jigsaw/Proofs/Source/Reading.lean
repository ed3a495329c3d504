import Jigsaw.Proofs.Source.Grammar

/-!
# Proofs/Source/Reading — written expressions are read back

The code of an expression is one of the texts that the grammar gives to its tree.  Two things are
followed side by side through the printing: the tokens that the characters are cut into (`Scans`),
where the only care is about what comes next, and the derivation of those tokens from the
nonterminal of the expression's level.
-/

namespace Jigsaw

open Source

/-! ## The tree of an expression -/

namespace Expr

mutual

/-- What a reader makes of the code of an expression. -/
def tree : Expr → Tree String
  | name identifier => .name identifier
  | numeral value => .ofNumeral value
  | zero => .integer 0
  | text content => .text content
  | truth value => .truth value
  | none => .none
  | list items => .list (trees items)
  | collect element binder source => .collect element.tree binder source.tree
  | call function arguments => .call (.name function) (trees arguments)
  | method receiver selector arguments => .method receiver.tree selector (trees arguments)
  | item receiver index => .item receiver.tree index.tree
  | sliceFrom receiver start => .sliceFrom receiver.tree start.tree
  | sliceTo receiver stop => .sliceTo receiver.tree stop.tree
  | slice receiver start stop => .slice receiver.tree start.tree stop.tree
  | negate operand => .negate operand.tree
  | not operand => .not operand.tree
  | binary op left right => .operation op left.tree right.tree
  | letIn parameters arguments body => .call (.lambda parameters body.tree) (trees arguments)

/-- The trees of several expressions. -/
def trees : List Expr → List (Tree String)
  | [] => []
  | e :: rest => e.tree :: trees rest

end

/-- A text that may stand as a name. -/
def IsName (x : String) : Prop := Text.isIdentifier x ∧ x ∉ Name.keywords

/-- Every name of the expression may stand as one, and no method is called on a bare `0`. -/
inductive Proper : Expr → Prop
  | name {x : String} (hx : IsName x) : Proper (.name x)
  | numeral (value : Numeral) : Proper (.numeral value)
  | zero : Proper .zero
  | text (content : String) : Proper (.text content)
  | truth (value : Bool) : Proper (.truth value)
  | none : Proper .none
  | list {items : List Expr} (h : ∀ e ∈ items, Proper e) : Proper (.list items)
  | collect {element source : Expr} {binder : String} (he : Proper element)
      (hbinder : IsName binder) (hs : Proper source) : Proper (.collect element binder source)
  | call {function : String} {arguments : List Expr} (hf : IsName function)
      (h : ∀ e ∈ arguments, Proper e) : Proper (.call function arguments)
  | method {receiver : Expr} {selector : String} {arguments : List Expr} (hr : Proper receiver)
      (hzero : receiver ≠ .zero) (hs : IsName selector) (h : ∀ e ∈ arguments, Proper e) :
      Proper (.method receiver selector arguments)
  | item {receiver index : Expr} (hr : Proper receiver) (hi : Proper index) :
      Proper (.item receiver index)
  | sliceFrom {receiver start : Expr} (hr : Proper receiver) (hs : Proper start) :
      Proper (.sliceFrom receiver start)
  | sliceTo {receiver stop : Expr} (hr : Proper receiver) (hs : Proper stop) :
      Proper (.sliceTo receiver stop)
  | slice {receiver start stop : Expr} (hr : Proper receiver) (hs : Proper start)
      (ht : Proper stop) : Proper (.slice receiver start stop)
  | negate {operand : Expr} (h : Proper operand) : Proper (.negate operand)
  | not {operand : Expr} (h : Proper operand) : Proper (.not operand)
  | binary {op : BinaryOp} {left right : Expr} (hl : Proper left) (hr : Proper right) :
      Proper (.binary op left right)
  | letIn {parameters : List String} {arguments : List Expr} {body : Expr}
      (hp : ∀ x ∈ parameters, IsName x) (ha : ∀ e ∈ arguments, Proper e) (hb : Proper body) :
      Proper (.letIn parameters arguments body)

end Expr

namespace Source

/-! ## Texts that are cut into tokens -/

/-- The text is cut into these tokens in front of every rest that `after` admits. -/
def Scans (after : List Char → Prop) (code : String) (ts : List Token) : Prop :=
  ∀ rest, after rest → scan (code.toList ++ rest) = (scan rest).map (ts ++ ·)

/-- No condition on what comes next. -/
def anything : List Char → Prop := fun _ => True

namespace Scans

variable {after before : List Char → Prop} {s u : String} {ts us : List Token}

/-- Two texts in a row, where the second is admitted after the first. -/
theorem append (hs : Scans before s ts) (hu : Scans after u us)
    (h : ∀ rest, after rest → before (u.toList ++ rest)) : Scans after (s ++ u) (ts ++ us) := by
  intro rest hrest
  rw [String.toList_append, List.append_assoc, hs _ (h rest hrest), hu rest hrest, Option.map_map]
  congr 1
  funext vs
  exact (List.append_assoc ts us vs).symm

theorem anything_append (hs : Scans anything s ts) (hu : Scans after u us) :
    Scans after (s ++ u) (ts ++ us) := hs.append hu fun _ _ => trivial

/-- A text that starts with a closing character may follow everything. -/
theorem append_closer {point : Bool} (hs : Scans (Follows point) s ts) (hu : Scans after u us)
    (hopens : u.toList.head?.any (· ∈ closers)) : Scans after (s ++ u) (ts ++ us) :=
  hs.append hu fun rest _ => by
    cases hlist : u.toList with
    | nil => simp [hlist] at hopens
    | cons c cs =>
      rw [hlist] at hopens
      exact Follows.cons (by simpa using hopens) point _

theorem of_anything (h : Scans anything s ts) : Scans after s ts := fun rest _ => h rest trivial

theorem weaken {point : Bool} (h : Scans (Follows point) s ts) : Scans (Follows false) s ts :=
  fun rest hrest => h rest hrest.weaken

/-- What is cut into tokens in front of everything is so on its own. -/
theorem scan_eq {point : Bool} (h : Scans (Follows point) s ts) : scan s.toList = some ts := by
  have hnil := h [] (Follows.nil point)
  rw [List.append_nil, scan_nil] at hnil
  simpa using hnil

end Scans

/-! ### Fixed texts -/

theorem scans_mark {s : String} {c : Char} (hs : s.toList = [c]) (hc : c ∈ marks)
    (hstar : c ≠ '*') : Scans anything s [.mark s] := fun rest _ => by
  obtain rfl : String.singleton c = s := String.toList_injective (by simpa using hs.symm)
  simpa using scan_mark hc hstar rest

theorem scans_word {w : String} (hw : Text.isIdentifier w) : Scans (Follows true) w [.word w] :=
  fun _ hrest => scan_word hw hrest

/-- A word with a blank after it. -/
theorem scans_word_space {w : String} (hw : Text.isIdentifier w) :
    Scans anything (w ++ " ") [.word w] := fun rest _ => by
  have hword := scan_word hw (Follows.cons (by decide : ' ' ∈ closers) true rest)
  simpa using hword

theorem scans_space : Scans anything " " [] := fun rest _ => by simp

theorem scans_comma : Scans anything "," [.mark ","] :=
  scans_mark rfl (by decide : ',' ∈ marks) (by decide)

theorem scans_colon : Scans anything ":" [.mark ":"] :=
  scans_mark rfl (by decide : ':' ∈ marks) (by decide)

theorem scans_open : Scans anything "(" [.mark "("] :=
  scans_mark rfl (by decide : '(' ∈ marks) (by decide)

theorem scans_close : Scans anything ")" [.mark ")"] :=
  scans_mark rfl (by decide : ')' ∈ marks) (by decide)

theorem scans_openBracket : Scans anything "[" [.mark "["] :=
  scans_mark rfl (by decide : '[' ∈ marks) (by decide)

theorem scans_closeBracket : Scans anything "]" [.mark "]"] :=
  scans_mark rfl (by decide : ']' ∈ marks) (by decide)

theorem scans_minus : Scans anything "-" [.mark "-"] :=
  scans_mark rfl (by decide : '-' ∈ marks) (by decide)

/-- An operator stands between blanks, and what is between them is its token. -/
theorem scans_symbol (op : BinaryOp) : Scans anything op.symbol [opToken op] := fun rest _ => by
  obtain ⟨cs, hlist, hnext⟩ : ∃ cs, op.symbol.toList = ' ' :: (cs ++ [' ']) ∧
      next (cs ++ ' ' :: rest) = some (opToken op, ' ' :: rest) := by
    refine ⟨(op.symbol.toList.drop 1).dropLast, ?_, ?_⟩ <;> cases op <;> rfl
  rw [hlist, List.cons_append, scan_space, List.append_assoc, List.singleton_append,
    scan_of_next hnext, scan_space]
  rfl

/-! ### Numbers -/

theorem scans_natural (n : Nat) : Scans (Follows false) (toString n) [.integer n] :=
  fun rest hrest => by
    rw [Nat.toString_eq_ofList_toDigits, String.toList_ofList]
    exact scan_integer n hrest

theorem scans_magnitude (x : Binary64) : Scans (Follows true) x.text [.floating x.text] :=
  fun rest hrest => by
    obtain ⟨whole, part, power, heq, hparts⟩ := floatingParts_text x
    have hscan := scan_floating hparts hrest
    rw [← heq, String.ofList_toList] at hscan
    exact hscan

/-! ### Rows -/

/-- A parameter list. -/
theorem scans_parameters : ∀ {parameters : List String},
    (∀ x ∈ parameters, Text.isIdentifier x) →
      Scans (Follows true) (Text.joinItems parameters) (parameterTokens parameters)
  | [], _ => fun rest _ => by simp [Text.joinItems, Text.joinWith, parameterTokens]
  | [x], h => scans_word (h x List.mem_cons_self)
  | x :: y :: rest, h => by
      have hx := scans_word (h x List.mem_cons_self)
      have hrest := scans_parameters fun z hz => h z (List.mem_cons_of_mem x hz)
      have hcomma := hx.append_closer (scans_comma.anything_append scans_space) (by decide)
      exact hcomma.anything_append hrest

/-- The head of a lambda expression. -/
theorem scans_lambdaHead {parameters : List String} (h : ∀ x ∈ parameters, Text.isIdentifier x) :
    Scans anything (Expr.lambdaHead parameters)
      (.word "lambda" :: (parameterTokens parameters ++ [.mark ":"])) := by
  unfold Expr.lambdaHead
  have hcolon : Scans anything ": " [.mark ":"] := scans_colon.anything_append scans_space
  split
  · rename_i hempty
    obtain rfl := List.isEmpty_iff.mp hempty
    have hword := scans_word (by decide : Text.isIdentifier "lambda")
    exact hword.append_closer hcolon (by decide)
  · have hword := scans_word_space (by decide : Text.isIdentifier "lambda")
    have hparameters := (scans_parameters h).append_closer hcolon (by decide)
    have hhead := hword.anything_append hparameters
    rw [← String.append_assoc] at hhead
    exact hhead

end Source

namespace Expr

/-! ## Written expressions -/

/-- Whether a point may follow the code of the expression. -/
def takesPoint : Expr → Bool
  | zero => false
  | e => !e.precedence.needsParens .member

/-- **The code of the expression is these tokens, and they are an expression of its level with its
tree.**  At the level of a chain they are also a row of the chain's operands, so that a longer chain
can take them up. -/
structure Spelled (e : Expr) (ts : List Token) : Prop where
  scans : Scans (Follows e.takesPoint) e.code ts
  derives : Derives (nonterminal e.precedence) ts e.tree
  row : ∀ {op : BinaryOp} {n m : Nonterminal}, chainProduction op = some (n, m) →
    e.precedence = op.precedence →
      ∃ t rest, e.tree.operands op = t :: rest ∧ Separated m (opToken op) ts (t :: rest)

theorem rank_le_of_chainProduction {op : BinaryOp} {n m : Nonterminal}
    (hop : chainProduction op = some (n, m)) :
    op.precedence.rank ≤ Precedence.conjunction.rank := by
  cases op with
  | or => decide
  | and => decide
  | _ => cases hop

/-- An expression above the level of chains is no chain. -/
theorem Spelled.of_tight {e : Expr} {ts : List Token}
    (htight : Precedence.conjunction.needsParens e.precedence = true)
    (scans : Scans (Follows e.takesPoint) e.code ts)
    (derives : Derives (nonterminal e.precedence) ts e.tree) : Spelled e ts where
  scans := scans
  derives := derives
  row := fun {op} {n} {m} hop hp => by
    have hrank := rank_le_of_chainProduction hop
    rw [hp, Precedence.needsParens, decide_eq_true_iff] at htight
    omega

/-- The code in a place that asks for a level is an expression of that level, with the same tree. -/
theorem Spelled.placed {e : Expr} {ts : List Token} (h : Spelled e ts) (least : Precedence) :
    ∃ us, Scans (Follows (e.takesPoint || e.precedence.needsParens least)) (e.codeAt least) us ∧
      Derives (nonterminal least) us e.tree := by
  unfold codeAt Precedence.wrap
  split
  · have hinner := h.derives.loosen (n := .disjunction) (Nat.zero_le _)
    have hscans := (scans_open.anything_append h.scans).append_closer scans_close (by decide)
    refine ⟨_, hscans.of_anything, ?_⟩
    rw [List.append_assoc]
    exact (Derives.parens hinner).loosen (Nonterminal.rank_le_atom _)
  · rename_i hparens
    have hrank : least.rank ≤ e.precedence.rank := by
      simpa [Precedence.needsParens] using hparens
    refine ⟨ts, ?_, h.derives.loosen (rank_nonterminal_le hrank)⟩
    rw [Bool.not_eq_true] at hparens
    rw [hparens, Bool.or_false]
    exact h.scans

/-- …and a receiver other than `0` may be followed by a point. -/
theorem Spelled.receiver {e : Expr} {ts : List Token} (h : Spelled e ts) (hzero : e ≠ .zero) :
    ∃ us, Scans (Follows true) (e.codeAt .member) us ∧ Derives .primary us e.tree := by
  obtain ⟨us, hscans, hderives⟩ := h.placed .member
  have hpoint : (e.takesPoint || e.precedence.needsParens .member) = true := by
    cases e <;> first | exact absurd rfl hzero | simp [takesPoint]
  rw [hpoint] at hscans
  exact ⟨us, hscans, hderives⟩

/-- A tree that is no chain of an operator is its one operand. -/
theorem operands_tree_of_ne {e : Expr} {op : BinaryOp} (hne : e.precedence ≠ op.precedence) :
    e.tree.operands op = [e.tree] := by
  cases e with
  | binary op' left right =>
    have hop' : op' ≠ op := fun h => hne (by rw [h]; rfl)
    rw [tree, Tree.operation]
    split
    · rw [Tree.operands, if_neg hop']
    · rfl
  | numeral value =>
    cases value with
    | integer k => rw [tree, Tree.ofNumeral, Tree.ofInt]; split <;> rfl
    | floating negative x => rw [tree, Tree.ofNumeral]; split <;> rfl
  | _ => rfl

/-- The code of an operand of a chain is a row of the chain's operands. -/
theorem Spelled.placedRow {e : Expr} {ts : List Token} (h : Spelled e ts) {op : BinaryOp}
    {n m : Nonterminal} (hop : chainProduction op = some (n, m)) :
    ∃ us t rest, Scans (Follows false) (e.codeAt op.precedence) us ∧
      e.tree.operands op = t :: rest ∧ Separated m (opToken op) us (t :: rest) := by
  by_cases hp : e.precedence = op.precedence
  · obtain ⟨t, rest, htree, hrow⟩ := h.row hop hp
    have hcode : e.codeAt op.precedence = e.code := by
      simp [codeAt, Precedence.wrap, Precedence.needsParens, hp]
    exact ⟨ts, t, rest, hcode ▸ h.scans.weaken, htree, hrow⟩
  · -- No level lies between the chain's and the next, so both ask for the same parentheses.
    obtain ⟨us, hscans, hderives⟩ := h.placed op.precedence.tighter
    have hparens : e.precedence.needsParens op.precedence
        = e.precedence.needsParens op.precedence.tighter := by
      revert hp
      cases op <;> cases hop <;> cases e.precedence <;> decide
    have hcode : e.codeAt op.precedence = e.codeAt op.precedence.tighter := by
      rw [codeAt, codeAt, Precedence.wrap, Precedence.wrap, hparens]
    have hm : nonterminal op.precedence.tighter = m := by
      cases op <;> cases hop <;> rfl
    exact ⟨us, _, [], hcode ▸ hscans.weaken, operands_tree_of_ne hp, .single (hm ▸ hderives)⟩

/-- Where every expression may stand, the code stands as it is. -/
theorem Spelled.loose {e : Expr} {ts : List Token} (h : Spelled e ts) :
    Derives .disjunction ts e.tree := h.derives.loosen (Nat.zero_le _)

/-- The items of a list or the arguments of a call. -/
theorem spelled_items : ∀ {es : List Expr}, (∀ e ∈ es, ∃ ts, Spelled e ts) →
    ∃ ts, Scans (Follows false) (Text.joinItems (codes es)) ts ∧
      Separated .disjunction (.mark ",") ts (trees es)
  | [], _ => ⟨[], fun rest _ => by simp [codes, Text.joinItems, Text.joinWith], .nil _ _⟩
  | [e], h => by
      obtain ⟨ts, he⟩ := h e List.mem_cons_self
      exact ⟨ts, he.scans.weaken, .single he.loose⟩
  | e :: f :: rest, h => by
      obtain ⟨ts, he⟩ := h e List.mem_cons_self
      obtain ⟨us, hscans, hrest⟩ := spelled_items fun g hg => h g (List.mem_cons_of_mem e hg)
      have hcomma := he.scans.append_closer (scans_comma.anything_append scans_space) (by decide)
      refine ⟨ts ++ .mark "," :: us, ?_, .cons he.loose hrest⟩
      have hscans := hcomma.anything_append hscans
      rw [List.append_assoc] at hscans
      exact hscans

/-- The text of an integer is its digits, after a minus sign if it is negative. -/
theorem toString_int (k : Int) :
    toString k = if k < 0 then "-" ++ toString k.natAbs else toString k.natAbs := by
  cases k with
  | ofNat n => rfl
  | negSucc n => rw [if_pos (Int.negSucc_lt_zero n)]; rfl

/-- A number is its digits, or a sign and its digits. -/
theorem spelled_numeral (value : Numeral) : ∃ ts, Spelled (.numeral value) ts := by
  cases value with
  | integer k =>
    have hnatural := scans_natural k.natAbs
    by_cases hk : k < 0
    · have hp : (numeral (.integer k)).precedence = .sign := by
        simp [precedence, numeralPrecedence, Numeral.isNegative, hk]
      have hpoint : (numeral (.integer k)).takesPoint = false := by
        rw [takesPoint, hp] <;> simp [Precedence.needsParens, Precedence.rank]
      have hcode : (numeral (.integer k)).code = "-" ++ toString k.natAbs := by
        rw [code, Numeral.text, toString_int, if_pos hk]
      have htree : (numeral (.integer k)).tree = .negate (.integer k.natAbs) := by
        rw [tree, Tree.ofNumeral, Tree.ofInt, if_pos hk]
      refine ⟨[.mark "-", .integer k.natAbs], .of_tight (by rw [hp]; rfl) ?_ ?_⟩
      · rw [hpoint, hcode]
        exact scans_minus.anything_append hnatural
      · rw [hp, htree]
        exact .negate ((Derives.integer k.natAbs).loosen (by decide))
    · have hp : (numeral (.integer k)).precedence = .power := by
        simp [precedence, numeralPrecedence, Numeral.isNegative, hk]
      have hpoint : (numeral (.integer k)).takesPoint = false := by
        rw [takesPoint, hp] <;> simp [Precedence.needsParens, Precedence.rank]
      have hcode : (numeral (.integer k)).code = toString k.natAbs := by
        rw [code, Numeral.text, toString_int, if_neg hk]
      have htree : (numeral (.integer k)).tree = .integer k.natAbs := by
        rw [tree, Tree.ofNumeral, Tree.ofInt, if_neg hk]
      refine ⟨[.integer k.natAbs], .of_tight (by rw [hp]; rfl) ?_ ?_⟩
      · rw [hpoint, hcode]
        exact hnatural
      · rw [hp, htree]
        exact (Derives.integer k.natAbs).loosen (by decide)
  | floating negative x =>
    cases negative with
    | true =>
      refine ⟨[.mark "-", .floating x.text], .of_tight rfl ?_ ?_⟩
      · exact scans_minus.anything_append (scans_magnitude x).weaken
      · exact .negate ((Derives.floating x.text).loosen (by decide))
    | false =>
      exact ⟨[.floating x.text], .of_tight rfl (scans_magnitude x) (.floating x.text)⟩

/-- Arguments in round brackets, after a text that a bracket may follow. -/
theorem scans_call {function arguments : String} {fs ts : List Token}
    (hf : Scans (Follows true) function fs) (ha : Scans (Follows false) arguments ts) :
    Scans anything (function ++ "(" ++ arguments ++ ")")
      (fs ++ .mark "(" :: (ts ++ [.mark ")"])) := by
  have hopen := hf.append_closer scans_open (by decide)
  have hclose := (hopen.anything_append ha).append_closer scans_close (by decide)
  rw [List.append_assoc, List.append_assoc] at hclose
  exact hclose

/-- Operands of a chain and the operator between them. -/
theorem spelled_chain {op : BinaryOp} {n m : Nonterminal} (hop : chainProduction op = some (n, m))
    {left right : Expr} {ls rs : List Token} (hl : Spelled left ls) (hr : Spelled right rs) :
    ∃ ts, Spelled (.binary op left right) ts := by
  obtain ⟨us, t, as, hscansl, htreel, hrowl⟩ := hl.placedRow hop
  obtain ⟨vs, u, bs, hscansr, htreer, hrowr⟩ := hr.placedRow hop
  have hrow := hrowr.append hrowl
  have hscans := (hscansl.append_closer (scans_symbol op) (by cases op <;> decide)).anything_append
    hscansr
  rw [List.append_assoc] at hscans
  have hchain : op = .and ∨ op = .or := by cases op <;> cases hop <;> simp
  have htree : (Expr.binary op left right).tree = .chain op (t :: as ++ u :: bs) := by
    rw [tree, Tree.operation, if_pos hchain, htreel, htreer]
  refine ⟨us ++ opToken op :: vs, ?_, ?_, fun {op'} {n'} {m'} hop' hp => ?_⟩
  · rcases hchain with rfl | rfl <;> exact hscans
  · have hn : nonterminal op.precedence = n := by cases op <;> cases hop <;> rfl
    rw [htree]
    exact hn ▸ .chain hop (by simp; omega) hrow
  · obtain rfl : op' = op := by
      cases op' <;> cases hop' <;> cases op <;> cases hop <;> cases hp <;> rfl
    obtain ⟨rfl, rfl⟩ := Prod.mk.inj (Option.some.inj (hop'.symm.trans hop))
    exact ⟨t, as ++ u :: bs, by rw [htree, Tree.operands, if_pos rfl]; rfl, hrow⟩

/-- Two operands and an operator that forms no chains. -/
theorem spelled_binary {op : BinaryOp} (hop : chainProduction op = Option.none)
    {left right : Expr} {ls rs : List Token} (hl : Spelled left ls) (hr : Spelled right rs) :
    ∃ ts, Spelled (.binary op left right) ts := by
  obtain ⟨us, hscansl, hderivesl⟩ := hl.placed op.left
  obtain ⟨vs, hscansr, hderivesr⟩ := hr.placed op.right
  have hscans := (hscansl.append_closer (scans_symbol op) (by cases op <;> decide)).anything_append
    hscansr.weaken
  rw [List.append_assoc] at hscans
  have hproduction : production op
      = some (nonterminal op.precedence, nonterminal op.left, nonterminal op.right) := by
    cases op <;> cases hop <;> rfl
  have htree : (Expr.binary op left right).tree = .binary op left.tree right.tree := by
    rw [tree, Tree.operation, if_neg (by cases op <;> cases hop <;> simp)]
  have hpoint : (Expr.binary op left right).takesPoint = false := by cases op <;> rfl
  refine ⟨_, .of_tight ?_ (hpoint ▸ hscans) (htree ▸ .binary hproduction hderivesl hderivesr)⟩
  change Precedence.conjunction.needsParens op.precedence = true
  cases op <;> cases hop <;> rfl

/-- **The code of every proper expression is read back as its tree.**  By induction on the
expression; each operand is written at the level its place asks for. -/
theorem Proper.spelled {e : Expr} (h : e.Proper) : ∃ ts, Spelled e ts := by
  induction h with
  | @name x hx =>
    exact ⟨[.word x], .of_tight rfl (scans_word hx.1) (.name hx.2)⟩
  | numeral value => exact spelled_numeral value
  | zero => exact ⟨[.integer 0], .of_tight rfl (scans_natural 0) (.integer 0)⟩
  | text content =>
    refine ⟨[.text content], .of_tight rfl (fun rest _ => ?_) (.text content)⟩
    exact scan_quote content rest
  | truth value =>
    have hscans : Scans (Follows true) (if value then "True" else "False")
        [.word (if value then "True" else "False")] := by
      cases value <;> exact scans_word (by decide)
    refine ⟨_, .of_tight rfl hscans (.truth value)⟩
  | none => exact ⟨_, .of_tight rfl (scans_word (by decide)) .none⟩
  | list h ih =>
    obtain ⟨ts, hscans, hitems⟩ := spelled_items ih
    have hclosed := (scans_openBracket.anything_append hscans).append_closer scans_closeBracket
      (by decide)
    rw [List.append_assoc] at hclosed
    exact ⟨_, .of_tight rfl hclosed.of_anything (.list hitems)⟩
  | @collect element source binder he hbinder hs ihe ihs =>
    obtain ⟨es, he⟩ := ihe
    obtain ⟨ss, hs⟩ := ihs
    have hfor : Scans anything " for " [.word "for"] :=
      scans_space.anything_append (scans_word_space (by decide : Text.isIdentifier "for"))
    have helement := (scans_openBracket.anything_append he.scans).append_closer hfor (by decide)
    have hin := (helement.anything_append (scans_word hbinder.1)).append_closer
      (scans_symbol .within) (by decide)
    have hclosed := (hin.anything_append hs.scans).append_closer scans_closeBracket (by decide)
    simp only [List.append_assoc, List.cons_append, List.nil_append] at hclosed
    exact ⟨_, .of_tight rfl hclosed.of_anything (.collect he.loose hbinder.2 hs.loose)⟩
  | @call function arguments hf ha ih =>
    obtain ⟨ts, hscans, hitems⟩ := spelled_items ih
    have hcall := scans_call (scans_word hf.1) hscans
    exact ⟨_, .of_tight rfl hcall.of_anything (.call (.descend rfl (.name hf.2)) hitems)⟩
  | @method receiver selector arguments hr hzero hs ha ihr iha =>
    obtain ⟨us, hr⟩ := ihr
    obtain ⟨rs, hreceiver, hprimary⟩ := hr.receiver hzero
    obtain ⟨ts, hscans, hitems⟩ := spelled_items iha
    have hpoint : Scans anything (receiver.codeAt .member ++ ".") (rs ++ [.mark "."]) :=
      hreceiver.append (scans_mark rfl (by decide : '.' ∈ marks) (by decide)) fun rest _ =>
        Follows.point rest
    have hselected := hpoint.anything_append (scans_word hs.1)
    have hcall := scans_call hselected hscans
    simp only [List.append_assoc, List.cons_append, List.nil_append] at hcall
    exact ⟨_, .of_tight rfl hcall.of_anything (.method hprimary hs.2 hitems)⟩
  | item _ _ ihr ihi =>
    obtain ⟨_, hr⟩ := ihr
    obtain ⟨rs, hreceiver, hprimary⟩ := hr.placed .member
    obtain ⟨is, hi⟩ := ihi
    have hopen := hreceiver.append_closer scans_openBracket (by decide)
    have hclosed := (hopen.anything_append hi.scans).append_closer scans_closeBracket (by decide)
    simp only [List.append_assoc, List.cons_append, List.nil_append] at hclosed
    exact ⟨_, .of_tight rfl hclosed.of_anything (.item hprimary hi.loose)⟩
  | sliceFrom _ _ ihr ihs =>
    obtain ⟨_, hr⟩ := ihr
    obtain ⟨rs, hreceiver, hprimary⟩ := hr.placed .member
    obtain ⟨ss, hs⟩ := ihs
    have hopen := hreceiver.append_closer scans_openBracket (by decide)
    have hclosed := (hopen.anything_append hs.scans).append_closer
      (scans_colon.anything_append scans_closeBracket) (by decide)
    simp only [List.append_assoc, List.cons_append, List.nil_append] at hclosed
    exact ⟨_, .of_tight rfl hclosed.of_anything (.sliceFrom hprimary hs.loose)⟩
  | sliceTo _ _ ihr ihs =>
    obtain ⟨_, hr⟩ := ihr
    obtain ⟨rs, hreceiver, hprimary⟩ := hr.placed .member
    obtain ⟨ss, hs⟩ := ihs
    have hcolon := scans_openBracket.anything_append scans_colon
    have hopen := hreceiver.append_closer hcolon (by decide)
    have hclosed := (hopen.anything_append hs.scans).append_closer scans_closeBracket (by decide)
    simp only [List.append_assoc, List.cons_append, List.nil_append] at hclosed
    exact ⟨_, .of_tight rfl hclosed.of_anything (.sliceTo hprimary hs.loose)⟩
  | slice _ _ _ ihr ihs iht =>
    obtain ⟨_, hr⟩ := ihr
    obtain ⟨rs, hreceiver, hprimary⟩ := hr.placed .member
    obtain ⟨ss, hs⟩ := ihs
    obtain ⟨ts, ht⟩ := iht
    have hopen := hreceiver.append_closer scans_openBracket (by decide)
    have hcolon := (hopen.anything_append hs.scans).append_closer scans_colon (by decide)
    have hclosed := (hcolon.anything_append ht.scans).append_closer scans_closeBracket (by decide)
    simp only [List.append_assoc, List.cons_append, List.nil_append] at hclosed
    exact ⟨_, .of_tight rfl hclosed.of_anything (.slice hprimary hs.loose ht.loose)⟩
  | @negate operand h ih =>
    obtain ⟨ts, h⟩ := ih
    obtain ⟨us, hscans, hderives⟩ := h.placed .sign
    exact ⟨_, .of_tight rfl (scans_minus.anything_append hscans.weaken) (.negate hderives)⟩
  | @not operand h ih =>
    obtain ⟨ts, h⟩ := ih
    obtain ⟨us, hscans, hderives⟩ := h.placed .negation
    have hnot := scans_word_space (by decide : Text.isIdentifier "not")
    exact ⟨_, .of_tight rfl (hnot.anything_append hscans.weaken) (.not hderives)⟩
  | @binary op _ _ _ _ ihl ihr =>
    obtain ⟨_, hl⟩ := ihl
    obtain ⟨_, hr⟩ := ihr
    cases hop : chainProduction op with
    | some kinds => exact spelled_chain hop hl hr
    | none => exact spelled_binary hop hl hr
  | @letIn _ _ _ hp _ _ iha ihb =>
    obtain ⟨bs, hb⟩ := ihb
    obtain ⟨ts, hscans, hitems⟩ := spelled_items iha
    have hhead := scans_lambdaHead fun x hx => (hp x hx).1
    have hlambda := ((scans_open.anything_append hhead).anything_append hb.scans).append_closer
      scans_close (by decide)
    have hcall := scans_call hlambda.of_anything hscans
    have hfunction := Derives.lambda (fun x hx => (hp x hx).2) hb.loose
    have hderives := Derives.call (.descend rfl hfunction) hitems
    refine ⟨_, .of_tight rfl ?_ hderives⟩
    rw [code, show ")(" = ")" ++ "(" from rfl, ← String.append_assoc]
    simpa only [List.append_assoc, List.cons_append, List.nil_append] using hcall.of_anything

/-- **The code of an expression is an expression of its level, with its tree**, -/
theorem Proper.reads {e : Expr} (h : e.Proper) :
    Reads (nonterminal e.precedence) e.code e.tree := by
  obtain ⟨ts, hts⟩ := h.spelled
  exact ⟨ts, hts.scans.scan_eq, hts.derives⟩

/-- …and so it is, in parentheses where they are needed, in every place. -/
theorem Proper.reads_codeAt {e : Expr} (h : e.Proper) (least : Precedence) :
    Reads (nonterminal least) (e.codeAt least) e.tree := by
  obtain ⟨ts, hts⟩ := h.spelled
  obtain ⟨us, hscans, hderives⟩ := hts.placed least
  exact ⟨us, hscans.scan_eq, hderives⟩

end Expr

end Jigsaw
