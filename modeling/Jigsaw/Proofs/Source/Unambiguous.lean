import Jigsaw.Proofs.Source.Grammar

/-!
# Proofs/Source/Unambiguous — code is read in one way only

`parse` reads tokens from left to right, with one token of lookahead: an expression of a kind is one
of the next tighter kind, and then as many operators of its own as follow.  It finds every
derivation of the grammar (`found`), and a function has one answer; so tokens have one tree at most
(`Derives.unique`).  The steps that `parse` may take are counted, and `Settles` says that enough of
them give an answer.
-/

namespace Jigsaw.Source

namespace Parsing

/-! ## The reader -/

/-- A reader of tokens: what it made of them, and those left. -/
abbrev Parser (α : Type) := List Token → Option (α × List Token)

/-- All operators. -/
def operators : List BinaryOp :=
  [.or, .and, .less, .greater, .equal, .unequal, .within, .same, .add, .subtract, .multiply,
   .divide, .power]

/-- The operator of a token. -/
def operator? (token : Token) : Option BinaryOp := operators.find? fun op => opToken op = token

/-- The kind of expression that an operator makes. -/
def kindOf : BinaryOp → Nonterminal
  | .or => .disjunction
  | .and => .conjunction
  | .less | .greater | .equal | .unequal | .within | .same => .comparison
  | .add | .subtract => .sum
  | .multiply | .divide => .product
  | .power => .power

/-- The kind of expression that goes on with these tokens. -/
def continues? : List Token → Option Nonterminal
  | [] => none
  | token :: _ =>
    if token = .mark "(" ∨ token = .mark "[" ∨ token = .mark "." then some .primary
    else (operator? token).map kindOf

/-- The tokens after an expected one. -/
def expect (token : Token) : List Token → Option (List Token)
  | [] => none
  | head :: rest => if head = token then some rest else none

/-- Makes something of what was read before an expected token. -/
def closing {α β : Type} (close : Token) (make : α → β) (r : α × List Token) :
    Option (β × List Token) := (expect close r.2).map fun rest => (make r.1, rest)

/-- The items of a row, none or more, and the tokens after its end. -/
def enclosed (row : Parser (List (Tree String))) (close : Token) :
    Parser (List (Tree String)) := fun ts =>
  match expect close ts with
  | some rest => some ([], rest)
  | none => (row ts).bind (closing close id)

/-- A row that starts with an item, and goes on if a separator follows. -/
def startRow (row : Parser (List (Tree String))) (separator : Token)
    (r : Tree String × List Token) : Option (List (Tree String) × List Token) :=
  match expect separator r.2 with
  | some rest => (row rest).map fun s => (r.1 :: s.1, s.2)
  | none => some ([r.1], r.2)

/-- The parameters of a lambda expression, and the tokens after the colon. -/
def parameters : Parser (List String)
  | .mark ":" :: rest => some ([], rest)
  | .word x :: .mark ":" :: rest => some ([x], rest)
  | .word x :: .mark "," :: rest => (parameters rest).map fun r => (x :: r.1, r.2)
  | _ => none

/-- What is read after the first bound of an index or a slice. -/
def subscript (expr : Parser (Tree String)) (t start : Tree String) : Parser (Tree String)
  | .mark "]" :: rest => some (.item t start, rest)
  | .mark ":" :: .mark "]" :: rest => some (.sliceFrom t start, rest)
  | .mark ":" :: rest => (expr rest).bind (closing (.mark "]") fun stop => .slice t start stop)
  | _ => none

/-- What a call, a method, an index or a slice makes of a primary. -/
def suffix (expr : Parser (Tree String)) (row : Parser (List (Tree String))) (t : Tree String) :
    Parser (Tree String)
  | .mark "(" :: ts => (enclosed row (.mark ")") ts).map fun r => (.call t r.1, r.2)
  | .mark "." :: .word selector :: .mark "(" :: ts =>
    (enclosed row (.mark ")") ts).map fun r => (.method t selector r.1, r.2)
  | .mark "[" :: .mark ":" :: ts =>
    (expr ts).bind (closing (.mark "]") fun stop => .sliceTo t stop)
  | .mark "[" :: ts => (expr ts).bind fun r => subscript expr t r.1 r.2
  | _ => none

/-- What an operator with its right operands, or a suffix, makes of an expression. -/
def extend (expr : Nonterminal → Parser (Tree String))
    (row : Nonterminal → Token → Parser (List (Tree String))) (t : Tree String) :
    Parser (Tree String)
  | [] => none
  | token :: ts =>
    match operator? token with
    | none => suffix (expr .disjunction) (row .disjunction (.mark ",")) t (token :: ts)
    | some op =>
      match chainProduction op, production op with
      | some (_, m), _ => (row m token ts).map fun r => (.chain op (t :: r.1), r.2)
      | none, some (_, _, m) => (expr m ts).map fun r => (.binary op t r.1, r.2)
      | none, none => none

/-- What is read after the items of a list, or the element of a comprehension. -/
def display (expr : Parser (Tree String)) : List (Tree String) → Parser (Tree String)
  | [element], .word "for" :: .word binder :: .word "in" :: rest =>
    (expr rest).bind (closing (.mark "]") fun source => .collect element binder source)
  | items, rest => closing (.mark "]") (fun items => .list items) (items, rest)

/-- An atom. -/
def atom (expr : Parser (Tree String)) (row : Parser (List (Tree String))) :
    Parser (Tree String)
  | .integer value :: ts => some (.integer value, ts)
  | .floating literal :: ts => some (.floating literal, ts)
  | .text content :: ts => some (.text content, ts)
  | .word x :: ts =>
    if x = "True" then some (.truth true, ts)
    else if x = "False" then some (.truth false, ts)
    else if x = "None" then some (.none, ts)
    else some (.name x, ts)
  | .mark "(" :: .word "lambda" :: ts =>
    (parameters ts).bind fun r => (expr r.2).bind (closing (.mark ")") fun body => .lambda r.1 body)
  | .mark "(" :: ts => (expr ts).bind (closing (.mark ")") id)
  | .mark "[" :: .mark "]" :: ts => some (.list [], ts)
  | .mark "[" :: ts => (row ts).bind fun r => display expr r.1 r.2
  | _ => none

mutual

/-- Reads an expression of a kind. -/
def parse : Nat → Nonterminal → Parser (Tree String)
  | 0, _, _ => none
  | fuel + 1, .negation, .word "not" :: ts =>
    (parse fuel .negation ts).map fun r => (.not r.1, r.2)
  | fuel + 1, .sign, .mark "-" :: ts => (parse fuel .sign ts).map fun r => (.negate r.1, r.2)
  | fuel + 1, n, ts =>
    match n.tighter? with
    | some m => (parse fuel m ts).bind fun r => tail fuel n r.1 r.2
    | none => atom (parse fuel .disjunction) (row fuel .disjunction (.mark ",")) ts
termination_by structural fuel => fuel

/-- Reads on after an expression, as long as what follows belongs to its kind. -/
def tail : Nat → Nonterminal → Tree String → Parser (Tree String)
  | 0, _, _, _ => none
  | fuel + 1, n, t, ts =>
    if continues? ts = some n then
      (extend (parse fuel) (row fuel) t ts).bind fun r => tail fuel n r.1 r.2
    else some (t, ts)
termination_by structural fuel => fuel

/-- Reads expressions of a kind with a token between them. -/
def row : Nat → Nonterminal → Token → Parser (List (Tree String))
  | 0, _, _, _ => none
  | fuel + 1, n, separator, ts =>
    (parse fuel n ts).bind (startRow (row fuel n separator) separator)
termination_by structural fuel => fuel

end

/-! ## Enough steps -/

/-- With enough steps, the answer is this one. -/
def Settles {α : Type} (F : Nat → Option α) (a : α) : Prop :=
  ∃ k, ∀ fuel, k ≤ fuel → F fuel = some a

namespace Settles

variable {α β : Type} {F G : Nat → Option α} {a : α}

theorem const (a : α) : Settles (fun _ => some a) a := ⟨0, fun _ _ => rfl⟩

theorem congr (h : Settles F a) (hG : ∀ fuel, G fuel = F fuel) : Settles G a := by
  rwa [funext hG]

/-- An answer that takes one step more. -/
theorem step (h : Settles F a) (hG : ∀ fuel, G (fuel + 1) = F fuel) : Settles G a := by
  obtain ⟨k, hk⟩ := h
  refine ⟨k + 1, fun fuel hfuel => ?_⟩
  obtain ⟨fuel, rfl⟩ := Nat.exists_eq_add_of_le' (Nat.le_of_add_left_le hfuel)
  rw [hG]
  exact hk fuel (Nat.le_of_add_le_add_right hfuel)

theorem bind {H : Nat → α → Option β} {b : β} (h : Settles F a)
    (hH : Settles (fun fuel => H fuel a) b) : Settles (fun fuel => (F fuel).bind (H fuel)) b := by
  obtain ⟨k, hk⟩ := h
  obtain ⟨l, hl⟩ := hH
  refine ⟨max k l, fun fuel hfuel => ?_⟩
  obtain ⟨hkf, hlf⟩ := Nat.max_le.mp hfuel
  change (F fuel).bind (H fuel) = some b
  rw [hk fuel hkf]
  exact hl fuel hlf

/-- What was read before an expected token that is there. -/
theorem closing {F : Nat → Option (α × List Token)} {close : Token} {rest : List Token}
    (h : Settles F (a, close :: rest)) (make : α → β) :
    Settles (fun fuel => (F fuel).bind (closing close make)) (make a, rest) :=
  h.bind (H := fun _ => Parsing.closing close make) ⟨0, fun _ _ => by
    rw [Parsing.closing, expect, if_pos rfl]
    rfl⟩

theorem map {g : α → β} (h : Settles F a) : Settles (fun fuel => (F fuel).map g) (g a) := by
  obtain ⟨k, hk⟩ := h
  exact ⟨k, fun fuel hfuel => congrArg (Option.map g) (hk fuel hfuel)⟩

/-- There is one answer only. -/
theorem unique {b : α} (h : Settles F a) (h' : Settles F b) : a = b := by
  obtain ⟨k, hk⟩ := h
  obtain ⟨l, hl⟩ := h'
  exact Option.some.inj ((hk _ (Nat.le_max_left k l)).symm.trans (hl _ (Nat.le_max_right k l)))

end Settles

/-! ## What follows an expression -/

theorem operator?_opToken (op : BinaryOp) : operator? (opToken op) = some op := by
  cases op <;> rfl

theorem continues?_opToken (op : BinaryOp) (ts : List Token) :
    continues? (opToken op :: ts) = some (kindOf op) := by cases op <;> rfl

/-- Nothing of a kind, or of a tighter one, goes on with these tokens. -/
def Silent (n : Nonterminal) (ts : List Token) : Prop :=
  ∀ m, continues? ts = some m → m.rank < n.rank

/-- The kinds that read on after an expression of their own. -/
def leansLeft (n : Nonterminal) : Prop := n = .sum ∨ n = .product ∨ n = .primary

/-- Nothing of a tighter kind goes on with these tokens, and nothing of this kind unless it reads
from left to right. -/
def Quiet (n : Nonterminal) (ts : List Token) : Prop :=
  ∀ m, continues? ts = some m → m.rank < n.rank ∨ (m = n ∧ leansLeft n)

theorem Silent.quiet {n : Nonterminal} {ts : List Token} (h : Silent n ts) : Quiet n ts :=
  fun m hm => Or.inl (h m hm)

theorem silent_of_none {n : Nonterminal} {ts : List Token} (h : continues? ts = none) :
    Silent n ts := fun m hm => by rw [h] at hm; cases hm

/-- What is quiet for a kind is silent for the tighter ones. -/
theorem Quiet.silent {n m : Nonterminal} {ts : List Token} (h : Quiet n ts)
    (hlt : n.rank < m.rank) : Silent m ts := fun k hk => by
  rcases h k hk with hlt' | ⟨rfl, -⟩
  · omega
  · exact hlt

/-- After silence an expression is complete. -/
theorem settles_tail {n : Nonterminal} {ts : List Token} (h : Silent n ts) (t : Tree String) :
    Settles (fun fuel => tail fuel n t ts) (t, ts) := by
  have hne : continues? ts ≠ some n := fun heq => Nat.lt_irrefl _ (h n heq)
  exact (Settles.const (t, ts)).step fun fuel => by rw [tail, if_neg hne]

/-- What belongs to the kind is read on. -/
theorem settles_tail_extend {n : Nonterminal} {t u : Tree String} {ts rest : List Token}
    {r : Tree String × List Token} (hn : continues? ts = some n)
    (hextend : Settles (fun fuel => extend (parse fuel) (row fuel) t ts) (u, rest))
    (htail : Settles (fun fuel => tail fuel n u rest) r) :
    Settles (fun fuel => tail fuel n t ts) r :=
  (hextend.bind htail).step fun fuel => by rw [tail, if_pos hn]

/-! ## How expressions start -/

/-- The token may stand at the start of an expression of a kind. -/
structure Starts (n : Nonterminal) (token : Token) : Prop where
  inside : token ∉ [.mark ")", .mark "]", .mark ":", .word "lambda"]
  not : token = .word "not" → n.rank ≤ Nonterminal.negation.rank
  sign : token = .mark "-" → n.rank ≤ Nonterminal.sign.rank

theorem Starts.loosen {n m : Nonterminal} {token : Token} (h : Starts m token)
    (hle : n.rank ≤ m.rank) : Starts n token where
  inside := h.inside
  not := fun heq => Nat.le_trans hle (h.not heq)
  sign := fun heq => Nat.le_trans hle (h.sign heq)

theorem starts_of_ne {n : Nonterminal} {token : Token}
    (h : token ∉ [.mark ")", .mark "]", .mark ":", .word "lambda", .word "not", .mark "-"]) :
    Starts n token where
  inside := fun hmem => h (by simp only [List.mem_cons] at hmem ⊢; tauto)
  not := fun heq => absurd (by simp [heq]) h
  sign := fun heq => absurd (by simp [heq]) h

theorem starts_of_name {n : Nonterminal} {x : String} (hx : x ∉ Name.keywords) :
    Starts n (.word x) := by
  have hlambda : x ≠ "lambda" := fun heq => hx (heq ▸ by decide)
  have hnot : x ≠ "not" := fun heq => hx (heq ▸ by decide)
  exact starts_of_ne (by simp [hlambda, hnot])

/-- The tokens are some, and the first starts an expression of a kind. -/
def StartsAll (n : Nonterminal) (ts : List Token) : Prop :=
  ∃ token rest, ts = token :: rest ∧ Starts n token

theorem StartsAll.append {n : Nonterminal} {ts : List Token} (h : StartsAll n ts)
    (us : List Token) : StartsAll n (ts ++ us) := by
  obtain ⟨token, rest, rfl, hstarts⟩ := h
  exact ⟨token, rest ++ us, rfl, hstarts⟩

theorem StartsAll.loosen {n m : Nonterminal} {ts : List Token} (h : StartsAll m ts)
    (hle : n.rank ≤ m.rank) : StartsAll n ts := by
  obtain ⟨token, rest, rfl, hstarts⟩ := h
  exact ⟨token, rest, rfl, hstarts.loosen hle⟩

theorem rank_left_of_production {op : BinaryOp} {n l r : Nonterminal}
    (h : production op = some (n, l, r)) : n.rank ≤ l.rank := by
  cases op <;> cases h <;> decide

theorem rank_of_chainProduction {op : BinaryOp} {n m : Nonterminal}
    (h : chainProduction op = some (n, m)) : n.rank ≤ m.rank := by
  cases op <;> cases h <;> decide

mutual

/-- Every derivation starts so. -/
theorem startsAll : ∀ {n : Nonterminal} {ts : List Token} {t : Tree String},
    Derives n ts t → StartsAll n ts
  | _, _, _, .descend hm h =>
    (startsAll h).loosen (by rw [Nonterminal.rank_of_tighter? hm]; exact Nat.le_succ _)
  | _, _, _, .chain hop htwo h =>
    (startsAll_of_separated h (by rintro rfl; cases htwo)).loosen (rank_of_chainProduction hop)
  | _, _, _, .not _ => ⟨_, _, rfl, ⟨by decide, fun _ => Nat.le_refl _, nofun⟩⟩
  | _, _, _, .binary hop hl _ =>
    ((startsAll hl).loosen (rank_left_of_production hop)).append _
  | _, _, _, .negate _ => ⟨_, _, rfl, ⟨by decide, nofun, fun _ => Nat.le_refl _⟩⟩
  | _, _, _, .call hf _ => (startsAll hf).append _
  | _, _, _, .method hr _ _ => (startsAll hr).append _
  | _, _, _, .item hr _ => (startsAll hr).append _
  | _, _, _, .sliceFrom hr _ => (startsAll hr).append _
  | _, _, _, .sliceTo hr _ => (startsAll hr).append _
  | _, _, _, .slice hr _ _ => (startsAll hr).append _
  | _, _, _, .name hx => ⟨_, _, rfl, starts_of_name hx⟩
  | _, _, _, .integer _ => ⟨_, _, rfl, starts_of_ne (by simp)⟩
  | _, _, _, .floating _ => ⟨_, _, rfl, starts_of_ne (by simp)⟩
  | _, _, _, .text _ => ⟨_, _, rfl, starts_of_ne (by simp)⟩
  | _, _, _, .truth value => ⟨_, _, rfl, starts_of_ne (by cases value <;> decide)⟩
  | _, _, _, .none => ⟨_, _, rfl, starts_of_ne (by decide)⟩
  | _, _, _, .list _ => ⟨_, _, rfl, starts_of_ne (by decide)⟩
  | _, _, _, .collect _ _ _ => ⟨_, _, rfl, starts_of_ne (by decide)⟩
  | _, _, _, .parens _ => ⟨_, _, rfl, starts_of_ne (by decide)⟩
  | _, _, _, .lambda _ _ => ⟨_, _, rfl, starts_of_ne (by decide)⟩

theorem startsAll_of_separated : ∀ {n : Nonterminal} {separator : Token} {ts : List Token}
    {us : List (Tree String)}, Separated n separator ts us → us ≠ [] → StartsAll n ts
  | _, _, _, _, .nil _ _, hne => absurd rfl hne
  | _, _, _, _, .single h, _ => startsAll h
  | _, _, _, _, .cons h _, _ => (startsAll h).append _

end

/-! ## Equations of the reader -/

theorem kindOf_of_production {op : BinaryOp} {n l r : Nonterminal}
    (h : production op = some (n, l, r)) : kindOf op = n := by cases op <;> cases h <;> rfl

theorem kindOf_of_chainProduction {op : BinaryOp} {n m : Nonterminal}
    (h : chainProduction op = some (n, m)) : kindOf op = n := by cases op <;> cases h <;> rfl

section Equations

variable {expr : Nonterminal → Parser (Tree String)}
  {rows : Nonterminal → Token → Parser (List (Tree String))} {e : Parser (Tree String)}
  {w : Parser (List (Tree String))} {t : Tree String} {ts : List Token}

theorem extend_chain {op : BinaryOp} {n m : Nonterminal} (hop : chainProduction op = some (n, m)) :
    extend expr rows t (opToken op :: ts)
      = (rows m (opToken op) ts).map fun r => (.chain op (t :: r.1), r.2) := by
  rw [extend, operator?_opToken]
  dsimp only
  rw [hop]

theorem extend_binary {op : BinaryOp} {n l m : Nonterminal}
    (hop : production op = some (n, l, m)) :
    extend expr rows t (opToken op :: ts) = (expr m ts).map fun r => (.binary op t r.1, r.2) := by
  have hchain : chainProduction op = none := by cases op <;> cases hop <;> rfl
  rw [extend, operator?_opToken]
  dsimp only
  rw [hchain, hop]

/-- An index or a slice whose first bound is there. -/
theorem suffix_bracket {n : Nonterminal} (hts : StartsAll n ts) :
    suffix e w t (.mark "[" :: ts) = (e ts).bind fun r => subscript e t r.1 r.2 := by
  obtain ⟨token, rest, rfl, hstarts⟩ := hts
  have hcolon : token ≠ .mark ":" := fun heq => hstarts.inside (by simp [heq])
  rw [suffix]
  exact fun _ heq => hcolon (List.cons.inj heq).1

/-- A slice whose second bound is there too. -/
theorem subscript_colon {n : Nonterminal} {start : Tree String} (hts : StartsAll n ts) :
    subscript e t start (.mark ":" :: ts)
      = (e ts).bind (closing (.mark "]") fun stop => .slice t start stop) := by
  obtain ⟨token, rest, rfl, hstarts⟩ := hts
  have hclose : token ≠ .mark "]" := fun heq => hstarts.inside (by simp [heq])
  rw [subscript]
  exact fun _ heq => hclose (List.cons.inj heq).1

theorem atom_parens {n : Nonterminal} (hts : StartsAll n ts) :
    atom e w (.mark "(" :: ts)
      = (e ts).bind (closing (.mark ")") id) := by
  obtain ⟨token, rest, rfl, hstarts⟩ := hts
  have hlambda : token ≠ .word "lambda" := fun heq => hstarts.inside (by simp [heq])
  rw [atom]
  exact fun _ heq => hlambda (List.cons.inj heq).1

theorem atom_bracket {n : Nonterminal} (hts : StartsAll n ts) :
    atom e w (.mark "[" :: ts) = (w ts).bind fun r => display e r.1 r.2 := by
  obtain ⟨token, rest, rfl, hstarts⟩ := hts
  have hclose : token ≠ .mark "]" := fun heq => hstarts.inside (by simp [heq])
  rw [atom]
  exact fun _ heq => hclose (List.cons.inj heq).1

theorem display_close (items : List (Tree String)) :
    display e items (.mark "]" :: ts) = some (.list items, ts) := by
  rw [display, closing, expect, if_pos rfl]
  · rfl
  · exact fun _ _ _ _ heq => by cases heq

theorem expect_of_startsAll {n : Nonterminal} (hts : StartsAll n ts) :
    expect (.mark ")") ts = none := by
  obtain ⟨token, rest, rfl, hstarts⟩ := hts
  rw [expect, if_neg fun heq => hstarts.inside (by simp [heq])]

theorem expect_self (token : Token) (ts : List Token) : expect token (token :: ts) = some ts :=
  if_pos rfl

theorem parameters_parameterTokens : ∀ xs : List String,
    parameters (parameterTokens xs ++ .mark ":" :: ts) = some (xs, ts)
  | [] => by rw [parameterTokens, List.nil_append, parameters]
  | [x] => by rw [parameterTokens, List.singleton_append, parameters]
  | x :: y :: rest => by
      have hrest := parameters_parameterTokens (y :: rest)
      rw [parameterTokens, List.cons_append, List.cons_append, parameters, hrest]
      · rfl
      · simp

end Equations

/-! ## Every derivation is found -/

/-- An expression is read by way of the next tighter kind. -/
theorem settles_parse {n m : Nonterminal} (hm : n.tighter? = some m) {ts rest : List Token}
    {t : Tree String} {r : Tree String × List Token} (hts : StartsAll m ts)
    (hparse : Settles (fun fuel => parse fuel m ts) (t, rest))
    (htail : Settles (fun fuel => tail fuel n t rest) r) :
    Settles (fun fuel => parse fuel n ts) r := by
  obtain ⟨token, us, rfl, hstarts⟩ := hts
  have hrank := Nonterminal.rank_of_tighter? hm
  refine (hparse.bind (H := fun fuel r => tail fuel n r.1 r.2) htail).step fun fuel => ?_
  rw [parse, hm]
  · rintro _ rfl heq
    have hnot := hstarts.not (List.cons.inj heq).1
    omega
  · rintro _ rfl heq
    have hsign := hstarts.sign (List.cons.inj heq).1
    omega

/-- The reader finds the derivation, and reads on as it would from the tree. -/
def Found (n : Nonterminal) (ts : List Token) (t : Tree String) : Prop :=
  ∀ (rest : List Token) (r : Tree String × List Token), Quiet n rest →
    Settles (fun fuel => tail fuel n t rest) r → Settles (fun fuel => parse fuel n (ts ++ rest)) r

/-- The reader finds the row. -/
def FoundRow (n : Nonterminal) (separator : Token) (ts : List Token) (us : List (Tree String)) :
    Prop :=
  ∀ rest : List Token, us ≠ [] → (∀ more, Silent n (separator :: more)) → Silent n rest →
    expect separator rest = none →
      Settles (fun fuel => row fuel n separator (ts ++ rest)) (us, rest)

theorem Found.silent {n : Nonterminal} {ts rest : List Token} {t : Tree String}
    (h : Found n ts t) (hrest : Silent n rest) :
    Settles (fun fuel => parse fuel n (ts ++ rest)) (t, rest) :=
  h rest (t, rest) hrest.quiet (settles_tail hrest t)

/-- A kind that does not lean to the left has nothing to read on for. -/
theorem found_of_silent {n : Nonterminal} {ts : List Token} {t : Tree String}
    (hn : ¬ leansLeft n)
    (h : ∀ rest, Silent n rest → Settles (fun fuel => parse fuel n (ts ++ rest)) (t, rest)) :
    Found n ts t := fun rest r hquiet htail => by
  have hsilent : Silent n rest := fun m hm => (hquiet m hm).resolve_right fun hmn => hn hmn.2
  rw [htail.unique (settles_tail hsilent t)]
  exact h rest hsilent

/-- An atom is read at once. -/
theorem found_atom {ts : List Token} {t : Tree String}
    (h : ∀ rest, Settles (fun fuel => atom (parse fuel .disjunction)
      (row fuel .disjunction (.mark ",")) (ts ++ rest)) (t, rest)) : Found .atom ts t :=
  found_of_silent (by unfold leansLeft; decide) fun rest _ =>
    (h rest).step fun fuel => by
      rw [parse]
      · rfl
      · exact nofun
      · exact nofun

theorem silent_comma (n : Nonterminal) (ts : List Token) : Silent n (.mark "," :: ts) :=
  silent_of_none rfl

/-- The arguments of a call. -/
theorem settles_enclosed {ts rest : List Token} {us : List (Tree String)}
    (hus : Separated .disjunction (.mark ",") ts us)
    (h : FoundRow .disjunction (.mark ",") ts us) :
    Settles (fun fuel => enclosed (row fuel .disjunction (.mark ",")) (.mark ")")
      (ts ++ .mark ")" :: rest)) (us, rest) := by
  cases us with
  | nil =>
    cases hus
    exact ⟨0, fun _ _ => rfl⟩
  | cons u us =>
    have hstarts := (startsAll_of_separated hus (List.cons_ne_nil u us)).append (.mark ")" :: rest)
    have hrow := h (.mark ")" :: rest) (List.cons_ne_nil u us) (silent_comma _)
      (silent_of_none rfl) rfl
    exact (hrow.closing id).congr fun fuel => by rw [enclosed, expect_of_startsAll hstarts]

/-- A suffix of a primary. -/
theorem found_suffix {rs ss : List Token} {token : Token} {t u : Tree String}
    (hr : Found .primary rs t) (htoken : ∀ ts, continues? (token :: ts) = some .primary)
    (hop : operator? token = none)
    (hsuffix : ∀ rest, Settles (fun fuel => suffix (parse fuel .disjunction)
      (row fuel .disjunction (.mark ",")) t (token :: (ss ++ rest))) (u, rest)) :
    Found .primary (rs ++ token :: ss) u := fun rest r _ htail => by
  rw [List.append_assoc, List.cons_append]
  refine hr _ _ (fun m hm => Or.inr ⟨?_, by simp [leansLeft]⟩) ?_
  · exact Option.some.inj (hm.symm.trans (htoken _))
  · refine settles_tail_extend (htoken _) ((hsuffix rest).congr fun fuel => ?_) htail
    rw [extend, hop]

/-- A row of operands of `and` or of `or`. -/
theorem found_chain {op : BinaryOp} {n m : Nonterminal} (hop : chainProduction op = some (n, m))
    {ts us : List Token} {t u : Tree String} {operands : List (Tree String)}
    (hts : StartsAll m ts) (h : Found m ts t)
    (hrest : FoundRow m (opToken op) us (u :: operands)) :
    Found n (ts ++ opToken op :: us) (.chain op (t :: u :: operands)) := by
  have htighter : n.tighter? = some m := by cases op <;> cases hop <;> rfl
  have hlt : n.rank < m.rank := by rw [Nonterminal.rank_of_tighter? htighter]; omega
  have hkind (more : List Token) : continues? (opToken op :: more) = some n := by
    rw [continues?_opToken, kindOf_of_chainProduction hop]
  have hseparator (more : List Token) : Silent m (opToken op :: more) := fun k hk => by
    rw [hkind] at hk
    exact Option.some.inj hk ▸ hlt
  have hleft : ¬ leansLeft n := by
    unfold leansLeft
    cases op <;> cases hop <;> decide
  refine found_of_silent hleft fun rest hsilent => ?_
  have hexpect : expect (opToken op) rest = none := by
    cases rest with
    | nil => rfl
    | cons token more =>
      rw [expect, if_neg]
      rintro rfl
      exact Nat.lt_irrefl _ (hsilent n (hkind more))
  have hrow := hrest rest (List.cons_ne_nil u operands) hseparator
    (fun k hk => Nat.lt_trans (hsilent k hk) hlt) hexpect
  rw [List.append_assoc, List.cons_append]
  refine settles_parse htighter (hts.append _) (h.silent (hseparator _)) ?_
  exact settles_tail_extend (hkind _) (hrow.map.congr fun _ => extend_chain hop)
    (settles_tail hsilent _)

/-- What is quiet for an operation is silent for its right operand. -/
theorem silent_right {op : BinaryOp} {n l r : Nonterminal} (hop : production op = some (n, l, r))
    {rest : List Token} (h : Quiet n rest) : Silent r rest := fun m hm => by
  -- No operator makes a signed expression, the kind of an exponent.
  have hsign : m ≠ .sign := by
    unfold continues? at hm
    split at hm
    · cases hm
    · split at hm
      · cases hm
        decide
      · obtain ⟨op', -, rfl⟩ := Option.map_eq_some_iff.mp hm
        cases op' <;> decide
  have hrank : m.rank ≠ Nonterminal.sign.rank := fun heq => hsign (Nonterminal.rank_injective heq)
  rcases h m hm with hlt | ⟨rfl, hleft⟩
  · have hnr : n.rank ≤ r.rank + 1 := by cases op <;> cases hop <;> decide
    have hpower : n.rank = r.rank + 1 → r = .sign := by cases op <;> cases hop <;> decide
    by_cases heq : n.rank = r.rank + 1
    · obtain rfl := hpower heq
      omega
    · omega
  · rcases hleft with rfl | rfl | rfl
    · cases op <;> cases hop <;> decide
    · cases op <;> cases hop <;> decide
    · cases op <;> cases hop

/-- An operation on two operands. -/
theorem found_binary {op : BinaryOp} {n l r : Nonterminal} (hop : production op = some (n, l, r))
    {ls rs : List Token} {t u : Tree String} (hls : StartsAll l ls) (hl : Found l ls t)
    (hr : Found r rs u) : Found n (ls ++ opToken op :: rs) (.binary op t u) := by
  intro rest result hquiet htail
  have hkind (more : List Token) : continues? (opToken op :: more) = some n := by
    rw [continues?_opToken, kindOf_of_production hop]
  have hleft : (l = n ∧ leansLeft n) ∨ n.tighter? = some l := by
    unfold leansLeft
    cases op <;> cases hop <;> decide
  have hright := hr.silent (silent_right hop hquiet)
  have hread := settles_tail_extend (hkind _) (hright.map.congr fun _ => extend_binary hop) htail
  rw [List.append_assoc, List.cons_append]
  rcases hleft with ⟨rfl, hleans⟩ | htighter
  · refine hl _ _ (fun m hm => Or.inr ⟨?_, hleans⟩) hread
    exact Option.some.inj (hm.symm.trans (hkind _))
  · refine settles_parse htighter (hls.append _) (hl.silent fun m hm => ?_) hread
    rw [← Option.some.inj (hm.symm.trans (hkind _)).symm, Nonterminal.rank_of_tighter? htighter]
    exact Nat.lt_succ_self _

theorem found_not {ts : List Token} {t : Tree String} (h : Found .negation ts t) :
    Found .negation (.word "not" :: ts) (.not t) :=
  found_of_silent (by unfold leansLeft; decide) fun _ hsilent =>
    ((h.silent hsilent).map (g := fun r => (Tree.not r.1, r.2))).step fun fuel => by
      rw [List.cons_append, parse]

theorem found_negate {ts : List Token} {t : Tree String} (h : Found .sign ts t) :
    Found .sign (.mark "-" :: ts) (.negate t) :=
  found_of_silent (by unfold leansLeft; decide) fun _ hsilent =>
    ((h.silent hsilent).map (g := fun r => (Tree.negate r.1, r.2))).step fun fuel => by
      rw [List.cons_append, parse]

/-- No expression goes on with a token that ends it inside brackets. -/
theorem silent_close (n : Nonterminal) (token : Token) (ts : List Token)
    (h : token ∈ [.mark ")", .mark "]", .mark ":", .word "for"]) : Silent n (token :: ts) := by
  refine silent_of_none ?_
  simp only [List.mem_cons, List.not_mem_nil, or_false] at h
  rcases h with rfl | rfl | rfl | rfl
  · rfl
  · rfl
  · rfl
  · rfl

/-- A name, which is none of the words for literals. -/
theorem found_name {x : String} (hx : x ∉ Name.keywords) : Found .atom [.word x] (.name x) :=
  found_atom fun rest => by
    have htrue : x ≠ "True" := fun heq => hx (heq ▸ by decide)
    have hfalse : x ≠ "False" := fun heq => hx (heq ▸ by decide)
    have hnone : x ≠ "None" := fun heq => hx (heq ▸ by decide)
    refine (Settles.const (Tree.name x, rest)).congr fun fuel => ?_
    rw [List.singleton_append, atom, if_neg htrue, if_neg hfalse, if_neg hnone]

section Brackets

variable {ts us rs : List Token} {r t u : Tree String} {arguments : List (Tree String)}

theorem found_call {fs : List Token} {f : Tree String} (hf : Found .primary fs f)
    (hseparated : Separated .disjunction (.mark ",") ts arguments)
    (h : FoundRow .disjunction (.mark ",") ts arguments) :
    Found .primary (fs ++ .mark "(" :: (ts ++ [.mark ")"])) (.call f arguments) :=
  found_suffix hf (fun _ => rfl) rfl fun rest => by
    rw [List.append_assoc]
    exact (settles_enclosed hseparated h).map (g := fun r => (Tree.call f r.1, r.2))

theorem found_method {selector : String} (hr : Found .primary rs r)
    (hseparated : Separated .disjunction (.mark ",") ts arguments)
    (h : FoundRow .disjunction (.mark ",") ts arguments) :
    Found .primary (rs ++ .mark "." :: .word selector :: .mark "(" :: (ts ++ [.mark ")"]))
      (.method r selector arguments) :=
  found_suffix hr (fun _ => rfl) rfl fun rest => by
    rw [List.cons_append, List.cons_append, List.append_assoc]
    exact (settles_enclosed hseparated h).map (g := fun x => (Tree.method r selector x.1, x.2))

theorem found_item (hr : Found .primary rs r) (hts : StartsAll .disjunction ts)
    (h : Found .disjunction ts t) :
    Found .primary (rs ++ .mark "[" :: (ts ++ [.mark "]"])) (.item r t) :=
  found_suffix hr (fun _ => rfl) rfl fun rest => by
    rw [List.append_assoc]
    refine Settles.congr ?_ fun fuel => suffix_bracket (hts.append _)
    exact (h.silent (silent_close _ _ _ (by decide))).bind ⟨0, fun _ _ => rfl⟩

theorem found_sliceFrom (hr : Found .primary rs r) (hts : StartsAll .disjunction ts)
    (h : Found .disjunction ts t) :
    Found .primary (rs ++ .mark "[" :: (ts ++ [.mark ":", .mark "]"])) (.sliceFrom r t) :=
  found_suffix hr (fun _ => rfl) rfl fun rest => by
    rw [List.append_assoc]
    refine Settles.congr ?_ fun fuel => suffix_bracket (hts.append _)
    exact (h.silent (silent_close _ _ _ (by decide))).bind ⟨0, fun _ _ => rfl⟩

theorem found_sliceTo (hr : Found .primary rs r) (h : Found .disjunction ts t) :
    Found .primary (rs ++ .mark "[" :: .mark ":" :: (ts ++ [.mark "]"])) (.sliceTo r t) :=
  found_suffix hr (fun _ => rfl) rfl fun rest => by
    rw [List.cons_append, List.append_assoc]
    exact (h.silent (silent_close _ _ _ (by decide))).closing fun stop => Tree.sliceTo r stop

theorem found_slice (hr : Found .primary rs r) (hts : StartsAll .disjunction ts)
    (ht : Found .disjunction ts t) (hus : StartsAll .disjunction us)
    (hu : Found .disjunction us u) :
    Found .primary (rs ++ .mark "[" :: (ts ++ .mark ":" :: (us ++ [.mark "]"]))) (.slice r t u) :=
  found_suffix hr (fun _ => rfl) rfl fun rest => by
    have hstop := (hu.silent (silent_close _ (.mark "]") rest (by decide))).closing
      fun stop => Tree.slice r t stop
    rw [List.append_assoc, List.cons_append, List.append_assoc]
    refine Settles.congr ?_ fun fuel => suffix_bracket (hts.append _)
    exact (ht.silent (silent_close _ _ _ (by decide))).bind
      (hstop.congr fun fuel => subscript_colon (hus.append _))

theorem found_list {items : List (Tree String)}
    (hseparated : Separated .disjunction (.mark ",") ts items)
    (h : FoundRow .disjunction (.mark ",") ts items) :
    Found .atom (.mark "[" :: (ts ++ [.mark "]"])) (.list items) := found_atom fun rest => by
  rw [List.cons_append, List.append_assoc]
  cases items with
  | nil =>
    cases hseparated
    exact .const _
  | cons u us =>
    have hne := List.cons_ne_nil u us
    have hstarts := startsAll_of_separated hseparated hne
    have hrow := h (.mark "]" :: rest) hne (silent_comma _) (silent_close _ _ _ (by decide)) rfl
    refine Settles.congr ?_ fun fuel => atom_bracket (hstarts.append _)
    exact hrow.bind ⟨0, fun _ _ => display_close _⟩

theorem found_parens (hts : StartsAll .disjunction ts) (h : Found .disjunction ts t) :
    Found .atom (.mark "(" :: (ts ++ [.mark ")"])) t := found_atom fun rest => by
  rw [List.cons_append, List.append_assoc]
  refine Settles.congr ?_ fun fuel => atom_parens (hts.append _)
  exact (h.silent (silent_close _ (.mark ")") rest (by decide))).closing id

theorem found_lambda {parameters : List String} {body : Tree String}
    (h : Found .disjunction ts body) :
    Found .atom
      (.mark "(" :: .word "lambda" ::
        (parameterTokens parameters ++ .mark ":" :: (ts ++ [.mark ")"])))
      (.lambda parameters body) := found_atom fun rest => by
  have hbody := (h.silent (silent_close _ (.mark ")") rest (by decide))).closing
    fun body => Tree.lambda parameters body
  refine hbody.congr fun fuel => ?_
  rw [List.cons_append, List.cons_append, List.append_assoc, List.cons_append, List.append_assoc,
    atom, parameters_parameterTokens]
  rfl

end Brackets

/-! ### Rows -/

theorem settles_row {n : Nonterminal} {separator : Token} {ts rest : List Token}
    {t : Tree String} {r : List (Tree String) × List Token}
    (h : Settles (fun fuel => parse fuel n ts) (t, rest))
    (hrow : Settles (fun fuel => startRow (row fuel n separator) separator (t, rest)) r) :
    Settles (fun fuel => row fuel n separator ts) r :=
  (h.bind (H := fun fuel => startRow (row fuel n separator) separator) hrow).step fun _ => by
    rw [row]

theorem foundRow_single {n : Nonterminal} {separator : Token} {ts : List Token} {t : Tree String}
    (h : Found n ts t) : FoundRow n separator ts [t] := fun rest _ _ hsilent hexpect =>
  settles_row (h.silent hsilent) ⟨0, fun fuel _ => by simp only [startRow, hexpect]⟩

theorem foundRow_cons {n : Nonterminal} {separator : Token} {ts us : List Token}
    {t u : Tree String} {items : List (Tree String)} (h : Found n ts t)
    (hitems : FoundRow n separator us (u :: items)) :
    FoundRow n separator (ts ++ separator :: us) (t :: u :: items) :=
  fun rest _ hseparator hsilent hexpect => by
    have hrow := hitems rest (List.cons_ne_nil u items) hseparator hsilent hexpect
    rw [List.append_assoc, List.cons_append]
    refine settles_row (h.silent (hseparator _)) ((hrow.map (g := fun s => (t :: s.1, s.2))).congr
      fun fuel => ?_)
    rw [startRow, expect_self]

theorem found_collect {es ss : List Token} {element source : Tree String} {binder : String}
    (hes : StartsAll .disjunction es) (he : Found .disjunction es element)
    (hs : Found .disjunction ss source) :
    Found .atom
      (.mark "[" :: (es ++ .word "for" :: .word binder :: .word "in" :: (ss ++ [.mark "]"])))
      (.collect element binder source) := found_atom fun rest => by
  have hsource := (hs.silent (silent_close _ (.mark "]") rest (by decide))).closing
    fun source => Tree.collect element binder source
  have hrow : FoundRow .disjunction (.mark ",") es [element] := foundRow_single he
  have helement := hrow (.word "for" :: .word binder :: .word "in" :: (ss ++ .mark "]" :: rest))
    (List.cons_ne_nil _ _) (silent_comma _) (silent_close _ _ _ (by decide)) rfl
  rw [List.cons_append, List.append_assoc]
  refine Settles.congr ?_ fun fuel => atom_bracket (hes.append _)
  rw [List.cons_append, List.cons_append, List.cons_append, List.append_assoc]
  exact helement.bind (hsource.congr fun fuel => by rw [display])

mutual

/-- **Every derivation is found.** -/
theorem found : ∀ {n : Nonterminal} {ts : List Token} {t : Tree String},
    Derives n ts t → Found n ts t
  | _, _, _, .descend hm h => fun _ _ hquiet htail =>
    settles_parse hm ((startsAll h).append _)
      ((found h).silent (hquiet.silent (by rw [Nonterminal.rank_of_tighter? hm]; omega))) htail
  | _, _, _, .chain hop _ (.cons h hrest) =>
    found_chain hop (startsAll h) (found h) (foundRow hrest)
  | _, _, _, .not h => found_not (found h)
  | _, _, _, .binary hop hl hr => found_binary hop (startsAll hl) (found hl) (found hr)
  | _, _, _, .negate h => found_negate (found h)
  | _, _, _, .call hf h => found_call (found hf) h (foundRow h)
  | _, _, _, .method hr _ h => found_method (found hr) h (foundRow h)
  | _, _, _, .item hr h => found_item (found hr) (startsAll h) (found h)
  | _, _, _, .sliceFrom hr h => found_sliceFrom (found hr) (startsAll h) (found h)
  | _, _, _, .sliceTo hr h => found_sliceTo (found hr) (found h)
  | _, _, _, .slice hr ht hu =>
    found_slice (found hr) (startsAll ht) (found ht) (startsAll hu) (found hu)
  | _, _, _, .name hx => found_name hx
  | _, _, _, .integer _ => found_atom fun _ => .const _
  | _, _, _, .floating _ => found_atom fun _ => .const _
  | _, _, _, .text _ => found_atom fun _ => .const _
  | _, _, _, .truth value => found_atom fun _ => by cases value <;> exact .const _
  | _, _, _, .none => found_atom fun _ => .const _
  | _, _, _, .list h => found_list h (foundRow h)
  | _, _, _, .collect he _ hs => found_collect (startsAll he) (found he) (found hs)
  | _, _, _, .parens h => found_parens (startsAll h) (found h)
  | _, _, _, .lambda _ h => found_lambda (found h)

/-- …and so is every row. -/
theorem foundRow : ∀ {n : Nonterminal} {separator : Token} {ts : List Token}
    {us : List (Tree String)}, Separated n separator ts us → FoundRow n separator ts us
  | _, _, _, _, .nil _ _ => fun _ hne => absurd rfl hne
  | _, _, _, _, .single h => foundRow_single (found h)
  | _, _, _, _, .cons h hrest => foundRow_cons (found h) (foundRow hrest)

end

end Parsing

/-! ## One tree at most -/

/-- **The grammar is unambiguous**: tokens have one tree at most, whatever the kind. -/
theorem Derives.unique {n m : Nonterminal} {ts : List Token} {t u : Tree String}
    (ht : Derives n ts t) (hu : Derives m ts u) : t = u := by
  have hfound {n : Nonterminal} {t : Tree String} (h : Derives n ts t) :
      Parsing.Settles (fun fuel => Parsing.parse fuel .disjunction (ts ++ [])) (t, []) :=
    (Parsing.found (h.loosen (Nat.zero_le _))).silent (Parsing.silent_of_none rfl)
  exact congrArg Prod.fst ((hfound ht).unique (hfound hu))

/-- **Code is read in one way only.** -/
theorem Reads.unique {n m : Nonterminal} {code : String} {t u : Tree String}
    (ht : Reads n code t) (hu : Reads m code u) : t = u := by
  obtain ⟨ts, hts, ht⟩ := ht
  obtain ⟨us, hus, hu⟩ := hu
  obtain rfl : ts = us := Option.some.inj (hts.symm.trans hus)
  exact ht.unique hu

end Jigsaw.Source
