import Jigsaw.Proofs.Render.ExpressionCode
import Jigsaw.Proofs.Source.Slicing

/-!
# Proofs/Render/IndexCode — indices are lowered exactly

Index code is made from the text of an index alone: the text of a literal becomes that of the
literal before, and any other text has ` - 1` put behind it.  For the texts of values both are
right.  A value whose text is a literal is a literal (`spelling?_codeAt`), so lowering the text is
lowering the expression (`zeroBased_codeAt`), and a text at the level of sums can be the left side
of a subtraction.  The level that index code is given is one that it is an expression of
(`reads_zeroBased`).
-/

namespace Jigsaw

namespace Render

open Source

/-! ## Texts of values -/

theorem codeAt_int {least : Precedence} (h : least.rank ≤ Precedence.sign.rank) (k : Int) :
    (Expr.int k).codeAt least = toString k := by
  have hrank : least.rank ≤ (Expr.int k).precedence.rank := by
    refine Nat.le_trans h ?_
    rw [Expr.int, Expr.precedence, Expr.numeralPrecedence]
    split <;> decide
  rw [Expr.codeAt, Precedence.wrap, Precedence.needsParens, if_neg (by simpa using hrank)]
  rfl

theorem codeAt_any (e : Expr) : e.codeAt .any = e.code := by
  rw [Expr.codeAt, Precedence.wrap, Precedence.needsParens, if_neg]
  simp [Precedence.rank]

/-- **The text of a value is a literal only if the value is one**, where a literal needs no
parentheses. -/
theorem spelling?_codeAt {ρ : Naming} {t : Tree Ref} {e : Expr} (h : SpellsValue ρ t e)
    {least : Precedence} (hleast : least.rank ≤ Precedence.sign.rank) :
    Integer.spelling? (e.codeAt least) = e.int?.map Integer.spellingOf := by
  cases hint : e.int? with
  | some k =>
    rw [eq_int_of_int? hint, codeAt_int hleast]
    exact Integer.spelling?_toString k
  | none =>
    have hfeed : '\n' ∉ (e.codeAt least).toList := fun hmem =>
      ((isLine_codeAt h.proper.isLine least).unbroken '\n' hmem).1 rfl
    rw [Integer.spelling?, Integer.dropLineFeed_eq hfeed, Option.map_none,
      Option.eq_none_iff_forall_ne_some]
    intro s hs
    have htree := int?_of_reads (h.proper.reads_codeAt least) hs
    rw [h.plain, hint] at htree
    cases htree

/-! ## Lowering -/

/-- An index is a literal that is lowered, or one is subtracted from it. -/
theorem zeroBased_cases (e : Expr) :
    (∃ k, e = .int k ∧ fitting k = true ∧ e.zeroBased = .int (k - 1)) ∨
      (∀ k, e.int? = some k → fitting k = false) ∧
        e.zeroBased = .binary .subtract e (.int 1) := by
  rw [zeroBased_eq]
  cases hint : e.int? with
  | some k =>
    by_cases hfits : fitting k
    · exact .inl ⟨k, eq_int_of_int? hint, hfits, if_pos hfits⟩
    · refine .inr ⟨?_, if_neg hfits⟩
      rintro _ ⟨⟩
      exact Bool.eq_false_iff.mpr hfits
  | none => exact .inr ⟨nofun, rfl⟩

theorem code_subtract_one (e : Expr) :
    (Expr.binary .subtract e (.int 1)).code = e.codeAt .sum ++ " - 1" := by
  rw [Expr.code]
  change e.codeAt .sum ++ " - " ++ "1" = _
  rw [String.append_assoc]
  rfl

/-- **Lowering the text of a value is lowering the value.** -/
theorem zeroBased_codeAt {ρ : Naming} {t : Tree Ref} {e : Expr} (h : SpellsValue ρ t e) :
    Integer.zeroBased (e.codeAt .sum) = e.zeroBased.code := by
  rcases zeroBased_cases e with ⟨k, rfl, hfits, hzero⟩ | ⟨hfits, hzero⟩
  · rw [hzero, codeAt_int (by decide), Integer.zeroBased_toString]
    exact if_pos hfits
  · rw [hzero, code_subtract_one]
    cases hint : e.int? with
    | some k =>
      rw [eq_int_of_int? hint, codeAt_int (by decide), Integer.zeroBased_toString]
      exact if_neg (Bool.eq_false_iff.mp (hfits k hint))
    | none =>
      refine Integer.zeroBased_of_spelling?_eq_none ?_
      rw [spelling?_codeAt h (by decide), hint, Option.map_none]

/-- The text of an integer is an expression of the level of index code. -/
theorem reads_int (k : Int) :
    Reads (nonterminal (indexPrecedence (toString k))) (toString k) (.ofInt k) := by
  have hnatural := scans_natural k.natAbs
  rw [indexPrecedence, Integer.spelling?_toString, Expr.toString_int, Tree.ofInt]
  dsimp only [Integer.spellingOf]
  by_cases hk : k < 0
  · rw [if_pos hk, if_pos hk, if_pos (decide_eq_true hk)]
    exact ⟨_, (scans_minus.anything_append hnatural).scan_eq,
      .negate ((Derives.integer _).loosen (by decide))⟩
  · rw [if_neg hk, if_neg hk, if_neg (by simpa using hk)]
    exact ⟨_, hnatural.scan_eq, .integer _⟩

/-- **A lowered index is an expression of its level.** -/
theorem reads_zeroBased {ρ : Naming} {t : Tree Ref} {e : Expr} (h : SpellsValue ρ t e) :
    Reads (nonterminal (indexPrecedence e.zeroBased.code)) e.zeroBased.code e.zeroBased.tree := by
  rcases zeroBased_cases e with ⟨k, -, -, hzero⟩ | ⟨-, hzero⟩
  · rw [hzero]
    exact reads_int (k - 1)
  · have hspelling : Integer.spelling? e.zeroBased.code = none := by
      rw [← codeAt_any, spelling?_codeAt h.zeroBased (by decide), hzero]
      rfl
    have hread := h.zeroBased.proper.reads
    rw [indexPrecedence, hspelling]
    rw [hzero] at hread ⊢
    exact hread

/-! ## Values in slots -/

theorem node_value_of_some {b child : Block} {slot : String} (h : b.values.get? slot = some child)
    (d : Expr) : b.node.value slot d = child.rendering.value := by
  unfold Node.value Block.node
  rw [slotRenderings_eq, Record.get?_mapValues, h]
  rfl

theorem node_value_of_none {b : Block} {slot : String} (h : b.values.get? slot = none)
    (d : Expr) : b.node.value slot d = pure d := by
  unfold Node.value Block.node
  rw [slotRenderings_eq, Record.get?_mapValues, h]
  rfl

/-- The code of a slot is the code of the value in it. -/
theorem valueCode_eq (b : Block) (slot : String) (least : Precedence) (d : Expr) :
    valueCode b slot least (d.codeAt least) = Expr.codeAt least <$> b.node.value slot d := by
  unfold valueCode
  cases hchild : b.values.get? slot with
  | some child => rw [node_value_of_some hchild]
  | none =>
    rw [node_value_of_none hchild]
    rfl

/-- The value in a slot spells a tree, if its default does. -/
theorem exists_spellsValue {p q : Pass} (hp : Reachable p) {b : Block} {slot : String} {d e : Expr}
    (hd : ∀ ρ, ∃ t, SpellsValue ρ t d) (h : b.node.value slot d p = .ok e q) :
    ∃ t, SpellsValue (naming p.scope (helperNames q)) t e := by
  cases hchild : b.values.get? slot with
  | some child =>
    rw [node_value_of_some hchild] at h
    exact ⟨_, spellsValue_of_value hp h⟩
  | none =>
    rw [node_value_of_none hchild] at h
    cases h
    exact hd _

/-! ## Index code -/

/-- **The index code of a value**: `index` is the code of `f`, which is one below `e`, if `code` is
the code of `e` as it stands in a sum. -/
structure Lowers (e f : Expr) (code index : String) : Prop where
  /-- The index is an expression of the level asked for, -/
  reads : Reads .sum code e.tree
  /-- …and the index code is one of the level it is given. -/
  reads_index : Reads (nonterminal (indexPrecedence index)) index f.tree
  /-- The text of a literal is that of its integer.  It is lowered if its digits, and those of the
  integer before, keep to the limit. -/
  literal {s : Integer.Spelling} (hs : Integer.spelling? code = some s) :
    code = toString s.value ∧ (fitting s.value = true → index = toString (s.value - 1))
  /-- In all other cases one is subtracted, from the whole index. -/
  subtracted (h : ∀ s, Integer.spelling? code = some s → fitting s.value = false) :
    index = code ++ " - 1" ∧ f.tree = .binary .subtract e.tree (.integer 1)
  /-- For a literal the value is the integer before it, -/
  denotes_literal {M : Type → Type} [Monad M] [LawfulMonad M] {V : Type} {I : Semantics M V}
    {integer : Int → V} {text : String → V} (hI : I.Standard integer text) (env : Env V)
    {s : Integer.Spelling} (hs : Integer.spelling? code = some s) :
    I.eval env f = pure (integer (s.value - 1))
  /-- …and for every index that computes an integer, it is one less. -/
  denotes {M : Type → Type} [Monad M] [LawfulMonad M] {V : Type} {I : Semantics M V}
    {integer : Int → V} {text : String → V} (hI : I.Standard integer text) (env : Env V)
    {m : M Int} (hm : I.eval env e = integer <$> m) :
    I.eval env f = integer <$> (do
      let k ← m
      pure (k - 1))

theorem lowers_zeroBased {ρ : Naming} {t : Tree Ref} {e : Expr} (h : SpellsValue ρ t e) :
    Lowers e e.zeroBased (e.codeAt .sum) e.zeroBased.code := by
  have hspelling := spelling?_codeAt h (by decide : Precedence.sum.rank ≤ _)
  have hliteral {s : Integer.Spelling} (hs : Integer.spelling? (e.codeAt .sum) = some s) :
      e = .int s.value := by
    obtain ⟨k, hk, rfl⟩ := Option.map_eq_some_iff.mp (hspelling.symm.trans hs)
    rw [Integer.value_spellingOf]
    exact eq_int_of_int? hk
  -- A literal comes down to the text of its integer, anything else to the two forms of lowering.
  constructor
  case reads => exact h.proper.reads_codeAt .sum
  case reads_index => exact reads_zeroBased h
  case literal =>
    intro s hs
    have hcode : e.codeAt .sum = toString s.value := by
      rw [hliteral hs]
      exact codeAt_int (by decide) _
    refine ⟨hcode, fun hfits => ?_⟩
    rw [← zeroBased_codeAt h, hcode, Integer.zeroBased_toString]
    exact if_pos hfits
  case subtracted =>
    intro hfits
    rcases zeroBased_cases e with ⟨k, rfl, hk, -⟩ | ⟨-, hzero⟩
    · have hnot := hfits _ hspelling
      rw [Integer.value_spellingOf, hk] at hnot
      cases hnot
    · rw [hzero]
      exact ⟨code_subtract_one e, rfl⟩
  case denotes_literal =>
    intro M _ _ V I integer text hI env s hs
    rw [hliteral hs, hI.eval_zeroBased (hI.eval_int _), pure_bind, map_pure]
  case denotes =>
    intro M _ _ V I integer text hI env m hm
    exact hI.eval_zeroBased hm

/-- **Indices are lowered exactly.**  Where the value in a slot can be written for a sum, there is
index code for it, from the same value and with the same effects on the pass. -/
theorem indices_lowered_exactly {p : Pass} (hp : Reachable p) {b : Block} {slot code : String}
    {q : Pass} (h : valueCode b slot .sum "1" p = .ok code q) :
    ∃ e f index, b.node.value slot (.int 1) p = .ok e q ∧ e.codeAt .sum = code ∧
      indexCode b slot "1" p = .ok index q ∧ f.code = index ∧ Lowers e f code index := by
  have hvalue := valueCode_eq b slot .sum (.int 1)
  have hindex : indexCode b slot "1" p = .ok (Integer.zeroBased code) q := map_of_ok h
  rw [show "1" = (Expr.int 1).codeAt .sum from rfl, hvalue] at h
  obtain ⟨e, he, rfl⟩ := map_eq_ok.mp h
  obtain ⟨t, ht⟩ := exists_spellsValue hp (fun ρ => ⟨_, .int 1⟩) he
  rw [zeroBased_codeAt ht] at hindex
  exact ⟨e, e.zeroBased, _, he, rfl, hindex, rfl, lowers_zeroBased ht⟩

/-- The item at a position that is a sum. -/
def itemAtSum : Block :=
  .mk "lists_getIndex" "" [] [("AT", arithmeticBlock "ADD" (numberBlock "2") (numberBlock "3"))] []
    none []

theorem itemAtSum_lowered :
    valueCode itemAtSum "AT" .sum "1" {} = .ok "2 + 3" {} ∧
      indexCode itemAtSum "AT" "1" {} = .ok "2 + 3 - 1" {} ∧
      ∃ t, Reads .sum "2 + 3" t ∧ Reads .sum "2 + 3 - 1" (.binary .subtract t (.integer 1)) := by
  have hcode : valueCode itemAtSum "AT" .sum "1" {} = .ok "2 + 3" {} := by rfl
  obtain ⟨e, f, index, -, -, hindex, -, hlowers⟩ := indices_lowered_exactly .initial hcode
  have hnone : Integer.spelling? "2 + 3" = none := by decide
  obtain ⟨rfl, htree⟩ := hlowers.subtracted fun s hs => by rw [hnone] at hs; cases hs
  have hreads := hlowers.reads_index
  rw [htree] at hreads
  exact ⟨hcode, hindex, e.tree, hlowers.reads, hreads⟩

end Render

end Jigsaw
