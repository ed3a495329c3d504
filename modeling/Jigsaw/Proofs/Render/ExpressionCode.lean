import Jigsaw.Proofs.Number.Literal
import Jigsaw.Proofs.Render.Reachable
import Jigsaw.Proofs.Source.Line

/-!
# Proofs/Render/ExpressionCode — code of expressions reads back as their trees

A block that renders as a value spells its tree (`Block.depicts_tree`), and what is spelled is read
(`Expr.Proper.reads`).  So the code of a block, at its own level and in every place that asks for
another, is an expression of the kind of that level, with the tree of the block.  A literal index is
lowered only while its digits keep to the limit; past it the code subtracts one.
-/

namespace Jigsaw

namespace Render

open Source Name

/-- **The code is an expression of a kind and has this tree**, up to the spelling of names: `ρ`
gives the identifiers of the tree's free references. -/
def ReadsAs (n : Nonterminal) (code : String) (ρ : Naming) (t : Tree Ref) : Prop :=
  ∃ u, Reads n code u ∧ u.resolve some [] = t.resolve ρ []

/-- What a block renders to spells its tree, with the names of the pass it started from and the
support routines of the pass it led to. -/
theorem spellsValue_of_value {p q : Pass} (hp : Reachable p) {b : Block} {e : Expr}
    (h : b.rendering.value p = .ok e q) :
    SpellsValue (naming p.scope (helperNames q)) (b.tree fitting) e := by
  have hq : Valid q := by
    have hvalid := b.depicts_tree.valid hp.valid
    rwa [runOn_of_ok h] at hvalid
  exact b.depicts_tree.outcome hp.valid h hq.agrees

theorem spells_of_value {p q : Pass} (hp : Reachable p) {b : Block} {e : Expr}
    (h : b.rendering.value p = .ok e q) :
    Spells (naming p.scope (helperNames q)) (b.tree fitting) e :=
  (spellsValue_of_value hp h).toSpells

/-- What is spelled is read, at every level that a place may ask for. -/
theorem readsAs_codeAt {ρ : Naming} {t : Tree Ref} {e : Expr} (h : Spells ρ t e)
    (least : Precedence) : ReadsAs (nonterminal least) (e.codeAt least) ρ t :=
  ⟨e.tree, h.proper.reads_codeAt least, (h.resolve (.nil (.refl ρ))).symm⟩

/-- …and at its own level it stands without parentheses. -/
theorem readsAs_code {ρ : Naming} {t : Tree Ref} {e : Expr} (h : Spells ρ t e) :
    ReadsAs (nonterminal e.precedence) e.code ρ t :=
  ⟨e.tree, h.proper.reads, (h.resolve (.nil (.refl ρ))).symm⟩

/-- The code of a block is the code of what it renders to. -/
theorem expressionCode_eq_ok {b : Block} {p q : Pass} {code : String} {level : Precedence} :
    expressionCode b p = .ok (code, level) q ↔
      ∃ e, b.rendering.value p = .ok e q ∧ e.code = code ∧ e.precedence = level := by
  refine bind_eq_ok.trans ⟨?_, ?_⟩
  · rintro ⟨e, r, he, hpure⟩
    cases hpure
    exact ⟨e, he, rfl, rfl⟩
  · rintro ⟨e, he, rfl, rfl⟩
    exact ⟨e, q, he, rfl⟩

/-- The code in a slot that is filled is that of the block in it, at the level asked for. -/
theorem valueCode_eq_ok {b child : Block} {slot default : String} {least : Precedence}
    (hchild : b.values.get? slot = some child) {p q : Pass} {code : String} :
    valueCode b slot least default p = .ok code q ↔
      ∃ e, child.rendering.value p = .ok e q ∧ e.codeAt least = code := by
  unfold valueCode
  rw [hchild]
  exact map_eq_ok

/-- **Code of expressions binds as their trees say.**  The code of a block is an expression of the
kind of its level, wrapped for any least level it is one of that level's kind, and so is the code
that a slot asks for at some level; each has the tree of its block. -/
theorem code_derives_tree {p : Pass} (hp : Reachable p) (b : Block) :
    (∀ {code level q}, expressionCode b p = .ok (code, level) q →
      ReadsAs (nonterminal level) code (naming p.scope (helperNames q)) (b.tree fitting) ∧
      ∀ least, ReadsAs (nonterminal least) (level.wrap least code)
        (naming p.scope (helperNames q)) (b.tree fitting)) ∧
    ∀ {slot least default child code q}, b.values.get? slot = some child →
      valueCode b slot least default p = .ok code q →
      ReadsAs (nonterminal least) code (naming p.scope (helperNames q)) (child.tree fitting) := by
  refine ⟨fun hcode => ?_, fun hchild hcode => ?_⟩
  · obtain ⟨e, he, rfl, rfl⟩ := expressionCode_eq_ok.mp hcode
    exact ⟨readsAs_code (spells_of_value hp he), readsAs_codeAt (spells_of_value hp he)⟩
  · obtain ⟨e, he, rfl⟩ := (valueCode_eq_ok hchild).mp hcode
    exact readsAs_codeAt (spells_of_value hp he) _

/-- A number literal. -/
def numberBlock (text : String) : Block := .mk "math_number" "" [("NUM", text)] [] [] none []

/-- An arithmetic operation on two blocks. -/
def arithmeticBlock (op : String) (left right : Block) : Block :=
  .mk "math_arithmetic" "" [("OP", op)] [("A", left), ("B", right)] [] none []

/-- A power of negative numbers times a difference that takes away a sum. -/
def nestedArithmetic : Block :=
  arithmeticBlock "MULTIPLY" (arithmeticBlock "POWER" (numberBlock "-2") (numberBlock "-3"))
    (arithmeticBlock "MINUS" (numberBlock "1") (arithmeticBlock "ADD" (numberBlock "4")
      (numberBlock "5")))

theorem nestedArithmetic_reads :
    expressionCode nestedArithmetic {} = .ok ("(-2) ** -3 * (1 - (4 + 5))", .product) {} ∧
      ReadsAs .product "(-2) ** -3 * (1 - (4 + 5))" (naming ({} : Pass).scope (helperNames {}))
        (nestedArithmetic.tree fitting) := by
  have hcode : expressionCode nestedArithmetic {}
      = .ok ("(-2) ** -3 * (1 - (4 + 5))", .product) {} := by rfl
  exact ⟨hcode, ((code_derives_tree .initial nestedArithmetic).1 hcode).1⟩

/-! ## Where a literal index is not lowered -/

/-- The item of the empty list at a literal position. -/
def itemBlock (text : String) : Block :=
  .mk "lists_getIndex" "" [] [("AT", numberBlock text)] [] none []

/-- The first position whose digits pass the limit. -/
def farPosition : Nat := Nat.pow 10 Integer.digitLimit

/-- The item there. -/
def farItem : Block := itemBlock (toString farPosition)

theorem tree_farItem (lowers : Int → Bool) :
    farItem.tree lowers = .item (.list []) ((Tree.ofInt farPosition).lowered lowers) := by
  have htree (text : String) : (itemBlock text).tree lowers
      = .item (.list []) ((Tree.ofNumeral (.ofText text)).lowered lowers) := rfl
  have hnumber (n : Nat) : Numeral.ofText (toString n) = .integer n := Numeral.ofText_toString n
  rw [farItem, htree, hnumber]
  rfl

/-- A power of ten has one digit more than zeros. -/
theorem lt_length_repr_pow {k : Nat} (hk : 0 < k) : k < (Nat.pow 10 k).repr.length := by
  rw [← Nat.not_le, Nat.length_repr_le_iff hk, Nat.pow_eq]
  exact Nat.lt_irrefl _

theorem fitting_far : fitting farPosition = false := by
  have hfits : Integer.fits farPosition = false := by
    rw [Integer.fits, Int.natAbs_natCast, decide_eq_false_iff_not, Nat.not_le]
    unfold farPosition
    exact lt_length_repr_pow (by decide)
  rw [fitting, hfits, Bool.false_and]

/-- **Past the digit limit a literal index is not lowered.**  The code subtracts one instead, and is
not read as the literal before. -/
theorem farItem_not_lowered : ∃ code level q,
    expressionCode farItem {} = .ok (code, level) q ∧
      ¬ ReadsAs (nonterminal level) code (naming ({} : Pass).scope (helperNames q))
        (farItem.tree fun _ => true) := by
  have hcode (text : String) : expressionCode (itemBlock text) {}
      = .ok ((Expr.item (.list []) (Expr.numeral (.ofText text)).zeroBased).code, .member) {} := rfl
  refine ⟨_, _, _, hcode _, ?_⟩
  rintro ⟨u, hu, hstrict⟩
  obtain ⟨e, he, hecode, -⟩ := expressionCode_eq_ok.mp (hcode (toString farPosition))
  obtain ⟨w, hw, hlowered⟩ := readsAs_code (spells_of_value .initial he)
  rw [hecode] at hw
  rw [← hu.unique hw, hstrict] at hlowered
  change (farItem.tree fun _ => true).resolve _ [] = (farItem.tree fitting).resolve _ [] at hlowered
  rw [tree_farItem, tree_farItem, Tree.lowered, Tree.lowered, Tree.int?_ofInt] at hlowered
  dsimp only at hlowered
  rw [if_pos rfl, fitting_far, if_neg Bool.false_ne_true, Tree.resolve, Tree.resolve] at hlowered
  -- A literal on one side, a subtraction on the other.
  have hindex := (Tree.item.inj hlowered).2
  have hint := congrArg Tree.int? hindex
  rw [Tree.int?_resolve, Tree.int?_ofInt] at hint
  cases hint

end Render

end Jigsaw
