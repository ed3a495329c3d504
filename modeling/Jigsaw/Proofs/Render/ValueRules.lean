import Jigsaw.Proofs.Block.Record
import Jigsaw.Proofs.Render.Realize
import Jigsaw.Render.Forest

/-!
# Proofs/Render/ValueRules — every value block renders to its tree

One lemma for each way a rule reads its slots, then the rules: the outcome of a rule spells the tree
of its block type, in the view that the rendering started from.  `Block.depicts_tree` puts them
together by recursion on the block.
-/

namespace Jigsaw

namespace Render

open Source

instance (x : String) : Decidable (Expr.IsName x) :=
  inferInstanceAs (Decidable (Text.isIdentifier x = true ∧ x ∉ Name.keywords))

/-- **A value spells its tree**, and is a literal only if its tree is one. -/
structure SpellsValue (ρ : Naming) (t : Tree Ref) (e : Expr) : Prop extends Spells ρ t e where
  plain : e.tree.int? = e.int?

namespace SpellsValue

variable {ρ : Naming} {t : Tree Ref} {e : Expr}

/-- Both are literals of the same integer, or neither is one. -/
theorem int?_eq (h : SpellsValue ρ t e) : t.int? = e.int? := h.int?_tree.symm.trans h.plain

/-- A value is never the bare `0` of an empty slot. -/
theorem ne_zero (h : SpellsValue ρ t e) : e ≠ .zero := by
  rintro rfl
  exact absurd h.plain (by decide)

theorem int (k : Int) : SpellsValue ρ (.ofInt k) (.int k) :=
  ⟨.numeral (.integer k), Tree.int?_ofInt k⟩

theorem text (content : String) : SpellsValue ρ (.text content) (.text content) :=
  ⟨.text content, rfl⟩

theorem emptyList : SpellsValue ρ (.list []) (.list []) := ⟨.list .nil, rfl⟩

theorem numeral (value : Numeral) : SpellsValue ρ (.ofNumeral value) (.numeral value) := by
  refine ⟨.numeral value, ?_⟩
  cases value with
  | integer k => exact Tree.int?_ofInt k
  | floating negative x => cases negative <;> rfl

theorem operation (op : BinaryOp) {u : Tree Ref} {f : Expr} (ht : Spells ρ t e)
    (hu : Spells ρ u f) : SpellsValue ρ (.operation op t u) (.binary op e f) := by
  refine ⟨.operation op ht hu, ?_⟩
  rw [Expr.tree, Tree.operation]
  split <;> rfl

end SpellsValue

theorem SpellsValue.binary {op : BinaryOp} (hop : ¬ (op = .and ∨ op = .or)) {ρ : Naming}
    {t u : Tree Ref} {e f : Expr} (ht : Spells ρ t e) (hu : Spells ρ u f) :
    SpellsValue ρ (.binary op t u) (.binary op e f) := by
  have h := operation op ht hu
  rwa [Tree.operation, if_neg hop] at h

theorem comparison_not_chain (field : String) :
    ¬ (Node.comparison field = .and ∨ Node.comparison field = .or) := by
  unfold Node.comparison
  split <;> decide

theorem arithmeticOp_not_chain (field : String) :
    ¬ (Node.arithmeticOp field = .and ∨ Node.arithmeticOp field = .or) := by
  unfold Node.arithmeticOp
  split <;> decide

/-! ### Literals in indices and bounds -/

theorem eq_int_of_int? {e : Expr} {k : Int} (h : e.int? = some k) : e = .int k := by
  unfold Expr.int? at h
  split at h
  · cases h
    rfl
  · cases h

/-- The literals that are lowered: their digits, and those of the literal before, keep to the
limit. -/
def fitting (k : Int) : Bool := Integer.fits k && Integer.fits (k - 1)

theorem zeroBased_eq (e : Expr) :
    e.zeroBased
      = match e.int? with
        | some k => if fitting k then .int (k - 1) else .binary .subtract e (.int 1)
        | none => .binary .subtract e (.int 1) := by
  cases h : e.int? with
  | some k =>
    rw [eq_int_of_int? h]
    rfl
  | none =>
    unfold Expr.zeroBased
    split
    · cases h
    · rfl

/-- An index counted from zero. -/
theorem SpellsValue.zeroBased {ρ : Naming} {t : Tree Ref} {e : Expr} (h : SpellsValue ρ t e) :
    SpellsValue ρ (t.lowered fitting) e.zeroBased := by
  have hlower : SpellsValue ρ (.binary .subtract t (.integer 1))
      (.binary .subtract e (.int 1)) := operation .subtract h.toSpells (int 1).toSpells
  rw [zeroBased_eq, Tree.lowered, h.int?_eq]
  cases e.int? with
  | some k =>
    dsimp only
    split
    · exact .int (k - 1)
    · exact hlower
  | none => exact hlower

theorem naturalLiteral?_eq (e : Expr) : naturalLiteral? e = e.int?.filter (0 ≤ ·) := by
  cases h : e.int? with
  | some k =>
    rw [eq_int_of_int? h]
    by_cases hk : 0 ≤ k <;> simp [naturalLiteral?, Expr.int, Option.filter, hk]
  | none =>
    unfold naturalLiteral?
    split
    · cases h
    · rfl

/-- A number of characters from an index on. -/
theorem renders_segment {t u w : Tree Ref} (text start size : Expr) :
    Renders (segment text start size) fun v e => SpellsValue v.naming w size →
      SpellsValue v.naming u start → SpellsValue v.naming t text →
        SpellsValue v.naming (.segment t u w) e := by
  have hnatural {ρ : Naming} {t : Tree Ref} {e : Expr} (h : SpellsValue ρ t e) :
      t.natural? = naturalLiteral? e := by rw [naturalLiteral?_eq, Tree.natural?, h.int?_eq]
  unfold segment Tree.segment
  cases hs : naturalLiteral? start with
  | none =>
    refine .pure fun v hw hu ht => ?_
    rw [hnatural hu, hs]
    exact ⟨.sliceTo (.sliceFrom ht.toSpells hu.toSpells) hw.toSpells, rfl⟩
  | some s =>
    cases hk : naturalLiteral? size with
    | none =>
      refine .pure fun v hw hu ht => ?_
      rw [hnatural hu, hnatural hw, hs, hk]
      exact ⟨.sliceTo (.sliceFrom ht.toSpells hu.toSpells) hw.toSpells, rfl⟩
    | some k =>
      dsimp only
      split
      · rename_i hfits
        split
        · refine .pure fun v hw hu ht => ?_
          rw [hnatural hu, hnatural hw, hs, hk]
          dsimp only
          rw [if_pos hfits]
          exact ⟨.slice ht.toSpells hu.toSpells (SpellsValue.int (s + k)).toSpells, rfl⟩
        · exact .throw _
      · rename_i hfits
        refine .pure fun v hw hu ht => ?_
        rw [hnatural hu, hnatural hw, hs, hk]
        dsimp only
        rw [if_neg hfits]
        exact ⟨.sliceTo (.sliceFrom ht.toSpells hu.toSpells) hw.toSpells, rfl⟩

theorem lastChars_eq (text count : Expr) :
    lastChars text count
      = if count.int? = some 0 then .sliceTo text count else .sliceFrom text (.negate count) := by
  by_cases h : count.int? = some 0
  · rw [if_pos h, eq_int_of_int? h]
    rfl
  · rw [if_neg h]
    unfold lastChars
    split
    · exact absurd rfl h
    · rfl

/-- The last characters of a text. -/
theorem SpellsValue.lastChars {ρ : Naming} {t u : Tree Ref} {e f : Expr} (he : SpellsValue ρ t e)
    (hf : SpellsValue ρ u f) : SpellsValue ρ (.lastChars t u) (lastChars e f) := by
  rw [lastChars_eq, Tree.lastChars, hf.int?_eq]
  split
  · exact ⟨.sliceTo he.toSpells hf.toSpells, rfl⟩
  · exact ⟨.sliceFrom he.toSpells hf.toSpells.negate, rfl⟩

/-! ## Slots -/

/-- The renderings of slots are the renderings of what is plugged in. -/
theorem slotRenderings_eq (slots : Record Block) :
    slotRenderings slots = slots.mapValues Block.rendering := by
  induction slots with
  | nil => rfl
  | cons entry rest ih => exact congrArg (List.cons (entry.1, entry.2.rendering)) ih

/-- The rendering gives a value that spells the tree. -/
def Depicts (r : Rendering) (t : Tree Ref) : Prop :=
  Renders r.value fun v e => SpellsValue v.naming t e

/-- The node and the sketch are of one block, and what is plugged into the node renders to the
sketch's trees. -/
structure Matches (n : Node) (k : Sketch) : Prop where
  block : n.block = k.block
  trees : Record.Related Depicts n.values k.trees

namespace Matches

variable {n : Node} {k : Sketch} (h : Matches n k)

include h

/-- What holds of values, and of the default, holds of the slot. -/
theorem slot {R : View → Tree Ref → Expr → Prop} (slot : String) {d : Expr} {t : Tree Ref}
    (hvalue : ∀ {v t e}, SpellsValue v.naming t e → R v t e) (hd : ∀ v, R v t d) :
    Renders (n.value slot d) fun v e => R v (k.slot slot t) e := by
  unfold Node.value Sketch.slot
  rcases h.trees.get? slot with ⟨hchild, htree⟩ | ⟨child, u, hchild, htree, hdepicts⟩
  · rw [hchild, htree]
    exact .pure hd
  · rw [hchild, htree]
    exact hdepicts.imp fun _ _ => hvalue

/-- The value in a slot, if the default is a value of its own, -/
theorem value (slot : String) {d : Expr} {t : Tree Ref} (hd : ∀ ρ, SpellsValue ρ t d) :
    Renders (n.value slot d) fun v e => SpellsValue v.naming (k.slot slot t) e :=
  h.slot slot id fun v => hd v.naming

/-- …or whatever the default. -/
theorem spelled (slot : String) {d : Expr} {t : Tree Ref} (hd : ∀ ρ, Spells ρ t d) :
    Renders (n.value slot d) fun v e => Spells v.naming (k.slot slot t) e :=
  h.slot slot SpellsValue.toSpells fun v => hd v.naming

theorem text (slot : String) :
    Renders (n.textValue slot) fun v e => SpellsValue v.naming (k.text slot) e :=
  h.value slot fun _ => .text ""

theorem list (slot : String) :
    Renders (n.listValue slot) fun v e => SpellsValue v.naming (k.list slot) e :=
  h.value slot fun _ => .emptyList

theorem index (slot : String) :
    Renders (n.index slot) fun v e => SpellsValue v.naming (k.index fitting slot) e :=
  (h.value slot fun _ => .int 1).bind fun _ => .pure fun _ he => he.zeroBased

theorem valueList (stem : String) (count : Nat) {d : Expr} {t : Tree Ref}
    (hd : ∀ ρ, Spells ρ t d) :
    Renders (n.valueList stem count d) fun v es =>
      List.Forall₂ (Spells v.naming) (k.slots stem count t) es :=
  (Renders.mapM (fun i => h.spelled (stem ++ toString i) hd) (List.range count)).imp
    fun _ _ hall => List.forall₂_map_left_iff.mpr hall

end Matches

/-! ## Fixed words -/

/-- The words that rules refer to. -/
def fixedWords : List String := ["len", "str", "list", "type", "float", "print", "random"]

theorem isName_of_mem_fixedWords :
    ∀ word ∈ fixedWords, word ∈ Name.reserved ∧ Expr.IsName word := by decide

/-- A fixed word as a name. -/
theorem spells_fixed (v : View) {word : String} (hword : word ∈ fixedWords) :
    Spells v.naming (.name (.fixed word)) (.name word) :=
  .name (v.fixed word (isName_of_mem_fixedWords word hword).1)
    (isName_of_mem_fixedWords word hword).2

/-- A call of a built-in function. -/
theorem spells_builtin (v : View) {word : String} (hword : word ∈ fixedWords)
    {ts : List (Tree Ref)} {es : List Expr} (h : List.Forall₂ (Spells v.naming) ts es) :
    SpellsValue v.naming (.builtin word ts) (.call word es) :=
  ⟨.call (v.fixed word (isName_of_mem_fixedWords word hword).1)
    (isName_of_mem_fixedWords word hword).2 h, rfl⟩

/-- A value as a text. -/
theorem spells_asText (v : View) {t : Tree Ref} {e : Expr} (h : Spells v.naming t e) :
    SpellsValue v.naming (.builtin "str" [t]) (Node.asText e) :=
  spells_builtin v (by decide) (.cons h .nil)

/-- The naming of the fixed words alone. -/
def fixedNaming : Naming
  | .fixed word => if word ∈ Name.reserved then some word else none
  | _ => none

theorem mem_reserved_of_fixedNaming {r : Ref} {x : String} (h : fixedNaming r = some x) :
    x ∈ Name.reserved ∧ r = .fixed x := by
  unfold fixedNaming at h
  split at h
  · split at h
    · cases h
      exact ⟨‹_›, rfl⟩
    · cases h
  · cases h

/-- Every item of a list as a text.  The element needs no name from outside but fixed words, which
are reserved, and so a variable that is not reserved captures nothing. -/
theorem spells_comprehension (v : View) {x : String} (hx : Expr.IsName x)
    (hfresh : x ∉ Name.reserved) {t : Tree Ref} {e : Expr} (h : Spells v.naming t e) :
    Spells v.naming (.collect (.builtin "str" [.name .temporary]) .temporary t)
      (.collect (Node.asText (.name x)) x e) := by
  have hle : fixedNaming.Le v.naming := fun r y hr => by
    obtain ⟨hreserved, rfl⟩ := mem_reserved_of_fixedNaming hr
    exact v.fixed y hreserved
  have hfits : Fits fixedNaming [(.temporary, x)] := by
    refine ⟨by simp, fun r y hr p hp heq => hfresh ?_⟩
    obtain rfl := List.mem_singleton.mp hp
    obtain rfl : x = y := heq
    exact (mem_reserved_of_fixedNaming hr).1
  have hstr : (fixedNaming.bind [(.temporary, x)]) (.fixed "str") = some "str" := by
    have hreserved := (isName_of_mem_fixedWords "str" (by decide)).1
    rw [Naming.bind, lookup_eq_none_iff.mpr (by simp), fixedNaming, if_pos hreserved]
    rfl
  exact .collect hle hfits hx (.call hstr (by decide) (.cons (.name rfl hx) .nil)) h

/-- A position counted from one. -/
theorem spells_positionOf {ρ : Naming} {selector : String} (hselector : Expr.IsName selector)
    {t u : Tree Ref} {text piece : Expr} (ht : SpellsValue ρ t text) (hu : SpellsValue ρ u piece) :
    SpellsValue ρ (Sketch.positionOf t selector u) (Node.positionOf text selector piece) :=
  .operation .add (.method ht.toSpells ht.ne_zero hselector (.cons hu.toSpells .nil))
    (SpellsValue.int 1).toSpells

/-- **The rule of a value type is faithful**: its outcome spells the tree of the type. -/
def Faithful (n : Node) (k : Sketch) (type : ValueType) : Prop :=
  Renders (type.render n) fun v e => SpellsValue v.naming (type.tree fitting k) e

namespace Matches

variable {n : Node} {k : Sketch} (h : Matches n k)

include h

/-! ## Lists -/

theorem listOf : Faithful n k .listOf := by
  change Renders n.listOf _
  unfold Node.listOf
  rw [h.block]
  exact (h.valueList "ADD" _ fun _ => .none).bind fun _ => .pure fun _ hitems => ⟨.list hitems, rfl⟩

theorem listRepeat : Faithful n k .listRepeat :=
  (h.spelled "ITEM" fun _ => .none).bind fun _ => (h.spelled "NUM" fun _ => .zero).bind fun _ =>
    .pure fun _ hcount hitem => .operation .multiply (.list (.cons hitem .nil)) hcount

theorem listLength : Faithful n k .listLength :=
  (h.list "LIST").bind fun _ => .pure fun v htarget =>
    spells_builtin v (by decide) (.cons htarget.toSpells .nil)

theorem listIsEmpty : Faithful n k .listIsEmpty :=
  (h.list "LIST").bind fun _ => .pure fun v htarget =>
    ⟨.not (spells_builtin v (by decide) (.cons htarget.toSpells .nil)).toSpells, rfl⟩

theorem listPosition : Faithful n k .listPosition := by
  change Renders n.listPosition _
  unfold Node.listPosition
  rw [h.block]
  refine (h.list "LIST").bind fun target => (h.value "ITEM" fun _ => .text "").bind fun item => ?_
  have hcall {key : String} {define : String → String} (hkey : StandardHelper key define) :
      Renders (helper key define >>= fun function => pure (.call function [target, item]))
        fun v e => SpellsValue v.naming (k.slot "ITEM" (.text "")) item →
          SpellsValue v.naming (k.list "LIST") target →
            SpellsValue v.naming
              (.call (.name (.helper key)) [k.list "LIST", k.slot "ITEM" (.text "")]) e :=
    (renders_helper hkey).bind fun _ => .pure fun _ hf hitem htarget =>
      ⟨.call hf.1 hf.2 (.cons htarget.toSpells (.cons hitem.toSpells .nil)), rfl⟩
  dsimp only [ValueType.tree]
  split
  · exact hcall .lastIndex
  · exact hcall .firstIndex

theorem listItem : Faithful n k .listItem := by
  change Renders n.listItem _
  unfold Node.listItem
  rw [h.trees.has]
  exact (h.list "LIST").bind fun _ => (h.index _).bind fun _ => .pure fun _ hindex htarget =>
    ⟨.item htarget.toSpells hindex.toSpells, rfl⟩

theorem listCopy : Faithful n k .listCopy :=
  (h.list "LIST").bind fun _ => .pure fun v htarget =>
    spells_builtin v (by decide) (.cons htarget.toSpells .nil)

theorem listMember : Faithful n k .listMember :=
  (h.spelled "ITEM" fun _ => .none).bind fun _ => (h.list "LIST").bind fun _ =>
    .pure fun _ htarget hitem => .operation .within hitem htarget.toSpells

theorem listRandomItem : Faithful n k .listRandomItem :=
  renders_requireRandom.bind fun _ => (h.list "LIST").bind fun _ => .pure fun v htarget _ =>
    ⟨.method (spells_fixed v (by decide)) nofun (by decide) (.cons htarget.toSpells .nil), rfl⟩

theorem isList : Faithful n k .isList :=
  (h.spelled "ITEM" fun _ => .none).bind fun _ => .pure fun v hitem =>
    .operation .same (spells_builtin v (by decide) (.cons hitem .nil)).toSpells
      (spells_fixed v (by decide))

/-! ## Texts -/

theorem textLength : Faithful n k .textLength :=
  (h.text "VALUE").bind fun _ => .pure fun v htext =>
    spells_builtin v (by decide) (.cons htext.toSpells .nil)

theorem textIsEmpty : Faithful n k .textIsEmpty :=
  (h.text "VALUE").bind fun _ => .pure fun v htext =>
    ⟨.not (spells_builtin v (by decide) (.cons htext.toSpells .nil)).toSpells, rfl⟩

theorem textEnd : Faithful n k .textEnd := by
  change Renders n.textEnd _
  unfold Node.textEnd
  rw [h.block]
  refine (h.text "TEXT").bind fun text => (h.value "NUM" fun _ => .int 1).bind fun count => ?_
  dsimp only [ValueType.tree]
  split
  · exact .pure fun _ hcount htext => ⟨.sliceTo htext.toSpells hcount.toSpells, rfl⟩
  · exact .pure fun _ hcount htext => htext.lastChars hcount

theorem textPosition : Faithful n k .textPosition := by
  change Renders n.textPosition _
  unfold Node.textPosition
  rw [h.block]
  exact (h.text "FIND").bind fun _ => (h.text "VALUE").bind fun _ => .pure fun _ htext hpiece =>
    spells_positionOf (by split <;> decide) htext hpiece

theorem textStartsAt : Faithful n k .textStartsAt :=
  (h.text "TEXT").bind fun _ => (h.text "PIECE").bind fun _ => .pure fun _ hpiece htext =>
    spells_positionOf (by decide) htext hpiece

theorem textChar : Faithful n k .textChar :=
  (h.index "AT").bind fun _ => (h.text "VALUE").bind fun _ => .pure fun _ htext hindex =>
    ⟨.item htext.toSpells hindex.toSpells, rfl⟩

theorem textSegment : Faithful n k .textSegment :=
  (h.text "TEXT").bind fun text => (h.index "START").bind fun start =>
    (h.value "LENGTH" fun _ => .int 1).bind fun size => renders_segment text start size

theorem textThrough {selector : String} (hselector : Expr.IsName selector) :
    Renders (n.textThrough selector) fun v e =>
      SpellsValue v.naming (.method (k.text "TEXT") selector []) e :=
  (h.text "TEXT").bind fun _ => .pure fun _ htext =>
    ⟨.method htext.toSpells htext.ne_zero hselector .nil, rfl⟩

theorem textCase : Faithful n k .textCase := by
  change Renders n.textCase _
  unfold Node.textCase
  rw [h.block]
  exact h.textThrough (by split <;> decide)

theorem textContains : Faithful n k .textContains :=
  (h.text "TEXT").bind fun _ => (h.text "PIECE").bind fun _ => .pure fun _ hpiece htext =>
    .operation .within hpiece.toSpells htext.toSpells

theorem textReplaceAll : Faithful n k .textReplaceAll :=
  (h.text "TEXT").bind fun _ => (h.text "SEGMENT").bind fun _ =>
    (h.text "REPLACEMENT").bind fun _ => .pure fun _ hnew hold htext =>
      ⟨.method htext.toSpells htext.ne_zero (by decide)
        (.cons hold.toSpells (.cons hnew.toSpells .nil)), rfl⟩

theorem textCompare : Faithful n k .textCompare := by
  change Renders n.textCompare _
  unfold Node.textCompare
  rw [h.block]
  exact (h.text "TEXT1").bind fun _ => (h.text "TEXT2").bind fun _ => .pure fun _ hright hleft =>
    .binary (comparison_not_chain _) hleft.toSpells hright.toSpells

theorem textPrompt : Faithful n k .textPrompt := by
  change Renders n.textPrompt _
  unfold Node.textPrompt Node.textLiteral
  rw [h.block]
  refine (renders_helper .prompt).bind fun function => .pure fun v hfunction => ?_
  have hanswer : SpellsValue v.naming
      (.call (.name (.helper "text_prompt")) [.text (k.block.field "TEXT")])
      (.call function [.text (k.block.field "TEXT")]) :=
    ⟨.call hfunction.1 hfunction.2 (.cons (.text _) .nil), rfl⟩
  dsimp only [ValueType.tree]
  split
  · exact spells_builtin v (by decide) (.cons hanswer.toSpells .nil)
  · exact hanswer

theorem textJoin : Faithful n k .textJoin := by
  change Renders n.textJoin _
  unfold Node.textJoin
  rw [h.block]
  refine (h.valueList "ADD" _ fun _ => .text "").bind fun operands => ?_
  dsimp only [ValueType.tree]
  generalize k.slots "ADD" k.block.itemCount (.text "") = ts
  match operands with
  | [] =>
    refine .pure fun v hall => ?_
    obtain rfl := List.forall₂_nil_right_iff.mp hall
    exact .text ""
  | [e] =>
    refine .pure fun v hall => ?_
    obtain ⟨t, _, ht, hnil, rfl⟩ := List.forall₂_cons_right_iff.mp hall
    obtain rfl := List.forall₂_nil_right_iff.mp hnil
    exact spells_asText v ht
  | [e, f] =>
    refine .pure fun v hall => ?_
    obtain ⟨t, _, ht, htail, rfl⟩ := List.forall₂_cons_right_iff.mp hall
    obtain ⟨u, _, hu, hnil, rfl⟩ := List.forall₂_cons_right_iff.mp htail
    obtain rfl := List.forall₂_nil_right_iff.mp hnil
    exact .operation .add (spells_asText v ht).toSpells (spells_asText v hu).toSpells
  | e :: f :: g :: rest =>
    refine renders_temporary.bind fun x => .pure fun v hx hall => ?_
    obtain ⟨t, _, -, htail, rfl⟩ := List.forall₂_cons_right_iff.mp hall
    obtain ⟨u, _, -, htail', rfl⟩ := List.forall₂_cons_right_iff.mp htail
    obtain ⟨w, _, -, -, rfl⟩ := List.forall₂_cons_right_iff.mp htail'
    exact ⟨.method (.text "") nofun (by decide)
      (.cons (spells_comprehension v hx.1 hx.2 (.list hall)) .nil), rfl⟩

/-! ## Names, numbers and truth values -/

theorem variableGet : Faithful n k .variableGet := by
  change Renders n.variableGet _
  unfold Node.variableGet
  rw [h.block]
  exact (renders_resolve _ _ _).bind fun _ => .pure fun _ hx => ⟨.name hx.1 hx.2, rfl⟩

/-- The identifier of a lexical reference. -/
theorem lexicalName : Renders n.lexicalName fun v x =>
    v.naming k.lexicalRef = some x ∧ Expr.IsName x := by
  unfold Node.lexicalName Sketch.lexicalRef
  rw [h.block]
  dsimp only
  split
  · exact renders_resolveGlobal _ _ _
  · exact renders_resolve _ _ _

theorem lexicalGet : Faithful n k .lexicalGet :=
  h.lexicalName.bind fun _ => .pure fun _ hx => ⟨.name hx.1 hx.2, rfl⟩

/-- The first values of the declared names. -/
theorem firstValues : Renders n.firstValues fun v es =>
    List.Forall₂ (Spells v.naming) (k.slots "DECL" k.block.declaredNames.length (.integer 0))
      es := by
  unfold Node.firstValues
  rw [h.block]
  exact h.valueList "DECL" _ fun _ => .zero

theorem localExpression : Faithful n k .localExpression := by
  change Renders n.localExpression _
  unfold Node.localExpression Node.bindDeclared
  rw [h.block]
  refine h.firstValues.bind fun values => .frame fun identifiers =>
    (h.spelled "RETURN" fun _ => .none).bind fun body => .pure fun w hbody v hopens hvalues => ?_
  rw [hopens.naming] at hbody
  have hnames : ∀ p ∈ pairing k.block.declaredNames identifiers, Expr.IsName p.2 := fun p hp =>
    hopens.isName p.2 (List.of_mem_zip hp).2
  have hlet := Spells.letIn hopens.fits hnames hbody hvalues
  rw [map_fst_pairing hopens.length, map_snd_pairing hopens.length] at hlet
  exact ⟨hlet, rfl⟩

theorem arithmetic : Faithful n k .arithmetic := by
  change Renders n.arithmetic _
  unfold Node.arithmetic
  rw [h.block]
  exact (h.spelled "A" fun _ => .zero).bind fun _ => (h.spelled "B" fun _ => .zero).bind fun _ =>
    .pure fun _ hright hleft => .binary (arithmeticOp_not_chain _) hleft hright

theorem negation : Faithful n k .negation :=
  (h.spelled "BOOL" fun _ => .truth true).bind fun _ => .pure fun _ hoperand => ⟨.not hoperand, rfl⟩

theorem logic : Faithful n k .logic := by
  change Renders n.logic _
  unfold Node.logic
  rw [h.block]
  exact (h.spelled "A" fun _ => .truth false).bind fun _ =>
    (h.spelled "B" fun _ => .truth false).bind fun _ => .pure fun _ hright hleft =>
      .operation _ hleft hright

theorem procedureCall : Faithful n k .procedureCall := by
  change Renders n.procedureCall _
  unfold Node.procedureCall
  rw [h.block]
  exact (renders_resolveProcedure _ _ _).bind fun _ =>
    (h.valueList "ARG" _ fun _ => .none).bind fun _ => .pure fun _ harguments hx =>
      ⟨.call hx.1 hx.2 harguments, rfl⟩

/-- **Every rule is faithful.** -/
theorem faithful : ∀ type : ValueType, Faithful n k type
  | .emptyList => .pure fun _ => .emptyList
  | .listOf => h.listOf
  | .listRepeat => h.listRepeat
  | .listLength => h.listLength
  | .listIsEmpty => h.listIsEmpty
  | .listPosition => h.listPosition
  | .listItem => h.listItem
  | .listCopy => h.listCopy
  | .listMember => h.listMember
  | .listRandomItem => h.listRandomItem
  | .isList => h.isList
  | .text => .pure fun _ => by rw [Node.textLiteral, h.block]; exact .text _
  | .textJoin => h.textJoin
  | .textLength => h.textLength
  | .textIsEmpty => h.textIsEmpty
  | .textEnd => h.textEnd
  | .textPosition => h.textPosition
  | .textStartsAt => h.textStartsAt
  | .textChar => h.textChar
  | .textSegment => h.textSegment
  | .textCase => h.textCase
  | .textTrim => h.textThrough (by decide)
  | .textContains => h.textContains
  | .textSplit => h.textThrough (by decide)
  | .textReplaceAll => h.textReplaceAll
  | .textCompare => h.textCompare
  | .textPrompt => h.textPrompt
  | .variableGet => h.variableGet
  | .lexicalGet => h.lexicalGet
  | .localExpression => h.localExpression
  | .number => .pure fun _ => by rw [Node.number, h.block]; exact .numeral _
  | .arithmetic => h.arithmetic
  | .truth => .pure fun _ => by rw [Node.truth, h.block]; exact ⟨.truth _, rfl⟩
  | .negation => h.negation
  | .logic => h.logic
  | .procedureCall => h.procedureCall

end Matches

end Render

open Render

/-! ## Blocks -/

mutual

/-- **A block that renders as a value spells its tree.** -/
theorem Block.depicts_tree : ∀ b : Block, Depicts b.rendering (b.tree fitting)
  | .mk type id fields values statements next mutation => by
      let b : Block := .mk type id fields values statements next mutation
      have h : Matches b.node (b.sketch fitting) := ⟨rfl, slots_depict_trees values⟩
      rw [Block.tree]
      change Renders (match ValueType.ofName? type with
        | some valueType => valueType.render b.node
        | none => _) _
      cases ValueType.ofName? type with
      | some valueType => exact h.faithful valueType
      | none => exact .throw _
termination_by structural b => b

/-- …and so do the blocks in slots. -/
theorem slots_depict_trees : ∀ slots : List (String × Block),
    Record.Related Depicts (slotRenderings slots) (slotTrees fitting slots)
  | [] => .nil
  | (_, child) :: rest => .cons ⟨rfl, child.depicts_tree⟩ (slots_depict_trees rest)
termination_by structural slots => slots

end

end Jigsaw
