import Jigsaw.Proofs.Render.Traces
import Jigsaw.Proofs.Render.ValueRules

/-!
# Proofs/Render/TourRules — every rendering meets the events of its tour

One lemma for each way a rule reads its slots, then the rules: each meets what the course of its
block type lists, in this order.  `Block.tracks_tour` puts them together by recursion on the block.
-/

namespace Jigsaw

namespace Render

open Name

/-- **The renderings meet what the tours of the block list.** -/
structure Tracks (declared : List (String × Kind)) (r : Rendering) (b : Block) : Prop where
  value : ∀ names, Traces declared names r.value (b.tour.value names) fun e => e.int? = b.integer?
  result : ∀ names, Traces declared names r.result (b.tour.value names) fun _ => True
  chain : ∀ names, Traces declared names r.chain (b.tour.chain names) fun _ => True

/-- What is plugged into the node are the renderings of what is plugged into its block. -/
structure Charts (declared : List (String × Kind)) (n : Node) : Prop where
  values : Record.Related (Tracks declared) n.values n.block.values
  statements : Record.Related (Tracks declared) n.statements n.block.statements

/-- What is met in a course of a node. -/
def Node.met (n : Node) (names : List String) (c : Course) : List Event :=
  c.events (n.block.slotEvents names)

theorem Node.met_use (n : Node) (names : List String) (u : Use) (uses : List Use)
    (after : List Event) :
    n.met names ⟨[], u :: uses, after⟩
      = n.block.slotEvents names u ++ n.met names ⟨[], uses, after⟩ :=
  List.append_assoc _ _ _

theorem Node.met_uses (n : Node) (names : List String) (first uses : List Use)
    (after : List Event) :
    n.met names ⟨[], first ++ uses, after⟩
      = first.flatMap (n.block.slotEvents names) ++ n.met names ⟨[], uses, after⟩ := by
  simp [Node.met, Course.events]

namespace Charts

variable {declared : List (String × Kind)} {n : Node} (h : Charts declared n)
  {names : List String} {α : Type} {S : α → Prop} {uses : List Use} {after : List Event}

include h

/-! ## Slots

A rule reads slot after slot.  Where the next one heads the list of a course, the lemmas are about
the slot together with the rest of the rule, which meets the rest of the course. -/

/-- The value in a slot, -/
theorem slot (slot : String) (d : Expr) :
    Traces declared names (n.value slot d) (n.block.slotEvents names ⟨.value, slot, []⟩)
      fun e => e.int? = n.block.integerIn? slot d.int? := by
  unfold Node.value Block.slotEvents Block.integerIn?
  dsimp only
  rcases h.values.get? slot with ⟨hchild, hblock⟩ | ⟨child, b, hchild, hblock, htracks⟩
  · rw [hchild, hblock]
    exact .pure rfl
  · rw [hchild, hblock]
    exact htracks.value _

/-- …and what follows it, -/
theorem value (slot : String) (d : Expr) {f : Expr → RenderM α}
    (hf : ∀ e, e.int? = n.block.integerIn? slot d.int? →
      Traces declared names (f e) (n.met names ⟨[], uses, after⟩) S) :
    Traces declared names (n.value slot d >>= f)
      (n.met names ⟨[], ⟨.value, slot, []⟩ :: uses, after⟩) S := by
  rw [n.met_use]
  exact (h.slot slot d).bind hf

/-- …likewise for an index, -/
theorem index (slot : String) {f : Expr → RenderM α}
    (hf : ∀ e : Expr, e.int? = n.block.integerIn? slot (some 1) →
      Traces declared names (f e.zeroBased) (n.met names ⟨[], uses, after⟩) S) :
    Traces declared names (n.index slot >>= f)
      (n.met names ⟨[], ⟨.value, slot, []⟩ :: uses, after⟩) S := by
  rw [Node.index, bind_assoc]
  exact h.value slot (.int 1) fun e he => by
    rw [pure_bind]
    exact hf e he

/-- …the values in a row of slots, -/
theorem valueList (stem : String) (count : Nat) (d : Expr) :
    Traces declared names (n.valueList stem count d)
      ((numberedValues stem count).flatMap (n.block.slotEvents names)) fun _ => True := by
  have hslot (i : Nat) : Traces declared names (n.value (stem ++ toString i) d)
      (n.block.slotEvents names ⟨.value, stem ++ toString i, []⟩) fun _ => True :=
    (h.slot _ d).imp fun _ _ => trivial
  refine (Traces.mapM hslot (List.range count)).of_eq ?_
  rw [numberedValues, valuesIn, List.map_map, List.flatMap_map]
  rfl

/-- …and what follows them, -/
theorem values_then (stem : String) (count : Nat) (d : Expr) {f : List Expr → RenderM α}
    (hf : ∀ es, Traces declared names (f es) after S) :
    Traces declared names (n.valueList stem count d >>= f)
      (n.met names ⟨[], numberedValues stem count, after⟩) S :=
  (h.valueList stem count d).bind fun es _ => hf es

/-- …and the chain of statements in a slot. -/
theorem suite (slot : String) :
    Traces declared names (n.suite slot) (n.block.slotEvents names ⟨.statement, slot, []⟩)
      fun _ => True := by
  unfold Node.suite Block.slotEvents
  dsimp only
  rcases h.statements.get? slot with ⟨hchild, hblock⟩ | ⟨child, b, hchild, hblock, htracks⟩
  · rw [hchild, hblock]
    exact .pure trivial
  · rw [hchild, hblock]
    exact htracks.chain _

/-- A value that is returned meets what the value does. -/
theorem returned (slot : String) :
    Traces declared names (n.result slot) (n.block.slotEvents names ⟨.value, slot, []⟩)
      fun _ => True := by
  unfold Node.result Block.slotEvents
  dsimp only
  rcases h.values.get? slot with ⟨hchild, hblock⟩ | ⟨child, b, hchild, hblock, htracks⟩
  · rw [hchild, hblock]
    exact .pure trivial
  · rw [hchild, hblock]
    exact htracks.result _

end Charts

/-! ## Segments of texts -/

theorem fits_of_le {j k : Int} (hj : 0 ≤ j) (hjk : j ≤ k) (hk : Integer.fits k) :
    Integer.fits j := by
  unfold Integer.fits at hk ⊢
  rw [decide_eq_true_eq] at hk ⊢
  rw [Nat.length_repr_le_iff (by decide)] at hk ⊢
  omega

theorem naturalLiteral?_eq_some {e : Expr} {k : Int} :
    naturalLiteral? e = some k ↔ e.int? = some k ∧ 0 ≤ k := by
  rw [naturalLiteral?_eq, Option.filter_eq_some_iff, decide_eq_true_eq]

/-- An index is the literal that comes before that of its position. -/
theorem int?_zeroBased_eq_some {e : Expr} {j : Int} :
    e.zeroBased.int? = some j ↔ e.int? = some (j + 1) ∧ fitting (j + 1) := by
  rw [zeroBased_eq]
  cases e.int? with
  | none => exact ⟨fun h => (by cases h), fun h => (by cases h.1)⟩
  | some k =>
    dsimp only
    rw [Option.some.injEq]
    split
    · rename_i hk
      rw [show (Expr.int (k - 1)).int? = some (k - 1) from rfl, Option.some.injEq]
      refine ⟨fun h => ?_, fun h => ?_⟩
      · obtain rfl : k = j + 1 := by omega
        exact ⟨rfl, hk⟩
      · omega
    · rename_i hk
      exact ⟨fun h => (by cases h), fun h => absurd (h.1 ▸ h.2) hk⟩

/-- The bounds of a segment are added up if the end is one that the block shows. -/
theorem segmentEnd?_eq_some {b : Block} {start size : Expr}
    (hstart : start.int? = b.integerIn? "START" (some 1))
    (hsize : size.int? = b.integerIn? "LENGTH" (some 1)) {l : Int} :
    b.segmentEnd? = some l ↔ ∃ j k, naturalLiteral? start.zeroBased = some j ∧
      naturalLiteral? size = some k ∧ Integer.fits j ∧ Integer.fits k ∧ l = j + k := by
  unfold Block.segmentEnd?
  rw [← hstart, ← hsize]
  simp only [naturalLiteral?_eq_some, int?_zeroBased_eq_some]
  cases start.int? with
  | none => simp
  | some s =>
    cases size.int? with
    | none => simp
    | some k =>
      simp only [Option.some.injEq, Option.ite_none_right_eq_some]
      constructor
      · rintro ⟨⟨hs, hk, hfits, hfits'⟩, rfl⟩
        have hbefore := fits_of_le (by omega) (by omega : s - 1 ≤ s) hfits
        refine ⟨s - 1, k, ⟨⟨by omega, ?_⟩, by omega⟩, ⟨rfl, hk⟩, hbefore, hfits', rfl⟩
        rw [Int.sub_add_cancel, fitting, hfits, hbefore]
        rfl
      · rintro ⟨j, k', ⟨⟨rfl, hfitting⟩, hj⟩, ⟨rfl, hk⟩, -, hfits', rfl⟩
        rw [fitting, Bool.and_eq_true] at hfitting
        exact ⟨⟨by omega, hk, hfitting.1, hfits'⟩, by omega⟩

/-- **A segment writes the end that its block shows**, which may have too many digits. -/
theorem traces_segment {declared : List (String × Kind)} {names : List String} {b : Block}
    {start size : Expr} (text : Expr) (hstart : start.int? = b.integerIn? "START" (some 1))
    (hsize : size.int? = b.integerIn? "LENGTH" (some 1)) :
    Traces declared names (segment text start.zeroBased size) (b.segmentEnd?.toList.map .integer)
      fun e => e.int? = none := by
  have hend {l : Int} := segmentEnd?_eq_some hstart hsize (l := l)
  unfold segment
  split
  · rename_i j k hj hk
    split
    · rename_i hfits
      rw [Bool.and_eq_true] at hfits
      rw [hend.mpr ⟨j, k, hj, hk, hfits.1, hfits.2, rfl⟩]
      split
      · rename_i hsum
        exact .cons (if_pos hsum) rfl rfl (.pure rfl)
      · rename_i hsum
        exact .throw (if_neg hsum)
    · rename_i hfits
      have hnone : b.segmentEnd? = none := by
        refine Option.eq_none_iff_forall_ne_some.mpr fun l hl => hfits ?_
        obtain ⟨j', k', hj', hk', hfitsj, hfitsk, -⟩ := hend.mp hl
        cases hj.symm.trans hj'
        cases hk.symm.trans hk'
        rw [hfitsj, hfitsk]
        rfl
      rw [hnone]
      exact .pure rfl
  · rename_i hnone
    have hnone : b.segmentEnd? = none := by
      refine Option.eq_none_iff_forall_ne_some.mpr fun l hl => ?_
      obtain ⟨j, k, hj, hk, -⟩ := hend.mp hl
      exact hnone j k hj hk
    rw [hnone]
    exact .pure rfl

/-- Names inside a frame are known in front of those outside. -/
theorem slotEvents_declared (b : Block) (names more : List String) (position : Position)
    (slot : String) :
    b.slotEvents names ⟨position, slot, more⟩ = b.slotEvents (more ++ names) ⟨position, slot, []⟩ :=
  rfl

/-- **The rule of a value type meets what its course lists.** -/
def ValueType.Met (declared : List (String × Kind)) (names : List String) (n : Node)
    (type : ValueType) : Prop :=
  Traces declared names (type.render n) (n.met names (type.course n.block names))
    fun e => e.int? = type.integer? n.block

namespace Charts

variable {declared : List (String × Kind)} {n : Node} (h : Charts declared n)
  {names : List String}

include h

/-! ## Lists -/

theorem listOf : ValueType.Met declared names n .listOf :=
  h.values_then "ADD" n.block.itemCount .none fun _ => .pure rfl

theorem listRepeat : ValueType.Met declared names n .listRepeat :=
  h.value "ITEM" _ fun _ _ => h.value "NUM" _ fun _ _ => .pure rfl

theorem listLength : ValueType.Met declared names n .listLength :=
  h.value "LIST" _ fun _ _ => .pure rfl

theorem listIsEmpty : ValueType.Met declared names n .listIsEmpty :=
  h.value "LIST" _ fun _ _ => .pure rfl

theorem listPosition : ValueType.Met declared names n .listPosition := by
  refine h.value "LIST" _ fun target _ => h.value "ITEM" _ fun item _ => ?_
  have hcall (key : String) (define : String → String) :
      Traces declared names (helper key define >>= fun function =>
          pure (Expr.call function [target, item])) [.helper key] fun e => e.int? = none :=
    (traces_helper key define).bind fun _ _ => .pure rfl
  change Traces declared names _ [.helper n.block.positionKey] _
  unfold Block.positionKey
  split
  · exact hcall _ _
  · exact hcall _ _

theorem listItem : ValueType.Met declared names n .listItem := by
  change Traces declared names n.listItem _ _
  unfold Node.listItem
  rw [h.values.has]
  exact h.value "LIST" _ fun _ _ => h.index _ fun _ _ => .pure rfl

theorem listCopy : ValueType.Met declared names n .listCopy :=
  h.value "LIST" _ fun _ _ => .pure rfl

theorem listMember : ValueType.Met declared names n .listMember :=
  h.value "ITEM" _ fun _ _ => h.value "LIST" _ fun _ _ => .pure rfl

theorem listRandomItem : ValueType.Met declared names n .listRandomItem :=
  traces_requireRandom.bind fun _ _ => h.value "LIST" _ fun _ _ => .pure rfl

theorem isList : ValueType.Met declared names n .isList :=
  h.value "ITEM" _ fun _ _ => .pure rfl

/-! ## Texts -/

theorem textEnd : ValueType.Met declared names n .textEnd := by
  refine h.value "TEXT" _ fun text _ => h.value "NUM" _ fun count _ => ?_
  split
  · exact .pure rfl
  · rw [lastChars_eq]
    split
    · exact .pure rfl
    · exact .pure rfl

theorem textLength : ValueType.Met declared names n .textLength :=
  h.value "VALUE" _ fun _ _ => .pure rfl

theorem textIsEmpty : ValueType.Met declared names n .textIsEmpty :=
  h.value "VALUE" _ fun _ _ => .pure rfl

theorem textPosition : ValueType.Met declared names n .textPosition :=
  h.value "FIND" _ fun _ _ => h.value "VALUE" _ fun _ _ => .pure rfl

theorem textStartsAt : ValueType.Met declared names n .textStartsAt :=
  h.value "TEXT" _ fun _ _ => h.value "PIECE" _ fun _ _ => .pure rfl

theorem textChar : ValueType.Met declared names n .textChar :=
  h.index "AT" fun _ _ => h.value "VALUE" _ fun _ _ => .pure rfl

theorem textSegment : ValueType.Met declared names n .textSegment :=
  h.value "TEXT" _ fun text _ => h.index "START" fun _ hstart => h.value "LENGTH" _ fun _ hsize =>
    traces_segment text hstart hsize

theorem textThrough (selector : String) :
    Traces declared names (n.textThrough selector) (n.met names { uses := valuesIn ["TEXT"] })
      fun e => e.int? = none :=
  h.value "TEXT" _ fun _ _ => .pure rfl

theorem textContains : ValueType.Met declared names n .textContains :=
  h.value "TEXT" _ fun _ _ => h.value "PIECE" _ fun _ _ => .pure rfl

theorem textReplaceAll : ValueType.Met declared names n .textReplaceAll :=
  h.value "TEXT" _ fun _ _ => h.value "SEGMENT" _ fun _ _ => h.value "REPLACEMENT" _ fun _ _ =>
    .pure rfl

theorem textCompare : ValueType.Met declared names n .textCompare :=
  h.value "TEXT1" _ fun _ _ => h.value "TEXT2" _ fun _ _ => .pure rfl

theorem textJoin : ValueType.Met declared names n .textJoin := by
  refine h.values_then "ADD" n.block.itemCount (.text "") fun operands => ?_
  split
  · exact .pure rfl
  · exact .pure rfl
  · exact .pure rfl
  · exact (Traces.idle fun _ => ⟨_, rfl⟩).bind fun _ _ => .pure rfl

omit h in
theorem textPrompt : ValueType.Met declared names n .textPrompt := by
  refine (traces_helper _ _).bind fun function _ => ?_
  dsimp only
  split
  · exact .pure rfl
  · exact .pure rfl

/-! ## Names, numbers and truth values -/

omit h in
theorem variableGet : ValueType.Met declared names n .variableGet :=
  (traces_resolve n.block "VAR" (n.block.field "VAR") (by decide)).bind fun _ _ => .pure rfl

omit h in
/-- The identifier of a lexical reference. -/
theorem lexicalName : Traces declared names n.lexicalName
    [.query n.block.lexicalQuery names (.ofSlot n.block "VAR")] fun _ => True := by
  have hreference : n.lexicalName = reference n.block "VAR" n.block.lexicalQuery.resolve := by
    unfold Node.lexicalName Block.lexicalQuery Query.resolve
    by_cases hword : (splitScopeWord (n.block.field "VAR")).1 = "global"
    · simp only [hword, if_true, decide_true, resolveGlobal]
    · simp only [hword, if_false, decide_false, resolve, Bool.false_eq_true]
  rw [hreference]
  exact traces_reference _ _ (show Kind.ofVariable ≠ Kind.ofHelper by decide)

omit h in
theorem lexicalGet : ValueType.Met declared names n .lexicalGet :=
  lexicalName.bind fun _ _ => .pure rfl

/-- Local names for a slot that knows them; the first values are met outside. -/
theorem locally {α β : Type} {R : α → Prop} {S : β → Prop} {position : Position} {slot : String}
    {m : RenderM α} {f : List Expr → List String → α → β}
    (hm : Traces declared (n.block.declaredNames ++ names) m
      (n.block.slotEvents (n.block.declaredNames ++ names) ⟨position, slot, []⟩) R)
    (hf : ∀ values identifiers a, R a → S (f values identifiers a)) :
    Traces declared names (do
        let values ← n.firstValues
        frame do
          let identifiers ← n.bindDeclared
          let a ← m
          pure (f values identifiers a))
      (n.met names ⟨[], numberedValues "DECL" n.block.declaredNames.length
        ++ [⟨position, slot, n.block.declaredNames⟩], []⟩) S := by
  rw [n.met_uses, n.met_use, slotEvents_declared]
  exact (h.valueList "DECL" _ .zero).bind fun values _ =>
    (Traces.frame fun identifiers => hm.bindPure (hf values identifiers)).of_eq
      (List.append_nil _).symm

theorem localExpression : ValueType.Met declared names n .localExpression :=
  h.locally (h.slot "RETURN" .none) fun _ _ _ _ => rfl

theorem arithmetic : ValueType.Met declared names n .arithmetic :=
  h.value "A" _ fun _ _ => h.value "B" _ fun _ _ => .pure rfl

theorem negation : ValueType.Met declared names n .negation :=
  h.value "BOOL" _ fun _ _ => .pure rfl

theorem logic : ValueType.Met declared names n .logic :=
  h.value "A" _ fun _ _ => h.value "B" _ fun _ _ => .pure rfl

theorem procedureCall : ValueType.Met declared names n .procedureCall := by
  change Traces declared names n.procedureCall _ _
  exact (traces_resolve n.block "PROCNAME" (n.block.field "PROCNAME") (by decide)).bind
    fun _ _ => h.values_then "ARG" n.block.argumentCount .none fun _ => .pure rfl

omit h in
theorem number : ValueType.Met declared names n .number := by
  refine .pure ?_
  unfold Node.number ValueType.integer?
  cases Numeral.ofText (n.block.fieldOr "NUM" "0") <;> rfl

/-- **Every value rule meets what its course lists.** -/
theorem met : ∀ type : ValueType, type.Met declared names n
  | .emptyList => .pure rfl
  | .listOf => h.listOf
  | .listRepeat => h.listRepeat
  | .listLength => h.listLength
  | .listIsEmpty => h.listIsEmpty
  | .listPosition => h.listPosition
  | .listItem => h.listItem
  | .listCopy => h.listCopy
  | .listMember => h.listMember
  | .listRandomItem => h.listRandomItem
  | .isList => h.isList
  | .text => .pure rfl
  | .textJoin => h.textJoin
  | .textLength => h.textLength
  | .textIsEmpty => h.textIsEmpty
  | .textEnd => h.textEnd
  | .textPosition => h.textPosition
  | .textStartsAt => h.textStartsAt
  | .textChar => h.textChar
  | .textSegment => h.textSegment
  | .textCase => h.textThrough _
  | .textTrim => h.textThrough _
  | .textContains => h.textContains
  | .textSplit => h.textThrough _
  | .textReplaceAll => h.textReplaceAll
  | .textCompare => h.textCompare
  | .textPrompt => textPrompt
  | .variableGet => variableGet
  | .lexicalGet => lexicalGet
  | .localExpression => h.localExpression
  | .number => number
  | .arithmetic => h.arithmetic
  | .truth => .pure rfl
  | .negation => h.negation
  | .logic => h.logic
  | .procedureCall => h.procedureCall

end Charts

/-! ## Statements -/

/-- **The rule of a statement type meets what its course lists.** -/
def StatementType.Met (declared : List (String × Kind)) (names : List String) (n : Node)
    (type : StatementType) : Prop :=
  Traces declared names (type.render n) (n.met names (type.course n.block names)) fun _ => True

namespace Charts

variable {declared : List (String × Kind)} {n : Node} (h : Charts declared n)
  {names : List String}

include h

theorem listReplace (place replacement : String) :
    Traces declared names (n.listReplace place replacement)
      (n.met names { uses := valuesIn ["LIST", place, replacement] }) fun _ => True :=
  h.value "LIST" _ fun _ _ => h.index place fun _ _ => h.value replacement _ fun _ _ =>
    .pure trivial

theorem listAddItems : StatementType.Met declared names n .listAddItems := by
  refine h.value "LIST" _ fun target _ =>
    h.values_then "ITEM" (max n.block.itemCount 1) .none fun items => ?_
  split
  · exact .pure trivial
  · exact .pure trivial

theorem listInsert : StatementType.Met declared names n .listInsert :=
  h.value "LIST" _ fun _ _ => h.index "INDEX" fun _ _ => h.value "ITEM" _ fun _ _ => .pure trivial

theorem listRemove : StatementType.Met declared names n .listRemove :=
  h.value "LIST" _ fun _ _ => h.index "INDEX" fun _ _ => .pure trivial

theorem listAppendList : StatementType.Met declared names n .listAppendList :=
  h.value "LIST0" _ fun _ _ => h.value "LIST1" _ fun _ _ => .pure trivial

theorem textAppend : StatementType.Met declared names n .textAppend :=
  lexicalName.bind fun _ _ => h.value "TEXT" _ fun _ _ => .pure trivial

theorem textPrint : StatementType.Met declared names n .textPrint :=
  h.value "TEXT" _ fun _ _ => .pure trivial

theorem variableSet : StatementType.Met declared names n .variableSet :=
  h.value "VALUE" _ fun _ _ =>
    (traces_resolve n.block "VAR" (n.block.field "VAR") (by decide)).bind fun _ _ => .pure trivial

theorem globalDeclaration : StatementType.Met declared names n .globalDeclaration :=
  (traces_resolveGlobal n.block "NAME" (n.block.field "NAME") (by decide)).bind fun _ _ =>
    h.value "VALUE" _ fun _ _ => .pure trivial

theorem lexicalSet : StatementType.Met declared names n .lexicalSet :=
  lexicalName.bind fun _ _ => h.value "VALUE" _ fun _ _ => .pure trivial

theorem localStatement : StatementType.Met declared names n .localStatement :=
  h.locally (h.suite "STACK") fun _ _ _ _ => trivial

theorem clause (i : Nat) :
    Traces declared names (n.clause i) ((clauseUses i).flatMap (n.block.slotEvents names))
      fun _ => True :=
  ((h.slot ("IF" ++ toString i) (.truth false)).bind fun _ _ =>
    (h.suite ("DO" ++ toString i)).bindPure fun _ _ => trivial).of_eq (by simp [clauseUses])

theorem conditional : StatementType.Met declared names n .conditional := by
  have hotherwise : n.hasOtherwise
      = (n.block.mutation.get? "else" = some "1" || n.block.statements.has "ELSE") := by
    rw [Node.hasOtherwise, h.statements.has]
  change Traces declared names n.conditional (n.met names ⟨[], _ ++ _, []⟩) _
  unfold Node.conditional
  rw [hotherwise, n.met_uses]
  have hclause (i : Nat) : Traces declared names (n.clause i) _ _ := h.clause i
  refine ((Traces.mapM hclause _).of_eq List.flatMap_assoc.symm).bind fun clauses _ => ?_
  split
  · exact ((h.suite "ELSE").bindPure fun _ _ => trivial).of_eq (by simp [Node.met, Course.events])
  · exact .pure trivial

theorem procedureDefine (returns : Bool) :
    Traces declared names (n.procedureDefine returns)
      (n.met names
        { before := [n.block.fieldQuery "NAME" .ofProcedure true names]
          uses := ⟨.statement, "STACK", n.block.declaredNames⟩ ::
            if returns then [⟨.value, "RETURN", n.block.declaredNames⟩] else [] })
      fun _ => True := by
  refine (traces_resolveGlobal n.block "NAME" (n.block.field "NAME") (by decide)).bind
    fun identifier _ => (Traces.idle fun _ => ⟨_, rfl⟩).bind fun outermost _ => ?_
  change Traces declared names (frame (n.bindDeclared >>= _)) (n.met names ⟨[], _ :: _, []⟩) _
  rw [n.met_use, slotEvents_declared]
  refine Traces.frame fun parameters => (h.suite "STACK").bind fun body _ => ?_
  cases returns with
  | true =>
    change Traces declared _ _ (n.met names ⟨[], [_], []⟩) _
    rw [n.met_use, slotEvents_declared]
    exact (h.returned "RETURN").bind fun _ _ => .pure trivial
  | false => exact .pure trivial

theorem procedureCallLine : StatementType.Met declared names n .procedureCall :=
  h.procedureCall.map fun _ _ => trivial

/-- **Every statement rule meets what its course lists.** -/
theorem metStatement : ∀ type : StatementType, type.Met declared names n
  | .listSetItem => h.listReplace "AT" "TO"
  | .listAddItems => h.listAddItems
  | .listInsert => h.listInsert
  | .listReplaceItem => h.listReplace "NUM" "ITEM"
  | .listRemove => h.listRemove
  | .listAppendList => h.listAppendList
  | .textAppend => h.textAppend
  | .textPrint => h.textPrint
  | .variableSet => h.variableSet
  | .globalDeclaration => h.globalDeclaration
  | .lexicalSet => h.lexicalSet
  | .localStatement => h.localStatement
  | .conditional => h.conditional
  | .procedure => h.procedureDefine false
  | .function => h.procedureDefine true
  | .procedureCall => h.procedureCallLine

end Charts

/-! ## Positions -/

namespace Charts

variable {declared : List (String × Kind)} {n : Node} (h : Charts declared n)
  {names : List String}

include h

/-- The block as a value, which may stand as a statement, -/
theorem asValue {position : Position}
    (hposition : position = .value ∨ StatementType.ofName? n.block.type = none) :
    Traces declared names n.asValue (Visit.events ⟨position, n.block, names⟩)
      fun e => e.int? = n.block.integer? := by
  unfold Node.asValue Block.integer?
  rw [Visit.events, Visit.course_of_value hposition]
  dsimp only
  cases htype : ValueType.ofName? n.block.type with
  | some type => exact .cons (by rw [Event.defect?, Visit.defect?, htype]) rfl rfl (h.met type)
  | none =>
    refine .throw ?_
    rw [Event.defect?, Visit.defect?, htype]
    dsimp only
    rcases hposition with rfl | hstatement
    · cases StatementType.ofName? n.block.type <;> rfl
    · rw [hstatement]

/-- …the block alone as statements, -/
theorem asStatement : Traces declared names n.asStatement
    (Visit.events ⟨.statement, n.block, names⟩) fun _ => True := by
  unfold Node.asStatement
  cases htype : StatementType.ofName? n.block.type with
  | some type =>
    have hcourse : Visit.course ⟨.statement, n.block, names⟩ = type.course n.block names := by
      rw [Visit.course, htype]
    rw [Visit.events, hcourse]
    refine .cons ?_ rfl rfl (h.metStatement type)
    rw [Event.defect?, Visit.defect?, htype]
    cases ValueType.ofName? n.block.type <;> rfl
  | none => exact (h.asValue (Or.inr htype)).map fun _ _ => trivial

/-- …and the statements that return its value. -/
theorem asResult : Traces declared names n.asResult (Visit.events ⟨.value, n.block, names⟩)
    fun _ => True := by
  unfold Node.asResult
  split
  · rename_i htype
    rw [Visit.events, Visit.course_of_value (Or.inl rfl), htype]
    refine .cons ?_ rfl rfl (h.locally (h.returned "RETURN") fun _ _ _ _ => trivial)
    rw [Event.defect?, Visit.defect?, htype]
  · exact (h.asValue (Or.inl rfl)).bindPure fun _ _ => trivial

end Charts

end Render

open Render Name

/-! ## Blocks -/

mutual

/-- **The renderings of a block meet what its tours list.** -/
theorem Block.tracks_tour (declared : List (String × Kind)) :
    ∀ b : Block, Tracks declared b.rendering b
  | .mk type id fields values statements next mutation => by
      let b : Block := .mk type id fields values statements next mutation
      have h : Charts declared b.node :=
        ⟨slots_track_tours declared values, slots_track_tours declared statements⟩
      refine ⟨fun names => ?_, fun names => ?_, fun names => ?_⟩
      · rw [Block.tour_value]
        exact h.asValue (Or.inl rfl)
      · rw [Block.tour_value]
        exact h.asResult
      · rw [Block.tour_chain]
        exact h.asStatement.bind fun _ _ =>
          (below_tracks_tour declared next names).bindPure fun _ _ => trivial
termination_by structural b => b

/-- …and so do those of the blocks in slots, -/
theorem slots_track_tours (declared : List (String × Kind)) : ∀ slots : List (String × Block),
    Record.Related (Tracks declared) (slotRenderings slots) slots
  | [] => .nil
  | (_, child) :: rest => .cons ⟨rfl, child.tracks_tour declared⟩ (slots_track_tours declared rest)
termination_by structural slots => slots

/-- …and those of the chain below. -/
theorem below_tracks_tour (declared : List (String × Kind)) :
    ∀ (below : Option Block) (names : List String),
      Traces declared names (chainBelow below) (tourBelow below names) fun _ => True
  | none, _ => .pure trivial
  | some below, names => (below.tracks_tour declared).chain names
termination_by structural below => below

end

/-- **The chains of a forest meet what its tour lists.** -/
theorem Forest.traces_tour (declared : List (String × Kind)) (forest : Forest) :
    Traces declared [] (forest.mapM fun b => b.rendering.chain) (Forest.tour forest)
      fun _ => True :=
  .mapM (fun b => (b.tracks_tour declared).chain []) forest

end Jigsaw
