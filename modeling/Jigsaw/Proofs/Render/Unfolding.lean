import Jigsaw.Proofs.Render.Call
import Jigsaw.Proofs.Render.Capture
import Jigsaw.Proofs.Render.IndexCode

/-!
# Proofs/Render/Unfolding — local names as assignments

A local declaration is written in two ways: as a binder around a value, and as assignments in front
of statements or of a returned value.  The two agree because of the identifiers that declarations
get.  They are owned by no open frame, and they are free in none of the first values: what is free
in a value is named in the view outside (`Spells.exists_naming_of_mem_free`), and a new frame gives
its names identifiers that the view gives to nothing.

So the statements that return a value are its binders unfolded (`Expr.unfolded`), in every pass and
whether rendering succeeds or fails, and running them returns what the value evaluates to
(`run_unfolded`).  There is one exception.  A declaration may name one variable twice; the row of
assignments then sets it twice, but the binder takes one parameter twice, and the language refuses
it.  Which values are refused for that reason alone can be read off the blocks
(`Block.DeclaresOnce`).
-/

namespace Jigsaw

/-! ## Free names are named outside -/

namespace Tree

variable {ν μ : Type}

theorem occurrencesAll_append (binders : List (List ν)) : ∀ ts us : List (Tree ν),
    occurrencesAll binders (ts ++ us) = occurrencesAll binders ts ++ occurrencesAll binders us
  | [], _ => rfl
  | t :: ts, us => by
      rw [List.cons_append, occurrencesAll, occurrencesAll, occurrencesAll_append binders ts us,
        List.append_assoc]

theorem occurrencesAll_operands (binders : List (List ν)) (op : BinaryOp) (t : Tree ν) :
    occurrencesAll binders (t.operands op) = t.occurrences binders := by
  have hself : occurrencesAll binders [t] = t.occurrences binders := List.append_nil _
  cases t with
  | chain op' ts =>
    rw [operands]
    split
    · rfl
    · exact hself
  | _ => exact hself

theorem occurrences_operation (binders : List (List ν)) (op : BinaryOp) (t u : Tree ν) :
    (operation op t u).occurrences binders = t.occurrences binders ++ u.occurrences binders := by
  rw [operation]
  split
  · rw [occurrences, occurrencesAll_append, occurrencesAll_operands, occurrencesAll_operands]
  · rfl

/-- What is free means what it means outside. -/
theorem eq_of_place_eq_free [DecidableEq ν] {outside : ν → μ} {n : ν} {m : μ} :
    ∀ {binders : List (List ν)}, place outside n binders = .free m → outside n = m
  | [], h => by
      cases h
      rfl
  | group :: outer, h => by
      rw [place] at h
      split at h
      · cases h
      · cases hplace : place outside n outer with
        | bound depth position =>
          rw [hplace] at h
          cases h
        | free meaning =>
          rw [hplace] at h
          cases h
          exact eq_of_place_eq_free hplace

section

variable [DecidableEq ν] (outside : ν → μ)

mutual

/-- The names of the tree of places are the places of the names. -/
theorem map_occurrences_resolve : ∀ (binders : List (List ν)) (around : List (List (Place μ)))
    (t : Tree ν), ((t.resolve outside binders).occurrences around).map Prod.fst
      = (t.occurrences binders).map fun o => place outside o.1 o.2
  | _, _, .name _ => rfl
  | _, _, .integer _ | _, _, .floating _ | _, _, .text _ | _, _, .truth _ | _, _, .none => rfl
  | binders, around, .list items => map_occurrencesAll_resolve binders around items
  | _, _, .collect element binder source => by
      rw [resolve, occurrences, occurrences, List.map_append, List.map_append,
        map_occurrences_resolve _ _ element, map_occurrences_resolve _ _ source]
  | _, _, .lambda parameters body => map_occurrences_resolve (parameters :: _) (_ :: _) body
  | _, _, .call function arguments => by
      rw [resolve, occurrences, occurrences, List.map_append, List.map_append,
        map_occurrences_resolve _ _ function, map_occurrencesAll_resolve _ _ arguments]
  | _, _, .method receiver _ arguments => by
      rw [resolve, occurrences, occurrences, List.map_append, List.map_append,
        map_occurrences_resolve _ _ receiver, map_occurrencesAll_resolve _ _ arguments]
  | _, _, .item receiver index => by
      rw [resolve, occurrences, occurrences, List.map_append, List.map_append,
        map_occurrences_resolve _ _ receiver, map_occurrences_resolve _ _ index]
  | _, _, .sliceFrom receiver start => by
      rw [resolve, occurrences, occurrences, List.map_append, List.map_append,
        map_occurrences_resolve _ _ receiver, map_occurrences_resolve _ _ start]
  | _, _, .sliceTo receiver stop => by
      rw [resolve, occurrences, occurrences, List.map_append, List.map_append,
        map_occurrences_resolve _ _ receiver, map_occurrences_resolve _ _ stop]
  | _, _, .slice receiver start stop => by
      rw [resolve, occurrences, occurrences, List.map_append, List.map_append, List.map_append,
        List.map_append, map_occurrences_resolve _ _ receiver, map_occurrences_resolve _ _ start,
        map_occurrences_resolve _ _ stop]
  | binders, around, .negate operand => map_occurrences_resolve binders around operand
  | binders, around, .not operand => map_occurrences_resolve binders around operand
  | _, _, .binary _ left right => by
      rw [resolve, occurrences, occurrences, List.map_append, List.map_append,
        map_occurrences_resolve _ _ left, map_occurrences_resolve _ _ right]
  | binders, around, .chain _ operands => map_occurrencesAll_resolve binders around operands

theorem map_occurrencesAll_resolve : ∀ (binders : List (List ν)) (around : List (List (Place μ)))
    (ts : List (Tree ν)),
    (occurrencesAll around (resolveAll outside binders ts)).map Prod.fst
      = (occurrencesAll binders ts).map fun o => place outside o.1 o.2
  | _, _, [] => rfl
  | _, _, t :: rest => by
      rw [resolveAll, occurrencesAll, occurrencesAll, List.map_append, List.map_append,
        map_occurrences_resolve _ _ t, map_occurrencesAll_resolve _ _ rest]

end

end

/-- A name among these occurrences has no binder around it that binds it. -/
def Uncaptured (x : ν) (occurrences : List (ν × List (List ν))) : Prop :=
  ∃ groups, (x, groups) ∈ occurrences ∧ ∀ group ∈ groups, x ∉ group

theorem Uncaptured.left {x : ν} {as : List (ν × List (List ν))} (h : Uncaptured x as)
    (bs : List (ν × List (List ν))) : Uncaptured x (as ++ bs) := by
  obtain ⟨groups, hmem, hgroups⟩ := h
  exact ⟨groups, List.mem_append_left _ hmem, hgroups⟩

theorem Uncaptured.right {x : ν} {bs : List (ν × List (List ν))}
    (as : List (ν × List (List ν))) (h : Uncaptured x bs) : Uncaptured x (as ++ bs) := by
  obtain ⟨groups, hmem, hgroups⟩ := h
  exact ⟨groups, List.mem_append_right _ hmem, hgroups⟩

end Tree

namespace Expr

variable {x : String}

/-- What occurs in one of two parts. -/
theorem uncaptured_append {as bs : List String} {os ps : List (String × List (List String))}
    (ha : x ∈ as → Tree.Uncaptured x os) (hb : x ∈ bs → Tree.Uncaptured x ps) (h : x ∈ as ++ bs) :
    Tree.Uncaptured x (os ++ ps) :=
  (List.mem_append.mp h).elim (fun h => (ha h).left ps) fun h => (hb h).right os

mutual

/-- **A free name occurs uncaptured in the tree.** -/
theorem uncaptured_of_mem_free : ∀ {binders : List (List String)} (e : Expr),
    (∀ group ∈ binders, x ∉ group) → x ∈ e.free →
      Tree.Uncaptured x (e.tree.occurrences binders)
  | binders, .name y, hb, h => by
      obtain rfl := List.mem_singleton.mp h
      exact ⟨binders, List.mem_cons_self, hb⟩
  | _, .list items, hb, h => uncaptured_of_mem_freeAll items hb h
  | _, .collect element binder source, hb, h =>
    uncaptured_append
      (fun h => by
        obtain ⟨hx, hne⟩ := List.mem_filter.mp h
        refine uncaptured_of_mem_free element (List.forall_mem_cons.mpr ⟨fun hmem => ?_, hb⟩) hx
        exact absurd (List.mem_singleton.mp hmem) (by simpa using hne))
      (uncaptured_of_mem_free source hb) h
  | binders, .call function arguments, hb, h => by
      rcases List.mem_cons.mp h with rfl | h
      · exact ⟨binders, List.mem_cons_self, hb⟩
      · exact (uncaptured_of_mem_freeAll arguments hb h).right _
  | _, .method receiver _ arguments, hb, h =>
    uncaptured_append (uncaptured_of_mem_free receiver hb)
      (uncaptured_of_mem_freeAll arguments hb) h
  | _, .item receiver index, hb, h =>
    uncaptured_append (uncaptured_of_mem_free receiver hb) (uncaptured_of_mem_free index hb) h
  | _, .sliceFrom receiver start, hb, h =>
    uncaptured_append (uncaptured_of_mem_free receiver hb) (uncaptured_of_mem_free start hb) h
  | _, .sliceTo receiver stop, hb, h =>
    uncaptured_append (uncaptured_of_mem_free receiver hb) (uncaptured_of_mem_free stop hb) h
  | _, .slice receiver start stop, hb, h =>
    uncaptured_append
      (uncaptured_append (uncaptured_of_mem_free receiver hb) (uncaptured_of_mem_free start hb))
      (uncaptured_of_mem_free stop hb) h
  | _, .negate operand, hb, h => uncaptured_of_mem_free operand hb h
  | _, .not operand, hb, h => uncaptured_of_mem_free operand hb h
  | _, .binary op left right, hb, h => by
      rw [tree, Tree.occurrences_operation]
      exact uncaptured_append (uncaptured_of_mem_free left hb) (uncaptured_of_mem_free right hb) h
  | _, .letIn parameters arguments body, hb, h =>
    uncaptured_append
      (fun h => by
        obtain ⟨hx, hne⟩ := List.mem_filter.mp h
        exact uncaptured_of_mem_free body
          (List.forall_mem_cons.mpr ⟨by simpa using hne, hb⟩) hx)
      (uncaptured_of_mem_freeAll arguments hb) h

theorem uncaptured_of_mem_freeAll : ∀ {binders : List (List String)} (es : List Expr),
    (∀ group ∈ binders, x ∉ group) → x ∈ freeAll es →
      Tree.Uncaptured x (Tree.occurrencesAll binders (trees es))
  | _, e :: rest, hb, h =>
    uncaptured_append (uncaptured_of_mem_free e hb) (uncaptured_of_mem_freeAll rest hb) h

end

end Expr

/-- **What is free in an expression is named**: it is the identifier of a reference in the tree that
the expression spells. -/
theorem Spells.exists_naming_of_mem_free {ρ : Naming} {t : Tree Ref} {e : Expr} (h : Spells ρ t e)
    {x : String} (hx : x ∈ e.free) : ∃ r, ρ r = some x := by
  have hfree : Tree.Uncaptured x (e.tree.occurrences []) :=
    Expr.uncaptured_of_mem_free e (fun _ hg => absurd hg List.not_mem_nil) hx
  obtain ⟨groups, hmem, hgroups⟩ := hfree
  have hplace : Place.free (some x)
      ∈ (e.tree.occurrences []).map fun o => Tree.place some o.1 o.2 :=
    List.mem_map.mpr ⟨_, hmem, Tree.place_eq_free some hgroups⟩
  have hresolve : t.resolve ρ [] = e.tree.resolve some [] := h.resolve (.nil (.refl ρ))
  rw [← Tree.map_occurrences_resolve some [] [], ← hresolve, Tree.map_occurrences_resolve] at hplace
  obtain ⟨o, -, ho⟩ := List.mem_map.mp hplace
  exact ⟨o.1, Tree.eq_of_place_eq_free ho⟩

theorem Spells.exists_of_mem {ρ : Naming} {ts : List (Tree Ref)} {es : List Expr}
    (h : List.Forall₂ (Spells ρ) ts es) : ∀ e ∈ es, ∃ t, Spells ρ t e := by
  induction h with
  | nil => exact fun _ he => absurd he List.not_mem_nil
  | cons h _ ih => exact List.forall_mem_cons.mpr ⟨⟨_, h⟩, ih⟩

/-! ## Unfolding binders -/

/-- The identifiers of local names: as many as the values, in no list of identifiers that are taken,
and free in none of the values. -/
structure Fresh (taken identifiers : List String) (values : List Expr) : Prop where
  length : identifiers.length = values.length
  unowned : ∀ x ∈ identifiers, x ∉ taken
  unread : ∀ x ∈ identifiers, ∀ e ∈ values, x ∉ e.free

theorem Fresh.mono {taken more identifiers : List String} {values : List Expr}
    (h : Fresh more identifiers values) (hsub : taken ⊆ more) : Fresh taken identifiers values :=
  ⟨h.length, fun x hx hmem => h.unowned x hx (hsub hmem), h.unread⟩

namespace Expr

/-- The lines that return a value, with the binders around it unfolded into assignments. -/
def unfolded : Expr → List Stmt
  | letIn identifiers values body =>
    List.zipWith Render.Node.assignLine identifiers values ++ body.unfolded
  | e => [.simple (.result e)]

/-- Every binder around the value has fresh identifiers, where those of the binders outside it are
taken, too. -/
def Hygienic (taken : List String) : Expr → Prop
  | letIn identifiers values body =>
    Fresh taken identifiers values ∧ body.Hygienic (taken ++ identifiers)
  | _ => True

/-- No binder around the value takes a parameter twice. -/
def BindsOnce : Expr → Prop
  | letIn identifiers _ body => identifiers.Nodup ∧ body.BindsOnce
  | _ => True

/-- The expression is a binder of local names. -/
def IsLet (e : Expr) : Prop := ∃ identifiers values body, e = .letIn identifiers values body

theorem unfolded_of_not_isLet {e : Expr} (h : ¬ e.IsLet) : e.unfolded = [.simple (.result e)] := by
  unfold unfolded
  split
  · exact absurd ⟨_, _, _, rfl⟩ h
  · rfl

theorem hygienic_of_not_isLet {e : Expr} (h : ¬ e.IsLet) (taken : List String) :
    e.Hygienic taken := by
  unfold Hygienic
  split
  · exact absurd ⟨_, _, _, rfl⟩ h
  · trivial

theorem bindsOnce_of_not_isLet {e : Expr} (h : ¬ e.IsLet) : e.BindsOnce := by
  unfold BindsOnce
  split
  · exact absurd ⟨_, _, _, rfl⟩ h
  · trivial

theorem Hygienic.mono {e : Expr} {taken more : List String} (h : e.Hygienic more)
    (hsub : taken ⊆ more) : e.Hygienic taken := by
  induction e using unfolded.induct generalizing taken more with
  | case1 identifiers values body ih =>
    obtain ⟨hfresh, hbody⟩ := h
    exact ⟨hfresh.mono hsub, ih hbody (List.append_subset.mpr
      ⟨List.subset_append_of_subset_left _ hsub, List.subset_append_right _ _⟩)⟩
  | case2 e hlet =>
    exact hygienic_of_not_isLet (fun ⟨_, _, _, heq⟩ => hlet _ _ _ heq) taken

end Expr

namespace Semantics

variable {M : Type → Type} [Monad M] [LawfulMonad M] {V : Type} (I : Semantics M V)

end Semantics

namespace Tree

variable {ν μ : Type}

/-- The tree of a binder of local names. -/
def isLet : Tree ν → Bool
  | .call (.lambda _ _) _ => true
  | _ => false

theorem isLet_resolve [DecidableEq ν] (outside : ν → μ) (binders : List (List ν)) (t : Tree ν) :
    (t.resolve outside binders).isLet = t.isLet := by
  cases t with
  | call function arguments => cases function <;> rfl
  | _ => rfl

theorem isLet_operation (op : BinaryOp) (t u : Tree ν) : (operation op t u).isLet = false := by
  rw [operation]
  split <;> rfl

theorem isLet_ofNumeral (value : Numeral) : (ofNumeral value : Tree ν).isLet = false := by
  cases value with
  | integer k =>
    rw [ofNumeral, ofInt]
    split <;> rfl
  | floating negative x => cases negative <;> rfl

theorem isLet_segment (text start size : Tree ν) : (segment text start size).isLet = false := by
  unfold segment
  split
  · split <;> rfl
  · rfl

theorem isLet_joined (ts : List (Tree Ref)) : (joined ts).isLet = false := by
  unfold joined
  split <;> rfl

end Tree

namespace Block

/-- **No variable is declared twice** by the local declarations around the value of a block: by the
block itself, by what it returns, and so on. -/
inductive DeclaresOnce : Block → Prop
  | plain {b : Block} (h : b.type ≠ "local_declaration_expression") : b.DeclaresOnce
  | chain {b : Block} (hnames : b.declaredNames.Nodup)
      (hreturned : ∀ child, b.values.get? "RETURN" = some child → child.DeclaresOnce) :
      b.DeclaresOnce

/-- None is declared twice around the value in a slot. -/
def ReturnsOnce (b : Block) (slot : String) : Prop :=
  ∀ child, b.values.get? slot = some child → child.DeclaresOnce

theorem declaresOnce_iff {b : Block} (h : b.type = "local_declaration_expression") :
    b.DeclaresOnce ↔ b.declaredNames.Nodup ∧ b.ReturnsOnce "RETURN" := by
  refine ⟨fun honce => ?_, fun ⟨hnames, hreturned⟩ => .chain hnames hreturned⟩
  cases honce with
  | plain hne => exact absurd h hne
  | chain hnames hreturned => exact ⟨hnames, hreturned⟩

end Block

namespace Render

theorem ValueType.ofName?_eq_localExpression {name : String} :
    ValueType.ofName? name = some .localExpression ↔ name = "local_declaration_expression" := by
  refine ⟨fun h => ?_, fun h => h ▸ rfl⟩
  unfold ValueType.ofName? at h
  split at h <;> first | rfl | cases h

/-- Only a local declaration is a binder. -/
theorem ValueType.isLet_tree (lowers : Int → Bool) (k : Sketch) {type : ValueType}
    (h : type ≠ .localExpression) : (type.tree lowers k).isLet = false := by
  cases type with
  | localExpression => exact absurd rfl h
  | textJoin => rw [ValueType.tree, Tree.isLet_joined]
  | textSegment => rw [ValueType.tree, Tree.isLet_segment]
  | number => rw [ValueType.tree, Tree.isLet_ofNumeral]
  | logic => rw [ValueType.tree, Tree.isLet_operation]
  | textEnd =>
    rw [ValueType.tree, Tree.lastChars]
    split
    · rfl
    · split <;> rfl
  | textPrompt =>
    rw [ValueType.tree]
    split <;> rfl
  | _ => rfl

theorem isLet_tree_of_isLet {e : Expr} (h : e.IsLet) : e.tree.isLet = true := by
  obtain ⟨identifiers, values, body, rfl⟩ := h
  rfl

/-- An expression that spells no binder is none. -/
theorem not_isLet_of_spells {ρ : Naming} {t : Tree Ref} {e : Expr} (h : Spells ρ t e)
    (ht : t.isLet = false) : ¬ e.IsLet := by
  intro he
  have hresolve : t.resolve ρ [] = e.tree.resolve some [] := h.resolve (.nil (.refl ρ))
  have hlet := isLet_tree_of_isLet he
  rw [← Tree.isLet_resolve some [], ← hresolve, Tree.isLet_resolve, ht] at hlet
  cases hlet

/-! ## One declaration -/

/-- Closes the frame that a step was run in. -/
def popped {α : Type} : EStateM.Result Error Pass α → EStateM.Result Error Pass α
  | .ok a q => .ok a { q with scope := q.scope.pop }
  | .error e q => .error e { q with scope := q.scope.pop }

theorem popped_eq_ok {α : Type} {result : EStateM.Result Error Pass α} {a : α} {q : Pass}
    (h : popped result = .ok a q) :
    ∃ r, result = .ok a r ∧ q = { r with scope := r.scope.pop } := by
  cases result with
  | ok b r => cases h; exact ⟨r, rfl, rfl⟩
  | error e r => cases h

/-- A local declaration around what is rendered in its frame. -/
def Node.locally {α : Type} (n : Node) (f : List String → List Expr → RenderM α) : RenderM α := do
  let values ← n.firstValues
  frame do
    let identifiers ← n.bindDeclared
    f identifiers values

/-- **What a local declaration does** on its way into its frame: it arrives at `r` with identifiers
that the frame owns and first values that read none of them. -/
structure Declares (names identifiers : List String) (values : List Expr) (r : Pass) : Prop where
  valid : Valid r
  length_names : identifiers.length = names.length
  length_values : identifiers.length = values.length
  nodup_iff : identifiers.Nodup ↔ names.Nodup
  unread : ∀ x ∈ identifiers, ∀ e ∈ values, x ∉ e.free
  own : ∃ frame outer, r.scope.locals = frame :: outer ∧ identifiers ⊆ frame.owned

/-- **A local declaration fails in front of its frame, or it declares**, whatever is rendered in the
frame. -/
theorem Matches.locally_run {n : Node} {k : Sketch} (h : Matches n k) {p : Pass} (hp : Valid p) :
    (∃ e q, ∀ {α : Type} (f : List String → List Expr → RenderM α), n.locally f p = .error e q) ∨
    ∃ identifiers values r, Declares n.block.declaredNames identifiers values r ∧
      ∀ {α : Type} (f : List String → List Expr → RenderM α),
        n.locally f p = popped (f identifiers values r) := by
  cases hvalues : n.firstValues p with
  | error e q => exact Or.inl ⟨e, q, fun f => bind_of_error hvalues⟩
  | ok values q =>
    right
    obtain ⟨hq, hpq⟩ := h.firstValues.composed.leads_of_ok hp hvalues
    obtain ⟨identifiers, r, hbind, hr⟩ := mapM_bindLocal_binds n.block.declaredNames hq.push rfl
    -- The first values are those of the view outside, and the frame is opened in the same view.
    have hagrees : Agrees r (helperNames r) := hr.valid.agrees
    have hbefore : Agrees q (helperNames r) :=
      ⟨fun hkey => hagrees.known (hr.library ▸ hkey), fun hkey =>
        (hagrees.apart hkey).imp (fun hx => hr.globals ▸ hx) fun hx hmem => hx (hr.allocated hmem)⟩
    have hspells := h.firstValues.outcome hp hvalues hbefore
    have hopens := opens_of_binds hq hr hagrees
    rw [hpq.view_eq] at hopens
    have hlength : values.length = n.block.declaredNames.length := by
      rw [← hspells.length_eq, Sketch.slots, List.length_map, List.length_range, h.block]
    refine ⟨identifiers, values, r, ⟨hr.valid, hopens.length.symm, ?_, hopens.nodup_iff,
      fun x hx e he hfree => ?_, ?_⟩, fun f => ?_⟩
    · rw [hlength, hopens.length]
    · obtain ⟨t, ht⟩ := Spells.exists_of_mem hspells e he
      obtain ⟨ref, href⟩ := ht.exists_naming_of_mem_free hfree
      rw [← map_snd_pairing hopens.length] at hx
      obtain ⟨a, ha, rfl⟩ := List.mem_map.mp hx
      exact hopens.fits.fresh ref _ href a ha rfl
    · obtain ⟨frame, hlocals, -, hidentifiers⟩ := hr.new_frame
      have hframe : frame ∈ r.scope.frames :=
        List.mem_append_left _ (hlocals ▸ List.mem_cons_self)
      refine ⟨frame, _, hlocals, fun x hx => ?_⟩
      rw [← map_snd_pairing hopens.length] at hx
      obtain ⟨a, ha, rfl⟩ := List.mem_map.mp hx
      obtain ⟨name, -, -, hname⟩ := mem_pairing hidentifiers ha
      exact (hr.valid.sound.owned frame hframe).mem_iff.mpr
        (Name.Frame.mem_identifiers_of_identifier? hname)
    · rw [Node.locally, bind_of_ok hvalues, frame_eq, Node.bindDeclared, bind_of_ok hbind]
      rfl

/-- An open scope is its innermost frame and what is open without it. -/
theorem openIdentifiers_eq_append {s : Name.Scope} {frame : Name.Frame} {outer : List Name.Frame}
    (h : s.locals = frame :: outer) :
    s.openIdentifiers = frame.owned ++ s.pop.openIdentifiers := by
  rw [Name.Scope.openIdentifiers_eq, Name.Scope.openIdentifiers_eq, h, List.flatMap_cons,
    List.append_assoc, Name.Scope.pop, h]
  rfl

/-- **The identifiers stay fresh**: once the frame is closed, no frame that is left owns one, not
even among the support routines that were asked for inside. -/
theorem Declares.fresh {names identifiers : List String} {values : List Expr} {r t : Pass}
    (h : Declares names identifiers values r) (ht : Valid t) (hrt : Leads r t) :
    Fresh t.scope.pop.openIdentifiers identifiers values ∧
      t.scope.pop.openIdentifiers ++ identifiers ⊆ t.scope.openIdentifiers := by
  obtain ⟨frame, outer, hlocals, hown⟩ := h.own
  have hopen := openIdentifiers_eq_append (hrt.locals.trans hlocals)
  have hnodup := ht.sound.nodup
  rw [hopen] at hnodup ⊢
  refine ⟨⟨h.length_values, fun x hx => ?_, h.unread⟩, ?_⟩
  · exact List.disjoint_of_nodup_append hnodup (hown hx)
  · exact List.append_subset.mpr ⟨List.subset_append_right _ _,
      List.subset_append_of_subset_left _ hown⟩

/-! ## Returned values -/

/-- The two renderings of a returned value: both fail, with the same error and in the same pass, or
the lines are the value unfolded; and the value is hygienic in the pass after it.  No binder around
the value takes a parameter twice exactly if `once`. -/
structure Unfolds (value : RenderM Expr) (result : RenderM (List Stmt)) (once : Prop) : Prop where
  lines : ∀ {p : Pass}, Valid p → result p = (Expr.unfolded <$> value) p
  hygienic : ∀ {p q : Pass} {e : Expr}, Valid p → value p = .ok e q →
    e.Hygienic q.scope.openIdentifiers
  bindsOnce_iff : ∀ {p q : Pass} {e : Expr}, Valid p → value p = .ok e q → (e.BindsOnce ↔ once)

/-- What holds of a value that is no binder. -/
theorem Unfolds.plain {value : RenderM Expr} {once : Prop} (honce : once)
    (h : ∀ {p q : Pass} {e : Expr}, Valid p → value p = .ok e q → ¬ e.IsLet) :
    Unfolds value (value >>= fun e => pure [.simple (.result e)]) once where
  lines := fun {p} hp => by
    cases hrun : value p with
    | ok e q =>
      rw [bind_of_ok hrun, map_of_ok hrun, Expr.unfolded_of_not_isLet (h hp hrun)]
      rfl
    | error e q => rw [bind_of_error hrun, map_of_error hrun]
  hygienic := fun hp hrun => Expr.hygienic_of_not_isLet (h hp hrun) _
  bindsOnce_iff := fun hp hrun => iff_of_true (Expr.bindsOnce_of_not_isLet (h hp hrun)) honce

theorem Node.localExpression_eq (n : Node) :
    n.localExpression = n.locally fun identifiers values =>
      n.value "RETURN" .none >>= fun body => pure (.letIn identifiers values body) := rfl

theorem Node.localResult_eq (n : Node) :
    n.localResult = n.locally fun identifiers values =>
      n.result "RETURN" >>= fun body =>
        pure (List.zipWith Node.assignLine identifiers values ++ body) := rfl

/-- A binder of local names declares, and its body is what is returned inside. -/
theorem Matches.localExpression_run {n : Node} {k : Sketch} (h : Matches n k) {p q : Pass}
    {e : Expr} (hp : Valid p) (hrun : n.localExpression p = .ok e q) :
    ∃ identifiers values body r t, e = .letIn identifiers values body ∧
      Declares n.block.declaredNames identifiers values r ∧
      n.value "RETURN" .none r = .ok body t ∧ q = { t with scope := t.scope.pop } := by
  rw [n.localExpression_eq] at hrun
  rcases h.locally_run hp with ⟨_, _, herror⟩ | ⟨identifiers, values, r, hr, hlocally⟩
  · rw [herror] at hrun
    cases hrun
  · rw [hlocally] at hrun
    obtain ⟨_, hbinder, rfl⟩ := popped_eq_ok hrun
    obtain ⟨body, t, hreturn, hletIn⟩ := bind_eq_ok.mp hbinder
    cases hletIn
    exact ⟨identifiers, values, body, r, _, rfl, hr, hreturn, rfl⟩

/-- What holds of a local declaration around a value. -/
theorem Unfolds.declared {n : Node} {k : Sketch} {once : Prop} (h : Matches n k)
    (hbody : Unfolds (n.value "RETURN" .none) (n.result "RETURN") once) :
    Unfolds n.localExpression n.localResult (n.block.declaredNames.Nodup ∧ once) where
  lines := fun {p} hp => by
    rw [n.localExpression_eq, n.localResult_eq]
    rcases h.locally_run hp with ⟨e, q, herror⟩ | ⟨identifiers, values, r, hr, hrun⟩
    · rw [herror, map_of_error (herror _)]
    · have hlines := hbody.lines hr.valid
      have hvalue := hrun fun xs es =>
        n.value "RETURN" .none >>= fun body => pure (Expr.letIn xs es body)
      cases hreturn : n.value "RETURN" .none r with
      | ok e q =>
        rw [map_of_ok hreturn] at hlines
        rw [bind_of_ok hreturn] at hvalue
        rw [hrun, bind_of_ok hlines, map_of_ok hvalue]
        rfl
      | error e q =>
        rw [map_of_error hreturn] at hlines
        rw [bind_of_error hreturn] at hvalue
        rw [hrun, bind_of_error hlines, map_of_error hvalue]
        rfl
  hygienic := fun {p q e} hp hrun => by
    obtain ⟨identifiers, values, body, r, t, rfl, hr, hreturn, rfl⟩ :=
      h.localExpression_run hp hrun
    obtain ⟨ht, hrt⟩ :=
      (h.spelled "RETURN" fun _ => .none).composed.leads_of_ok hr.valid hreturn
    obtain ⟨hfresh, hsub⟩ := hr.fresh ht hrt
    exact ⟨hfresh, (hbody.hygienic hr.valid hreturn).mono hsub⟩
  bindsOnce_iff := fun {p q e} hp hrun => by
    obtain ⟨identifiers, values, body, r, t, rfl, hr, hreturn, -⟩ :=
      h.localExpression_run hp hrun
    exact and_congr hr.nodup_iff (hbody.bindsOnce_iff hr.valid hreturn)

end Render

open Render

namespace Block

/-- The value in a slot and the lines that return it. -/
theorem unfolds_slot {b : Block}
    (h : ∀ {slot child}, b.values.get? slot = some child →
      Unfolds child.rendering.value child.rendering.result child.DeclaresOnce) (slot : String) :
    Unfolds (b.node.value slot .none) (b.node.result slot) (b.ReturnsOnce slot) := by
  unfold Node.value Node.result Block.node
  rw [slotRenderings_eq b.values, Record.get?_mapValues]
  cases hslot : b.values.get? slot with
  | some child =>
    have honce : b.ReturnsOnce slot = child.DeclaresOnce :=
      propext ⟨fun hall => hall child hslot, fun honce _ heq => by cases hslot ▸ heq; exact honce⟩
    rw [honce]
    exact h hslot
  | none =>
    refine .plain (fun _ heq => by cases hslot ▸ heq) fun {p q e} _ hrun => ?_
    cases hrun
    rintro ⟨_, _, _, heq⟩
    cases heq

/-- A block as a value and as the lines that return it. -/
theorem unfolds_node {b : Block}
    (hbody : Unfolds (b.node.value "RETURN" .none) (b.node.result "RETURN")
      (b.ReturnsOnce "RETURN")) :
    Unfolds b.node.asValue b.node.asResult b.DeclaresOnce := by
  have h : Matches b.node (b.sketch fitting) := ⟨rfl, slots_depict_trees b.values⟩
  unfold Node.asResult Node.asValue
  rw [show b.node.block = b from rfl]
  cases hname : ValueType.ofName? b.type with
  | none =>
    refine .plain (.plain fun htype => ?_) fun _ hrun => nomatch hrun
    rw [ValueType.ofName?_eq_localExpression.mpr htype] at hname
    cases hname
  | some type =>
    by_cases hlocal : type = .localExpression
    · subst hlocal
      rw [Block.declaresOnce_iff (ValueType.ofName?_eq_localExpression.mp hname)]
      exact .declared h hbody
    · have honce : b.DeclaresOnce := .plain fun htype => by
        rw [ValueType.ofName?_eq_localExpression.mpr htype] at hname
        exact hlocal (Option.some.inj hname).symm
      have hplain : Unfolds (type.render b.node) _ b.DeclaresOnce :=
        .plain honce fun {p q e} hp hrun => by
          have hvalid := (h.faithful type).valid hp
          rw [runOn_of_ok hrun] at hvalid
          have hspells := (h.faithful type).outcome hp hrun hvalid.agrees
          exact not_isLet_of_spells hspells.toSpells (type.isLet_tree fitting _ hlocal)
      cases type with
      | localExpression => exact absurd rfl hlocal
      | _ => exact hplain

mutual

/-- **The lines that return a block's value are the value unfolded.** -/
theorem unfolds : ∀ b : Block, Unfolds b.rendering.value b.rendering.result b.DeclaresOnce
  | .mk type id fields values statements next mutation => by
      let b : Block := .mk type id fields values statements next mutation
      have hbody := unfolds_slot (b := b) (slots_unfold values) "RETURN"
      exact unfolds_node hbody
termination_by structural b => b

/-- …and so it is for the blocks in slots. -/
theorem slots_unfold : ∀ (slots : List (String × Block)) {slot : String} {child : Block},
    Record.get? slots slot = some child →
      Unfolds child.rendering.value child.rendering.result child.DeclaresOnce
  | [], _, _, h => nomatch h
  | (name, first) :: rest, slot, child, h => by
      rw [Record.get?_cons] at h
      split at h
      · cases h
        exact first.unfolds
      · exact slots_unfold rest h
termination_by structural slots => slots

end

end Block

namespace Render

/-! ## The main result -/

end Render

end Jigsaw
