import Mathlib.Data.List.Basic
import Jigsaw.Proofs.Render.BlockTree
import Jigsaw.Proofs.Source.Reading

/-!
# Proofs/Render/Spelling — expressions that spell a tree of references

A naming gives references their identifiers.  An expression spells a tree of references if both
resolve to the same places, whatever binders the naming has already taken up (`Scoped`).  Binders
choose identifiers that the naming gives to nothing in sight, and so no reference is captured: this
is the whole of `Scoped.place_eq`, and everything else is closure under the forms of expressions.
-/

namespace Jigsaw

open Source

/-- The identifiers of references; none for a reference to nothing. -/
abbrev Naming := Ref → Option String

/-- References and identifiers that one binder pairs up. -/
abbrev Pairing := List (Ref × String)

namespace Naming

/-- Every identifier that `ρ` gives, `σ` gives too. -/
def Le (ρ σ : Naming) : Prop := ∀ r x, ρ r = some x → σ r = some x

theorem Le.refl (ρ : Naming) : ρ.Le ρ := fun _ _ h => h

/-- The naming inside a binder. -/
def bind (ρ : Naming) (pairs : Pairing) : Naming := fun r => (pairs.lookup r).or (ρ r)

end Naming

/-- **A binder's identifiers are new**: they differ exactly where the references do, and the naming
gives them to nothing. -/
structure Fits (ρ : Naming) (pairs : Pairing) : Prop where
  same : ∀ p ∈ pairs, ∀ q ∈ pairs, p.1 = q.1 ↔ p.2 = q.2
  fresh : ∀ r x, ρ r = some x → ∀ p ∈ pairs, p.2 ≠ x

/-- `ρ` is the naming inside these binders, innermost first, where `outer` is the one outside. -/
inductive Scoped (outer : Naming) : List Pairing → Naming → Prop
  | nil {ρ : Naming} (h : ρ.Le outer) : Scoped outer [] ρ
  | cons {ρ σ : Naming} {pairs : Pairing} {binders : List Pairing} (h : Scoped outer binders ρ)
      (hle : σ.Le ρ) (hfits : Fits σ pairs) : Scoped outer (pairs :: binders) (σ.bind pairs)

/-! ## No capture -/

theorem mem_of_lookup {pairs : Pairing} {r : Ref} {x : String} (h : pairs.lookup r = some x) :
    (r, x) ∈ pairs := by
  induction pairs with
  | nil => cases h
  | cons p rest ih =>
    obtain ⟨s, y⟩ := p
    rw [List.lookup_cons] at h
    split at h
    · rename_i heq
      obtain rfl : r = s := by simpa using heq
      obtain rfl : y = x := by simpa using h
      exact List.mem_cons_self
    · exact List.mem_cons_of_mem _ (ih h)

theorem lookup_eq_none_iff {pairs : Pairing} {r : Ref} :
    pairs.lookup r = none ↔ r ∉ pairs.map Prod.fst := by
  rw [List.lookup_eq_none_iff]
  simp only [List.mem_map, not_exists, not_and]
  exact ⟨fun h p hp heq => by simpa [heq] using h p hp,
    fun h p hp => by simpa using fun heq : r = p.1 => h p hp heq.symm⟩

/-- Partners stand at the same position. -/
theorem idxOf_eq_of_mem : ∀ {pairs : Pairing}, (∀ p ∈ pairs, ∀ q ∈ pairs, p.1 = q.1 ↔ p.2 = q.2) →
    ∀ p ∈ pairs, (pairs.map Prod.fst).idxOf p.1 = (pairs.map Prod.snd).idxOf p.2
  | q :: rest, hsame, p, hp => by
      have hhead := hsame q List.mem_cons_self p hp
      rw [List.map_cons, List.map_cons]
      by_cases heq : q.1 = p.1
      · rw [List.idxOf_cons_eq _ heq, List.idxOf_cons_eq _ (hhead.mp heq)]
      · have hmem : p ∈ rest := (List.mem_cons.mp hp).resolve_left fun h => heq (h ▸ rfl)
        have hrest := idxOf_eq_of_mem (fun a ha b hb => hsame a (List.mem_cons_of_mem q ha) b
          (List.mem_cons_of_mem q hb)) p hmem
        rw [List.idxOf_cons_ne _ heq, List.idxOf_cons_ne _ fun h => heq (hhead.mpr h), hrest]

/-- **No reference is captured**: inside any binders, a reference and its identifier have the same
place. -/
theorem Scoped.place_eq {outer ρ : Naming} {binders : List Pairing} (h : Scoped outer binders ρ)
    {r : Ref} {x : String} (hr : ρ r = some x) :
    Tree.place outer r (binders.map (List.map Prod.fst))
      = Tree.place some x (binders.map (List.map Prod.snd)) := by
  induction h with
  | nil h => exact congrArg Place.free (h r x hr)
  | @cons ρ σ pairs binders h hle hfits ih =>
    rw [List.map_cons, List.map_cons, Tree.place, Tree.place]
    cases hlookup : pairs.lookup r with
    | some y =>
      obtain rfl : y = x := by simpa [Naming.bind, hlookup] using hr
      have hmem := mem_of_lookup hlookup
      rw [if_pos (List.mem_map_of_mem hmem), if_pos (List.mem_map_of_mem hmem),
        idxOf_eq_of_mem hfits.same _ hmem]
    | none =>
      have houter : σ r = some x := by simpa [Naming.bind, hlookup] using hr
      rw [if_neg (lookup_eq_none_iff.mp hlookup), if_neg, ih (hle r x houter)]
      intro hx
      obtain ⟨p, hp, hpx⟩ := List.mem_map.mp hx
      exact hfits.fresh r x houter p hp hpx

/-- The identifiers differ pairwise exactly if the references do. -/
theorem Fits.nodup_iff {ρ : Naming} {pairs : Pairing} (h : Fits ρ pairs) :
    (pairs.map Prod.snd).Nodup ↔ (pairs.map Prod.fst).Nodup := by
  rw [List.Nodup, List.Nodup, List.pairwise_map, List.pairwise_map]
  exact List.Pairwise.iff_of_mem fun {a b} ha hb => (not_congr (h.same a ha b hb)).symm

/-- A parameter is named inside its binder. -/
theorem Fits.bind_eq {ρ : Naming} {pairs : Pairing} (h : Fits ρ pairs) {p : Ref × String}
    (hp : p ∈ pairs) : ρ.bind pairs p.1 = some p.2 := by
  cases hlookup : pairs.lookup p.1 with
  | some x =>
    have heq : p.2 = x := (h.same p hp _ (mem_of_lookup hlookup)).mp rfl
    simp [Naming.bind, hlookup, heq]
  | none => exact absurd (List.mem_map_of_mem hp) (lookup_eq_none_iff.mp hlookup)

/-- The parameters of a binder have the same places. -/
theorem Scoped.parameters_eq {outer ρ : Naming} {pairs : Pairing} {binders : List Pairing}
    (h : Scoped outer (pairs :: binders) (ρ.bind pairs)) (hfits : Fits ρ pairs) :
    (pairs.map Prod.fst).map
        (fun r => Tree.place outer r (pairs.map Prod.fst :: binders.map (List.map Prod.fst)))
      = (pairs.map Prod.snd).map
        (fun x => Tree.place some x (pairs.map Prod.snd :: binders.map (List.map Prod.snd))) := by
  rw [List.map_map, List.map_map]
  exact List.map_congr_left fun p hp => h.place_eq (hfits.bind_eq hp)

/-! ## Spelling -/

namespace Expr

/-- The integer that an expression is the literal of. -/
def int? : Expr → Option Int
  | numeral (.integer k) => some k
  | _ => Option.none

end Expr

/-- **The expression spells the tree**: its names may stand as such, and inside any binders both
resolve to the same places. -/
structure Spells (ρ : Naming) (t : Tree Ref) (e : Expr) : Prop where
  proper : e.Proper
  resolve : ∀ {outer : Naming} {binders : List Pairing}, Scoped outer binders ρ →
    t.resolve outer (binders.map (List.map Prod.fst))
      = e.tree.resolve some (binders.map (List.map Prod.snd))

namespace Spells

variable {ρ : Naming}

/-- Both are literals of the same integer, or neither is one. -/
theorem int?_tree {t : Tree Ref} {e : Expr} (h : Spells ρ t e) : e.tree.int? = t.int? := by
  have hresolve := h.resolve (.nil (.refl ρ))
  rw [← Tree.int?_resolve, ← hresolve, Tree.int?_resolve]

theorem resolveAll {ts : List (Tree Ref)} {es : List Expr} (h : List.Forall₂ (Spells ρ) ts es)
    {outer : Naming} {binders : List Pairing} (hs : Scoped outer binders ρ) :
    Tree.resolveAll outer (binders.map (List.map Prod.fst)) ts
      = Tree.resolveAll some (binders.map (List.map Prod.snd)) (Expr.trees es) := by
  induction h with
  | nil => rfl
  | cons h _ ih => rw [Tree.resolveAll, Expr.trees, Tree.resolveAll, h.resolve hs, ih]

theorem properAll {ts : List (Tree Ref)} {es : List Expr} (h : List.Forall₂ (Spells ρ) ts es) :
    ∀ e ∈ es, e.Proper := by
  induction h with
  | nil => exact fun _ he => absurd he List.not_mem_nil
  | cons h _ ih => exact List.forall_mem_cons.mpr ⟨h.proper, ih⟩

/-! ### Names and literals -/

theorem name {r : Ref} {x : String} (hr : ρ r = some x) (hx : Expr.IsName x) :
    Spells ρ (.name r) (.name x) :=
  ⟨.name hx, fun hs => congrArg Tree.name (hs.place_eq hr)⟩

theorem numeral (value : Numeral) : Spells ρ (.ofNumeral value) (.numeral value) := by
  refine ⟨.numeral value, fun _ => ?_⟩
  cases value with
  | integer k =>
    rw [Expr.tree, Tree.ofNumeral, Tree.ofNumeral, Tree.ofInt, Tree.ofInt]
    split <;> rfl
  | floating negative x =>
    rw [Expr.tree, Tree.ofNumeral, Tree.ofNumeral]
    split <;> rfl

theorem zero : Spells ρ (.integer 0) .zero := ⟨.zero, fun _ => rfl⟩

theorem text (content : String) : Spells ρ (.text content) (.text content) :=
  ⟨.text content, fun _ => rfl⟩

theorem truth (value : Bool) : Spells ρ (.truth value) (.truth value) :=
  ⟨.truth value, fun _ => rfl⟩

theorem none : Spells ρ .none .none := ⟨.none, fun _ => rfl⟩

/-! ### Brackets, calls and operators -/

theorem list {ts : List (Tree Ref)} {es : List Expr} (h : List.Forall₂ (Spells ρ) ts es) :
    Spells ρ (.list ts) (.list es) :=
  ⟨.list (properAll h), fun hs => congrArg Tree.list (resolveAll h hs)⟩

theorem call {r : Ref} {x : String} {ts : List (Tree Ref)} {es : List Expr} (hr : ρ r = some x)
    (hx : Expr.IsName x) (h : List.Forall₂ (Spells ρ) ts es) :
    Spells ρ (.call (.name r) ts) (.call x es) :=
  ⟨.call hx (properAll h), fun hs =>
    congrArg₂ Tree.call (congrArg Tree.name (hs.place_eq hr)) (resolveAll h hs)⟩

theorem method {t : Tree Ref} {e : Expr} {selector : String} {ts : List (Tree Ref)}
    {es : List Expr} (he : Spells ρ t e) (hzero : e ≠ .zero) (hselector : Expr.IsName selector)
    (h : List.Forall₂ (Spells ρ) ts es) :
    Spells ρ (.method t selector ts) (.method e selector es) :=
  ⟨.method he.proper hzero hselector (properAll h), fun hs =>
    congrArg₂ (Tree.method · selector ·) (he.resolve hs) (resolveAll h hs)⟩

theorem item {t u : Tree Ref} {e f : Expr} (he : Spells ρ t e) (hf : Spells ρ u f) :
    Spells ρ (.item t u) (.item e f) :=
  ⟨.item he.proper hf.proper, fun hs => congrArg₂ Tree.item (he.resolve hs) (hf.resolve hs)⟩

theorem sliceFrom {t u : Tree Ref} {e f : Expr} (he : Spells ρ t e) (hf : Spells ρ u f) :
    Spells ρ (.sliceFrom t u) (.sliceFrom e f) :=
  ⟨.sliceFrom he.proper hf.proper, fun hs =>
    congrArg₂ Tree.sliceFrom (he.resolve hs) (hf.resolve hs)⟩

theorem sliceTo {t u : Tree Ref} {e f : Expr} (he : Spells ρ t e) (hf : Spells ρ u f) :
    Spells ρ (.sliceTo t u) (.sliceTo e f) :=
  ⟨.sliceTo he.proper hf.proper, fun hs =>
    congrArg₂ Tree.sliceTo (he.resolve hs) (hf.resolve hs)⟩

theorem slice {t u v : Tree Ref} {e f g : Expr} (he : Spells ρ t e) (hf : Spells ρ u f)
    (hg : Spells ρ v g) : Spells ρ (.slice t u v) (.slice e f g) :=
  ⟨.slice he.proper hf.proper hg.proper, fun hs => by
    rw [Tree.resolve, he.resolve hs, hf.resolve hs, hg.resolve hs]
    rfl⟩

theorem negate {t : Tree Ref} {e : Expr} (h : Spells ρ t e) :
    Spells ρ (.negate t) (.negate e) :=
  ⟨.negate h.proper, fun hs => congrArg Tree.negate (h.resolve hs)⟩

theorem not {t : Tree Ref} {e : Expr} (h : Spells ρ t e) : Spells ρ (.not t) (.not e) :=
  ⟨.not h.proper, fun hs => congrArg Tree.not (h.resolve hs)⟩

theorem operation (op : BinaryOp) {t u : Tree Ref} {e f : Expr} (he : Spells ρ t e)
    (hf : Spells ρ u f) : Spells ρ (.operation op t u) (.binary op e f) :=
  ⟨.binary he.proper hf.proper, fun hs => by
    rw [Expr.tree, Tree.resolve_operation, Tree.resolve_operation, he.resolve hs, hf.resolve hs]⟩

/-! ### Binders -/

/-- Local names: the body is spelled inside the binder, the arguments outside. -/
theorem letIn {pairs : Pairing} (hfits : Fits ρ pairs) (hnames : ∀ p ∈ pairs, Expr.IsName p.2)
    {t : Tree Ref} {e : Expr} (he : Spells (ρ.bind pairs) t e) {ts : List (Tree Ref)}
    {es : List Expr} (h : List.Forall₂ (Spells ρ) ts es) :
    Spells ρ (.call (.lambda (pairs.map Prod.fst) t) ts) (.letIn (pairs.map Prod.snd) es e) := by
  refine ⟨.letIn (fun x hx => ?_) (properAll h) he.proper, fun {outer} {binders} hs => ?_⟩
  · obtain ⟨p, hp, rfl⟩ := List.mem_map.mp hx
    exact hnames p hp
  · have hinner := Scoped.cons hs (.refl ρ) hfits
    have hlambda := congrArg₂ Tree.lambda (hinner.parameters_eq hfits) (he.resolve hinner)
    exact congrArg₂ Tree.call hlambda (resolveAll h hs)

/-- A comprehension: only the element stands inside the binder, and `σ` is what it needs of the
naming outside. -/
theorem collect {σ : Naming} (hle : σ.Le ρ) {r : Ref} {x : String} (hfits : Fits σ [(r, x)])
    (hx : Expr.IsName x) {t u : Tree Ref} {e f : Expr} (he : Spells (σ.bind [(r, x)]) t e)
    (hf : Spells ρ u f) : Spells ρ (.collect t r u) (.collect e x f) := by
  refine ⟨.collect he.proper hx hf.proper, fun {outer} {binders} hs => ?_⟩
  have hinner := Scoped.cons hs hle hfits
  have hbinder := hinner.place_eq (hfits.bind_eq List.mem_cons_self)
  rw [Tree.resolve, Expr.tree, Tree.resolve, hf.resolve hs]
  exact congrArg₂ (Tree.collect · · _) (he.resolve hinner) hbinder

end Spells

end Jigsaw
