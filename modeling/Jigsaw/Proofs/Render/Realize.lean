import Jigsaw.Proofs.Render.Discipline
import Jigsaw.Proofs.Render.Spelling

/-!
# Proofs/Render/Realize — what a rendering says about its outcome

The names of a pass are seen through a `View`: the identifiers of references, and the global
variables.  Renderings do not change the view (`Leads.view_eq`), up to the support routines they ask
for; so the identifiers of those are taken from the end of the rendering, where all of them are
known (`Agrees`).  `Renders m R` says that `m` is composed of the steps of rules and that every
outcome of `m` satisfies `R` in the view that `m` started from.
-/

namespace Jigsaw.Render

open Name Source

/-- The names in sight: what references mean, and the identifiers of the global variables. -/
@[ext] structure View where
  /-- The identifiers of references. -/
  naming : Naming
  /-- The identifiers of the global variables, in binding order. -/
  globals : List String
  /-- A fixed word stands for itself. -/
  fixed : ∀ word ∈ Name.reserved, naming (.fixed word) = some word

/-- The identifiers of references in a scope; `helpers` gives those of the support routines. -/
def naming (s : Scope) (helpers : String → Option String) : Naming
  | .nearest x => s.lookup x .ofVariable
  | .outermost x => s.globals.identifier? x .ofVariable
  | .procedure x => s.lookup x .ofProcedure
  | .definition x => s.globals.identifier? x .ofProcedure
  | .helper key => helpers key
  | .fixed word => if word ∈ Name.reserved then some word else none
  | .temporary => none

/-- The view of a pass. -/
def view (p : Pass) (helpers : String → Option String) : View where
  naming := naming p.scope helpers
  globals := p.scope.globalIdentifiers .ofVariable
  fixed := fun _ hword => if_pos hword

/-- The identifiers of the support routines that a pass has. -/
def helperNames (p : Pass) (key : String) : Option String :=
  (p.library.find? key).map Helper.identifier

/-- The support routines of the pass have these identifiers, and the others have some that the pass
hands out to nothing else. -/
structure Agrees (p : Pass) (helpers : String → Option String) : Prop where
  known : ∀ {key h}, p.library.find? key = some h → helpers key = some h.identifier
  apart : ∀ {key x}, helpers key = some x →
    x ∈ p.scope.globals.identifiers ∨ x ∉ p.scope.allocated

/-- A pass agrees with itself. -/
theorem Valid.agrees {p : Pass} (hp : Valid p) : Agrees p (helperNames p) where
  known := fun hkey => by rw [helperNames, hkey]; rfl
  apart := fun {key x} hkey => by
    obtain ⟨h, hfind, rfl⟩ := Option.map_eq_some_iff.mp hkey
    exact Or.inl (Frame.mem_identifiers.mpr
      ⟨_, hp.helpers h (List.mem_of_find?_eq_some hfind), rfl⟩)

/-- What agrees with a later pass agrees with an earlier one: a routine bound in between got an
identifier that was new. -/
theorem Leads.agrees {p q : Pass} (h : Leads p q) {helpers : String → Option String}
    (hq : Agrees q helpers) : Agrees p helpers where
  known := fun hkey => hq.known (h.find? hkey)
  apart := fun hkey => by
    obtain ⟨added, hglobals, hnew⟩ := h.globals
    rcases hq.apart hkey with hx | hx
    · rw [hglobals, Frame.identifiers_addAll, List.mem_append] at hx
      refine hx.imp id fun hadded => ?_
      obtain ⟨b, hb, rfl⟩ := List.mem_map.mp hadded
      exact (hnew b hb).2
    · exact Or.inr fun halloc => hx (h.allocated halloc)

/-! ## Renderings do not change the view -/

/-- Bindings of other kinds do not matter to a name. -/
theorem identifier?_addAll_of_kind {frame : Frame} {added : List Binding} {name : String}
    {kind : Kind} (h : ∀ b ∈ added, b.kind ≠ kind) :
    (frame.addAll added).identifier? name kind = frame.identifier? name kind := by
  have hnone : Frame.identifier? (.addAll {} added) name kind = none := by
    refine Frame.identifier?_eq_none_iff.mpr fun b hb hkey => ?_
    rw [Frame.bindings_addAll] at hb
    exact h b hb hkey.2
  rw [Frame.identifier?_addAll, hnone, Option.or_none]

theorem Leads.identifier?_globals {p q : Pass} (h : Leads p q) (name : String) {kind : Kind}
    (hkind : kind ≠ .ofHelper) :
    q.scope.globals.identifier? name kind = p.scope.globals.identifier? name kind := by
  obtain ⟨added, hglobals, hnew⟩ := h.globals
  rw [hglobals]
  exact identifier?_addAll_of_kind fun b hb heq => hkind (heq ▸ (hnew b hb).1)

theorem Leads.lookup_eq {p q : Pass} (h : Leads p q) (name : String) {kind : Kind}
    (hkind : kind ≠ .ofHelper) : q.scope.lookup name kind = p.scope.lookup name kind := by
  rw [Scope.lookup_eq, Scope.lookup_eq, h.locals, h.identifier?_globals name hkind]

/-- A rendering does not change what a name resolves to, -/
theorem Leads.resolve_eq {p q : Pass} (h : Leads p q) (name : String) {kind : Kind}
    (hkind : kind ≠ .ofHelper) : q.scope.resolve name kind = p.scope.resolve name kind := by
  rw [Scope.resolve, Scope.resolve, h.lookup_eq name hkind]

/-- …nor what it resolves to in the outermost frame. -/
theorem Leads.resolveGlobal_eq {p q : Pass} (h : Leads p q) (name : String) {kind : Kind}
    (hkind : kind ≠ .ofHelper) :
    q.scope.resolveGlobal name kind = p.scope.resolveGlobal name kind := by
  rw [Scope.resolveGlobal, Scope.resolveGlobal, h.identifier?_globals name hkind]

/-- A rendering does not change which variables and procedures the outermost frame has. -/
theorem Leads.globalIdentifiers_eq {p q : Pass} (h : Leads p q) {kind : Kind}
    (hkind : kind ≠ .ofHelper) :
    q.scope.globalIdentifiers kind = p.scope.globalIdentifiers kind := by
  obtain ⟨added, hglobals, hnew⟩ := h.globals
  have hnone : added.filter (fun b => b.kind = kind) = [] := by
    rw [List.filter_eq_nil_iff]
    intro b hb
    simp [(hnew b hb).1, hkind.symm]
  rw [Scope.globalIdentifiers, Scope.globalIdentifiers, hglobals, Frame.bindings_addAll,
    List.filter_append, hnone, List.append_nil]

/-- **A rendering does not change what names mean.** -/
theorem Leads.view_eq {p q : Pass} (h : Leads p q) (helpers : String → Option String) :
    view q helpers = view p helpers := by
  have hvariable : Kind.ofVariable ≠ .ofHelper := by decide
  have hnaming : naming q.scope helpers = naming p.scope helpers := by
    funext r
    cases r with
    | nearest x => exact h.lookup_eq x hvariable
    | outermost x => exact h.identifier?_globals x hvariable
    | procedure x => exact h.lookup_eq x (by decide)
    | definition x => exact h.identifier?_globals x (by decide)
    | helper key => rfl
    | fixed word => rfl
    | temporary => rfl
  exact View.ext hnaming (h.globalIdentifiers_eq hvariable)

/-! ## Renderings and their outcomes -/

/-- **A rendering made of the steps of rules, with an outcome that `R` describes** in the view it
started from. -/
structure Renders {α : Type} (m : RenderM α) (R : View → α → Prop) : Prop where
  composed : Composed m
  outcome : ∀ {p q : Pass} {a : α}, Valid p → m p = .ok a q →
    ∀ {helpers : String → Option String}, Agrees q helpers → R (view p helpers) a

namespace Renders

variable {α β : Type} {m : RenderM α} {R S : View → α → Prop}

theorem imp (h : Renders m R) (hRS : ∀ v a, R v a → S v a) : Renders m S where
  composed := h.composed
  outcome := fun hp hm _ hagrees => hRS _ _ (h.outcome hp hm hagrees)

theorem pure {a : α} (h : ∀ v, R v a) : Renders (pure a) R where
  composed := .pure a
  outcome := fun _ hm _ _ => by cases hm; exact h _

theorem throw (e : Error) : Renders (throw e : RenderM α) R where
  composed := .throw e
  outcome := fun _ hm _ _ => by cases hm

/-- Steps in a row: what the first gave is known to the second. -/
theorem bind {f : α → RenderM β} {S : View → β → Prop} (hm : Renders m R)
    (hf : ∀ a, Renders (f a) fun v b => R v a → S v b) : Renders (m >>= f) S where
  composed := hm.composed.bind fun a => (hf a).composed
  outcome := fun {p q b} hp hrun helpers hagrees => by
    obtain ⟨a, r, hma, hfb⟩ := bind_eq_ok.mp hrun
    obtain ⟨hr, hpr⟩ := hm.composed.leads_of_ok hp hma
    obtain ⟨-, hrq⟩ := (hf a).composed.leads_of_ok hr hfb
    have hfirst := hm.outcome hp hma (hrq.agrees hagrees)
    have hsecond := (hf a).outcome hr hfb hagrees
    rw [hpr.view_eq] at hsecond
    exact hsecond hfirst

theorem map {f : α → β} {S : View → β → Prop} (hm : Renders m R)
    (hf : ∀ v a, R v a → S v (f a)) : Renders (f <$> m) S := by
  rw [map_eq_pure_bind]
  exact hm.bind fun a => .pure fun v => hf v a

/-- A row of renderings of one kind. -/
theorem mapM {g : β → RenderM α} {R : β → View → α → Prop} (hg : ∀ b, Renders (g b) (R b)) :
    ∀ l : List β, Renders (l.mapM g) fun v as => List.Forall₂ (fun b a => R b v a) l as
  | [] => by
      rw [List.mapM_nil]
      exact .pure fun _ => .nil
  | b :: rest => by
      rw [List.mapM_cons]
      exact (hg b).bind fun a => (mapM hg rest).bind fun as => .pure fun _ hrest hfirst =>
        .cons hfirst hrest

end Renders

/-! ### The steps -/

theorem mem_reserved_of_mem_keywords {x : String} (h : x ∈ keywords) : x ∈ Name.reserved :=
  List.mem_append_left _ (List.mem_append_left _ h)

/-- An open identifier may stand as a name. -/
theorem Valid.isName {p : Pass} (hp : Valid p) {x : String} (hx : x ∈ p.scope.openIdentifiers) :
    Expr.IsName x := by
  have halloc := hp.sound.allocated x hx
  refine ⟨hp.sound.legal x halloc, fun hkeyword => hp.sound.unreserved x halloc ?_⟩
  rw [hp.reserved]
  exact mem_reserved_of_mem_keywords hkeyword

theorem mem_openIdentifiers_of_lookup {s : Scope} (hs : s.Sound) {name x : String} {kind : Kind}
    (h : s.lookup name kind = some x) : x ∈ s.openIdentifiers := by
  obtain ⟨frame, hframe, hx⟩ := List.exists_of_findSome?_eq_some h
  exact hs.mem_openIdentifiers.mpr ⟨frame, hframe, Frame.mem_identifiers_of_identifier? hx⟩

/-- A reference that finds an open identifier. -/
theorem renders_reference (b : Block) (slot : String) {found : Scope → Except Unresolved String}
    (hfound : ∀ {p q : Pass}, Leads p q → found q.scope = found p.scope)
    {r : Ref} (h : ∀ {s : Scope} {x}, s.Sound → found s = .ok x → x ∈ s.openIdentifiers ∧
      ∀ helpers, naming s helpers r = some x) :
    Renders (reference b slot found) fun v x => v.naming r = some x ∧ Expr.IsName x where
  composed := .reference _ _ hfound
  outcome := fun {p q x} hp hrun helpers _ => by
    cases hfound : found p.scope with
    | ok y =>
      rw [reference_of_ok hfound] at hrun
      cases hrun
      exact ⟨(h hp.sound hfound).2 helpers, hp.isName (h hp.sound hfound).1⟩
    | error u =>
      rw [reference_of_error hfound] at hrun
      cases hrun

theorem lookup_of_resolve {s : Scope} {name x : String} {kind : Kind}
    (h : s.resolve name kind = .ok x) : s.lookup name kind = some x := by
  rw [Scope.resolve] at h
  split at h
  · rename_i hlookup
    cases h
    exact hlookup
  · cases h

theorem identifier?_of_resolveGlobal {s : Scope} {name x : String} {kind : Kind}
    (h : s.resolveGlobal name kind = .ok x) : s.globals.identifier? name kind = some x := by
  rw [Scope.resolveGlobal] at h
  split at h
  · rename_i hidentifier
    cases h
    exact hidentifier
  · cases h

theorem mem_openIdentifiers_of_resolveGlobal {s : Scope} (hs : s.Sound) {name x : String}
    {kind : Kind} (h : s.resolveGlobal name kind = .ok x) : x ∈ s.openIdentifiers :=
  hs.mem_openIdentifiers_of_globals
    (Frame.mem_identifiers_of_identifier? (identifier?_of_resolveGlobal h))

/-- The nearest variable of a name, -/
theorem renders_resolve (b : Block) (slot name : String) :
    Renders (resolve b slot name .ofVariable) fun v x =>
      v.naming (.nearest name) = some x ∧ Expr.IsName x :=
  renders_reference b slot (fun hpq => hpq.resolve_eq name (by decide)) fun hs h =>
    ⟨mem_openIdentifiers_of_lookup hs (lookup_of_resolve h), fun _ => lookup_of_resolve h⟩

/-- …the nearest procedure, -/
theorem renders_resolveProcedure (b : Block) (slot name : String) :
    Renders (resolve b slot name .ofProcedure) fun v x =>
      v.naming (.procedure name) = some x ∧ Expr.IsName x :=
  renders_reference b slot (fun hpq => hpq.resolve_eq name (by decide)) fun hs h =>
    ⟨mem_openIdentifiers_of_lookup hs (lookup_of_resolve h), fun _ => lookup_of_resolve h⟩

/-- …the outermost variable, -/
theorem renders_resolveGlobal (b : Block) (slot name : String) :
    Renders (resolveGlobal b slot name .ofVariable) fun v x =>
      v.naming (.outermost name) = some x ∧ Expr.IsName x :=
  renders_reference b slot (fun hpq => hpq.resolveGlobal_eq name (by decide)) fun hs h =>
    ⟨mem_openIdentifiers_of_resolveGlobal hs h, fun _ => identifier?_of_resolveGlobal h⟩

/-- …and the outermost procedure. -/
theorem renders_resolveDefinition (b : Block) (slot name : String) :
    Renders (resolveGlobal b slot name .ofProcedure) fun v x =>
      v.naming (.definition name) = some x ∧ Expr.IsName x :=
  renders_reference b slot (fun hpq => hpq.resolveGlobal_eq name (by decide)) fun hs h =>
    ⟨mem_openIdentifiers_of_resolveGlobal hs h, fun _ => identifier?_of_resolveGlobal h⟩

/-- A pass that was asked for a support routine has it. -/
theorem find?_helper (p : Pass) (key : String) (define : String → String) :
    ∃ h, (p.helper key define).2.library.find? key = some h ∧
      h.identifier = (p.helper key define).1 := by
  unfold Pass.helper
  split
  · rename_i h hfind
    exact ⟨h, hfind, rfl⟩
  · rename_i hfind
    refine ⟨⟨key, (p.scope.bindGlobal key .ofHelper).1,
      define (p.scope.bindGlobal key .ofHelper).1⟩, ?_, rfl⟩
    rw [Library.find?] at hfind ⊢
    simp [List.find?_append, hfind]

/-- A support routine. -/
theorem renders_helper {key : String} {define : String → String} (h : StandardHelper key define) :
    Renders (helper key define) fun v x => v.naming (.helper key) = some x ∧ Expr.IsName x where
  composed := .helper h
  outcome := fun {p q x} hp hrun helpers hagrees => by
    obtain ⟨hvalid, -⟩ := helper_leads hp key define
    obtain ⟨routine, hfind, hroutine⟩ := find?_helper p key define
    cases hrun
    refine ⟨?_, hvalid.isName ?_⟩
    · exact hroutine ▸ hagrees.known hfind
    · have hmem := hvalid.helpers routine (List.mem_of_find?_eq_some hfind)
      exact hvalid.sound.mem_openIdentifiers_of_globals
        (Frame.mem_identifiers.mpr ⟨_, hmem, hroutine⟩)

theorem renders_requireRandom : Renders (requireImport "random") fun _ _ => True where
  composed := .requireRandom
  outcome := fun _ _ _ _ => trivial

/-- The global variables, under identifiers that may stand as names. -/
theorem renders_globalVariables :
    Renders globalVariables fun v xs => xs = v.globals ∧ ∀ x ∈ xs, Expr.IsName x where
  composed := .globalVariables
  outcome := fun {p q xs} hp hrun helpers _ => by
    cases hrun
    refine ⟨rfl, fun x hx => hp.isName (hp.sound.mem_openIdentifiers_of_globals ?_)⟩
    obtain ⟨b, hb, rfl⟩ := List.mem_map.mp hx
    exact Frame.mem_identifiers.mpr ⟨b, (List.mem_filter.mp hb).1, rfl⟩

/-- An identifier for a comprehension is none of the fixed words. -/
theorem renders_temporary :
    Renders (distinct "temp_value") fun _ x => Expr.IsName x ∧ x ∉ Name.reserved where
  composed := .temporary
  outcome := fun {p q x} hp hrun helpers _ => by
    cases hrun
    have hfree : p.scope.distinct "temp_value" ∉ Name.reserved := fun h =>
      firstFree_notMem p.scope.taken (base "temp_value")
        (List.mem_append_left _ (hp.reserved.symm ▸ h))
    exact ⟨⟨isIdentifier_firstFree _ _, fun h => hfree (mem_reserved_of_mem_keywords h)⟩, hfree⟩

/-! ### Frames -/

/-- The references to names and their identifiers. -/
def pairing (names identifiers : List String) : Pairing := (names.map Ref.nearest).zip identifiers

theorem map_fst_pairing {names identifiers : List String}
    (h : names.length = identifiers.length) :
    (pairing names identifiers).map Prod.fst = names.map Ref.nearest :=
  List.map_fst_zip (by rw [List.length_map]; exact Nat.le_of_eq h)

theorem map_snd_pairing {names identifiers : List String}
    (h : names.length = identifiers.length) :
    (pairing names identifiers).map Prod.snd = identifiers :=
  List.map_snd_zip (by rw [List.length_map]; exact Nat.le_of_eq h.symm)

/-- **`w` is the view inside a frame** that binds names, where `v` is the one outside. -/
structure Opens (names identifiers : List String) (v w : View) : Prop where
  length : names.length = identifiers.length
  fits : Fits v.naming (pairing names identifiers)
  naming : w.naming = v.naming.bind (pairing names identifiers)
  globals : w.globals = v.globals
  isName : ∀ x ∈ identifiers, Expr.IsName x

/-- The identifiers of a frame differ pairwise exactly if the names do. -/
theorem Opens.nodup_iff {names identifiers : List String} {v w : View}
    (h : Opens names identifiers v w) : identifiers.Nodup ↔ names.Nodup := by
  have hinjective : Function.Injective Ref.nearest := fun _ _ => Ref.nearest.inj
  have hnodup := h.fits.nodup_iff
  rwa [map_snd_pairing h.length, map_fst_pairing h.length, List.nodup_map_iff hinjective]
    at hnodup

/-- A pair stands for a binding. -/
theorem mem_pairing {names identifiers : List String} {frame : Frame}
    (h : List.Forall₂ (fun x i => frame.identifier? x .ofVariable = some i) names identifiers)
    {p : Ref × String} (hp : p ∈ pairing names identifiers) :
    ∃ x ∈ names, p.1 = .nearest x ∧ frame.identifier? x .ofVariable = some p.2 := by
  induction h with
  | nil => exact absurd hp List.not_mem_nil
  | @cons x i names identifiers hx _ ih =>
    rcases List.mem_cons.mp hp with rfl | hp
    · exact ⟨x, List.mem_cons_self, rfl, hx⟩
    · obtain ⟨y, hy, hfst, hsnd⟩ := ih hp
      exact ⟨y, List.mem_cons_of_mem _ hy, hfst, hsnd⟩

/-- Only references to variables are paired. -/
theorem lookup_pairing_eq_none {names identifiers : List String} {r : Ref}
    (hr : ∀ x, r ≠ .nearest x) : (pairing names identifiers).lookup r = none := by
  cases hlookup : (pairing names identifiers).lookup r with
  | none => rfl
  | some y =>
    obtain ⟨x, -, hx⟩ := List.mem_map.mp (List.of_mem_zip (mem_of_lookup hlookup)).1
    exact absurd hx.symm (hr x)

/-- A frame of these names binds what the pairing pairs. -/
theorem lookup_pairing {names identifiers : List String} {frame : Frame}
    (h : List.Forall₂ (fun x i => frame.identifier? x .ofVariable = some i) names identifiers)
    (hnames : ∀ b ∈ frame.bindings, b.name ∈ names) (x : String) :
    (pairing names identifiers).lookup (.nearest x) = frame.identifier? x .ofVariable := by
  cases hlookup : (pairing names identifiers).lookup (.nearest x) with
  | some i =>
    obtain ⟨y, -, hy, hi⟩ := mem_pairing h (mem_of_lookup hlookup)
    cases hy
    exact hi.symm
  | none =>
    refine (Frame.identifier?_eq_none_iff.mpr fun b hb hkey => ?_).symm
    refine lookup_eq_none_iff.mp hlookup ?_
    rw [map_fst_pairing h.length_eq]
    exact List.mem_map_of_mem (hkey.1 ▸ hnames b hb)

/-- What a naming gives is an open identifier, a fixed word or the identifier of a support
routine. -/
theorem mem_of_naming {s : Scope} (hs : s.Sound) {helpers : String → Option String} {r : Ref}
    {x : String} (h : naming s helpers r = some x) :
    x ∈ s.openIdentifiers ∨ x ∈ Name.reserved ∨ ∃ key, helpers key = some x := by
  cases r with
  | nearest y => exact Or.inl (mem_openIdentifiers_of_lookup hs h)
  | outermost y =>
    exact Or.inl (hs.mem_openIdentifiers_of_globals (Frame.mem_identifiers_of_identifier? h))
  | procedure y => exact Or.inl (mem_openIdentifiers_of_lookup hs h)
  | definition y =>
    exact Or.inl (hs.mem_openIdentifiers_of_globals (Frame.mem_identifiers_of_identifier? h))
  | helper key => exact Or.inr (Or.inr ⟨key, h⟩)
  | fixed word =>
    rw [naming] at h
    split at h
    · cases h
      exact Or.inr (Or.inl ‹_›)
    · cases h
  | temporary => cases h

/-- **The names bound in a new frame open a view**: their identifiers are new to everything that was
in sight, and to the support routines that are bound later. -/
theorem opens_of_binds {names identifiers : List String} {p q : Pass} (hp : Valid p)
    (hq : Binds {} p.scope.locals names identifiers { p with scope := p.scope.push } q)
    {helpers : String → Option String} (hagrees : Agrees q helpers) :
    Opens names identifiers (view p helpers) (view q helpers) := by
  obtain ⟨frame, hlocals, hnew, hidentifiers⟩ := hq.new_frame
  have hglobals : q.scope.globals = p.scope.globals := hq.globals
  have hframes : q.scope.frames[0]? = some frame := by rw [Scope.frames, hlocals]; rfl
  have hopen : ∀ b ∈ frame.bindings, b.identifier ∈ q.scope.openIdentifiers := fun b hb =>
    hq.valid.sound.mem_openIdentifiers.mpr ⟨frame, List.mem_of_getElem? hframes,
      Frame.mem_identifiers.mpr ⟨b, hb, rfl⟩⟩
  have hpaired : ∀ a ∈ pairing names identifiers, ∃ x, a.1 = .nearest x ∧
      ⟨x, .ofVariable, a.2⟩ ∈ frame.bindings := fun a ha => by
    obtain ⟨x, -, hx, hi⟩ := mem_pairing hidentifiers ha
    exact ⟨x, hx, Frame.mem_of_identifier? hi⟩
  refine ⟨hidentifiers.length_eq, ⟨fun a ha c hc => ?_, fun r y hr a ha heq => ?_⟩, ?_, ?_, ?_⟩
  · obtain ⟨x, -, hx, hi⟩ := mem_pairing hidentifiers ha
    obtain ⟨y, -, hy, hj⟩ := mem_pairing hidentifiers hc
    refine ⟨fun heq => ?_, fun heq => ?_⟩
    · obtain rfl : x = y := by simpa using hx.symm.trans (heq.trans hy)
      exact Option.some.inj (hi.symm.trans hj)
    · have hsame := (hq.valid.sound.eq_of_identifier_eq hframes hframes
        (Frame.mem_of_identifier? hi) (Frame.mem_of_identifier? hj) heq).2
      rw [hx, hy, show x = y from congrArg Binding.name hsame]
  · obtain ⟨x, -, hb⟩ := hpaired a ha
    subst heq
    have hfree := (hnew _ hb).2.2
    rw [Scope.taken, List.mem_append, not_or] at hfree
    rcases mem_of_naming hp.sound hr with hy | hy | ⟨key, hkey⟩
    · exact hfree.2 hy
    · exact hfree.1 (hp.reserved.symm ▸ hy)
    · rcases hagrees.apart hkey with hglobal | halloc
      · rw [hglobals] at hglobal
        exact hfree.2 (hp.sound.mem_openIdentifiers_of_globals hglobal)
      · exact halloc (hq.valid.sound.allocated _ (hopen _ hb))
  · funext r
    change naming q.scope helpers r
      = ((pairing names identifiers).lookup r).or (naming p.scope helpers r)
    cases r with
    | nearest x =>
      rw [lookup_pairing hidentifiers (fun b hb => (hnew b hb).2.1), naming, naming,
        Scope.lookup_eq, Scope.lookup_eq, hlocals, hglobals, List.findSome?_cons]
      cases frame.identifier? x .ofVariable <;> rfl
    | outermost x =>
      rw [lookup_pairing_eq_none (by simp), naming, naming, hglobals]
      rfl
    | procedure x =>
      have hnone : frame.identifier? x .ofProcedure = none :=
        Frame.identifier?_eq_none_iff.mpr fun b hb hkey =>
          absurd ((hnew b hb).1.symm.trans hkey.2) (by decide)
      rw [lookup_pairing_eq_none (by simp), naming, naming, Scope.lookup_eq,
        Scope.lookup_eq, hlocals, hglobals, List.findSome?_cons, hnone]
      rfl
    | definition x =>
      rw [lookup_pairing_eq_none (by simp), naming, naming, hglobals]
      rfl
    | helper key => rw [lookup_pairing_eq_none (by simp)]; rfl
    | fixed word => rw [lookup_pairing_eq_none (by simp)]; rfl
    | temporary => rw [lookup_pairing_eq_none (by simp)]; rfl
  · change q.scope.globalIdentifiers .ofVariable = p.scope.globalIdentifiers .ofVariable
    rw [Scope.globalIdentifiers, Scope.globalIdentifiers, hglobals]
  · intro x hx
    rw [← map_snd_pairing hidentifiers.length_eq] at hx
    obtain ⟨a, ha, rfl⟩ := List.mem_map.mp hx
    obtain ⟨y, -, hb⟩ := hpaired a ha
    exact hq.valid.isName (hopen _ hb)

/-- **A frame**: its body is rendered in the view inside. -/
theorem Renders.frame {α : Type} {names : List String} {f : List String → RenderM α}
    {S : View → α → Prop}
    (hf : ∀ identifiers, Renders (f identifiers) fun w a =>
      ∀ v, Opens names identifiers v w → S v a) :
    Renders (frame (names.mapM bindLocal >>= f)) S where
  composed := .frame names fun identifiers => (hf identifiers).composed
  outcome := fun {p q a} hp hrun helpers hagrees => by
    obtain ⟨identifiers, r, hbind, hr⟩ := mapM_bindLocal_binds names hp.push rfl
    rw [frame_eq, bind_of_ok hbind] at hrun
    cases hbody : f identifiers r with
    | error e t => rw [hbody] at hrun; cases hrun
    | ok b t =>
      rw [hbody] at hrun
      cases hrun
      obtain ⟨-, hleads⟩ := (hf identifiers).composed.leads_of_ok hr.valid hbody
      -- Closing the frame touches nothing that the support routines depend on.
      have hagrees : Agrees t helpers := ⟨hagrees.known, hagrees.apart⟩
      exact (hf identifiers).outcome hr.valid hbody hagrees _
        (opens_of_binds hp hr (hleads.agrees hagrees))

end Jigsaw.Render
