import Jigsaw.Proofs.Name.Run
import Jigsaw.Render.BlockType

/-!
# Proofs/Render/Discipline — what rendering does to a pass

Every rule is composed of a few steps: it returns or fails, resolves a name, asks for a support
routine or an import, or opens a frame, binds names in it and closes it again.  `Composed` says so
once, and what a rendering does to the pass follows by induction on it, on success and on failure:
the frames in sight stay as they are, the outermost frame only gains support routines under new
identifiers, and the library only grows (`Leads`), by standard entries (`Standard`).
-/

namespace Jigsaw.Render

open Name

/-- The support routines, by key. -/
inductive StandardHelper : String → (String → String) → Prop
  | prompt : StandardHelper "text_prompt" Node.promptSource
  | firstIndex : StandardHelper "first_index" Node.firstIndexSource
  | lastIndex : StandardHelper "last_index" Node.lastIndexSource

/-! ## Valid passes -/

/-- What holds of every pass: its names are sound, the language's own words are reserved, and every
support routine of its library is bound in the outermost frame. -/
structure Valid (p : Pass) : Prop where
  sound : p.scope.Sound
  reserved : p.scope.reserved = Name.reserved
  helpers : ∀ h ∈ p.library.helpers, ⟨h.key, .ofHelper, h.identifier⟩ ∈ p.scope.globals.bindings

/-- A new frame leaves a pass valid. -/
theorem Valid.push {p : Pass} (hp : Valid p) : Valid { p with scope := p.scope.push } :=
  ⟨hp.sound.push, hp.reserved, hp.helpers⟩

/-! ## Where steps lead -/

/-- **What a rendering may do to a pass.** -/
structure Leads (p q : Pass) : Prop where
  reserved : q.scope.reserved = p.scope.reserved
  /-- Frames inside the outermost stay as they are. -/
  locals : q.scope.locals = p.scope.locals
  /-- The outermost frame gains support routines only, under identifiers never used before. -/
  globals : ∃ added, q.scope.globals = p.scope.globals.addAll added ∧
    ∀ b ∈ added, b.kind = .ofHelper ∧ b.identifier ∉ p.scope.allocated
  allocated : p.scope.allocated ⊆ q.scope.allocated
  helpers : p.library.helpers <+: q.library.helpers
  imports : p.library.imports <+: q.library.imports

theorem Leads.refl (p : Pass) : Leads p p where
  reserved := rfl
  locals := rfl
  globals := ⟨[], rfl, fun _ h => absurd h List.not_mem_nil⟩
  allocated := List.Subset.refl _
  helpers := List.prefix_rfl
  imports := List.prefix_rfl

theorem Leads.trans {p q r : Pass} (hpq : Leads p q) (hqr : Leads q r) : Leads p r where
  reserved := hqr.reserved.trans hpq.reserved
  locals := hqr.locals.trans hpq.locals
  globals := by
    obtain ⟨as, has, hnew⟩ := hpq.globals
    obtain ⟨bs, hbs, hnew'⟩ := hqr.globals
    refine ⟨as ++ bs, by rw [hbs, has, Frame.addAll_append], fun b hb => ?_⟩
    rcases List.mem_append.mp hb with hb | hb
    · exact hnew b hb
    · exact ⟨(hnew' b hb).1, fun h => (hnew' b hb).2 (hpq.allocated h)⟩
  allocated := List.Subset.trans hpq.allocated hqr.allocated
  helpers := hpq.helpers.trans hqr.helpers
  imports := hpq.imports.trans hqr.imports

/-- A routine that was asked for keeps its identifier. -/
theorem Leads.find? {p q : Pass} (h : Leads p q) {key : String} {helper : Helper}
    (hkey : p.library.find? key = some helper) : q.library.find? key = some helper := by
  obtain ⟨rest, hrest⟩ := h.helpers
  rw [Library.find?] at hkey ⊢
  rw [← hrest, List.find?_append, hkey]
  rfl

/-! ## What rules are made of -/

/-- **The steps that rules are composed of.** -/
inductive Composed : {α : Type} → RenderM α → Prop
  | pure {α : Type} (a : α) : Composed (pure a)
  | throw {α : Type} (e : Error) : Composed (throw e : RenderM α)
  | bind {α β : Type} {m : RenderM α} {f : α → RenderM β} (hm : Composed m)
      (hf : ∀ a, Composed (f a)) : Composed (m >>= f)
  /-- What is looked up is nothing that a rendering may change. -/
  | reference (b : Block) (slot : String) {found : Scope → Except Unresolved String}
      (hfound : ∀ {p q : Pass}, Leads p q → found q.scope = found p.scope) :
      Composed (reference b slot found)
  | helper {key : String} {define : String → String} (h : StandardHelper key define) :
      Composed (helper key define)
  | requireRandom : Composed (requireImport "random")
  | globalVariables : Composed globalVariables
  | temporary : Composed (distinct "temp_value")
  | frame {α : Type} (names : List String) {f : List String → RenderM α}
      (hf : ∀ identifiers, Composed (f identifiers)) : Composed (frame (names.mapM bindLocal >>= f))

/-! ## Running steps in a row -/

/-- A row of two steps succeeds if both do. -/
theorem bind_eq_ok {α β : Type} {m : RenderM α} {f : α → RenderM β} {p q : Pass} {b : β} :
    (m >>= f) p = .ok b q ↔ ∃ a r, m p = .ok a r ∧ f a r = .ok b q := by
  change EStateM.bind m f p = .ok b q ↔ _
  unfold EStateM.bind
  cases hm : m p with
  | ok a r => exact ⟨fun h => ⟨a, r, rfl, h⟩, fun ⟨_, _, heq, h⟩ => by cases heq; exact h⟩
  | error e r => exact ⟨fun h => (by cases h), fun ⟨_, _, heq, _⟩ => (by cases heq)⟩

theorem bind_of_ok {α β : Type} {m : RenderM α} {f : α → RenderM β} {p q : Pass} {a : α}
    (h : m p = .ok a q) : (m >>= f) p = f a q := by
  change EStateM.bind m f p = _
  rw [EStateM.bind, h]

theorem bind_of_error {α β : Type} {m : RenderM α} {f : α → RenderM β} {p q : Pass} {e : Error}
    (h : m p = .error e q) : (m >>= f) p = .error e q := by
  change EStateM.bind m f p = _
  rw [EStateM.bind, h]

theorem map_of_ok {α β : Type} {f : α → β} {m : RenderM α} {p q : Pass} {a : α}
    (h : m p = .ok a q) : (f <$> m) p = .ok (f a) q := by
  change EStateM.map f m p = _
  rw [EStateM.map, h]

theorem map_eq_ok {α β : Type} {f : α → β} {m : RenderM α} {p q : Pass} {b : β} :
    (f <$> m) p = .ok b q ↔ ∃ a, m p = .ok a q ∧ f a = b := by
  rw [map_eq_pure_bind]
  refine bind_eq_ok.trans ⟨?_, ?_⟩
  · rintro ⟨a, r, ha, hpure⟩
    cases hpure
    exact ⟨a, ha, rfl⟩
  · rintro ⟨a, ha, rfl⟩
    exact ⟨a, q, ha, rfl⟩

theorem map_of_error {α β : Type} {f : α → β} {m : RenderM α} {p q : Pass} {e : Error}
    (h : m p = .error e q) : (f <$> m) p = .error e q := by
  change EStateM.map f m p = _
  rw [EStateM.map, h]

theorem runOn_of_ok {α : Type} {m : RenderM α} {p q : Pass} {a : α} (h : m p = .ok a q) :
    m.runOn p = (.ok a, q) := by rw [RenderM.runOn, h]

theorem runOn_of_error {α : Type} {m : RenderM α} {p q : Pass} {e : Error}
    (h : m p = .error e q) : m.runOn p = (.error e, q) := by rw [RenderM.runOn, h]

theorem exists_of_runOn_ok {α : Type} {m : RenderM α} {p : Pass} {a : α}
    (h : (m.runOn p).1 = .ok a) : ∃ q, m p = .ok a q := by
  unfold RenderM.runOn at h
  cases hm : m p with
  | ok b q =>
    rw [hm] at h
    cases h
    exact ⟨q, rfl⟩
  | error e q =>
    rw [hm] at h
    cases h

theorem exists_of_runOn_error {α : Type} {m : RenderM α} {p : Pass} {e : Error}
    (h : (m.runOn p).1 = .error e) : ∃ q, m p = .error e q := by
  unfold RenderM.runOn at h
  cases hm : m p with
  | ok b q =>
    rw [hm] at h
    cases h
  | error e' q =>
    rw [hm] at h
    cases h
    exact ⟨q, rfl⟩

/-- Two steps in a row end as the second does, or as the first if it fails. -/
theorem runOn_bind {α β : Type} (m : RenderM α) (f : α → RenderM β) (p : Pass) :
    (m >>= f).runOn p
      = match m p with
        | .ok a q => (f a).runOn q
        | .error e q => (.error e, q) := by
  change RenderM.runOn (EStateM.bind m f) p = _
  unfold RenderM.runOn EStateM.bind
  cases m p <;> rfl

/-! ## Where single steps lead -/

/-- What the outermost frame is asked to bind, it binds. -/
theorem bindGlobal_mem_globals (s : Scope) (name : String) (kind : Kind) :
    ⟨name, kind, (s.bindGlobal name kind).1⟩ ∈ (s.bindGlobal name kind).2.globals.bindings := by
  cases h : s.globals.identifier? name kind with
  | some x =>
    rw [Scope.bindGlobal_of_some h]
    exact Frame.mem_of_identifier? h
  | none =>
    obtain ⟨x, heq, -, -, -⟩ := Scope.bindGlobal_of_none h
    rw [heq]
    exact List.mem_append_right _ List.mem_cons_self

/-- …and it gains at most that binding, under an identifier never used before. -/
theorem bindGlobal_adds (s : Scope) (name : String) (kind : Kind) :
    (s.bindGlobal name kind).2.locals = s.locals ∧
      (∃ added, (s.bindGlobal name kind).2.globals = s.globals.addAll added ∧
        ∀ b ∈ added, b.kind = kind ∧ b.identifier ∉ s.allocated) ∧
      s.allocated ⊆ (s.bindGlobal name kind).2.allocated := by
  cases h : s.globals.identifier? name kind with
  | some x =>
    rw [Scope.bindGlobal_of_some h]
    exact ⟨rfl, ⟨[], rfl, fun _ hb => absurd hb List.not_mem_nil⟩, List.Subset.refl _⟩
  | none =>
    obtain ⟨x, heq, hnew, -, -⟩ := Scope.bindGlobal_of_none h
    rw [heq]
    refine ⟨rfl, ⟨[⟨name, kind, x⟩], rfl, fun b hb => ?_⟩, fun y hy => List.mem_insert_of_mem hy⟩
    obtain rfl := List.mem_singleton.mp hb
    exact ⟨rfl, hnew⟩

/-- A request for a support routine keeps a pass valid and binds nothing but a support routine. -/
theorem helper_leads {p : Pass} (hp : Valid p) (key : String) (define : String → String) :
    Valid (p.helper key define).2 ∧ Leads p (p.helper key define).2 := by
  unfold Pass.helper
  split
  · exact ⟨hp, Leads.refl p⟩
  dsimp only
  have hreserved := p.scope.reserved_next (.bindGlobal key .ofHelper)
  have hglobals := p.scope.globals_next (.bindGlobal key .ofHelper)
  have hmem := bindGlobal_mem_globals p.scope key .ofHelper
  obtain ⟨hlocals, hadded, hallocated⟩ := bindGlobal_adds p.scope key .ofHelper
  refine ⟨⟨hp.sound.bindGlobal key .ofHelper, hreserved.trans hp.reserved, fun h hh => ?_⟩,
    hreserved, hlocals, hadded, hallocated, List.prefix_append _ _, List.prefix_rfl⟩
  rcases List.mem_append.mp hh with hh | hh
  · exact hglobals.subset (hp.helpers h hh)
  · obtain rfl := List.mem_singleton.mp hh
    exact hmem

/-! ### Frames -/

/-- What binding `names` in the innermost frame, which is `frame` inside `outer`, does to a pass. -/
structure Binds (frame : Frame) (outer : List Frame) (names identifiers : List String)
    (p q : Pass) : Prop where
  valid : Valid q
  library : q.library = p.library
  globals : q.scope.globals = p.scope.globals
  allocated : p.scope.allocated ⊆ q.scope.allocated
  /-- The frame gains bindings of these names, under identifiers that were free. -/
  locals : ∃ added, q.scope.locals = frame.addAll added :: outer ∧
    (∀ b ∈ added, b.kind = .ofVariable ∧ b.name ∈ names ∧ b.identifier ∉ p.scope.taken) ∧
    List.Forall₂ (fun x i => (frame.addAll added).identifier? x .ofVariable = some i)
      names identifiers

/-- A new frame has bindings of these names only. -/
theorem Binds.new_frame {outer : List Frame} {names identifiers : List String} {p q : Pass}
    (h : Binds {} outer names identifiers p q) :
    ∃ frame, q.scope.locals = frame :: outer ∧
      (∀ b ∈ frame.bindings,
        b.kind = .ofVariable ∧ b.name ∈ names ∧ b.identifier ∉ p.scope.taken) ∧
      List.Forall₂ (fun x i => frame.identifier? x .ofVariable = some i) names identifiers := by
  obtain ⟨added, hlocals, hnew, hidentifiers⟩ := h.locals
  refine ⟨_, hlocals, fun b hb => hnew b ?_, hidentifiers⟩
  rwa [Frame.bindings_addAll] at hb

/-- What was open stays open, -/
theorem Binds.open_subset {frame : Frame} {outer : List Frame} {names identifiers : List String}
    {p q : Pass} (h : Binds frame outer names identifiers p q)
    (hlocals : p.scope.locals = frame :: outer) :
    p.scope.openIdentifiers ⊆ q.scope.openIdentifiers := by
  obtain ⟨added, hlocals', -, -⟩ := h.locals
  rw [Scope.openIdentifiers_eq, Scope.openIdentifiers_eq, hlocals, hlocals', h.globals]
  intro x
  simp only [List.flatMap_cons, Frame.mem_owned_addAll, List.mem_append]
  tauto

/-- …and what was taken stays taken. -/
theorem Binds.taken_subset {frame : Frame} {outer : List Frame} {names identifiers : List String}
    {p q : Pass} (h : Binds frame outer names identifiers p q) (hp : Valid p)
    (hlocals : p.scope.locals = frame :: outer) : p.scope.taken ⊆ q.scope.taken := by
  rw [Scope.taken, Scope.taken, hp.reserved, h.valid.reserved]
  exact List.append_subset.mpr ⟨List.subset_append_left _ _,
    List.subset_append_of_subset_right _ (h.open_subset hlocals)⟩

/-- A frame that gets a binding for a name it did not bind gives the name its identifier, -/
theorem identifier?_add_self {frame : Frame} {name x : String} {kind : Kind}
    (h : frame.identifier? name kind = none) :
    (frame.add ⟨name, kind, x⟩).identifier? name kind = some x := by
  rw [← Frame.addAll_singleton, Frame.identifier?_addAll, h]
  simp [Frame.identifier?]

/-- …and no later binding takes it away. -/
theorem identifier?_addAll_of_some {frame : Frame} {name x : String} {kind : Kind}
    (h : frame.identifier? name kind = some x) (added : List Binding) :
    (frame.addAll added).identifier? name kind = some x := by
  rw [Frame.identifier?_addAll, h]
  rfl

/-- One name is bound in the innermost frame. -/
theorem bindLocal_binds {frame : Frame} {outer : List Frame} {p : Pass} (hp : Valid p)
    (hlocals : p.scope.locals = frame :: outer) (name : String) :
    ∃ x q, bindLocal name p = .ok x q ∧ Binds frame outer [name] [x] p q := by
  cases h : frame.identifier? name .ofVariable with
  | some x =>
    refine ⟨x, p, ?_, hp, rfl, rfl, List.Subset.refl _, [], hlocals, ?_, .cons h .nil⟩
    · rw [bindLocal, onScope, Scope.bind_of_some hlocals h]
    · exact fun _ hb => absurd hb List.not_mem_nil
  | none =>
    obtain ⟨x, heq, hfree, hlegal⟩ := Scope.bind_of_none hlocals h
    refine ⟨x, { p with scope := p.scope.addLocal frame outer ⟨name, .ofVariable, x⟩ }, ?_,
      ⟨hp.sound.addLocal hlocals h hfree hlegal, hp.reserved, hp.helpers⟩, rfl, rfl,
      fun y hy => List.mem_insert_of_mem hy, [⟨name, .ofVariable, x⟩], rfl, ?_, ?_⟩
    · rw [bindLocal, onScope, heq]
    · intro b hb
      obtain rfl := List.mem_singleton.mp hb
      exact ⟨rfl, List.mem_cons_self, hfree⟩
    · exact .cons (identifier?_add_self h) .nil

/-- **Names are bound one after the other**, and a name that comes again keeps its identifier. -/
theorem mapM_bindLocal_binds {outer : List Frame} : ∀ (names : List String) {frame : Frame}
    {p : Pass}, Valid p → p.scope.locals = frame :: outer →
      ∃ identifiers q, names.mapM bindLocal p = .ok identifiers q ∧
        Binds frame outer names identifiers p q
  | [], frame, p, hp, hlocals => by
      exact ⟨[], p, rfl, hp, rfl, rfl, List.Subset.refl _, [], hlocals,
        fun _ hb => absurd hb List.not_mem_nil, .nil⟩
  | name :: rest, frame, p, hp, hlocals => by
      obtain ⟨x, q, hx, hq⟩ := bindLocal_binds hp hlocals name
      obtain ⟨added, hlocals', hadded, hfirst⟩ := hq.locals
      obtain ⟨xs, r, hxs, hr⟩ := mapM_bindLocal_binds rest hq.valid hlocals'
      obtain ⟨more, hlocals'', hmore, hrest⟩ := hr.locals
      rw [← Frame.addAll_append] at hlocals'' hrest
      refine ⟨x :: xs, r, ?_, hr.valid, hr.library.trans hq.library, hr.globals.trans hq.globals,
        List.Subset.trans hq.allocated hr.allocated, added ++ more, hlocals'', ?_, ?_⟩
      · rw [List.mapM_cons]
        exact bind_eq_ok.mpr ⟨x, q, hx, bind_eq_ok.mpr ⟨xs, r, hxs, rfl⟩⟩
      · intro b hb
        rcases List.mem_append.mp hb with hb | hb
        · obtain ⟨hkind, hname, hfree⟩ := hadded b hb
          rw [List.mem_singleton] at hname
          exact ⟨hkind, hname ▸ List.mem_cons_self, hfree⟩
        · obtain ⟨hkind, hname, hfree⟩ := hmore b hb
          exact ⟨hkind, List.mem_cons_of_mem _ hname, fun htaken =>
            hfree (hq.taken_subset hp hlocals htaken)⟩
      · obtain ⟨hx, -⟩ := List.forall₂_cons.mp hfirst
        refine .cons ?_ hrest
        rw [Frame.addAll_append]
        exact identifier?_addAll_of_some hx more

theorem frame_eq {α : Type} (body : RenderM α) (p : Pass) :
    frame body p
      = match body { p with scope := p.scope.push } with
        | .ok a q => .ok a { q with scope := q.scope.pop }
        | .error e q => .error e { q with scope := q.scope.pop } := rfl

/-- **A frame with names bound in it is gone after its body**, whatever the body did. -/
theorem frame_runOn {α : Type} (names : List String) (f : List String → RenderM α) {p : Pass}
    (hp : Valid p) :
    ∃ identifiers q,
      names.mapM bindLocal { p with scope := p.scope.push } = .ok identifiers q ∧
      Binds {} p.scope.locals names identifiers { p with scope := p.scope.push } q ∧
      (frame (names.mapM bindLocal >>= f)).runOn p
        = (((f identifiers).runOn q).1,
          { ((f identifiers).runOn q).2 with
            scope := ((f identifiers).runOn q).2.scope.pop }) := by
  obtain ⟨identifiers, q, hrun, hq⟩ := mapM_bindLocal_binds names hp.push rfl
  have hbody := bind_of_ok (f := f) hrun
  refine ⟨identifiers, q, hrun, hq, ?_⟩
  rw [RenderM.runOn, RenderM.runOn, frame_eq, hbody]
  cases f identifiers q <;> rfl

/-- …so all that the body did inside is what it did to the outermost frame and to the library. -/
theorem Binds.leads_pop {names identifiers : List String} {p q r : Pass} (hp : Valid p)
    (hq : Binds {} p.scope.locals names identifiers { p with scope := p.scope.push } q)
    (hvalid : Valid r) (hleads : Leads q r) :
    Valid { r with scope := r.scope.pop } ∧ Leads p { r with scope := r.scope.pop } := by
  obtain ⟨added, hlocals, -, -⟩ := hq.locals
  refine ⟨⟨hvalid.sound.pop, hvalid.reserved, hvalid.helpers⟩, ?_⟩
  obtain ⟨globals, hglobals, hnew⟩ := hleads.globals
  refine ⟨?_, ?_, ⟨globals, ?_, fun b hb => ⟨(hnew b hb).1, fun h => ?_⟩⟩, ?_, ?_, ?_⟩
  · exact hvalid.reserved.trans hp.reserved.symm
  · change r.scope.locals.tail = _
    rw [hleads.locals, hlocals]
    rfl
  · change r.scope.globals = _
    rw [hglobals, hq.globals]
    rfl
  · exact (hnew b hb).2 (hq.allocated h)
  · exact List.Subset.trans hq.allocated hleads.allocated
  · exact hq.library ▸ hleads.helpers
  · exact hq.library ▸ hleads.imports

/-! ## Every composed rendering -/

theorem reference_of_ok {b : Block} {slot x : String} {found : Scope → Except Unresolved String}
    {p : Pass} (h : found p.scope = .ok x) : reference b slot found p = .ok x p := by
  simp only [reference, h]

theorem reference_of_error {b : Block} {slot : String} {u : Unresolved}
    {found : Scope → Except Unresolved String} {p : Pass} (h : found p.scope = .error u) :
    reference b slot found p = .error (.unresolved u (.ofSlot b slot)) p := by
  simp only [reference, h]

/-- A reference changes nothing. -/
theorem reference_runOn (b : Block) (slot : String) (found : Scope → Except Unresolved String)
    (p : Pass) : ((reference b slot found).runOn p).2 = p := by
  cases h : found p.scope with
  | ok x => rw [runOn_of_ok (reference_of_ok h)]
  | error u => rw [runOn_of_error (reference_of_error h)]

/-- A request for an import adds an import at most. -/
theorem prefix_withImport (l : Library) (module : String) :
    (l.withImport module).helpers = l.helpers ∧ l.imports <+: (l.withImport module).imports := by
  unfold Library.withImport
  split
  · exact ⟨rfl, List.prefix_rfl⟩
  · exact ⟨rfl, List.prefix_append _ _⟩

/-- **A rendering keeps a pass valid and does no more than `Leads` allows**, whether it succeeds or
fails. -/
theorem Composed.leads {α : Type} {m : RenderM α} (hm : Composed m) :
    ∀ {p : Pass}, Valid p → Valid (m.runOn p).2 ∧ Leads p (m.runOn p).2 := by
  induction hm with
  | pure a => exact fun hp => ⟨hp, Leads.refl _⟩
  | throw e => exact fun hp => ⟨hp, Leads.refl _⟩
  | @bind _ _ m f _ _ ihm ihf =>
    intro p hp
    obtain ⟨hvalid, hleads⟩ := ihm hp
    rw [runOn_bind]
    cases hm : m p with
    | ok a q =>
      rw [runOn_of_ok hm] at hvalid hleads
      obtain ⟨hvalid', hleads'⟩ := ihf a hvalid
      exact ⟨hvalid', hleads.trans hleads'⟩
    | error e q =>
      rw [runOn_of_error hm] at hvalid hleads
      exact ⟨hvalid, hleads⟩
  | reference b slot _ =>
    intro p hp
    rw [reference_runOn]
    exact ⟨hp, Leads.refl p⟩
  | @helper key define _ => exact fun hp => helper_leads hp key define
  | requireRandom =>
    intro p hp
    obtain ⟨hhelpers, himports⟩ := prefix_withImport p.library "random"
    have hrun : ((requireImport "random").runOn p).2
        = { p with library := p.library.withImport "random" } := rfl
    rw [hrun]
    exact ⟨⟨hp.sound, hp.reserved, hhelpers ▸ hp.helpers⟩,
      { Leads.refl p with helpers := hhelpers ▸ List.prefix_rfl, imports := himports }⟩
  | globalVariables => exact fun hp => ⟨hp, Leads.refl _⟩
  | temporary => exact fun hp => ⟨hp, Leads.refl _⟩
  | @frame _ names f _ ih =>
    intro p hp
    obtain ⟨identifiers, q, -, hq, hframe⟩ := frame_runOn names f hp
    obtain ⟨hvalid, hleads⟩ := ih identifiers hq.valid
    rw [hframe]
    exact hq.leads_pop hp hvalid hleads

theorem Composed.leads_of_ok {α : Type} {m : RenderM α} (hm : Composed m) {p q : Pass} {a : α}
    (hp : Valid p) (h : m p = .ok a q) : Valid q ∧ Leads p q := by
  have hleads := hm.leads hp
  rwa [runOn_of_ok h] at hleads

/-! ## What the library holds -/

/-- Every support routine of the library stands there with its own definition, and the only import
is that of random numbers. -/
structure Standard (l : Library) : Prop where
  helpers : ∀ h ∈ l.helpers, ∃ define, StandardHelper h.key define ∧ h.source = define h.identifier
  imports : ∀ module ∈ l.imports, module = "random"

theorem Standard.empty : Standard {} where
  helpers := fun _ h => absurd h List.not_mem_nil
  imports := fun _ h => absurd h List.not_mem_nil

/-- A request for a standard routine, -/
theorem Standard.helper {p : Pass} (hp : Standard p.library) {key : String}
    {define : String → String} (h : StandardHelper key define) :
    Standard (p.helper key define).2.library := by
  unfold Pass.helper
  split
  · exact hp
  · refine ⟨fun routine hroutine => ?_, hp.imports⟩
    rcases List.mem_append.mp hroutine with hroutine | hroutine
    · exact hp.helpers routine hroutine
    · obtain rfl := List.mem_singleton.mp hroutine
      exact ⟨define, h, rfl⟩

/-- …and one for random numbers. -/
theorem Standard.requireRandom {l : Library} (hl : Standard l) :
    Standard (l.withImport "random") := by
  unfold Library.withImport
  split
  · exact hl
  · exact ⟨hl.helpers, fun module hmodule => (List.mem_append.mp hmodule).elim (hl.imports module)
      List.mem_singleton.mp⟩

/-- **A rendering asks for nothing else.** -/
theorem Composed.standard {α : Type} {m : RenderM α} (hm : Composed m) :
    ∀ {p : Pass}, Valid p → Standard p.library → Standard (m.runOn p).2.library := by
  induction hm with
  | pure a => exact fun _ hl => hl
  | throw e => exact fun _ hl => hl
  | @bind _ _ m f hm _ ihm ihf =>
    intro p hp hl
    have hvalid := (hm.leads hp).1
    have hfirst := ihm hp hl
    rw [runOn_bind]
    cases hrun : m p with
    | ok a q =>
      rw [runOn_of_ok hrun] at hvalid hfirst
      exact ihf a hvalid hfirst
    | error e q =>
      rw [runOn_of_error hrun] at hfirst
      exact hfirst
  | reference b slot _ =>
    intro p _ hl
    rw [reference_runOn]
    exact hl
  | helper h => exact fun _ hl => hl.helper h
  | requireRandom => exact fun _ hl => hl.requireRandom
  | globalVariables => exact fun _ hl => hl
  | temporary => exact fun _ hl => hl
  | @frame _ names f _ ih =>
    intro p hp hl
    obtain ⟨identifiers, q, -, hq, hframe⟩ := frame_runOn names f hp
    rw [hframe]
    exact ih identifiers hq.valid (hq.library ▸ hl)

end Jigsaw.Render
