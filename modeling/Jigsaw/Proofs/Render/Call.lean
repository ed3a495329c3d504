import Jigsaw.Proofs.Render.Reachable

/-!
# Proofs/Render/Call — calls of the renderer keep the names in sight, and repeat

    expression · statement · chain · value · suite · index

These calls are made on one pass, in any order, and they may fail anywhere inside.  Two facts hold
of all of them, because they hold of every rendering that is composed of the steps of rules:

* a call leaves the frames as they are, up to support routines at the end of the outermost one
  (`call_keeps_scope`);
* a call that is made again answers as it did before (`call_repeats`).

The second fact is about two runs on passes that differ: the later pass has support routines that
the earlier one had not.  Their identifiers differ from everything handed out before them, and so
every search for a free identifier gives the second time what it gave the first time
(`Composed.repeats`).
-/

namespace Jigsaw.Render

open Name

/-- One call of the renderer. -/
inductive Call where
  /-- The code of a block as a value, with its level. -/
  | expression (b : Block)
  /-- The code of a block alone as statements. -/
  | statement (b : Block)
  /-- The code of a block and those below it. -/
  | chain (b : Block)
  /-- The code of the value in a slot, for a place that asks for a level. -/
  | value (b : Block) (slot : String) (least : Precedence) (default : String)
  /-- The code of the chain in a slot. -/
  | suite (b : Block) (slot : String)
  /-- The code of the index in a slot, counted from zero. -/
  | index (b : Block) (slot default : String)

/-- What a call answers. -/
structure Answer where
  /-- The code. -/
  code : String
  /-- The level of the code, where the call is for an expression. -/
  level : Option Precedence := none
deriving DecidableEq

namespace Call

/-- Makes a call. -/
def run (indent : String) : Call → RenderM Answer
  | expression b => (fun (code, level) => { code, level := some level }) <$> expressionCode b
  | statement b => (fun code => { code }) <$> statementCode indent b
  | chain b => (fun code => { code }) <$> chainCode indent b
  | value b slot least default => (fun code => { code }) <$> valueCode b slot least default
  | suite b slot => (fun code => { code }) <$> suiteCode indent b slot
  | index b slot default => (fun code => { code }) <$> indexCode b slot default

/-- The pass after calls, whether they succeed or fail. -/
def after (indent : String) (p : Pass) : List Call → Pass
  | [] => p
  | c :: rest => after indent ((c.run indent).runOn p).2 rest

end Call

/-! ## Calls are composed of the steps of rules -/

theorem Composed.map {α β : Type} {m : RenderM α} (hm : Composed m) (f : α → β) :
    Composed (f <$> m) := by
  rw [map_eq_pure_bind]
  exact hm.bind fun a => .pure (f a)

theorem composed_valueCode (b : Block) (slot : String) (least : Precedence) (default : String) :
    Composed (valueCode b slot least default) := by
  unfold valueCode
  split
  · rename_i child _
    exact child.depicts_tree.composed.map _
  · exact .pure default

theorem composed_suiteCode (indent : String) (b : Block) (slot : String) :
    Composed (suiteCode indent b slot) := by
  unfold suiteCode
  split
  · rename_i child _
    exact child.realizes_plans.chain.composed.map _
  · exact .pure ""

theorem Call.composed (indent : String) : ∀ c : Call, Composed (c.run indent)
  | expression b => (b.depicts_tree.composed.bind fun _ => .pure _).map _
  | statement b => (b.realizes_plans.statement.composed.map _).map _
  | chain b => (b.realizes_plans.chain.composed.map _).map _
  | value b slot least default => (composed_valueCode b slot least default).map _
  | suite b slot => (composed_suiteCode indent b slot).map _
  | index b slot default => ((composed_valueCode b slot .sum default).map _).map _

/-! ## The state discipline -/

/-- **A call keeps the names in sight**, whether it succeeds or fails.  As many frames are open
after it as before; all but the outermost are unchanged, and that one keeps its bindings in order
and gains support routines at its end.  So every name of a variable or a procedure means what it
meant.  The identifiers handed out, the definitions of support routines and the imports only
grow. -/
theorem call_keeps_scope {p : Pass} (hp : Reachable p) (indent : String) (c : Call) :
    let q := ((c.run indent).runOn p).2
    q.scope.depth = p.scope.depth ∧
    q.scope.locals = p.scope.locals ∧
    (∃ added, q.scope.globals = p.scope.globals.addAll added ∧ ∀ b ∈ added, b.kind = .ofHelper) ∧
    (∀ kind ∈ [Kind.ofVariable, Kind.ofProcedure],
      (∀ name, q.scope.lookup name kind = p.scope.lookup name kind ∧
        q.scope.resolveGlobal name kind = p.scope.resolveGlobal name kind) ∧
      q.scope.globalIdentifiers kind = p.scope.globalIdentifiers kind) ∧
    p.scope.allocated ⊆ q.scope.allocated ∧
    p.library.definitions <+: q.library.definitions ∧
    p.library.imports <+: q.library.imports := by
  intro q
  have h : Leads p q := ((c.composed indent).leads hp.valid).2
  obtain ⟨added, hglobals, hnew⟩ := h.globals
  have hkinds : ∀ kind ∈ [Kind.ofVariable, Kind.ofProcedure], kind ≠ .ofHelper := by decide
  refine ⟨?_, h.locals, ⟨added, hglobals, fun b hb => (hnew b hb).1⟩, fun kind hkind => ?_,
    h.allocated, h.helpers.map Helper.source, h.imports⟩
  · rw [Scope.depth, Scope.depth, h.locals]
  · exact ⟨fun name => ⟨h.lookup_eq name (hkinds kind hkind),
      h.resolveGlobal_eq name (hkinds kind hkind)⟩, h.globalIdentifiers_eq (hkinds kind hkind)⟩

/-- A local declaration that asks for its first value and fails in its body. -/
def failingDeclaration : Block :=
  .mk "local_declaration_expression" "" [("VAR0", "x")]
    [("DECL0", .mk "text_prompt" "" [] [] [] none []),
      ("RETURN", .mk "lexical_variable_get" "v" [("VAR", "missing")] [] [] none [])]
    [] none []

/-- A pass with one frame inside the outermost, which binds `y`. -/
def nestedPass : Pass := { scope := Scope.after {} [.push, .bind "y" .ofVariable] }

set_option maxRecDepth 2000 in
theorem nestedPass_kept :
    let run := ((Call.expression failingDeclaration).run "").runOn nestedPass
    run.1 = .error (.unresolved ⟨"missing", .ofVariable⟩
      { blockType := "lexical_variable_get", blockId := "v", slot := "VAR" }) ∧
    run.2.scope.globals = ⟨[⟨"text_prompt", .ofHelper, "text_prompt"⟩], ["text_prompt"]⟩ ∧
    run.2.scope.depth = nestedPass.scope.depth ∧
    run.2.scope.lookup "y" .ofVariable = nestedPass.scope.lookup "y" .ofVariable := by
  have hreachable : Reachable nestedPass := .name (.name .initial .push) (.bind "y" .ofVariable)
  obtain ⟨hdepth, -, -, hnames, -⟩ :=
    call_keeps_scope hreachable "" (.expression failingDeclaration)
  exact ⟨by rfl, by rfl, hdepth, ((hnames .ofVariable (by decide)).1 "y").1⟩

/-! ## Later passes -/

/-- The identifiers that a support routine may get. -/
def IsHelperName (x : String) : Prop :=
  ∃ key define n, StandardHelper key define ∧ x = candidate (base key) n

/-- **`q` is a later pass than `p`**: renderings are all that happened in between. -/
structure Later (p q : Pass) : Prop extends Leads p q where
  /-- What the outermost frame gained are names of support routines. -/
  gained : ∀ x ∈ q.scope.globals.owned, x ∈ p.scope.globals.owned ∨ IsHelperName x

theorem Later.refl (p : Pass) : Later p p := ⟨.refl p, fun _ hx => Or.inl hx⟩

theorem Later.trans {p q r : Pass} (hpq : Later p q) (hqr : Later q r) : Later p r where
  toLeads := hpq.toLeads.trans hqr.toLeads
  gained := fun x hx => (hqr.gained x hx).elim (hpq.gained x) Or.inr

/-- A new support routine gets one of its names. -/
theorem gained_helper {p : Pass} {key : String} {define : String → String}
    (h : StandardHelper key define) : ∀ x ∈ (p.helper key define).2.scope.globals.owned,
      x ∈ p.scope.globals.owned ∨ IsHelperName x := by
  intro x hx
  unfold Pass.helper at hx
  split at hx
  · exact Or.inl hx
  dsimp only at hx
  unfold Scope.bindGlobal at hx
  split at hx
  · exact Or.inl hx
  · refine (List.mem_insert_iff.mp hx).symm.imp id fun hnew => ?_
    obtain ⟨n, hn, -, -, -⟩ := firstFree_spec p.scope.everTaken (base key)
    exact ⟨key, define, n, h, hnew.trans hn⟩

/-- **A rendering leads to a later pass**, whether it succeeds or fails. -/
theorem Composed.later {α : Type} {m : RenderM α} (hm : Composed m) {p : Pass} (hp : Valid p) :
    Later p (m.runOn p).2 := by
  refine ⟨(hm.leads hp).2, ?_⟩
  induction hm generalizing p with
  | pure a => exact fun _ hx => Or.inl hx
  | throw e => exact fun _ hx => Or.inl hx
  | @bind _ _ m f hm _ ihm ihf =>
    have hvalid := (hm.leads hp).1
    have hfirst := ihm hp
    rw [runOn_bind]
    cases hrun : m p with
    | ok a q =>
      rw [runOn_of_ok hrun] at hvalid hfirst
      exact fun x hx => (ihf a hvalid x hx).elim (hfirst x) Or.inr
    | error e q =>
      rw [runOn_of_error hrun] at hfirst
      exact hfirst
  | reference b slot _ =>
    rw [reference_runOn]
    exact fun _ hx => Or.inl hx
  | helper h => exact gained_helper h
  | requireRandom => exact fun _ hx => Or.inl hx
  | globalVariables => exact fun _ hx => Or.inl hx
  | temporary => exact fun _ hx => Or.inl hx
  | @frame _ names f _ ih =>
    obtain ⟨identifiers, q, -, hq, hframe⟩ := frame_runOn names f hp
    have hglobals : q.scope.globals = p.scope.globals := hq.globals
    rw [hframe, ← hglobals]
    exact ih identifiers hq.valid

/-! ## Free identifiers stay free -/

/-- The first letters of an identifier are those of its base. -/
theorem take_candidate {base : String} {k : Nat} (h : k ≤ base.toList.length) (n : Nat) :
    (candidate base n).toList.take k = base.toList.take k := by
  cases n with
  | zero => rfl
  | succ n => rw [candidate, String.toList_append, List.take_append_of_le_length h]

/-- No support routine gets the name of a temporary. -/
theorem not_isHelperName_temporary (n : Nat) :
    ¬ IsHelperName (candidate (base "temp_value") n) := by
  rintro ⟨key, define, m, hkey, heq⟩
  have htake := congrArg (fun x => x.toList.take 3) heq
  cases hkey
  all_goals
    rw [take_candidate (by decide), take_candidate (by decide)] at htake
    exact absurd htake (by decide)

/-- What is open stays open, -/
theorem Leads.open_subset {p q : Pass} (h : Leads p q) :
    p.scope.openIdentifiers ⊆ q.scope.openIdentifiers := by
  obtain ⟨added, hglobals, -⟩ := h.globals
  rw [Scope.openIdentifiers_eq, Scope.openIdentifiers_eq, h.locals, hglobals]
  intro x
  simp only [List.mem_append, Frame.mem_owned_addAll]
  tauto

/-- …and what is taken stays taken. -/
theorem Leads.taken_subset {p q : Pass} (h : Leads p q) : p.scope.taken ⊆ q.scope.taken := by
  rw [Scope.taken, Scope.taken, h.reserved]
  exact List.append_subset.mpr ⟨List.subset_append_left _ _,
    List.subset_append_of_subset_right _ h.open_subset⟩

/-- **A temporary gets the same identifier in a later pass.** -/
theorem Later.distinct_eq {p q : Pass} (h : Later p q) :
    q.scope.distinct "temp_value" = p.scope.distinct "temp_value" := by
  refine firstFree_eq_of_subset h.taken_subset fun htaken => ?_
  obtain ⟨n, hn, hfree, -, -⟩ := firstFree_spec p.scope.taken (base "temp_value")
  rw [hn] at htaken
  rw [Scope.taken, Scope.openIdentifiers_eq, List.mem_append, List.mem_append, not_or, not_or]
    at hfree
  rw [Scope.taken, Scope.openIdentifiers_eq, h.reserved, h.locals, List.mem_append,
    List.mem_append] at htaken
  rcases htaken with htaken | htaken | htaken
  · exact hfree.1 htaken
  · exact hfree.2.1 htaken
  · rcases h.gained _ htaken with hglobal | hhelper
    · exact hfree.2.2 hglobal
    · exact not_isHelperName_temporary n hhelper

/-- The frames of `p` are open in `p'` too, and what the outermost frame of `p'` has besides avoids
these identifiers. -/
structure Beside (avoided : List String) (p p' : Pass) : Prop where
  reserved : p'.scope.reserved = p.scope.reserved
  locals : p'.scope.locals = p.scope.locals
  globals : ∃ added, p'.scope.globals = p.scope.globals.addAll added ∧
    ∀ b ∈ added, b.identifier ∉ avoided

/-- A name is bound under the same identifier beside frames that avoid it. -/
theorem bindLocal_beside {avoided : List String} {p p' q : Pass} {frame : Frame}
    {outer : List Frame} {name x : String} (h : Beside avoided p p')
    (hlocals : p.scope.locals = frame :: outer) (hrun : bindLocal name p = .ok x q)
    (havoided : q.scope.allocated ⊆ avoided) :
    ∃ q', bindLocal name p' = .ok x q' ∧ Beside avoided q q' := by
  have hlocals' := h.locals.trans hlocals
  rw [bindLocal, onScope] at hrun
  rw [bindLocal, onScope]
  cases hkey : frame.identifier? name .ofVariable with
  | some y =>
    rw [Scope.bind_of_some hlocals hkey] at hrun
    rw [Scope.bind_of_some hlocals' hkey]
    cases hrun
    exact ⟨p', rfl, h⟩
  | none =>
    rw [Scope.bind_eq_of_none hlocals hkey] at hrun
    rw [Scope.bind_eq_of_none hlocals' hkey]
    obtain ⟨added, hglobals, hadded⟩ := h.globals
    cases hrun
    have hsame : firstFree p'.scope.taken (base name) = firstFree p.scope.taken (base name) := by
      have hfree := firstFree_notMem p.scope.taken (base name)
      have hnew : firstFree p.scope.taken (base name) ∉ added.map Binding.identifier :=
        fun hmem => by
          obtain ⟨b, hb, heq⟩ := List.mem_map.mp hmem
          exact hadded b hb (heq ▸ havoided List.mem_insert_self)
      have htaken (y : String) : y ∈ p'.scope.taken ↔
          y ∈ p.scope.taken ∨ y ∈ added.map Binding.identifier := by
        rw [Scope.taken, Scope.taken, Scope.openIdentifiers_eq, Scope.openIdentifiers_eq,
          h.reserved, h.locals, hglobals]
        simp only [List.mem_append, Frame.mem_owned_addAll, or_assoc]
      exact firstFree_eq_of_subset (fun y hy => (htaken y).mpr (Or.inl hy)) fun hmem =>
        ((htaken _).mp hmem).elim hfree hnew
    rw [hsame]
    exact ⟨_, rfl, h.reserved, rfl, added, hglobals, hadded⟩

/-- …and so are names in a row. -/
theorem mapM_bindLocal_beside {avoided : List String} {outer : List Frame} :
    ∀ (names : List String) {p p' q : Pass} {frame : Frame} {identifiers : List String}, Valid p →
      Beside avoided p p' → p.scope.locals = frame :: outer →
      names.mapM bindLocal p = .ok identifiers q → q.scope.allocated ⊆ avoided →
      ∃ q', names.mapM bindLocal p' = .ok identifiers q' ∧ Beside avoided q q'
  | [], _, p', _, _, _, _, h, _, hrun, _ => by
      cases hrun
      exact ⟨p', rfl, h⟩
  | name :: rest, p, p', q, frame, identifiers, hp, h, hlocals, hrun, havoided => by
      rw [List.mapM_cons] at hrun ⊢
      obtain ⟨x, r, hx, hrun⟩ := bind_eq_ok.mp hrun
      obtain ⟨xs, t, hxs, hpure⟩ := bind_eq_ok.mp hrun
      cases hpure
      obtain ⟨_, _, hx', hr⟩ := bindLocal_binds hp hlocals name
      cases hx.symm.trans hx'
      obtain ⟨added, hlocals', -, -⟩ := hr.locals
      obtain ⟨_, _, hxs', ht⟩ := mapM_bindLocal_binds rest hr.valid hlocals'
      cases hxs.symm.trans hxs'
      obtain ⟨r', hfirst, hbeside⟩ :=
        bindLocal_beside h hlocals hx (List.Subset.trans ht.allocated havoided)
      obtain ⟨q', hrest, hbeside'⟩ :=
        mapM_bindLocal_beside rest hr.valid hbeside hlocals' hxs havoided
      exact ⟨q', bind_eq_ok.mpr ⟨x, r', hfirst, bind_eq_ok.mpr ⟨xs, q', hrest, rfl⟩⟩, hbeside'⟩

/-- **Inside a frame that is opened again, a later pass is a later pass.**  Let the frame's body
lead from `q` to `r`, and let `p'` be later than the end of the frame.  The names get the same
identifiers in `p'`, and the pass with them is later than `r`. -/
theorem frame_beside {names identifiers identifiers' : List String} {p p' q q' r : Pass}
    (hp : Valid p) (hbody : Leads q r) (hlater : Later { r with scope := r.scope.pop } p')
    (hbind : names.mapM bindLocal { p with scope := p.scope.push } = .ok identifiers q)
    (hq : Binds {} p.scope.locals names identifiers { p with scope := p.scope.push } q)
    (hbind' : names.mapM bindLocal { p' with scope := p'.scope.push } = .ok identifiers' q')
    (hq' : Binds {} p'.scope.locals names identifiers' { p' with scope := p'.scope.push } q') :
    identifiers' = identifiers ∧ Later r q' := by
  have hglobals : q.scope.globals = p.scope.globals := hq.globals
  have hglobals' : q'.scope.globals = p'.scope.globals := hq'.globals
  obtain ⟨frame, hlocals, -, -⟩ := hq.locals
  obtain ⟨inside, hinside, hnew⟩ := hbody.globals
  obtain ⟨after, hafter, hnew'⟩ := hlater.globals
  have houter : p'.scope.locals = p.scope.locals := by
    refine hlater.locals.trans ?_
    change r.scope.locals.tail = _
    rw [hbody.locals, hlocals]
    rfl
  have hpush : Beside q.scope.allocated { p with scope := p.scope.push }
      { p' with scope := p'.scope.push } := by
    refine ⟨?_, congrArg (List.cons ({} : Frame)) houter, inside ++ after, ?_, fun b hb => ?_⟩
    · exact hlater.reserved.trans (hbody.reserved.trans (hq.valid.reserved.trans hp.reserved.symm))
    · change p'.scope.globals = p.scope.globals.addAll (inside ++ after)
      rw [hafter, ← hglobals, Frame.addAll_append, ← hinside]
      rfl
    · rcases List.mem_append.mp hb with hb | hb
      · exact (hnew b hb).2
      · exact fun h => (hnew' b hb).2 (hbody.allocated h)
  obtain ⟨_, hrun, hbeside⟩ :=
    mapM_bindLocal_beside names hp.push hpush rfl hbind (List.Subset.refl _)
  cases hbind'.symm.trans hrun
  refine ⟨rfl, ⟨?_, ?_, ⟨after, ?_, hnew'⟩, ?_, ?_, ?_⟩, fun x hx => ?_⟩
  · exact hbeside.reserved.trans hbody.reserved.symm
  · exact hbeside.locals.trans hbody.locals.symm
  · rw [hglobals', hafter]
    rfl
  · exact List.Subset.trans hlater.allocated hq'.allocated
  · exact hq'.library ▸ hlater.helpers
  · exact hq'.library ▸ hlater.imports
  · exact hlater.gained x (hglobals' ▸ hx)

/-! ## Renderings repeat -/

/-- **A rendering on a later pass ends as it did**, with the same outcome or the same error. -/
theorem Composed.repeats {α : Type} {m : RenderM α} (hm : Composed m) :
    ∀ {p p' : Pass}, Valid p → Valid p' → Later (m.runOn p).2 p' →
      (m.runOn p').1 = (m.runOn p).1 := by
  induction hm with
  | pure a => exact fun _ _ _ => rfl
  | throw e => exact fun _ _ _ => rfl
  | @bind _ _ m f hm hf ihm ihf =>
    intro p p' hp hp' hlater
    rw [runOn_bind] at hlater
    rw [runOn_bind, runOn_bind]
    cases hrun : m p with
    | error e q =>
      rw [hrun] at hlater
      have hfirst := ihm hp hp' (by rwa [runOn_of_error hrun])
      rw [runOn_of_error hrun] at hfirst
      obtain ⟨q', hrun'⟩ := exists_of_runOn_error hfirst
      rw [hrun']
    | ok a q =>
      rw [hrun] at hlater
      have hq : Valid q := by
        have hvalid := (hm.leads hp).1
        rwa [runOn_of_ok hrun] at hvalid
      -- The later pass is later than the one between the two steps, too.
      have hfirst := ihm hp hp' (by rw [runOn_of_ok hrun]; exact ((hf a).later hq).trans hlater)
      rw [runOn_of_ok hrun] at hfirst
      obtain ⟨q', hrun'⟩ := exists_of_runOn_ok hfirst
      have hq' := (hm.leads hp').1
      have hlater' := hm.later hp'
      rw [runOn_of_ok hrun'] at hq' hlater'
      rw [hrun']
      exact ihf a hq hq' (hlater.trans hlater')
  | @reference b slot found hfound =>
    intro p p' _ _ hlater
    rw [reference_runOn] at hlater
    have hsame := hfound hlater.toLeads
    cases hx : found p.scope with
    | ok x => rw [runOn_of_ok (reference_of_ok hx), runOn_of_ok (reference_of_ok (hsame.trans hx))]
    | error u =>
      rw [runOn_of_error (reference_of_error hx),
        runOn_of_error (reference_of_error (hsame.trans hx))]
  | @helper key define h =>
    intro p p' _ _ hlater
    obtain ⟨routine, hfind, hroutine⟩ := find?_helper p key define
    have hfind' := hlater.toLeads.find? hfind
    change Except.ok (p'.helper key define).1 = Except.ok (p.helper key define).1
    rw [← hroutine, Pass.helper, hfind']
  | requireRandom => exact fun _ _ _ => rfl
  | globalVariables =>
    intro p p' _ _ hlater
    exact congrArg Except.ok (hlater.toLeads.globalIdentifiers_eq (by decide))
  | temporary =>
    intro p p' _ _ hlater
    exact congrArg Except.ok hlater.distinct_eq
  | @frame _ names f hf ih =>
    intro p p' hp hp' hlater
    obtain ⟨identifiers, q, hbind, hq, hframe⟩ := frame_runOn names f hp
    obtain ⟨identifiers', q', hbind', hq', hframe'⟩ := frame_runOn names f hp'
    rw [hframe] at hlater ⊢
    rw [hframe']
    obtain ⟨-, hbody⟩ := (hf identifiers).leads hq.valid
    obtain ⟨rfl, hinside⟩ := frame_beside hp hbody hlater hbind hq hbind' hq'
    exact ih _ hq.valid hq'.valid hinside

/-- Calls lead to a later pass. -/
theorem Call.later_after (indent : String) : ∀ (calls : List Call) {p : Pass}, Valid p →
    Valid (Call.after indent p calls) ∧ Later p (Call.after indent p calls)
  | [], p, hp => ⟨hp, .refl p⟩
  | c :: rest, _, hp => by
      obtain ⟨hvalid, hlater⟩ := Call.later_after indent rest ((c.composed indent).leads hp).1
      exact ⟨hvalid, ((c.composed indent).later hp).trans hlater⟩

/-- **A call that is made again answers as it did before**, with the same code and level or with the
same error, whatever calls were made in between and whether they succeeded or failed. -/
theorem call_repeats {p : Pass} (hp : Reachable p) (indent : String) (c : Call)
    (between : List Call) :
    let first := (c.run indent).runOn p
    ((c.run indent).runOn (Call.after indent first.2 between)).1 = first.1 := by
  intro first
  have hfirst : Valid first.2 := ((c.composed indent).leads hp.valid).1
  obtain ⟨hvalid, hlater⟩ := Call.later_after indent between hfirst
  exact (c.composed indent).repeats hp.valid hvalid hlater

/-- A local that is called like a support routine. -/
def routineLikeLocal : Block :=
  .mk "local_declaration_expression" "" [("VAR0", "text_prompt")]
    [("RETURN", .mk "lexical_variable_get" "" [("VAR", "text_prompt")] [] [] none [])] [] none []

set_option maxRecDepth 2000 in
theorem routineLikeLocal_repeats :
    let call := (Call.expression routineLikeLocal).run ""
    let first := call.runOn {}
    let later := Call.after "" first.2 [.expression failingDeclaration]
    first.1 = .ok { code := "(lambda text_prompt: text_prompt)(0)", level := some .call } ∧
    later.library.helpers.map Helper.identifier = ["text_prompt2"] ∧
    (call.runOn later).1 = first.1 :=
  ⟨by rfl, by rfl,
    call_repeats .initial "" (.expression routineLikeLocal) [.expression failingDeclaration]⟩

end Jigsaw.Render
