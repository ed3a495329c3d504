import Jigsaw.Proofs.Render.Reachable

/-!
# Proofs/Render/Procedures — globals and parameters of a procedure

A procedure declares the global variables in its first line, and whatever its body assigns to is
either one of those or a name of the procedure's own.  Which of the two an assignment means is a
matter of scoping alone: `targetsAll` reads it off the plans, with the local names in sight.  The
identifiers agree with it (`Lays.keeps`), since a frame gives its names identifiers that no global
has, and a name that no frame inside binds keeps its outermost identifier.
-/

namespace Jigsaw

/-! ## Assignments in lines and in plans -/

namespace Stmt

mutual

/-- The lines of a statement, without those of nested definitions. -/
def ownLines : Stmt → List Simple
  | .simple line => [line]
  | .compound (.define _ _) _ => []
  | .compound (.when _) suite | .compound (.orWhen _) suite | .compound .otherwise suite =>
    ownLinesAll suite
termination_by structural s => s

/-- The lines of several statements. -/
def ownLinesAll : List Stmt → List Simple
  | [] => []
  | s :: rest => s.ownLines ++ ownLinesAll rest
termination_by structural ss => ss

end

theorem ownLinesAll_append : ∀ ss tt : List Stmt,
    ownLinesAll (ss ++ tt) = ownLinesAll ss ++ ownLinesAll tt
  | [], _ => rfl
  | s :: ss, tt => by
      rw [List.cons_append, ownLinesAll, ownLinesAll, ownLinesAll_append ss tt, List.append_assoc]

end Stmt

/-- The identifier that a line assigns to. -/
def Simple.target? : Simple → Option String
  | .assign target _ => some target
  | _ => none

/-- The identifiers that statements assign to outside nested definitions, in order. -/
def assigned (ss : List Stmt) : List String := (Stmt.ownLinesAll ss).filterMap Simple.target?

/-- The name of a variable that is referred to. -/
def Ref.variable? : Ref → Option String
  | .nearest name | .outermost name => some name
  | _ => none

/-- A variable that is assigned to, and the local names in sight. -/
structure Target where
  /-- What the assignment refers to. -/
  ref : Ref
  /-- The names that frames inside the outermost bind. -/
  locals : List String

/-- **The variable resolves to the outermost frame**: its name is asked for there, or it is bound
nowhere nearer. -/
def Target.IsOutermost : Target → Prop
  | ⟨.nearest name, locals⟩ => name ∉ locals
  | ⟨.outermost _, _⟩ => True
  | _ => False

mutual

/-- The assignments of a plan outside nested definitions, where `locals` are in sight. -/
def Plan.targets (locals : List String) : Plan → List Target
  | .assign target _ => [⟨target, locals⟩]
  | .when _ body | .orWhen _ body | .otherwise body => targetsAll locals body
  | .declare names _ body =>
    names.map (fun name => ⟨.nearest name, names ++ locals⟩) ++ targetsAll (names ++ locals) body
  | .expr _ | .assignItem _ _ _ | .result _ | .define _ _ _ => []
termination_by structural plan => plan

/-- The assignments of several plans. -/
def targetsAll (locals : List String) : List Plan → List Target
  | [] => []
  | plan :: rest => plan.targets locals ++ targetsAll locals rest
termination_by structural plans => plans

end

namespace Render

open Name Source

/-- An identifier for a target, where `s` is the scope of the program: it is a global variable's
exactly if the target resolves to the outermost frame, and then it is the one of its name. -/
structure Meets (s : Scope) (t : Target) (x : String) : Prop where
  listed : x ∈ s.globalIdentifiers .ofVariable ↔ t.IsOutermost
  resolved : t.IsOutermost →
    ∃ name, t.ref.variable? = some name ∧ s.globals.identifier? name .ofVariable = some x

/-- **The statements keep to the scoping of the plans**: they declare no global variables, and their
assignments are those of the plans, each to an identifier that meets its target. -/
structure Keeps (s : Scope) (locals : List String) (plans : List Plan) (ss : List Stmt) : Prop where
  undeclared : ∀ line ∈ Stmt.ownLinesAll ss, ∀ xs, line ≠ .globals xs
  targets : List.Forall₂ (Meets s) (targetsAll locals plans) (assigned ss)

namespace Keeps

variable {s : Scope} {locals : List String} {plans more : List Plan} {ss tt : List Stmt}

theorem nil (s : Scope) (locals : List String) : Keeps s locals [] [] :=
  ⟨fun _ h => absurd h List.not_mem_nil, .nil⟩

theorem cons {plan : Plan} (h : ∀ line ∈ Stmt.ownLinesAll ss, ∀ xs, line ≠ .globals xs)
    (htargets : List.Forall₂ (Meets s) (plan.targets locals) (assigned ss))
    (hrest : Keeps s locals plans tt) : Keeps s locals (plan :: plans) (ss ++ tt) := by
  refine ⟨fun line hline => ?_, ?_⟩
  · rw [Stmt.ownLinesAll_append] at hline
    exact (List.mem_append.mp hline).elim (h line) (hrest.undeclared line)
  · rw [targetsAll, assigned, Stmt.ownLinesAll_append, List.filterMap_append]
    exact List.rel_append htargets hrest.targets

/-- A line that neither assigns to a variable nor declares globals. -/
theorem line {plan : Plan} {line : Simple} (hplan : plan.targets locals = [])
    (htarget : line.target? = none) (hline : ∀ xs, line ≠ .globals xs)
    (hrest : Keeps s locals plans tt) : Keeps s locals (plan :: plans) (.simple line :: tt) := by
  change Keeps s locals (plan :: plans) ([.simple line] ++ tt)
  refine cons (fun other hother => ?_) ?_ hrest
  · rw [List.mem_singleton.mp hother]
    exact hline
  · have hnone : assigned [.simple line] = [] := by
      rw [assigned, List.filterMap_eq_nil_iff]
      intro other hother
      rwa [List.mem_singleton.mp hother]
    rw [hplan, hnone]
    exact .nil

/-- A header that is no definition, and its suite. -/
theorem suite {header : Header} {plan : Plan} {body : List Plan} {bs : List Stmt}
    (hheader : ∀ suite, (Stmt.compound header suite).ownLines = Stmt.ownLinesAll suite)
    (hplan : plan.targets locals = targetsAll locals body) (hbody : Keeps s locals body bs)
    (hrest : Keeps s locals plans tt) :
    Keeps s locals (plan :: plans) (.block header bs :: tt) := by
  change Keeps s locals (plan :: plans) ([.block header bs] ++ tt)
  have hlines : Stmt.ownLinesAll [.block header bs]
      = Stmt.ownLinesAll (if bs.isEmpty then [.simple .pass] else bs) := by
    rw [Stmt.ownLinesAll, Stmt.ownLinesAll, List.append_nil, Stmt.block, hheader]
  cases bs with
  | nil =>
    refine cons (fun line hline => ?_) ?_ hrest
    · rw [hlines] at hline
      rw [List.mem_singleton.mp hline]
      exact fun xs => nofun
    · rw [hplan, assigned, hlines]
      exact hbody.targets
  | cons first others =>
    refine cons ?_ ?_ hrest
    · rw [hlines]
      exact hbody.undeclared
    · rw [hplan, assigned, hlines]
      exact hbody.targets

end Keeps

/-! ## Views inside a procedure -/

theorem mem_globalIdentifiers {s : Scope} (hs : s.Sound) {x : String} :
    x ∈ s.globalIdentifiers .ofVariable
      ↔ ∃ name, s.globals.identifier? name .ofVariable = some x := by
  refine ⟨fun h => ?_, fun ⟨name, h⟩ => ?_⟩
  · obtain ⟨b, hb, rfl⟩ := List.mem_map.mp h
    obtain ⟨hb, hkind⟩ := List.mem_filter.mp hb
    have hfound := hs.identifier?_of_mem hb
    rw [of_decide_eq_true hkind] at hfound
    exact ⟨b.name, hfound⟩
  · refine List.mem_map.mpr ⟨_, List.mem_filter.mpr ⟨Frame.mem_of_identifier? h, ?_⟩, rfl⟩
    exact decide_eq_true rfl

/-- The names of a new frame mean its identifiers. -/
theorem Opens.nearest {names identifiers : List String} {v w : View}
    (h : Opens names identifiers v w) :
    List.Forall₂ (fun name x => w.naming (.nearest name) = some x) names identifiers := by
  refine List.forall₂_iff_zip.mpr ⟨h.length, fun {name x} hmem => ?_⟩
  have hpair : (Ref.nearest name, x) ∈ pairing names identifiers := by
    rw [pairing, List.zip_map_left]
    exact List.mem_map_of_mem hmem
  rw [h.naming]
  exact h.fits.bind_eq hpair

/-- **What a view inside the outermost frame knows**, where `locals` are bound in between: those
names have identifiers of their own, all other variables are the global ones. -/
structure Inside (s : Scope) (locals : List String) (v : View) : Prop where
  outermost : ∀ x, v.naming (.outermost x) = s.globals.identifier? x .ofVariable
  nearest : ∀ x ∉ locals, v.naming (.nearest x) = s.globals.identifier? x .ofVariable
  hidden : ∀ x ∈ locals, ∀ i, v.naming (.nearest x) = some i →
    i ∉ s.globalIdentifiers .ofVariable
  other : ∀ r, r.variable? = none → ∀ i, v.naming r = some i →
    i ∉ s.globalIdentifiers .ofVariable

namespace Inside

variable {s : Scope} (hs : s.Sound) {locals : List String} {v w : View}

include hs

/-- The identifier of a reference meets the target of an assignment to it. -/
theorem meets (h : Inside s locals v) {r : Ref} {x : String} (hr : v.naming r = some x) :
    Meets s ⟨r, locals⟩ x := by
  have hglobal {name : String} (hvariable : r.variable? = some name)
      (hname : s.globals.identifier? name .ofVariable = some x)
      (houtermost : Target.IsOutermost ⟨r, locals⟩) : Meets s ⟨r, locals⟩ x :=
    ⟨⟨fun _ => houtermost, fun _ => (mem_globalIdentifiers hs).mpr ⟨name, hname⟩⟩,
      fun _ => ⟨name, hvariable, hname⟩⟩
  have hlocal (hnot : x ∉ s.globalIdentifiers .ofVariable)
      (hinner : ¬ Target.IsOutermost ⟨r, locals⟩) : Meets s ⟨r, locals⟩ x :=
    ⟨⟨fun hmem => absurd hmem hnot, fun ht => absurd ht hinner⟩, fun ht => absurd ht hinner⟩
  cases r with
  | nearest name =>
    by_cases hname : name ∈ locals
    · exact hlocal (h.hidden name hname x hr) fun hnot => hnot hname
    · exact hglobal rfl ((h.nearest name hname).symm.trans hr) hname
  | outermost name => exact hglobal rfl ((h.outermost name).symm.trans hr) trivial
  | procedure name => exact hlocal (h.other _ rfl x hr) id
  | definition name => exact hlocal (h.other _ rfl x hr) id
  | helper key => exact hlocal (h.other _ rfl x hr) id
  | fixed word => exact hlocal (h.other _ rfl x hr) id
  | temporary => exact hlocal (h.other _ rfl x hr) id

/-- The identifiers of a new frame are no globals. -/
theorem not_mem_globals (h : Inside s locals v) {names identifiers : List String}
    (hopens : Opens names identifiers v w) {p : Ref × String}
    (hp : p ∈ pairing names identifiers) : p.2 ∉ s.globalIdentifiers .ofVariable := by
  intro hmem
  obtain ⟨name, hname⟩ := (mem_globalIdentifiers hs).mp hmem
  exact hopens.fits.fresh _ _ ((h.outermost name).trans hname) p hp rfl

/-- **One more frame.** -/
theorem opens (h : Inside s locals v) {names identifiers : List String}
    (hopens : Opens names identifiers v w) : Inside s (names ++ locals) w := by
  have hkept {r : Ref} (hr : ∀ x, r ≠ .nearest x) : w.naming r = v.naming r := by
    rw [hopens.naming, Naming.bind, lookup_pairing_eq_none hr]
    rfl
  have hlookup (x : String) : (pairing names identifiers).lookup (.nearest x) = none
      ↔ x ∉ names := by
    rw [lookup_eq_none_iff, map_fst_pairing hopens.length,
      List.mem_map_of_injective fun _ _ => Ref.nearest.inj]
  have hnearest {x : String} (hx : x ∉ names) :
      w.naming (.nearest x) = v.naming (.nearest x) := by
    rw [hopens.naming, Naming.bind, (hlookup x).mpr hx]
    rfl
  refine ⟨fun x => ?_, fun x hx => ?_, fun x hx i hi => ?_, fun r hr i hi => ?_⟩
  · rw [hkept (by simp), h.outermost]
  · rw [List.mem_append, not_or] at hx
    rw [hnearest hx.1, h.nearest x hx.2]
  · by_cases hname : x ∈ names
    · cases hfound : (pairing names identifiers).lookup (.nearest x) with
      | none => exact absurd hname ((hlookup x).mp hfound)
      | some j =>
        rw [hopens.naming, Naming.bind, hfound] at hi
        cases hi
        exact h.not_mem_globals hs hopens (mem_of_lookup hfound)
    · rw [hnearest hname] at hi
      exact h.hidden x ((List.mem_append.mp hx).resolve_left hname) i hi
  · refine h.other r hr i ?_
    rwa [hkept] at hi
    rintro x rfl
    cases hr

end Inside

/-! ## Statements inside a procedure -/

theorem ownLinesAll_assignLines (xs : List String) (es : List Expr) :
    Stmt.ownLinesAll (List.zipWith Node.assignLine xs es) = List.zipWith Simple.assign xs es := by
  induction xs generalizing es with
  | nil => rfl
  | cons x xs ih =>
    cases es with
    | nil => rfl
    | cons e es => exact congrArg (Simple.assign x e :: ·) (ih es)

theorem assigned_assignLines {xs : List String} {es : List Expr} (h : xs.length = es.length) :
    assigned (List.zipWith Node.assignLine xs es) = xs := by
  rw [assigned, ownLinesAll_assignLines]
  induction xs generalizing es with
  | nil => rfl
  | cons x xs ih =>
    cases es with
    | nil => cases h
    | cons e es => exact congrArg (x :: ·) (ih (Nat.succ.inj h))

/-- **Statements that carry out plans keep to their scoping.** -/
theorem Lays.keeps {s : Scope} (hs : s.Sound) {v : View} {plans : List Plan} {ss : List Stmt}
    (h : Lays v plans ss) : ∀ {locals : List String}, Inside s locals v →
      Keeps s locals plans ss := by
  induction h with
  | nil v => exact fun _ => .nil s _
  | expr _ _ ih => exact fun hv => .line rfl rfl nofun (ih hv)
  | @assign v r x t e plans ss hr _ _ _ ih =>
    intro locals hv
    change Keeps s locals (.assign r t :: plans) ([.simple (.assign x e)] ++ ss)
    refine .cons (fun line hline => ?_) (.cons (hv.meets hs hr) .nil) (ih hv)
    rw [List.mem_singleton.mp hline]
    exact nofun
  | assignItem _ _ _ _ ih => exact fun hv => .line rfl rfl nofun (ih hv)
  | result _ _ ih => exact fun hv => .line rfl rfl nofun (ih hv)
  | when _ _ _ ihbody ih => exact fun hv => .suite (fun _ => rfl) rfl (ihbody hv) (ih hv)
  | orWhen _ _ _ ihbody ih => exact fun hv => .suite (fun _ => rfl) rfl (ihbody hv) (ih hv)
  | otherwise _ _ ihbody ih => exact fun hv => .suite (fun _ => rfl) rfl (ihbody hv) (ih hv)
  | @define v w name x parameters identifiers body plans bs ss _ _ _ _ _ _ _ ih =>
    intro locals hv
    -- what a nested definition does is its own matter
    change Keeps s locals _ ([.block (.define x identifiers) (globalsLine v ++ bs)] ++ ss)
    exact .cons (fun _ hline => absurd hline List.not_mem_nil) .nil (ih hv)
  | @declare v w names identifiers ts es body plans bs ss hvalues hlength hopens _ _ ihbody ih =>
    intro locals hv
    have hw := hv.opens hs hopens
    have hbody := ihbody hw
    have hes : identifiers.length = es.length := by
      rw [← hopens.length, hlength, hvalues.length_eq]
    refine .cons (fun line hline => ?_) ?_ (ih hv)
    · rw [Stmt.ownLinesAll_append, ownLinesAll_assignLines] at hline
      rcases List.mem_append.mp hline with hline | hline
      · rw [← List.map_uncurry_zip_eq_zipWith] at hline
        obtain ⟨a, -, rfl⟩ := List.mem_map.mp hline
        exact nofun
      · exact hbody.undeclared line hline
    · rw [assigned, Stmt.ownLinesAll_append, List.filterMap_append]
      refine List.rel_append ?_ hbody.targets
      rw [show List.filterMap _ _ = identifiers from assigned_assignLines hes]
      exact List.forall₂_map_left_iff.mpr (hopens.nearest.imp fun _ _ hname => hw.meets hs hname)

/-! ## Procedures of the program -/

/-- **With only the outermost frame open, all variables are global.**  Identifiers of procedures,
support routines and fixed words are no variables'. -/
theorem inside_outermost {p q : Pass} (hlocals : p.scope.locals = []) (hq : Valid q)
    (hpq : Leads p q) : Inside p.scope [] (view p (helperNames q)) := by
  have hlookup (name : String) (kind : Kind) :
      p.scope.lookup name kind = p.scope.globals.identifier? name kind := by
    rw [Scope.lookup_eq, hlocals]
    rfl
  have hglobals : p.scope.globals.bindings ⊆ q.scope.globals.bindings := by
    obtain ⟨added, hglobals, -⟩ := hpq.globals
    rw [hglobals, Frame.bindings_addAll]
    exact List.subset_append_left _ _
  have hkind {x i : String} {kind : Kind} (hbinding : ⟨x, kind, i⟩ ∈ q.scope.globals.bindings)
      (hne : kind ≠ .ofVariable) : i ∉ p.scope.globalIdentifiers .ofVariable := by
    intro hmem
    obtain ⟨b, hb, rfl⟩ := List.mem_map.mp hmem
    obtain ⟨hb, hvariable⟩ := List.mem_filter.mp hb
    have heq := hq.sound.global_unique hbinding (hglobals hb) rfl
    exact hne ((congrArg Binding.kind heq).trans (of_decide_eq_true hvariable))
  have hprocedure {x i : String} (h : p.scope.globals.identifier? x .ofProcedure = some i) :
      i ∉ p.scope.globalIdentifiers .ofVariable :=
    hkind (hglobals (Frame.mem_of_identifier? h)) (by decide)
  refine ⟨fun x => rfl, fun x _ => hlookup x _, fun x hx => absurd hx List.not_mem_nil, ?_⟩
  intro r hr i hi
  cases r with
  | nearest name => cases hr
  | outermost name => cases hr
  | procedure name => exact hprocedure ((hlookup name _).symm.trans hi)
  | definition name => exact hprocedure hi
  | helper key =>
    obtain ⟨h, hfind, rfl⟩ := Option.map_eq_some_iff.mp hi
    exact hkind (hq.helpers h (List.mem_of_find?_eq_some hfind)) (by decide)
  | fixed word =>
    intro hmem
    obtain ⟨b, hb, rfl⟩ := List.mem_map.mp hmem
    have hopen := hq.sound.mem_openIdentifiers_of_globals
      (Frame.mem_identifiers.mpr ⟨b, hglobals (List.mem_filter.mp hb).1, rfl⟩)
    refine hq.sound.unreserved _ (hq.sound.allocated _ hopen) ?_
    rw [hq.reserved]
    change (if word ∈ Name.reserved then some word else none) = some b.identifier at hi
    split at hi
    · cases hi
      assumption
    · cases hi
  | temporary => cases hi

/-- The types of blocks that define procedures. -/
def procedureTypes : List String := ["procedures_defnoreturn", "procedures_defreturn"]

end Render

open Render

/-- The plans of a procedure's body: its statements, and the value it gives back if it does. -/
def Block.procedureBody (b : Block) : List Plan :=
  (b.design fitting).suite "STACK"
    ++ if b.type = "procedures_defreturn" then (b.design fitting).result "RETURN" else []

theorem Block.plans_of_procedure {b : Block} (h : b.type ∈ procedureTypes) :
    (b.plans fitting).statement
      = [.define (b.field "NAME") b.declaredNames b.procedureBody] := by
  obtain ⟨type, id, fields, values, statements, next, mutation⟩ := b
  rcases List.mem_cons.mp h with heq | h
  · obtain rfl : type = _ := heq
    rfl
  · obtain rfl : type = _ := List.mem_singleton.mp h
    rfl

namespace Render

open Name

/-- **Procedures keep globals and parameters apart.**  A procedure that is rendered with only the
outermost frame open declares the global variables in its first line, each once and in binding
order, unless there are none; no other line of its own does.  Its parameters differ pairwise exactly
if their names do; none is a reserved word, and none is a global.  The assignments of its body are
those of the plans, in order and outside nested definitions, and each is to a global exactly if it
resolves to the outermost frame. -/
theorem procedure_keeps_globals_apart {p q : Pass} (hp : Reachable p) (hdepth : p.scope.depth = 1)
    {b : Block} (htype : b.type ∈ procedureTypes) {ss : List Stmt}
    (hrun : b.rendering.statement p = .ok ss q) :
    let globals := p.scope.globalIdentifiers .ofVariable
    ∃ function parameters body,
      ss = [.block (.define function parameters)
        ((if globals.isEmpty then [] else [.simple (.globals globals)]) ++ body)] ∧
      (parameters.Nodup ↔ b.declaredNames.Nodup) ∧
      (∀ x ∈ parameters, x ∉ p.scope.reserved ∧ x ∉ globals) ∧
      (globals.Nodup ∧ globals.Sublist p.scope.globals.identifiers ∧
        ∀ x, x ∈ globals ↔ ∃ name, p.scope.globals.identifier? name .ofVariable = some x) ∧
      (∀ line ∈ Stmt.ownLinesAll body, ∀ xs, line ≠ .globals xs) ∧
      List.Forall₂ (Meets p.scope) (targetsAll b.declaredNames b.procedureBody)
        (assigned body) := by
  intro globals
  have hsound := hp.valid.sound
  have hlocals : p.scope.locals = [] :=
    List.length_eq_zero_iff.mp (Nat.succ.inj hdepth)
  obtain ⟨hq, hpq⟩ := b.realizes_plans.statement.composed.leads_of_ok hp.valid hrun
  have hinside := inside_outermost hlocals hq hpq
  have hlays := b.realizes_plans.statement.outcome hp.valid hrun hq.agrees
  rw [Block.plans_of_procedure htype] at hlays
  cases hlays with
  | @define v w name function names parameters body plans bs rest _ _ _ hopens hbody hrest =>
    cases hrest
    have hin := hinside.opens hsound hopens
    rw [List.append_nil] at hin
    have hkeeps := hbody.keeps hsound hin
    have hsublist : globals.Sublist p.scope.globals.identifiers := List.filter_sublist.map _
    have hnodup : p.scope.globals.identifiers.Nodup := by
      have hopen := hsound.nodup
      rw [Scope.openIdentifiers_eq] at hopen
      exact (hsound.owned _ p.scope.mem_frames_of_globals).nodup_iff.mp
        (List.nodup_append.mp hopen).2.1
    refine ⟨function, parameters, bs, rfl, hopens.nodup_iff, fun x hx => ?_,
      ⟨hnodup.sublist hsublist, hsublist, fun x => mem_globalIdentifiers hsound⟩,
      hkeeps.undeclared, hkeeps.targets⟩
    rw [← map_snd_pairing hopens.length] at hx
    obtain ⟨a, ha, rfl⟩ := List.mem_map.mp hx
    refine ⟨fun hreserved => ?_, hinside.not_mem_globals hsound hopens ha⟩
    rw [hp.valid.reserved] at hreserved
    exact hopens.fits.fresh _ _ (View.fixed _ _ hreserved) a ha rfl

/-- A function with a parameter `x`, which hides the global `x`.  It assigns to both, and to a
second global inside a condition, and it returns a local `x`. -/
def hidingFunction : Block :=
  .mk "procedures_defreturn" "" [("NAME", "f"), ("VAR0", "x")]
    [("RETURN", .mk "local_declaration_expression" "" [("VAR0", "x")] [] [] none [])]
    [("STACK", .mk "lexical_variable_set" "" [("VAR", "x")] [] []
      (some (.mk "lexical_variable_set" "" [("VAR", "global x")] []
        [] (some (.mk "controls_if" "" [] []
          [("DO0", .mk "text_append" "" [("VAR", "y")] [] [] none [])] none [])) [])) [])] none []

/-- A pass with two globals, `x` and `y`, and a procedure `f`. -/
def twoGlobals : Pass :=
  { scope := Name.Step.next (Name.Step.next (Name.Step.next {} (.bindGlobal "x" .ofVariable))
      (.bindGlobal "y" .ofVariable)) (.bindGlobal "f" .ofProcedure) }

set_option maxRecDepth 2000 in
/-- Its second and third assignment are to globals, its first and its last are not. -/
theorem hidingFunction_keeps_apart : ∃ q ss,
    hidingFunction.rendering.statement twoGlobals = .ok ss q ∧
    ∃ function parameters body,
      ss = [.block (.define function parameters) ([.simple (.globals ["x", "y"])] ++ body)] ∧
      parameters.Nodup ∧
      List.Forall₂ (fun (t : Target) x => x ∈ ["x", "y"] ↔ t.IsOutermost)
        [⟨.nearest "x", ["x"]⟩, ⟨.outermost "x", ["x"]⟩, ⟨.nearest "y", ["x"]⟩,
          ⟨.nearest "x", ["x", "x"]⟩] (assigned body) := by
  have hreach : Reachable twoGlobals :=
    .name (.name (.name .initial (.bindGlobal "x" .ofVariable)) (.bindGlobal "y" .ofVariable))
      (.bindGlobal "f" .ofProcedure)
  have hrun : ∃ q ss, hidingFunction.rendering.statement twoGlobals = .ok ss q := ⟨_, _, rfl⟩
  obtain ⟨q, ss, hrun⟩ := hrun
  obtain ⟨function, parameters, body, hss, hnodup, -, -, -, htargets⟩ :=
    procedure_keeps_globals_apart hreach rfl (by decide) hrun
  exact ⟨q, ss, hrun, function, parameters, body, hss, hnodup.mpr (by decide),
    htargets.imp fun _ _ h => h.listed⟩

end Render

end Jigsaw
