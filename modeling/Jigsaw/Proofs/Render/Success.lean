import Jigsaw.Proofs.Render.Reachable
import Jigsaw.Proofs.Render.TourRules

/-!
# Proofs/Render/Success — which forests have a program

A forest is well formed if every visited block has a rule in its position and every name that it
takes up is known there.  Well-formedness is about names as the workspace has them, and about blocks
that are visited: what stands in a slot that no rule reads cannot do harm, but what it declares
counts.  A forest has a program exactly if it is well formed and no visited block cuts a segment
whose end has too many digits (`generate_succeeds_exactly`).
-/

namespace Jigsaw

open Render Name

/-! ## Well-formed forests -/

namespace Render

/-- The types of blocks that refer to a variable of any scope. -/
def lexicalTypes : List String := ["lexical_variable_get", "lexical_variable_set", "text_append"]

/-- The types of blocks that call a procedure. -/
def callTypes : List String := ["procedures_callreturn", "procedures_callnoreturn"]

/-- The names that the visited block takes up are known. -/
structure Visit.Resolved (declared : List (String × Kind)) (v : Visit) : Prop where
  /-- A variable, declared around the block or for the whole program, -/
  lexical : v.block.type ∈ lexicalTypes → v.block.lexicalQuery.Known declared v.names
  /-- …or a procedure. -/
  call : v.block.type ∈ callTypes → (v.block.field "PROCNAME", Kind.ofProcedure) ∈ declared

instance (declared : List (String × Kind)) (v : Visit) : Decidable (v.Resolved declared) :=
  decidable_of_iff ((v.block.type ∈ lexicalTypes → v.block.lexicalQuery.Known declared v.names) ∧
      (v.block.type ∈ callTypes → (v.block.field "PROCNAME", Kind.ofProcedure) ∈ declared))
    ⟨fun h => ⟨h.1, h.2⟩, fun h => ⟨h.lexical, h.call⟩⟩

/-- The visited block cuts a segment whose end can be computed, but not written. -/
def Visit.Oversized (v : Visit) : Prop :=
  v.block.type = "text_segment" ∧ ∃ k ∈ v.block.segmentEnd?, ¬ Integer.fits k

end Render

namespace Forest

/-- **Every visited block has a rule in its position, and its names are known.** -/
def WellFormed (forest : Forest) : Prop :=
  ∀ v ∈ Forest.visits forest, v.Supported ∧ v.Resolved (Forest.declarations forest)

instance (forest : Forest) : Decidable (WellFormed forest) :=
  inferInstanceAs (Decidable (∀ v ∈ Forest.visits forest, _))

/-- Some visited block cuts a segment whose end has too many digits. -/
def Oversized (forest : Forest) : Prop := ∃ v ∈ Forest.visits forest, v.Oversized

end Forest

/-! ## A program ends as the tour says -/

namespace Render

/-- The pass after the declarations of a forest. -/
def declaredPass (forest : Forest) : Pass :=
  { scope := Scope.after {} (bindSteps (Forest.declarations forest)) }

theorem declare_eq (forest : Forest) : Forest.declare forest {} = .ok () (declaredPass forest) :=
  Forest.declare_bindsAll forest {}

theorem valid_declaredPass (forest : Forest) : Valid (declaredPass forest) := valid_initial.after _

/-- After its declarations a pass knows what the forest declares. -/
theorem sees_declaredPass (forest : Forest) :
    Sees (Forest.declarations forest) [] (declaredPass forest).scope where
  globals := fun name kind _ => by
    rw [declaredPass, Scope.isSome_identifier?_after_bindSteps]
    exact or_iff_right (by simp [Frame.identifier?])
  locals := fun name kind _ => by
    rw [declaredPass, Scope.locals_after_bindSteps]
    simp

/-- A program is what the chains leave, after the declarations, with everything in front. -/
theorem generate_eq (indent : String) (forest : Forest) :
    Forest.generate indent forest
      = match forest.mapM (fun b => b.rendering.chain) (declaredPass forest) with
        | .ok chains q => .ok (q.library.assemble
            (Stmt.partsCode indent (chains.filter fun part => !part.isEmpty)))
        | .error e _ => .error e := by
  rw [Forest.generate, Forest.program, runOn_bind, declare_eq]
  dsimp only
  rw [Forest.parts, bind_assoc, runOn_bind]
  cases forest.mapM (fun b => b.rendering.chain) (declaredPass forest) <;> rfl

/-- How the chains of a forest end. -/
theorem chains_end (forest : Forest) :
    Ends (Forest.declarations forest) (Forest.tour forest) (fun _ => True) (declaredPass forest)
      (forest.mapM (fun b => b.rendering.chain) (declaredPass forest)) :=
  (Forest.traces_tour _ forest).ends (valid_declaredPass forest) (sees_declaredPass forest)

/-- **A forest has no program exactly because of the first defect on its tour.** -/
theorem generate_eq_error_iff {indent : String} {forest : Forest} {e : Error} :
    Forest.generate indent forest = .error e ↔
      (Forest.tour forest).findSome? (Event.defect? (Forest.declarations forest)) = some e := by
  have hends := chains_end forest
  rw [generate_eq]
  cases hrun : forest.mapM (fun b => b.rendering.chain) (declaredPass forest) with
  | ok chains q =>
    rw [hrun] at hends
    cases hends with
    | ok hnone =>
      rw [hnone]
      exact ⟨nofun, nofun⟩
  | error e' q =>
    rw [hrun] at hends
    cases hends with
    | error hdefect =>
      rw [hdefect]
      exact ⟨fun h => by cases h; rfl, fun h => by cases h; rfl⟩

/-! ## The defects of visited blocks -/

theorem Visit.defect?_eq_none_iff {v : Visit} : v.defect? = none ↔ v.Supported := by
  unfold Visit.defect? Visit.Supported
  cases ValueType.ofName? v.block.type <;> cases StatementType.ofName? v.block.type <;>
    cases v.position <;> simp

theorem Visit.unsupported_of_defect? {v : Visit} {e : Error} (h : v.defect? = some e) :
    ∃ text site, e = .unsupported text site := by
  unfold Visit.defect? at h
  split at h <;> cases h
  · exact ⟨_, _, rfl⟩
  · exact ⟨_, _, rfl⟩

theorem Event.defect?_query {declared : List (String × Kind)} {q : Query} {names : List String}
    {site : Site} :
    (Event.query q names site).defect? declared = none ↔ q.Known declared names := by
  rw [Event.defect?]
  split <;> simp_all

/-- What a visited block may ask for. -/
inductive Visit.Asks (v : Visit) : Event → Prop
  | helper (key : String) : v.Asks (.helper key)
  | module (name : String) : v.Asks (.module name)
  /-- The end of a segment, -/
  | integer {k : Int} (htype : v.block.type = "text_segment") (hk : k ∈ v.block.segmentEnd?) :
      v.Asks (.integer k)
  /-- …a variable of any scope, -/
  | lexical (htype : v.block.type ∈ lexicalTypes) (site : Site) :
      v.Asks (.query v.block.lexicalQuery v.names site)
  /-- …a procedure, -/
  | call (htype : v.block.type ∈ callTypes) (site : Site) :
      v.Asks (.query ⟨v.block.field "PROCNAME", .ofProcedure, false⟩ v.names site)
  /-- …or what the block itself declares for the whole program. -/
  | declared {q : Query} (hq : (q.name, q.kind) ∈ v.block.declaration?) (names : List String)
      (site : Site) : v.Asks (.query q names site)

theorem Visit.asks_of_own {v : Visit} {event : Event} (h : event ∈ v.own) : v.Asks event := by
  by_cases hsupported : v.Supported
  · have hone {e : Event} (h : event ∈ [e]) (he : v.Asks e) : v.Asks event :=
      List.mem_singleton.mp h ▸ he
    rw [Visit.own_of_supported hsupported] at h
    unfold Block.demands at h
    split at h
    · exact hone h (.helper _)
    · exact hone h (.helper _)
    · exact hone h (.module _)
    · exact hone h (.helper _)
    · obtain ⟨k, hk, rfl⟩ := List.mem_map.mp h
      exact .integer ‹_› (Option.mem_toList.mp hk)
    · exact hone h (.declared (by rw [Block.declaration?, ‹v.block.type = _›]; rfl) _ _)
    · exact hone h (.declared (by rw [Block.declaration?, ‹v.block.type = _›]; rfl) _ _)
    · exact hone h (.lexical (by rw [‹v.block.type = _›]; decide) _)
    · exact hone h (.lexical (by rw [‹v.block.type = _›]; decide) _)
    · exact hone h (.lexical (by rw [‹v.block.type = _›]; decide) _)
    · exact hone h (.call (by rw [‹v.block.type = _›]; decide) _)
    · exact hone h (.call (by rw [‹v.block.type = _›]; decide) _)
    · exact hone h (.declared (by rw [Block.declaration?, ‹v.block.type = _›]; rfl) _ _)
    · exact hone h (.declared (by rw [Block.declaration?, ‹v.block.type = _›]; rfl) _ _)
    · exact hone h (.declared (by rw [Block.declaration?, ‹v.block.type = _›]; rfl) _ _)
    · exact absurd h List.not_mem_nil
  · rw [Visit.own_of_not_supported hsupported] at h
    exact absurd h List.not_mem_nil

/-- A block that refers to a variable of any scope asks for it, -/
theorem demands_of_lexical {b : Block} (h : b.type ∈ lexicalTypes) (names : List String) :
    .query b.lexicalQuery names (.ofSlot b "VAR") ∈ b.demands names := by
  simp only [lexicalTypes, List.mem_cons, List.not_mem_nil, or_false] at h
  unfold Block.demands
  rcases h with h | h | h
  all_goals
    rw [h]
    exact List.mem_cons_self

/-- …a call asks for its procedure, -/
theorem demands_of_call {b : Block} (h : b.type ∈ callTypes) (names : List String) :
    b.fieldQuery "PROCNAME" .ofProcedure false names ∈ b.demands names := by
  simp only [callTypes, List.mem_cons, List.not_mem_nil, or_false] at h
  unfold Block.demands
  rcases h with h | h
  all_goals
    rw [h]
    exact List.mem_cons_self

/-- …and a segment for its end. -/
theorem demands_of_segment {b : Block} (h : b.type = "text_segment") {k : Int}
    (hk : k ∈ b.segmentEnd?) (names : List String) : .integer k ∈ b.demands names := by
  unfold Block.demands
  rw [h]
  exact List.mem_map_of_mem (Option.mem_toList.mpr hk)

section

variable {declared : List (String × Kind)} {v : Visit}

/-- **What a visited block asks for is a defect only if its names are not known, or if it cuts a
segment that ends too far.** -/
theorem Visit.defect_of_own (hdeclared : ∀ key ∈ v.block.declaration?, key ∈ declared)
    {event : Event} {e : Error} (hown : event ∈ v.own) (hdefect : event.defect? declared = some e) :
    (¬ v.Resolved declared ∧ ∃ reference site, e = .unresolved reference site) ∨
      v.Oversized ∧ e = .oversizedInteger := by
  have hquery {q : Query} {names : List String} {site : Site}
      (h : (Event.query q names site).defect? declared = some e) :
      ¬ q.Known declared names ∧ ∃ reference site, e = .unresolved reference site := by
    rw [Event.defect?] at h
    split at h
    · cases h
    · cases h
      exact ⟨‹_›, _, _, rfl⟩
  cases Visit.asks_of_own hown with
  | helper key => cases hdefect
  | module name => cases hdefect
  | integer htype hk =>
    rw [Event.defect?] at hdefect
    split at hdefect
    · cases hdefect
    · cases hdefect
      exact Or.inr ⟨⟨htype, _, hk, ‹_›⟩, rfl⟩
  | lexical htype site =>
    obtain ⟨hknown, he⟩ := hquery hdefect
    exact Or.inl ⟨fun h => hknown (h.lexical htype), he⟩
  | call htype site =>
    obtain ⟨hknown, he⟩ := hquery hdefect
    exact Or.inl ⟨fun h => hknown (Or.inl (h.call htype)), he⟩
  | declared hq names site => exact absurd (Or.inl (hdeclared _ hq)) (hquery hdefect).1

/-- …and if it asks for no defect, neither is the case. -/
theorem Visit.resolved_of_own (hsupported : v.Supported)
    (hown : ∀ event ∈ v.own, event.defect? declared = none) :
    v.Resolved declared ∧ ¬ v.Oversized := by
  rw [Visit.own_of_supported hsupported] at hown
  refine ⟨⟨fun htype => ?_, fun htype => ?_⟩, ?_⟩
  · exact Event.defect?_query.mp (hown _ (demands_of_lexical htype v.names))
  · -- A procedure is no local name, so only a declaration for the whole program makes it known.
    have hknown := Event.defect?_query.mp (hown _ (demands_of_call htype v.names))
    exact hknown.resolve_right fun h =>
      absurd (show Kind.ofProcedure = Kind.ofVariable from h.2.1) (by decide)
  · rintro ⟨htype, k, hk, hlong⟩
    have hfits := hown _ (demands_of_segment htype hk v.names)
    rw [Event.defect?, if_neg hlong] at hfits
    cases hfits

end

/-! ## The main result -/

/-- What a visited block declares is declared. -/
theorem declared_of_visited {forest : Forest} {v : Visit} (hv : v ∈ Forest.visits forest) :
    ∀ key ∈ v.block.declaration?, key ∈ Forest.declarations forest := fun _ hkey =>
  List.mem_filterMap.mpr
    ⟨v.block, (Forest.accounted_tour forest).block (Forest.mem_visits.mp hv), hkey⟩

/-- A tour without defects is that of a well-formed forest, -/
theorem wellFormed_of_tour {forest : Forest}
    (h : ∀ e ∈ Forest.tour forest, e.defect? (Forest.declarations forest) = none) :
    Forest.WellFormed forest ∧ ¬ Forest.Oversized forest := by
  have hvisit {v : Visit} (hv : v ∈ Forest.visits forest) : v.Supported ∧
      v.Resolved (Forest.declarations forest) ∧ ¬ v.Oversized := by
    have hsupported := Visit.defect?_eq_none_iff.mp (h _ (Forest.mem_visits.mp hv))
    exact ⟨hsupported, Visit.resolved_of_own hsupported fun e he =>
      h e (Forest.mem_tour_iff.mpr ⟨v, hv, Or.inr he⟩)⟩
  exact ⟨fun v hv => ⟨(hvisit hv).1, (hvisit hv).2.1⟩, fun ⟨v, hv, hlong⟩ => (hvisit hv).2.2 hlong⟩

/-- …and each defect has its reason. -/
theorem reason_of_defect {forest : Forest} {event : Event} (hevent : event ∈ Forest.tour forest)
    {e : Error} (hdefect : event.defect? (Forest.declarations forest) = some e) :
    (¬ Forest.WellFormed forest ∧ ((∃ text site, e = .unsupported text site) ∨
        ∃ reference site, e = .unresolved reference site)) ∨
      Forest.Oversized forest ∧ e = .oversizedInteger := by
  obtain ⟨v, hv, rfl | hown⟩ := Forest.mem_tour_iff.mp hevent
  · refine Or.inl ⟨fun hwell => ?_, Or.inl (Visit.unsupported_of_defect? hdefect)⟩
    cases (Visit.defect?_eq_none_iff.mpr (hwell v hv).1).symm.trans hdefect
  · rcases Visit.defect_of_own (declared_of_visited hv) hown hdefect with ⟨hnames, he⟩ | ⟨hlong, he⟩
    · exact Or.inl ⟨fun hwell => hnames (hwell v hv).2, Or.inr he⟩
    · exact Or.inr ⟨⟨v, hv, hlong⟩, he⟩

theorem reason_of_error {indent : String} {forest : Forest} {e : Error}
    (h : Forest.generate indent forest = .error e) :
    (¬ Forest.WellFormed forest ∧ ((∃ text site, e = .unsupported text site) ∨
        ∃ reference site, e = .unresolved reference site)) ∨
      Forest.Oversized forest ∧ e = .oversizedInteger := by
  obtain ⟨event, hevent, hdefect⟩ := List.exists_of_findSome?_eq_some (generate_eq_error_iff.mp h)
  exact reason_of_defect hevent hdefect

/-- **Which forests have a program.**  Those that are well formed, unless a segment ends too far;
and a forest without one fails for a block without a rule, for a name that is not known or for such
a segment — in the order of its tour, for the first of them. -/
theorem generate_succeeds_exactly (indent : String) (forest : Forest) :
    ((∃ program, Forest.generate indent forest = .ok program) ↔
      Forest.WellFormed forest ∧ ¬ Forest.Oversized forest) ∧
    (∀ e, Forest.generate indent forest = .error e →
      (¬ Forest.WellFormed forest ∧ ((∃ text site, e = .unsupported text site) ∨
        ∃ reference site, e = .unresolved reference site)) ∨
      Forest.Oversized forest ∧ e = .oversizedInteger) ∧
    ∀ e, Forest.generate indent forest = .error e ↔
      (Forest.tour forest).findSome? (Event.defect? (Forest.declarations forest)) = some e := by
  refine ⟨⟨?_, ?_⟩, fun e => reason_of_error, fun e => generate_eq_error_iff⟩
  · rintro ⟨program, hprogram⟩
    refine wellFormed_of_tour (List.findSome?_eq_none_iff.mp ?_)
    refine Option.eq_none_iff_forall_ne_some.mpr fun e he => ?_
    cases (generate_eq_error_iff.mpr he).symm.trans hprogram
  · rintro ⟨hwell, hlong⟩
    cases hgenerate : Forest.generate indent forest with
    | ok program => exact ⟨program, rfl⟩
    | error e =>
      rcases reason_of_error hgenerate with ⟨hill, -⟩ | ⟨hends, -⟩
      · exact absurd hwell hill
      · exact absurd hends hlong

/-- A local variable `x`, and a reference inside that is written as given. -/
def localWorkspace (reference : String) : Forest :=
  [.mk "local_declaration_statement" "" [("VAR0", "x")] []
    [("STACK", .mk "text_print" "" []
      [("TEXT", .mk "lexical_variable_get" "" [("VAR", reference)] [] [] none [])] [] none [])]
    none []]

set_option maxRecDepth 4000 in
theorem localWorkspace_succeeds :
    (Forest.WellFormed (localWorkspace "param x") ∧
      ∃ program, Forest.generate "  " (localWorkspace "param x") = .ok program) ∧
    ¬ Forest.WellFormed (localWorkspace "global x") ∧
      Forest.generate "  " (localWorkspace "global x")
        = .error (.unresolved ⟨"x", .ofVariable⟩ ⟨"lexical_variable_get", "", "VAR"⟩) := by
  have hprogram : ∃ program, Forest.generate "  " (localWorkspace "param x") = .ok program :=
    ⟨_, rfl⟩
  exact ⟨⟨((generate_succeeds_exactly _ _).1.mp hprogram).1, hprogram⟩, by decide,
    ((generate_succeeds_exactly _ _).2.2 _).mpr rfl⟩

end Render

end Jigsaw
