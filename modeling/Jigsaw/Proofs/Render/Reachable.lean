import Jigsaw.Proofs.Render.Declared
import Jigsaw.Proofs.Render.StatementRules

/-!
# Proofs/Render/Reachable — the passes that steps reach

A pass starts empty and changes by steps on its names, by requests for support routines and imports,
by declarations and by renderings, whether they succeed or fail.  Every pass that such steps reach
is valid (`Reachable.valid`).
-/

namespace Jigsaw

open Render Name

namespace Render

/-! ## Reachable passes -/

/-- The empty pass is valid. -/
theorem valid_initial : Valid {} where
  sound := Scope.sound_initial _
  reserved := rfl
  helpers := fun _ h => absurd h List.not_mem_nil

/-- Steps on names keep a pass valid: no binding of the outermost frame is ever lost. -/
theorem Valid.after {p : Pass} (hp : Valid p) (steps : List Name.Step) :
    Valid { p with scope := p.scope.after steps } where
  sound := hp.sound.after steps
  reserved := (p.scope.reserved_after steps).trans hp.reserved
  helpers := fun h hh => (p.scope.globals_after steps).subset (hp.helpers h hh)

theorem Valid.withImport {p : Pass} (hp : Valid p) (module : String) :
    Valid { p with library := p.library.withImport module } := by
  refine ⟨hp.sound, hp.reserved, fun h hh => hp.helpers h ?_⟩
  change h ∈ (p.library.withImport module).helpers at hh
  unfold Library.withImport at hh
  split at hh
  · exact hh
  · exact hh

/-- A rendering leads from a valid pass to a valid one, on success and on failure. -/
theorem Renders.valid {α : Type} {m : RenderM α} {R : View → α → Prop} (hm : Renders m R)
    {p : Pass} (hp : Valid p) : Valid (m.runOn p).2 := (hm.composed.leads hp).1

/-- **The passes that steps reach.** -/
inductive Reachable : Pass → Prop
  | initial : Reachable {}
  /-- A step on names. -/
  | name {p : Pass} (hp : Reachable p) (step : Name.Step) :
      Reachable { p with scope := step.next p.scope }
  /-- A request for a support routine. -/
  | helper {p : Pass} (hp : Reachable p) (key : String) (define : String → String) :
      Reachable (p.helper key define).2
  /-- A request for an import. -/
  | withImport {p : Pass} (hp : Reachable p) (module : String) :
      Reachable { p with library := p.library.withImport module }
  /-- The declarations of a forest. -/
  | declare {p : Pass} (hp : Reachable p) (forest : Forest) :
      Reachable ((Forest.declare forest).runOn p).2
  /-- A block rendered as a value, -/
  | value {p : Pass} (hp : Reachable p) (b : Block) : Reachable (b.rendering.value.runOn p).2
  /-- …alone as statements, -/
  | statement {p : Pass} (hp : Reachable p) (b : Block) :
      Reachable (b.rendering.statement.runOn p).2
  /-- …as the statements that return its value, -/
  | result {p : Pass} (hp : Reachable p) (b : Block) : Reachable (b.rendering.result.runOn p).2
  /-- …and together with the blocks below it. -/
  | chain {p : Pass} (hp : Reachable p) (b : Block) : Reachable (b.rendering.chain.runOn p).2

/-- **Every pass that is reached is valid.** -/
theorem Reachable.valid {p : Pass} (h : Reachable p) : Valid p := by
  induction h with
  | initial => exact valid_initial
  | name _ step ih => exact ih.after [step]
  | helper _ key define ih => exact (helper_leads ih key define).1
  | withImport _ module ih => exact ih.withImport module
  | @declare p _ forest ih =>
    rw [runOn_of_ok (Forest.declare_bindsAll forest p)]
    exact ih.after _
  | value _ b ih => exact b.depicts_tree.valid ih
  | statement _ b ih => exact b.realizes_plans.statement.valid ih
  | result _ b ih => exact b.realizes_plans.result.valid ih
  | chain _ b ih => exact b.realizes_plans.chain.valid ih

end Render

end Jigsaw
