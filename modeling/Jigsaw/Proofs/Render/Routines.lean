import Mathlib.Data.List.Nodup
import Jigsaw.Proofs.Render.Sections

/-!
# Proofs/Render/Routines — one identifier and one definition for each support routine

    ensure · require import · imports · definitions · contains  |  bind · distinct · push · pop · …

The library of a pass and its scope are two stores, used in any order: requests for routines and
imports come between steps on names, from deeper and from shallower frames.  What an action does to
the scope is again a row of steps on names (`Action.steps`), so that the theory of runs applies, and
the library only has to stay in step with the outermost frame (`Kept`).  How often a definition is
written is told by writing it with an effect: `Pass.helperBy` lets the writer be a step of any
monad, and a writer that keeps a record shows each of its runs.
-/

namespace Jigsaw

open Render Name

/-! ## What steps on names bind -/

namespace Name

/-- The binding that a step hands out, in whatever frame. -/
def Step.binding? (s : Scope) : Step → Option Binding
  | bind name kind => some ⟨name, kind, (s.bind name kind).1⟩
  | bindGlobal name kind => some ⟨name, kind, (s.bindGlobal name kind).1⟩
  | _ => none

/-- The bindings that steps hand out, one after the other, whether their frames stay open or not. -/
def Scope.boundOf (s : Scope) : List Step → List Binding
  | [] => []
  | step :: rest => (step.binding? s).toList ++ boundOf (step.next s) rest

/-- What a step hands out goes to a nested frame, or stands in the outermost one. -/
theorem Step.nested_or_global {s : Scope} {step : Step} {b : Binding}
    (h : step.binding? s = some b) :
    step.nested? s = some b.identifier ∨ b ∈ (step.next s).globals.bindings := by
  cases step with
  | bind name kind =>
    obtain rfl := Option.some.inj h
    cases hlocals : s.locals with
    | nil =>
      refine Or.inr ?_
      rw [Step.next, Scope.bind_of_nil hlocals]
      exact bindGlobal_mem_globals s name kind
    | cons frame outer => exact Or.inl (by simp [Step.nested?, hlocals])
  | bindGlobal name kind =>
    obtain rfl := Option.some.inj h
    exact Or.inr (bindGlobal_mem_globals s name kind)
  | _ => cases h

/-- …and so does everything that a run hands out. -/
theorem Scope.nested_or_global {b : Binding} : ∀ (s : Scope) (steps : List Step),
    b ∈ s.boundOf steps → b.identifier ∈ s.nestedOf steps ∨ b ∈ (s.after steps).globals.bindings
  | _, [], h => absurd h List.not_mem_nil
  | s, step :: rest, h => by
      rcases List.mem_append.mp h with h | h
      · rcases Step.nested_or_global (Option.mem_toList.mp h) with hnested | hglobal
        · exact Or.inl (List.mem_append_left _ (Option.mem_toList.mpr hnested))
        · exact Or.inr ((Scope.globals_after (step.next s) rest).subset hglobal)
      · exact (nested_or_global (step.next s) rest h).imp_left (List.mem_append_right _)

/-- **An identifier of the outermost frame is handed out for its own key alone**, over the whole
run that leads there. -/
theorem Scope.bound_for_own_key (reserved : List String) (steps : List Step) {b c : Binding}
    (hb : b ∈ (Scope.after { reserved } steps).globals.bindings)
    (hc : c ∈ Scope.boundOf { reserved } steps) (h : c.identifier = b.identifier) :
    c.name = b.name ∧ c.kind = b.kind := by
  have hstart := Scope.sound_initial reserved
  rcases Scope.nested_or_global _ steps hc with hnested | hglobal
  · have hapart : Scope.Apart [] { reserved } := fun _ h => absurd h List.not_mem_nil
    have hnot := (hapart.nestedOf hstart steps _ hnested).2
    exact absurd (Frame.mem_identifiers.mpr ⟨b, hb, h.symm⟩) hnot
  · obtain rfl := (hstart.after steps).global_unique hglobal hb h
    exact ⟨rfl, rfl⟩

end Name

namespace Render

/-! ## Actions on a pass -/

/-- One action on a pass: a request to its library, or a step on its names. -/
inductive Action where
  /-- Asks for a routine, with the writer of its definition. -/
  | ensure (key : String) (define : String → String)
  /-- Asks for an import. -/
  | requireImport (module : String)
  /-- Asks which imports there are. -/
  | imports
  /-- Asks which definitions there are. -/
  | definitions
  /-- Asks whether a routine is there. -/
  | contains (key : String)
  /-- A step on names. -/
  | name (step : Step)

namespace Action

/-- The pass after an action. -/
def next (p : Pass) : Action → Pass
  | ensure key define => (p.helper key define).2
  | requireImport module => { p with library := p.library.withImport module }
  | imports | definitions | contains _ => p
  | name step => { p with scope := step.next p.scope }

/-- The steps on names that an action makes. -/
def steps (p : Pass) : Action → List Step
  | ensure key _ => if p.library.contains key then [] else [.bindGlobal key .ofHelper]
  | name step => [step]
  | _ => []

/-- The routine that an action asks for. -/
def key? : Action → Option String
  | ensure key _ => some key
  | _ => none

/-- The import that an action asks for. -/
def module? : Action → Option String
  | requireImport module => some module
  | _ => none

/-- The routines that actions ask for, one after the other. -/
def keys (actions : List Action) : List String := actions.filterMap key?

/-- The imports that actions ask for, one after the other. -/
def modules (actions : List Action) : List String := actions.filterMap module?

end Action

namespace Pass

/-- The pass after actions. -/
def after (p : Pass) : List Action → Pass
  | [] => p
  | action :: rest => after (action.next p) rest

/-- The steps on names that actions make. -/
def stepsOf (p : Pass) : List Action → List Step
  | [] => []
  | action :: rest => action.steps p ++ stepsOf (action.next p) rest

/-- The bindings that actions hand out, one after the other. -/
def boundOf (p : Pass) (actions : List Action) : List Binding :=
  p.scope.boundOf (p.stepsOf actions)

theorem after_append (p : Pass) : ∀ earlier later : List Action,
    p.after (earlier ++ later) = (p.after earlier).after later
  | [], _ => rfl
  | action :: rest, later => after_append (action.next p) rest later

/-! ## What a request does -/

/-- A routine that is there is not asked for again. -/
theorem helper_of_some {p : Pass} {key : String} {routine : Helper}
    (h : p.library.find? key = some routine) (define : String → String) :
    p.helper key define = (routine.identifier, p) := by
  rw [helper, h]

/-- The pass that gains a routine with a key. -/
def withRoutine (p : Pass) (key : String) (define : String → String) : Pass :=
  let bound := p.scope.bindGlobal key .ofHelper
  { scope := bound.2
    library := { p.library with
      helpers := p.library.helpers ++ [⟨key, bound.1, define bound.1⟩] } }

/-- A routine that is missing is bound in the outermost frame and written. -/
theorem helper_of_none {p : Pass} {key : String} (h : p.library.find? key = none)
    (define : String → String) :
    p.helper key define = ((p.scope.bindGlobal key .ofHelper).1, p.withRoutine key define) := by
  rw [helper, h]
  rfl

/-- The scope after an action is the scope after the steps that the action makes. -/
theorem scope_next (p : Pass) (action : Action) :
    (action.next p).scope = p.scope.after (action.steps p) := by
  cases action with
  | ensure key define =>
    cases h : p.library.find? key with
    | some routine =>
      simp [Action.next, Action.steps, Library.contains, h, helper_of_some h, Scope.after]
    | none =>
      simp [Action.next, Action.steps, Library.contains, h, helper_of_none h, withRoutine,
        Scope.after, Step.next]
  | name step => rfl
  | _ => rfl

theorem scope_after (p : Pass) : ∀ actions : List Action,
    (p.after actions).scope = p.scope.after (p.stepsOf actions)
  | [] => rfl
  | action :: rest => by
      rw [after, stepsOf, Scope.after_append, ← scope_next]
      exact scope_after (action.next p) rest

/-! ## The library and the outermost frame -/

/-- **The library stays in step with the scope**: each of its routines is bound in the outermost
frame. -/
structure Kept (p : Pass) : Prop where
  sound : p.scope.Sound
  helpers : ∀ h ∈ p.library.helpers, ⟨h.key, .ofHelper, h.identifier⟩ ∈ p.scope.globals.bindings

/-- The routines of a pass only become more. -/
theorem helpers_next (p : Pass) (action : Action) :
    p.library.helpers <+: (action.next p).library.helpers := by
  cases action with
  | ensure key define =>
    cases h : p.library.find? key with
    | some routine =>
      simp only [Action.next, helper_of_some h, List.prefix_rfl]
    | none =>
      rw [Action.next, helper_of_none h]
      exact List.prefix_append _ _
  | requireImport module =>
    rw [Action.next, Library.withImport]
    split <;> exact List.prefix_rfl
  | _ => exact List.prefix_rfl

theorem helpers_after (p : Pass) : ∀ actions : List Action,
    p.library.helpers <+: (p.after actions).library.helpers
  | [] => List.prefix_rfl
  | action :: rest => (p.helpers_next action).trans (helpers_after (action.next p) rest)

/-- A routine is found under its key whatever is used after it. -/
theorem find?_after {p : Pass} {key : String} {routine : Helper}
    (h : p.library.find? key = some routine) (actions : List Action) :
    (p.after actions).library.find? key = some routine := by
  obtain ⟨added, hadded⟩ := p.helpers_after actions
  rw [Library.find?] at h ⊢
  rw [← hadded, List.find?_append, h]
  rfl

theorem Kept.next {p : Pass} (hp : Kept p) (action : Action) : Kept (action.next p) := by
  have hglobals : p.scope.globals.bindings <+: (action.next p).scope.globals.bindings :=
    p.scope_next action ▸ p.scope.globals_after _
  refine ⟨p.scope_next action ▸ hp.sound.after _, fun routine hroutine => ?_⟩
  have hold : routine ∈ p.library.helpers →
      ⟨routine.key, .ofHelper, routine.identifier⟩ ∈ (action.next p).scope.globals.bindings :=
    fun h => hglobals.subset (hp.helpers routine h)
  cases action with
  | ensure key define =>
    cases h : p.library.find? key with
    | some known =>
      refine hold ?_
      rwa [Action.next, helper_of_some h] at hroutine
    | none =>
      rw [Action.next, helper_of_none h] at hroutine ⊢
      rcases List.mem_append.mp hroutine with hroutine | hroutine
      · simpa only [Action.next, helper_of_none h] using hold hroutine
      · obtain rfl := List.mem_singleton.mp hroutine
        exact bindGlobal_mem_globals p.scope key .ofHelper
  | requireImport module =>
    refine hold ?_
    rw [Action.next, Library.withImport] at hroutine
    split at hroutine <;> exact hroutine
  | _ => exact hold hroutine

theorem Kept.after {p : Pass} (hp : Kept p) : ∀ actions : List Action, Kept (p.after actions)
  | [] => hp
  | action :: rest => Kept.after (hp.next action) rest

/-- What a request answers is bound to its key in the outermost frame. -/
theorem Kept.helper_mem_globals {p : Pass} (hp : Kept p) (key : String)
    (define : String → String) :
    ⟨key, .ofHelper, (p.helper key define).1⟩ ∈ (p.helper key define).2.scope.globals.bindings := by
  obtain ⟨routine, hfind, hroutine⟩ := find?_helper p key define
  have hmem := (hp.next (.ensure key define)).helpers routine (List.mem_of_find?_eq_some hfind)
  have hkey : routine.key = key := by simpa using List.find?_some hfind
  rwa [hkey, hroutine] at hmem

/-! ## Keys and imports in the order of their first request -/

theorem keys_next (p : Pass) (action : Action) :
    (action.next p).library.helpers.map Helper.key
      = action.key?.toList.foldl note (p.library.helpers.map Helper.key) := by
  cases action with
  | ensure key define => exact keys_helper p key define
  | requireImport module =>
    rw [Action.next, Library.withImport]
    split <;> rfl
  | _ => rfl

theorem keys_after (p : Pass) : ∀ actions : List Action,
    (p.after actions).library.helpers.map Helper.key
      = (Action.keys actions).foldl note (p.library.helpers.map Helper.key)
  | [] => rfl
  | action :: rest => by
      rw [after, keys_after (action.next p) rest, keys_next, ← List.foldl_append, Action.keys,
        Action.keys]
      cases h : action.key? <;> simp [h]

theorem imports_next (p : Pass) (action : Action) :
    (action.next p).library.imports = action.module?.toList.foldl note p.library.imports := by
  cases action with
  | ensure key define =>
    cases h : p.library.find? key with
    | some routine => rw [Action.next, helper_of_some h]; rfl
    | none => rw [Action.next, helper_of_none h]; rfl
  | requireImport module =>
    rw [Action.next, Library.withImport]
    change _ = note p.library.imports module
    unfold note
    split <;> rfl
  | _ => rfl

theorem imports_after (p : Pass) : ∀ actions : List Action,
    (p.after actions).library.imports = (Action.modules actions).foldl note p.library.imports
  | [] => rfl
  | action :: rest => by
      rw [after, imports_after (action.next p) rest, imports_next, ← List.foldl_append,
        Action.modules, Action.modules]
      cases h : action.module? <;> simp [h]

theorem find?_isSome_iff {l : Library} {key : String} :
    (l.find? key).isSome ↔ key ∈ l.helpers.map Helper.key := by
  simp [Library.find?]

/-! ## When a definition is written -/

section
variable {m : Type → Type} [Monad m]

/-- A request for a routine whose definition is written by a step of its own. -/
def helperBy (p : Pass) (key : String) (define : String → m String) : m (String × Pass) :=
  match p.library.find? key with
  | some h => pure (h.identifier, p)
  | none => do
    let (identifier, scope) := p.scope.bindGlobal key .ofHelper
    let source ← define identifier
    let helpers := p.library.helpers ++ [⟨key, identifier, source⟩]
    pure (identifier, { scope, library := { p.library with helpers } })

/-- **A writer without effect makes it the plain request.** -/
theorem helperBy_pure [LawfulMonad m] (p : Pass) (key : String) (define : String → String) :
    p.helperBy key (fun x => (pure (define x) : m String)) = pure (p.helper key define) := by
  unfold helperBy
  cases h : p.library.find? key with
  | some routine => rw [helper_of_some h]
  | none =>
    rw [helper_of_none h]
    exact pure_bind _ _

end

/-- A writer that keeps a record of its runs. -/
def recorded (key : String) (define : String → String) : String → StateM (List Helper) String :=
  fun identifier record => (define identifier, record ++ [⟨key, identifier, define identifier⟩])

/-- An action whose definition, if it has one, is written on record. -/
def actOnRecord (p : Pass) : Action → StateM (List Helper) Pass
  | .ensure key define => do
    let (_, q) ← p.helperBy key (recorded key define)
    pure q
  | action => pure (action.next p)

/-- Actions on record, one after the other. -/
def afterOnRecord (p : Pass) : List Action → StateM (List Helper) Pass
  | [] => pure p
  | action :: rest => do
    let q ← p.actOnRecord action
    q.afterOnRecord rest

/-- A request on record answers as it does without, and writes only what is missing. -/
theorem helperBy_recorded (p : Pass) (key : String) (define : String → String)
    (record : List Helper) :
    p.helperBy key (recorded key define) record
      = (p.helper key define, record ++ if p.library.contains key then []
        else [⟨key, (p.helper key define).1, define (p.helper key define).1⟩]) := by
  unfold helperBy
  cases h : p.library.find? key with
  | some routine =>
    rw [helper_of_some h, Library.contains, h]
    exact congrArg (Prod.mk _) (List.append_nil record).symm
  | none =>
    rw [helper_of_none h, Library.contains, h]
    rfl

/-- **The routines that an action adds are those that it writes.** -/
theorem actOnRecord_eq (p : Pass) (action : Action) (record : List Helper) :
    ∃ added, p.actOnRecord action record = (action.next p, record ++ added) ∧
      (action.next p).library.helpers = p.library.helpers ++ added := by
  have hnone : (action.next p).library.helpers = p.library.helpers →
      (pure (action.next p) : StateM (List Helper) Pass) record = (action.next p, record ++ []) ∧
        (action.next p).library.helpers = p.library.helpers ++ [] := fun h =>
    ⟨congrArg (Prod.mk _) (List.append_nil record).symm, h.trans (List.append_nil _).symm⟩
  cases action with
  | ensure key define =>
    refine ⟨_, congrArg (fun r : (String × Pass) × List Helper => (r.1.2, r.2))
      (helperBy_recorded p key define record), ?_⟩
    cases h : p.library.find? key with
    | some routine => simp [Action.next, helper_of_some h, Library.contains, h]
    | none => simp [Action.next, helper_of_none h, Library.contains, h, withRoutine]
  | requireImport module =>
    refine ⟨[], hnone ?_⟩
    rw [Action.next, Library.withImport]
    split <;> rfl
  | _ => exact ⟨[], hnone rfl⟩

theorem afterOnRecord_eq : ∀ (p : Pass) (actions : List Action) (record : List Helper),
    ∃ added, p.afterOnRecord actions record = (p.after actions, record ++ added) ∧
      (p.after actions).library.helpers = p.library.helpers ++ added
  | p, [], record =>
      ⟨[], congrArg (Prod.mk p) (List.append_nil record).symm, (List.append_nil _).symm⟩
  | p, action :: rest, record => by
      obtain ⟨first, hfirst, hhelpers⟩ := actOnRecord_eq p action record
      obtain ⟨others, hothers, hall⟩ := afterOnRecord_eq (action.next p) rest (record ++ first)
      refine ⟨first ++ others, ?_, ?_⟩
      · change (let r := p.actOnRecord action record; r.1.afterOnRecord rest r.2) = _
        rw [hfirst, after, ← List.append_assoc]
        exact hothers
      · rw [after, hall, hhelpers, List.append_assoc]

end Pass

/-! ## The main result -/

/-- **One identifier and one definition for each routine, over any interleaving.**  Let any actions
`earlier` lead from a fresh pass to `p`, let a routine be asked for there and answered with `x`, and
let any actions `later` follow.

The definitions of `p` are what the writers wrote, and they wrote once for each key, in the order of
the first requests; imports stand in the order of their first requests too.  The request at hand
runs its writer exactly if the key is new, once, on `x`.  Every later request for the key answers
`x` and changes nothing; other keys have other identifiers; and no step of the whole run binds `x`
to anything but this key. -/
theorem routines_of_run (reserved : List String) (earlier later : List Action) (key : String)
    (define : String → String) :
    let start : Pass := { scope := { reserved } }
    let p := start.after earlier
    let x := (p.helper key define).1
    let q := (p.helper key define).2
    let final := q.after later
    (∃ written, start.afterOnRecord earlier [] = (p, written) ∧
        written.map Helper.key = (Action.keys earlier).eraseDups ∧
        p.library.definitions = written.map Helper.source) ∧
      (Action.keys earlier).eraseDups.Nodup ∧
      p.library.imports = (Action.modules earlier).eraseDups ∧
      (∀ k, p.library.contains k ↔ k ∈ Action.keys earlier) ∧
      p.helperBy key (Pass.recorded key define) []
        = ((x, q), if key ∈ Action.keys earlier then [] else [⟨key, x, define x⟩]) ∧
      (∀ define', final.helper key define' = (x, final)) ∧
      (∀ key' define', key' ≠ key → (final.helper key' define').1 ≠ x) ∧
      ∀ b ∈ start.boundOf (earlier ++ .ensure key define :: later),
        b.identifier = x → b.name = key ∧ b.kind = .ofHelper := by
  intro start p x q final
  have hstart : Pass.Kept start :=
    ⟨Scope.sound_initial reserved, fun _ h => absurd h List.not_mem_nil⟩
  have hp : Pass.Kept p := hstart.after earlier
  have hkeys : p.library.helpers.map Helper.key = (Action.keys earlier).eraseDups :=
    (start.keys_after earlier).trans (foldl_note_eq_eraseDups _)
  have hcontains (k : String) : p.library.contains k ↔ k ∈ Action.keys earlier := by
    rw [Library.contains, Pass.find?_isSome_iff, hkeys, List.mem_eraseDups]
  have hfinal : final = start.after (earlier ++ .ensure key define :: later) :=
    (start.after_append earlier (.ensure key define :: later)).symm
  -- The routine is found under its key from the request on, and bound under it.
  obtain ⟨routine, hfind, hroutine⟩ := find?_helper p key define
  have hlater := Pass.find?_after hfind later
  have hbound : ⟨key, .ofHelper, x⟩ ∈ final.scope.globals.bindings :=
    (q.scope_after later ▸ q.scope.globals_after _).subset (hp.helper_mem_globals key define)
  refine ⟨?_, ?_, ?_, hcontains, ?_, fun define' => ?_, fun key' define' hne heq => ?_,
    fun b hb heq => ?_⟩
  · obtain ⟨written, hwritten, hhelpers⟩ := Pass.afterOnRecord_eq start earlier []
    have hall : p.library.helpers = written := hhelpers
    exact ⟨written, hwritten, hall ▸ hkeys, hall ▸ rfl⟩
  · rw [← foldl_note_eq_eraseDups]
    exact nodup_foldl_note _ List.nodup_nil
  · exact (start.imports_after earlier).trans (foldl_note_eq_eraseDups _)
  · rw [Pass.helperBy_recorded]
    simp only [hcontains key, List.nil_append]
    rfl
  · rw [Pass.helper_of_some hlater, hroutine]
  · have hkept : Pass.Kept final := (hp.next (.ensure key define)).after later
    have hother := hkept.helper_mem_globals key' define'
    have hsame := ((final.scope_next (.ensure key' define')) ▸
      final.scope.globals_after _ : final.scope.globals.bindings <+: _).subset hbound
    have hsound := (hkept.next (.ensure key' define')).sound
    exact hne (congrArg Binding.name (hsound.global_unique hother hsame heq))
  · rw [hfinal, Pass.scope_after] at hbound
    exact Scope.bound_for_own_key reserved _ hbound hb heq

end Render

end Jigsaw
