import Jigsaw.Proofs.Name.Run

/-!
# Proofs/Name/Frames — a frame that is closed leaves the view as it was

    push · ( bind · bind global · distinct · lookup · resolve · … · push … pop )* · pop

Between a frame's opening and its closing any steps may run, and other frames may open and close.
Two things outlast them, and the two go different ways: a local binding ends with its frame, a
global one stands at the end of the outermost frame (`Balanced.run`).  So a name that was in sight
before is the name it was, and a name that was not is in sight afterwards exactly if it was bound
globally in between (`closed_frame_restores_view`).

Global bindings are counted by keys: of the keys that are asked for, those that the outermost frame
does not bind yet join it, in the order in which they come first (`Frame.missing`).
-/

namespace Jigsaw.Name

/-! ## Keys that a frame gains -/

/-- What a binding is found by. -/
def Binding.key (b : Binding) : String × Kind := (b.name, b.kind)

/-- Of these keys, those that a frame does not bind, each at the place where it comes first. -/
def Frame.missing (frame : Frame) (keys : List (String × Kind)) : List (String × Kind) :=
  (keys.filter fun key => (frame.identifier? key.1 key.2).isNone).eraseDups

theorem Frame.mem_missing {frame : Frame} {keys : List (String × Kind)} {key : String × Kind} :
    key ∈ frame.missing keys ↔ key ∈ keys ∧ frame.identifier? key.1 key.2 = none := by
  simp [Frame.missing]

theorem Frame.isSome_identifier?_iff_key {frame : Frame} {key : String × Kind} :
    (frame.identifier? key.1 key.2).isSome ↔ key ∈ frame.bindings.map Binding.key := by
  simp only [Frame.isSome_identifier?_iff, List.mem_map, Binding.key, Prod.ext_iff]

/-- A new frame binds the keys of the bindings it is given. -/
theorem Frame.isSome_identifier?_addAll_iff_key {added : List Binding} {key : String × Kind} :
    (Frame.identifier? (.addAll {} added) key.1 key.2).isSome ↔ key ∈ added.map Binding.key := by
  rw [isSome_identifier?_iff_key, bindings_addAll]
  rfl

/-- **`g` is `f` with these bindings at its end**, and they are for the keys that `f` misses. -/
structure Frame.Gains (f g : Frame) (keys : List (String × Kind)) (added : List Binding) :
    Prop where
  eq : g = f.addAll added
  keys : added.map Binding.key = f.missing keys

theorem Frame.Gains.nil (f : Frame) : f.Gains f [] [] := ⟨rfl, rfl⟩

/-- What a frame misses after a gain is what it missed before, the gain apart. -/
theorem Frame.Gains.isNone_identifier? {f g : Frame} {keys : List (String × Kind)}
    {added : List Binding} (h : f.Gains g keys added) {key : String × Kind} :
    (g.identifier? key.1 key.2).isNone ↔
      (f.identifier? key.1 key.2).isNone ∧ key ∉ f.missing keys := by
  rw [h.eq, Frame.identifier?_addAll, Option.isNone_or, Bool.and_eq_true, ← h.keys,
    ← Frame.isSome_identifier?_addAll_iff_key, Bool.not_eq_true, Option.isSome_eq_false_iff]

/-- **One gain after the other is the gain for all the keys.** -/
theorem Frame.Gains.trans {f g h : Frame} {keys later : List (String × Kind)}
    {added more : List Binding} (hfirst : f.Gains g keys added) (hnext : g.Gains h later more) :
    f.Gains h (keys ++ later) (added ++ more) := by
  refine ⟨by rw [hnext.eq, hfirst.eq, Frame.addAll_append], ?_⟩
  have hlater : (later.filter fun key => (f.identifier? key.1 key.2).isNone).removeAll
        (keys.filter fun key => (f.identifier? key.1 key.2).isNone)
      = later.filter fun key => (g.identifier? key.1 key.2).isNone := by
    rw [List.removeAll, List.filter_filter]
    refine List.filter_congr fun key _ => Bool.eq_iff_iff.mpr ?_
    rw [hfirst.isNone_identifier?, Frame.missing, List.mem_eraseDups]
    simp only [Bool.and_eq_true, Bool.not_eq_true', List.elem_eq_contains, List.contains_eq_mem,
      decide_eq_false_iff_not, and_comm]
  rw [List.map_append, hfirst.keys, hnext.keys, Frame.missing, Frame.missing, Frame.missing,
    List.filter_append, List.eraseDups_append, hlater]

/-! ## What steps add to the outermost frame by request -/

namespace Step

/-- The key that a step binds in the outermost frame by request. -/
def globalKey? : Step → Option (String × Kind)
  | bindGlobal name kind => some (name, kind)
  | _ => none

/-- The binding that comes of the request, if the key is new. -/
def gain (s : Scope) : Step → List Binding
  | bindGlobal name kind =>
    if (s.globals.identifier? name kind).isSome then []
    else [⟨name, kind, (s.bindGlobal name kind).1⟩]
  | _ => []

end Step

/-- The keys that steps bind in the outermost frame by request. -/
def globalKeys (steps : List Step) : List (String × Kind) := steps.filterMap Step.globalKey?

namespace Scope

/-- The bindings that come of the requests of steps, one after the other. -/
def gained (s : Scope) : List Step → List Binding
  | [] => []
  | step :: rest => step.gain s ++ gained (step.next s) rest

theorem gained_append (s : Scope) : ∀ earlier later : List Step,
    s.gained (earlier ++ later) = s.gained earlier ++ (s.after earlier).gained later
  | [], _ => rfl
  | step :: rest, later => by
      rw [List.cons_append, gained, gained, gained_append (step.next s) rest later,
        List.append_assoc]
      rfl

theorem gains_bindGlobal (s : Scope) (name : String) (kind : Kind) :
    s.globals.Gains (s.bindGlobal name kind).2.globals [(name, kind)]
      (Step.gain s (.bindGlobal name kind)) := by
  cases h : s.globals.identifier? name kind with
  | some x =>
    have hgain : Step.gain s (.bindGlobal name kind) = [] := by simp [Step.gain, h]
    rw [hgain, bindGlobal_of_some h]
    exact ⟨rfl, by simp [Frame.missing, h]⟩
  | none =>
    obtain ⟨x, heq, -, -, -⟩ := bindGlobal_of_none h
    have hgain : Step.gain s (.bindGlobal name kind) = [⟨name, kind, x⟩] := by
      simp [Step.gain, h, heq]
    rw [hgain, heq]
    exact ⟨rfl, by simp [Frame.missing, h, Binding.key, List.eraseDups_cons]⟩

/-- **Inside a frame, the outermost one gains by request only.** -/
theorem gains_next {s : Scope} (hs : s.locals ≠ []) (step : Step) :
    s.globals.Gains (step.next s).globals step.globalKey?.toList (step.gain s) := by
  cases step with
  | bind name kind =>
    obtain ⟨frame, outer, hlocals⟩ := List.exists_cons_of_ne_nil hs
    have hglobals : (s.bind name kind).2.globals = s.globals := by
      simp only [bind, hlocals]
      split <;> rfl
    exact hglobals ▸ .nil s.globals
  | bindGlobal name kind => exact s.gains_bindGlobal name kind
  | _ => exact .nil s.globals

/-- A step that opens and closes no frame changes at most the end of the innermost one. -/
theorem locals_next {s : Scope} {frame : Frame} {outer : List Frame}
    (hlocals : s.locals = frame :: outer) {step : Step} (hpush : step ≠ .push)
    (hpop : step ≠ .pop) : ∃ more, (step.next s).locals = frame.addAll more :: outer := by
  have hsame : s.locals = frame.addAll [] :: outer := hlocals
  cases step with
  | bind name kind =>
    cases h : frame.identifier? name kind with
    | some x => exact ⟨[], by rw [Step.next, bind_of_some hlocals h, hsame]⟩
    | none =>
      obtain ⟨x, heq, -, -⟩ := bind_of_none hlocals h
      exact ⟨[⟨name, kind, x⟩], by rw [Step.next, heq]; rfl⟩
  | bindGlobal name kind =>
    refine ⟨[], ?_⟩
    rw [Step.next, bindGlobal]
    split <;> exact hsame
  | push => exact absurd rfl hpush
  | pop => exact absurd rfl hpop
  | _ => exact ⟨[], hsame⟩

end Scope

/-! ## Balanced steps -/

/-- **Steps that close every frame that they open, and no other.** -/
inductive Balanced : List Step → Prop
  | nil : Balanced []
  | step {step : Step} (hpush : step ≠ .push) (hpop : step ≠ .pop) {rest : List Step}
      (hrest : Balanced rest) : Balanced (step :: rest)
  | frame {inside rest : List Step} (hinside : Balanced inside) (hrest : Balanced rest) :
      Balanced (.push :: (inside ++ .pop :: rest))

theorem globalKeys_frame (inside rest : List Step) :
    globalKeys (.push :: (inside ++ .pop :: rest)) = globalKeys inside ++ globalKeys rest := by
  rw [globalKeys, List.filterMap_cons, List.filterMap_append, List.filterMap_cons]
  rfl

/-- **What balanced steps do inside a frame**: the frame gains bindings at its end, the frames
around it stay as they are, and the outermost frame gains what it is asked for. -/
theorem Balanced.run {steps : List Step} (h : Balanced steps) : ∀ {s : Scope} {frame : Frame}
    {outer : List Frame}, s.locals = frame :: outer →
      (∃ more, (s.after steps).locals = frame.addAll more :: outer) ∧
      s.globals.Gains (s.after steps).globals (globalKeys steps) (s.gained steps) := by
  induction h with
  | nil =>
    intro s frame outer hlocals
    exact ⟨⟨[], hlocals⟩, .nil s.globals⟩
  | @step step hpush hpop rest _ ih =>
    intro s frame outer hlocals
    obtain ⟨first, hfirst⟩ := Scope.locals_next hlocals hpush hpop
    obtain ⟨⟨more, hmore⟩, hgains⟩ := ih hfirst
    refine ⟨⟨first ++ more, by rw [Frame.addAll_append]; exact hmore⟩, ?_⟩
    have hstep := Scope.gains_next (by rw [hlocals]; exact List.cons_ne_nil _ _) step
    have hkeys : globalKeys (step :: rest) = step.globalKey?.toList ++ globalKeys rest := by
      rw [globalKeys, List.filterMap_cons]
      cases step.globalKey? <;> rfl
    rw [hkeys]
    exact hstep.trans hgains
  | @frame inside rest _ _ ihinside ihrest =>
    intro s frame outer hlocals
    -- The inner frame is closed again, so the rest runs where the inner steps started.
    have hpushed : s.push.locals = {} :: frame :: outer := by rw [Scope.push, hlocals]
    obtain ⟨⟨inner, hinner⟩, hgains⟩ := ihinside hpushed
    have hpopped : (s.push.after inside).pop.locals = frame :: outer := by
      rw [Scope.pop, hinner]
      rfl
    obtain ⟨hmore, hgains'⟩ := ihrest hpopped
    have hafter : s.after (.push :: (inside ++ .pop :: rest))
        = (s.push.after inside).pop.after rest := Scope.after_append s.push inside (.pop :: rest)
    have hgained : s.gained (.push :: (inside ++ .pop :: rest))
        = s.push.gained inside ++ (s.push.after inside).pop.gained rest :=
      Scope.gained_append s.push inside (.pop :: rest)
    rw [hafter, hgained, globalKeys_frame]
    exact ⟨hmore, hgains.trans hgains'⟩

/-! ## The main result -/

namespace Scope

theorem lookup_of_gains {s t : Scope} {keys : List (String × Kind)} {added : List Binding}
    (hlocals : t.locals = s.locals) (hgains : s.globals.Gains t.globals keys added) (name : String)
    (kind : Kind) :
    t.lookup name kind
      = (s.lookup name kind).or (Frame.identifier? (.addAll {} added) name kind) := by
  rw [lookup_eq, lookup_eq, hlocals, hgains.eq, Frame.identifier?_addAll, Option.or_assoc]

/-- **A frame that is closed leaves the view as it was.**  Let any steps lead from a fresh scope to
`s`, and let `steps` be balanced.  If a frame is opened, the steps run and the frame is closed, as
many frames are open as before, all but the outermost unchanged, and the outermost one is what it
was, followed by the bindings that the steps asked it for: one for each key that it did not bind, in
the order of the first requests.  Names that were in sight mean what they meant, whether or not the
steps hid or bound them; and another name is in sight exactly if the steps bound it in the outermost
frame. -/
theorem closed_frame_restores_view (reserved : List String) (earlier : List Step)
    {steps : List Step} (h : Balanced steps) :
    let s := Scope.after { reserved } earlier
    let t := s.after (.push :: (steps ++ [.pop]))
    t.depth = s.depth ∧ t.locals = s.locals ∧
    t.globals = s.globals.addAll (s.push.gained steps) ∧
    (s.push.gained steps).map Binding.key = s.globals.missing (globalKeys steps) ∧
    (∀ name kind x, s.lookup name kind = some x →
      t.lookup name kind = some x ∧ s.resolve name kind = .ok x ∧ t.resolve name kind = .ok x) ∧
    ∀ name kind, s.lookup name kind = none →
      ((t.lookup name kind).isSome ↔ (name, kind) ∈ globalKeys steps) := by
  intro s t
  have hpushed : s.push.locals = {} :: s.locals := rfl
  obtain ⟨⟨more, hmore⟩, hgains⟩ := h.run hpushed
  have hafter : t = (s.push.after steps).pop := after_append s.push steps [.pop]
  have hlocals : t.locals = s.locals := by rw [hafter, pop, hmore, List.tail_cons]
  have hglobals : s.globals.Gains t.globals (globalKeys steps) (s.push.gained steps) :=
    hafter ▸ hgains
  refine ⟨by rw [depth, depth, hlocals], hlocals, hglobals.eq, hglobals.keys,
    fun name kind x hx => ?_, fun name kind hnone => ?_⟩
  · have hsame : t.lookup name kind = some x := by
      rw [lookup_of_gains hlocals hglobals, hx, Option.some_or]
    exact ⟨hsame, by rw [resolve, hx], by rw [resolve, hsame]⟩
  · have hunbound : s.globals.identifier? name kind = none := by
      rw [lookup_eq, Option.or_eq_none_iff] at hnone
      exact hnone.2
    calc (t.lookup name kind).isSome
        ↔ (Frame.identifier? (.addAll {} (s.push.gained steps)) name kind).isSome := by
          rw [lookup_of_gains hlocals hglobals, hnone, Option.none_or]
      _ ↔ (name, kind) ∈ s.globals.missing (globalKeys steps) := by
          rw [← hglobals.keys, ← Frame.isSome_identifier?_addAll_iff_key]
      _ ↔ (name, kind) ∈ globalKeys steps := Frame.mem_missing.trans (and_iff_left hunbound)

/-- Steps that hide the variable `x` and bind it globally while it is hidden, and that bind `y`
globally where a local `y` hides it. -/
def hidingSteps : List Step :=
  [.bind "x" .ofVariable, .bindGlobal "x" .ofVariable, .push, .bind "y" .ofVariable,
    .bindGlobal "y" .ofVariable, .resolve "z" .ofVariable, .pop, .distinct "x"]

theorem balanced_hidingSteps : Balanced hidingSteps := by
  have hinside : Balanced [.bind "y" .ofVariable, .bindGlobal "y" .ofVariable,
      .resolve "z" .ofVariable] :=
    .step (by simp) (by simp) (.step (by simp) (by simp) (.step (by simp) (by simp) .nil))
  have hrest : Balanced [.distinct "x"] := .step (by simp) (by simp) .nil
  exact .step (by simp) (by simp) (.step (by simp) (by simp) (.frame hinside hrest))

set_option maxRecDepth 2000 in
theorem hiddenVariable_restored :
    let s := Scope.after {} [.bindGlobal "x" .ofVariable]
    let t := s.after (.push :: (hidingSteps ++ [.pop]))
    Balanced hidingSteps ∧ (s.push.after hidingSteps).lookup "x" .ofVariable = some "x2" ∧
      t.lookup "x" .ofVariable = some "x" ∧ (t.lookup "y" .ofVariable).isSome := by
  obtain ⟨-, -, -, -, hsame, hnew⟩ := closed_frame_restores_view Name.reserved
    [.bindGlobal "x" .ofVariable] balanced_hidingSteps
  exact ⟨balanced_hidingSteps, by decide, (hsame "x" .ofVariable "x" (by decide)).1,
    (hnew "y" .ofVariable (by decide)).mpr (by decide)⟩

end Scope

end Jigsaw.Name
