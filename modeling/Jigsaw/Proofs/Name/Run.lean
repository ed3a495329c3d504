import Mathlib.Data.List.Flatten
import Mathlib.Data.List.Nodup
import Jigsaw.Name.Scope
import Jigsaw.Proofs.Name.Fresh

/-!
# Proofs/Name/Run — identifiers stay apart over whole runs of a scope

    bind · bind global · distinct · lookup · resolve · resolve global · push · pop

A scope is used by these steps, in any order and with any names and kinds.  One invariant, `Sound`,
holds along every run: the two stores of a frame agree, open identifiers are pairwise different, all
of them were handed out, and nothing handed out is reserved or no identifier.  A second one,
`Apart`, is about the history of the run: what a nested frame was ever given is no identifier of the
outermost frame.  The two regimes of freshness meet there — a local identifier avoids the open
frames, a global one avoids everything handed out so far.
-/

namespace Jigsaw.Name

/-! ## Frames -/

/-- A name of some kind is bound in a frame exactly if some binding has that key. -/
theorem Frame.identifier?_eq_none_iff {frame : Frame} {name : String} {kind : Kind} :
    frame.identifier? name kind = none ↔
      ∀ b ∈ frame.bindings, ¬ (b.name = name ∧ b.kind = kind) := by
  simp [Frame.identifier?]

/-- What a frame gives for a name is one of its bindings. -/
theorem Frame.mem_of_identifier? {frame : Frame} {name x : String} {kind : Kind}
    (h : frame.identifier? name kind = some x) : ⟨name, kind, x⟩ ∈ frame.bindings := by
  obtain ⟨b, hb, rfl⟩ := Option.map_eq_some_iff.mp h
  obtain ⟨rfl, rfl⟩ : b.name = name ∧ b.kind = kind := by simpa using List.find?_some hb
  exact List.mem_of_find?_eq_some hb

theorem Frame.isSome_identifier?_iff {frame : Frame} {name : String} {kind : Kind} :
    (frame.identifier? name kind).isSome ↔
      ∃ b ∈ frame.bindings, b.name = name ∧ b.kind = kind := by
  simp [Frame.identifier?]

/-- The identifiers of a frame's bindings.  Along every run these are the identifiers that the frame
owns, but what it owns is kept apart. -/
def Frame.identifiers (frame : Frame) : List String := frame.bindings.map Binding.identifier

theorem Frame.mem_identifiers {frame : Frame} {x : String} :
    x ∈ frame.identifiers ↔ ∃ b ∈ frame.bindings, b.identifier = x := List.mem_map

theorem Frame.mem_identifiers_of_identifier? {frame : Frame} {name x : String} {kind : Kind}
    (h : frame.identifier? name kind = some x) : x ∈ frame.identifiers :=
  Frame.mem_identifiers.mpr ⟨_, Frame.mem_of_identifier? h, rfl⟩

/-- A frame with more bindings, made one after the other. -/
def Frame.addAll (frame : Frame) (added : List Binding) : Frame := added.foldl Frame.add frame

@[simp] theorem Frame.addAll_nil (frame : Frame) : frame.addAll [] = frame := rfl

theorem Frame.addAll_singleton (frame : Frame) (b : Binding) : frame.addAll [b] = frame.add b := rfl

theorem Frame.addAll_append (frame : Frame) (added more : List Binding) :
    frame.addAll (added ++ more) = (frame.addAll added).addAll more := List.foldl_append

@[simp] theorem Frame.bindings_addAll (frame : Frame) (added : List Binding) :
    (frame.addAll added).bindings = frame.bindings ++ added := by
  induction added generalizing frame with
  | nil => exact (List.append_nil _).symm
  | cons b rest ih =>
    change ((frame.add b).addAll rest).bindings = _
    rw [ih, Frame.add, List.append_assoc]
    rfl

@[simp] theorem Frame.identifiers_addAll (frame : Frame) (added : List Binding) :
    (frame.addAll added).identifiers = frame.identifiers ++ added.map Binding.identifier := by
  rw [identifiers, bindings_addAll, List.map_append, identifiers]

@[simp] theorem Frame.identifiers_add (frame : Frame) (b : Binding) :
    (frame.add b).identifiers = frame.identifiers ++ [b.identifier] := frame.identifiers_addAll [b]

theorem Frame.mem_owned_addAll {frame : Frame} {added : List Binding} {x : String} :
    x ∈ (frame.addAll added).owned ↔ x ∈ frame.owned ∨ x ∈ added.map Binding.identifier := by
  induction added generalizing frame with
  | nil => simp
  | cons b rest ih =>
    change x ∈ ((frame.add b).addAll rest).owned ↔ _
    rw [ih, Frame.add, List.mem_insert_iff, List.map_cons, List.mem_cons]
    tauto

/-- What was bound first counts. -/
theorem Frame.identifier?_addAll (frame : Frame) (added : List Binding) (name : String)
    (kind : Kind) :
    (frame.addAll added).identifier? name kind
      = (frame.identifier? name kind).or (Frame.identifier? (.addAll {} added) name kind) := by
  rw [Frame.identifier?, bindings_addAll, List.find?_append, Option.map_or, Frame.identifier?,
    Frame.identifier?, bindings_addAll]
  rfl

namespace Scope

/-- The outermost frame is asked last. -/
theorem lookup_eq (s : Scope) (name : String) (kind : Kind) :
    s.lookup name kind
      = (s.locals.findSome? fun frame => frame.identifier? name kind).or
          (s.globals.identifier? name kind) := by
  simp [lookup, frames, List.findSome?_append]

/-- The open identifiers, the outermost frame's apart. -/
theorem openIdentifiers_eq (s : Scope) :
    s.openIdentifiers = s.locals.flatMap Frame.owned ++ s.globals.owned := by
  simp [openIdentifiers, frames]

theorem mem_openIdentifiers {s : Scope} {x : String} :
    x ∈ s.openIdentifiers ↔ ∃ frame ∈ s.frames, x ∈ frame.owned := List.mem_flatMap

theorem mem_frames_of_globals (s : Scope) : s.globals ∈ s.frames :=
  List.mem_append_right _ List.mem_cons_self

/-! ## What binding does

A key that its frame binds already keeps its identifier and changes nothing; any other key gets one
that is not taken, at the end of its frame. -/

/-- The scope after the outermost frame got a new binding. -/
def addGlobal (s : Scope) (b : Binding) : Scope :=
  { s with globals := s.globals.add b, allocated := s.allocated.insert b.identifier }

/-- The scope after its innermost frame, which is `frame` inside `outer`, got a new binding. -/
def addLocal (s : Scope) (frame : Frame) (outer : List Frame) (b : Binding) : Scope :=
  { s with locals := frame.add b :: outer, allocated := s.allocated.insert b.identifier }

theorem bindGlobal_of_some {s : Scope} {name x : String} {kind : Kind}
    (h : s.globals.identifier? name kind = some x) : s.bindGlobal name kind = (x, s) := by
  rw [bindGlobal, h]

/-- **A new global identifier avoids everything handed out so far.** -/
theorem bindGlobal_of_none {s : Scope} {name : String} {kind : Kind}
    (h : s.globals.identifier? name kind = none) :
    ∃ x, s.bindGlobal name kind = (x, s.addGlobal ⟨name, kind, x⟩) ∧ x ∉ s.allocated ∧
      x ∉ s.taken ∧ Text.isIdentifier x := by
  refine ⟨firstFree s.everTaken (base name), by rw [bindGlobal, h]; rfl, ?_, ?_,
    isIdentifier_firstFree _ _⟩
  all_goals
    have hfree := firstFree_notMem s.everTaken (base name)
    simp only [everTaken, taken, List.mem_append, not_or] at hfree ⊢
  · exact hfree.1.2
  · exact ⟨hfree.1.1, hfree.2⟩

theorem bind_of_nil {s : Scope} (h : s.locals = []) (name : String) (kind : Kind) :
    s.bind name kind = s.bindGlobal name kind := by
  rw [bind, h]

theorem bind_of_some {s : Scope} {frame : Frame} {outer : List Frame} {name x : String}
    {kind : Kind} (hs : s.locals = frame :: outer) (h : frame.identifier? name kind = some x) :
    s.bind name kind = (x, s) := by
  simp only [bind, hs, h]

theorem bind_eq_of_none {s : Scope} {frame : Frame} {outer : List Frame} {name : String}
    {kind : Kind} (hs : s.locals = frame :: outer) (h : frame.identifier? name kind = none) :
    s.bind name kind = (firstFree s.taken (base name),
      s.addLocal frame outer ⟨name, kind, firstFree s.taken (base name)⟩) := by
  simp only [bind, hs, h]
  rfl

/-- **A new local identifier avoids the open frames and the reserved words.** -/
theorem bind_of_none {s : Scope} {frame : Frame} {outer : List Frame} {name : String}
    {kind : Kind} (hs : s.locals = frame :: outer) (h : frame.identifier? name kind = none) :
    ∃ x, s.bind name kind = (x, s.addLocal frame outer ⟨name, kind, x⟩) ∧
      x ∉ s.taken ∧ Text.isIdentifier x :=
  ⟨firstFree s.taken (base name), bind_eq_of_none hs h, firstFree_notMem _ _,
    isIdentifier_firstFree _ _⟩

/-! ## The invariant -/

/-- What holds of a scope along every run. -/
structure Sound (s : Scope) : Prop where
  /-- A frame owns the identifiers of its bindings. -/
  owned : ∀ frame ∈ s.frames, frame.owned.Perm frame.identifiers
  /-- Open identifiers are pairwise different. -/
  nodup : s.openIdentifiers.Nodup
  /-- They were all handed out. -/
  allocated : ∀ x ∈ s.openIdentifiers, x ∈ s.allocated
  /-- Nothing reserved was handed out. -/
  unreserved : ∀ x ∈ s.allocated, x ∉ s.reserved
  /-- Only identifiers were handed out. -/
  legal : ∀ x ∈ s.allocated, Text.isIdentifier x
  /-- A frame binds a name of some kind once. -/
  keys : ∀ frame ∈ s.frames, (frame.bindings.map fun b => (b.name, b.kind)).Nodup

/-- Every scope starts sound. -/
theorem sound_initial (reserved : List String) : Sound { reserved } where
  owned := fun frame hframe => by
    obtain rfl := List.mem_singleton.mp hframe
    exact .refl _
  nodup := List.nodup_nil
  allocated := fun _ h => absurd h List.not_mem_nil
  unreserved := fun _ h => absurd h List.not_mem_nil
  legal := fun _ h => absurd h List.not_mem_nil
  keys := by simp [frames]

/-- **The open identifiers are those of the bindings of open frames.** -/
theorem Sound.mem_openIdentifiers {s : Scope} (hs : s.Sound) {x : String} :
    x ∈ s.openIdentifiers ↔ ∃ frame ∈ s.frames, x ∈ frame.identifiers := by
  rw [Scope.mem_openIdentifiers]
  exact exists_congr fun frame => and_congr_right fun hframe => (hs.owned frame hframe).mem_iff

theorem Sound.mem_openIdentifiers_of_globals {s : Scope} (hs : s.Sound) {x : String}
    (h : x ∈ s.globals.identifiers) : x ∈ s.openIdentifiers :=
  hs.mem_openIdentifiers.mpr ⟨s.globals, s.mem_frames_of_globals, h⟩

theorem notMem_owned_of_notMem_taken {s : Scope} {x : String} (hfree : x ∉ s.taken)
    {frame : Frame} (hframe : frame ∈ s.frames) : x ∉ frame.owned := fun hx =>
  hfree (List.mem_append_right _ (mem_openIdentifiers.mpr ⟨frame, hframe, hx⟩))

/-- **One more open identifier that was free keeps a scope sound.**  Which frame it went to shows
only in what the frames own and in their keys. -/
theorem Sound.add {s t : Scope} (hs : s.Sound) {x : String} (hfree : x ∉ s.taken)
    (hlegal : Text.isIdentifier x) (hopen : t.openIdentifiers.Perm (x :: s.openIdentifiers))
    (halloc : t.allocated = s.allocated.insert x) (hreserved : t.reserved = s.reserved)
    (hframes : ∀ frame ∈ t.frames, frame.owned.Perm frame.identifiers ∧
      (frame.bindings.map fun b => (b.name, b.kind)).Nodup) : t.Sound := by
  simp only [taken, List.mem_append, not_or] at hfree
  refine ⟨fun frame hframe => (hframes frame hframe).1, ?_, fun y hy => ?_, fun y hy => ?_,
    fun y hy => ?_, fun frame hframe => (hframes frame hframe).2⟩
  · exact hopen.nodup_iff.mpr (List.nodup_cons.mpr ⟨hfree.2, hs.nodup⟩)
  · rw [halloc, List.mem_insert_iff]
    exact (List.mem_cons.mp (hopen.mem_iff.mp hy)).imp_right (hs.allocated y)
  · rw [halloc, List.mem_insert_iff] at hy
    rw [hreserved]
    rcases hy with rfl | hy
    · exact hfree.1
    · exact hs.unreserved y hy
  · rw [halloc, List.mem_insert_iff] at hy
    rcases hy with rfl | hy
    · exact hlegal
    · exact hs.legal y hy

/-- A frame that gets a key it did not bind binds its keys once. -/
theorem keys_add {frame : Frame} {b : Binding}
    (hframe : (frame.bindings.map fun c => (c.name, c.kind)).Nodup)
    (hnew : frame.identifier? b.name b.kind = none) :
    ((frame.add b).bindings.map fun c => (c.name, c.kind)).Nodup := by
  rw [Frame.add, List.map_append, List.nodup_append]
  refine ⟨hframe, List.nodup_singleton _, fun k hk k' hk' heq => ?_⟩
  obtain ⟨c, hc, rfl⟩ := List.mem_map.mp hk
  rw [List.map_singleton, List.mem_singleton] at hk'
  exact Frame.identifier?_eq_none_iff.mp hnew c hc (Prod.mk.inj (heq.trans hk'))

/-- A frame that gets an identifier it did not own has it in both of its stores. -/
theorem owned_add {frame : Frame} {b : Binding} (hframe : frame.owned.Perm frame.identifiers)
    (hnew : b.identifier ∉ frame.owned) : (frame.add b).owned.Perm (frame.add b).identifiers := by
  rw [Frame.identifiers_add, Frame.add, List.insert_of_not_mem hnew]
  exact (hframe.cons _).trans (List.perm_append_singleton _ _).symm

theorem Sound.addGlobal {s : Scope} (hs : s.Sound) {b : Binding}
    (hnew : s.globals.identifier? b.name b.kind = none) (hfree : b.identifier ∉ s.taken)
    (hlegal : Text.isIdentifier b.identifier) : (s.addGlobal b).Sound := by
  have hglobals := s.mem_frames_of_globals
  have hunowned := notMem_owned_of_notMem_taken hfree hglobals
  refine hs.add hfree hlegal ?_ rfl rfl fun frame hframe => ?_
  · rw [openIdentifiers_eq, openIdentifiers_eq, Scope.addGlobal, Frame.add,
      List.insert_of_not_mem hunowned]
    exact List.perm_middle
  · rcases List.mem_append.mp hframe with hframe | hframe
    · have hframe := List.mem_append_left [s.globals] hframe
      exact ⟨hs.owned frame hframe, hs.keys frame hframe⟩
    · obtain rfl := List.mem_singleton.mp hframe
      exact ⟨owned_add (hs.owned _ hglobals) hunowned, keys_add (hs.keys _ hglobals) hnew⟩

theorem Sound.addLocal {s : Scope} (hs : s.Sound) {frame : Frame} {outer : List Frame}
    (hlocals : s.locals = frame :: outer) {b : Binding}
    (hnew : frame.identifier? b.name b.kind = none) (hfree : b.identifier ∉ s.taken)
    (hlegal : Text.isIdentifier b.identifier) : (s.addLocal frame outer b).Sound := by
  have hframes : s.frames = frame :: (outer ++ [s.globals]) := by rw [frames, hlocals]; rfl
  have hframe : frame ∈ s.frames := hframes ▸ List.mem_cons_self
  have hunowned := notMem_owned_of_notMem_taken hfree hframe
  refine hs.add hfree hlegal ?_ rfl rfl fun g hg => ?_
  · rw [openIdentifiers_eq, openIdentifiers_eq, Scope.addLocal, hlocals, List.flatMap_cons,
      List.flatMap_cons, Frame.add, List.insert_of_not_mem hunowned]
    exact .refl _
  · rcases List.mem_cons.mp hg with rfl | hg
    · exact ⟨owned_add (hs.owned _ hframe) hunowned, keys_add (hs.keys _ hframe) hnew⟩
    · have hg : g ∈ s.frames := hframes ▸ List.mem_cons_of_mem _ hg
      exact ⟨hs.owned g hg, hs.keys g hg⟩

theorem Sound.bindGlobal {s : Scope} (hs : s.Sound) (name : String) (kind : Kind) :
    (s.bindGlobal name kind).2.Sound := by
  cases h : s.globals.identifier? name kind with
  | some x => rwa [bindGlobal_of_some h]
  | none =>
    obtain ⟨x, heq, -, hfree, hlegal⟩ := bindGlobal_of_none h
    rw [heq]
    exact hs.addGlobal h hfree hlegal

theorem Sound.bind {s : Scope} (hs : s.Sound) (name : String) (kind : Kind) :
    (s.bind name kind).2.Sound := by
  cases hlocals : s.locals with
  | nil =>
    rw [bind_of_nil hlocals]
    exact hs.bindGlobal name kind
  | cons frame outer =>
    cases h : frame.identifier? name kind with
    | some x => rwa [bind_of_some hlocals h]
    | none =>
      obtain ⟨x, heq, hfree, hlegal⟩ := bind_of_none hlocals h
      rw [heq]
      exact hs.addLocal hlocals h hfree hlegal

theorem Sound.push {s : Scope} (hs : s.Sound) : s.push.Sound where
  owned := fun frame hframe => by
    rcases List.mem_cons.mp hframe with rfl | hframe
    · exact .refl _
    · exact hs.owned frame hframe
  nodup := hs.nodup
  allocated := hs.allocated
  unreserved := hs.unreserved
  legal := hs.legal
  keys := fun frame hframe => by
    rcases List.mem_cons.mp hframe with rfl | hframe
    · exact List.nodup_nil
    · exact hs.keys frame hframe

/-- The frames that stay open are a sublist of those that were. -/
theorem frames_pop_sublist (s : Scope) : s.pop.frames.Sublist s.frames :=
  (List.tail_sublist s.locals).append_right _

theorem openIdentifiers_pop_sublist (s : Scope) :
    s.pop.openIdentifiers.Sublist s.openIdentifiers :=
  s.frames_pop_sublist.flatMap Frame.owned

theorem Sound.pop {s : Scope} (hs : s.Sound) : s.pop.Sound where
  owned := fun frame hframe => hs.owned frame (s.frames_pop_sublist.subset hframe)
  nodup := hs.nodup.sublist s.openIdentifiers_pop_sublist
  allocated := fun x hx => hs.allocated x (s.openIdentifiers_pop_sublist.subset hx)
  unreserved := hs.unreserved
  legal := hs.legal
  keys := fun frame hframe => hs.keys frame (s.frames_pop_sublist.subset hframe)

end Scope

/-! ## Runs -/

/-- One use of a scope. -/
inductive Step where
  /-- Binds in the innermost frame. -/
  | bind (name : String) (kind : Kind)
  /-- Binds in the outermost frame. -/
  | bindGlobal (name : String) (kind : Kind)
  /-- Asks for an identifier bound to no name. -/
  | distinct (name : String)
  /-- Asks for the nearest binding, if there is one. -/
  | lookup (name : String) (kind : Kind)
  /-- Asks for the nearest binding, which has to exist. -/
  | resolve (name : String) (kind : Kind)
  /-- Asks for the outermost binding, which has to exist. -/
  | resolveGlobal (name : String) (kind : Kind)
  /-- Opens a frame. -/
  | push
  /-- Closes the innermost frame; at depth one there is none to close. -/
  | pop

namespace Step

/-- The scope after a step. -/
def next (s : Scope) : Step → Scope
  | bind name kind => (s.bind name kind).2
  | bindGlobal name kind => (s.bindGlobal name kind).2
  | distinct _ | lookup _ _ | resolve _ _ | resolveGlobal _ _ => s
  | push => s.push
  | pop => s.pop

/-- The identifier that a step hands out for a nested frame. -/
def nested? (s : Scope) : Step → Option String
  | bind name kind => if s.locals.isEmpty then none else some (s.bind name kind).1
  | _ => none

/-- The identifier that a step hands out, to be bound or not. -/
def handed? (s : Scope) : Step → Option String
  | bind name kind => some (s.bind name kind).1
  | bindGlobal name kind => some (s.bindGlobal name kind).1
  | distinct name => some (s.distinct name)
  | _ => none

end Step

namespace Scope

/-- The scope after steps. -/
def after (s : Scope) : List Step → Scope
  | [] => s
  | step :: rest => after (step.next s) rest

/-- The identifiers that steps hand out for nested frames, one after the other. -/
def nestedOf (s : Scope) : List Step → List String
  | [] => []
  | step :: rest => (step.nested? s).toList ++ nestedOf (step.next s) rest

/-- The identifiers that steps hand out, one after the other. -/
def handedOf (s : Scope) : List Step → List String
  | [] => []
  | step :: rest => (step.handed? s).toList ++ handedOf (step.next s) rest

theorem after_append (s : Scope) : ∀ earlier later : List Step,
    s.after (earlier ++ later) = (s.after earlier).after later
  | [], _ => rfl
  | step :: rest, later => after_append (step.next s) rest later

theorem Sound.next {s : Scope} (hs : s.Sound) : ∀ step : Step, (step.next s).Sound
  | .bind name kind => hs.bind name kind
  | .bindGlobal name kind => hs.bindGlobal name kind
  | .distinct _ | .lookup _ _ | .resolve _ _ | .resolveGlobal _ _ => hs
  | .push => hs.push
  | .pop => hs.pop

/-- **A scope stays sound along every run.** -/
theorem Sound.after {s : Scope} (hs : s.Sound) : ∀ steps : List Step, (s.after steps).Sound
  | [] => hs
  | step :: rest => Sound.after (hs.next step) rest

/-! ## What a run hands out -/

/-- What binding in the outermost frame gives was handed out. -/
theorem bindGlobal_mem_allocated {s : Scope} (hs : s.Sound) (name : String) (kind : Kind) :
    (s.bindGlobal name kind).1 ∈ (s.bindGlobal name kind).2.allocated := by
  cases h : s.globals.identifier? name kind with
  | some x =>
    rw [bindGlobal_of_some h]
    exact hs.allocated x
      (hs.mem_openIdentifiers_of_globals (Frame.mem_identifiers_of_identifier? h))
  | none =>
    obtain ⟨x, heq, -, -, -⟩ := bindGlobal_of_none h
    rw [heq]
    exact List.mem_insert_self

/-- …and so was what binding in the innermost frame gives. -/
theorem bind_mem_allocated {s : Scope} (hs : s.Sound) (name : String) (kind : Kind) :
    (s.bind name kind).1 ∈ (s.bind name kind).2.allocated := by
  cases hlocals : s.locals with
  | nil =>
    rw [bind_of_nil hlocals]
    exact bindGlobal_mem_allocated hs name kind
  | cons frame outer =>
    cases h : frame.identifier? name kind with
    | some x =>
      rw [bind_of_some hlocals h]
      refine hs.allocated x (hs.mem_openIdentifiers.mpr ⟨frame, ?_, ?_⟩)
      · rw [frames, hlocals]
        exact List.mem_cons_self
      · exact Frame.mem_identifiers_of_identifier? h
    | none =>
      obtain ⟨x, heq, -, -⟩ := bind_of_none hlocals h
      rw [heq]
      exact List.mem_insert_self

@[simp] theorem reserved_next (s : Scope) (step : Step) :
    (step.next s).reserved = s.reserved := by
  cases step with
  | bind name kind =>
    cases hlocals : s.locals with
    | nil =>
      rw [Step.next, bind_of_nil hlocals, bindGlobal]
      split <;> rfl
    | cons frame outer =>
      simp only [Step.next, bind, hlocals]
      split <;> rfl
  | bindGlobal name kind =>
    rw [Step.next, bindGlobal]
    split <;> rfl
  | _ => rfl

theorem reserved_after (s : Scope) : ∀ steps : List Step, (s.after steps).reserved = s.reserved
  | [] => rfl
  | step :: rest => (reserved_after (step.next s) rest).trans (s.reserved_next step)

/-- What a step hands out is no reserved word and an identifier. -/
theorem Sound.handed {s : Scope} (hs : s.Sound) {step : Step} {x : String}
    (h : step.handed? s = some x) : x ∉ s.reserved ∧ Text.isIdentifier x := by
  have hbound : x ∈ (step.next s).allocated → x ∉ s.reserved ∧ Text.isIdentifier x := fun hx =>
    ⟨s.reserved_next step ▸ (hs.next step).unreserved x hx, (hs.next step).legal x hx⟩
  cases step with
  | bind name kind =>
    obtain rfl := Option.some.inj h
    exact hbound (bind_mem_allocated hs name kind)
  | bindGlobal name kind =>
    obtain rfl := Option.some.inj h
    exact hbound (bindGlobal_mem_allocated hs name kind)
  | distinct name =>
    obtain rfl := Option.some.inj h
    have hfree := firstFree_notMem s.taken (base name)
    rw [taken, List.mem_append, not_or] at hfree
    exact ⟨hfree.1, isIdentifier_firstFree _ _⟩
  | _ => exact absurd h (by simp [Step.handed?])

/-- **Nothing that a run hands out is reserved or no identifier.** -/
theorem Sound.handedOf {s : Scope} (hs : s.Sound) {x : String} : ∀ steps : List Step,
    x ∈ s.handedOf steps → x ∉ s.reserved ∧ Text.isIdentifier x
  | [], h => absurd h List.not_mem_nil
  | step :: rest, h => by
      rcases List.mem_append.mp h with h | h
      · exact hs.handed (Option.mem_toList.mp h)
      · exact s.reserved_next step ▸ Sound.handedOf (hs.next step) rest h

/-! ## The history of nested frames -/

/-- Identifiers that were handed out and that the outermost frame does not bind. -/
def Apart (history : List String) (s : Scope) : Prop :=
  ∀ x ∈ history, x ∈ s.allocated ∧ x ∉ s.globals.identifiers

/-- A new global identifier was never handed out before. -/
theorem Apart.bindGlobal {history : List String} {s : Scope} (h : Apart history s) (name : String)
    (kind : Kind) : Apart history (s.bindGlobal name kind).2 := by
  cases hkey : s.globals.identifier? name kind with
  | some x => rwa [bindGlobal_of_some hkey]
  | none =>
    obtain ⟨x, heq, hnew, -, -⟩ := bindGlobal_of_none hkey
    rw [heq]
    intro y hy
    obtain ⟨halloc, hglobals⟩ := h y hy
    refine ⟨List.mem_insert_of_mem halloc, fun hmem => ?_⟩
    rw [addGlobal, Frame.identifiers_add, List.mem_append] at hmem
    rcases hmem with hmem | hmem
    · exact hglobals hmem
    · obtain rfl := List.mem_singleton.mp hmem
      exact hnew halloc

/-- **What a nested frame is given is no global identifier**, and the history stays apart. -/
theorem Apart.bind {history : List String} {s : Scope} (hs : s.Sound) (h : Apart history s)
    {frame : Frame} {outer : List Frame} (hlocals : s.locals = frame :: outer) (name : String)
    (kind : Kind) :
    Apart (history ++ [(s.bind name kind).1]) (s.bind name kind).2 := by
  cases hkey : frame.identifier? name kind with
  | some x =>
    rw [bind_of_some hlocals hkey]
    intro y hy
    rcases List.mem_append.mp hy with hy | hy
    · exact h y hy
    · obtain rfl := List.mem_singleton.mp hy
      have hframe : frame ∈ s.frames := by
        rw [frames, hlocals]
        exact List.mem_cons_self
      have howned := (hs.owned frame hframe).mem_iff.mpr (Frame.mem_identifiers_of_identifier? hkey)
      have hlocal : y ∈ s.locals.flatMap Frame.owned := by
        rw [hlocals]
        exact List.mem_append_left _ howned
      have hnodup := s.openIdentifiers_eq ▸ hs.nodup
      refine ⟨hs.allocated y (mem_openIdentifiers.mpr ⟨frame, hframe, howned⟩), fun hglobal => ?_⟩
      exact List.disjoint_of_nodup_append hnodup hlocal
        ((hs.owned _ s.mem_frames_of_globals).mem_iff.mpr hglobal)
  | none =>
    obtain ⟨x, heq, hfree, -⟩ := bind_of_none hlocals hkey
    rw [heq]
    intro y hy
    rcases List.mem_append.mp hy with hy | hy
    · exact ⟨List.mem_insert_of_mem (h y hy).1, (h y hy).2⟩
    · obtain rfl := List.mem_singleton.mp hy
      rw [taken, List.mem_append, not_or] at hfree
      exact ⟨List.mem_insert_self, fun hmem => hfree.2 (hs.mem_openIdentifiers_of_globals hmem)⟩

theorem Apart.next {history : List String} {s : Scope} (hs : s.Sound) (h : Apart history s)
    (step : Step) : Apart (history ++ (step.nested? s).toList) (step.next s) := by
  cases step with
  | bind name kind =>
    cases hlocals : s.locals with
    | nil =>
      simpa [Step.nested?, Step.next, hlocals, bind_of_nil hlocals] using h.bindGlobal name kind
    | cons frame outer =>
      have hbind := Apart.bind hs h hlocals name kind
      simpa [Step.nested?, Step.next, hlocals] using hbind
  | bindGlobal name kind =>
    simpa [Step.nested?, Step.next] using h.bindGlobal name kind
  | _ =>
    change Apart (history ++ []) s
    rwa [List.append_nil]

/-- **The identifiers ever given to nested frames stay apart from the outermost frame.** -/
theorem Apart.nestedOf {history : List String} {s : Scope} (hs : s.Sound) (h : Apart history s) :
    ∀ steps : List Step, Apart (history ++ s.nestedOf steps) (s.after steps)
  | [] => by simpa [Scope.nestedOf, Scope.after] using h
  | step :: rest => by
      rw [Scope.nestedOf, ← List.append_assoc]
      exact Apart.nestedOf (hs.next step) (h.next hs step) rest

/-- The outermost frame loses nothing. -/
theorem globals_next (s : Scope) (step : Step) :
    s.globals.bindings <+: (step.next s).globals.bindings := by
  have hglobal (name : String) (kind : Kind) :
      s.globals.bindings <+: (s.bindGlobal name kind).2.globals.bindings := by
    rw [bindGlobal]
    split
    · exact List.prefix_rfl
    · exact List.prefix_append _ _
  cases step with
  | bind name kind =>
    cases hlocals : s.locals with
    | nil =>
      rw [Step.next, bind_of_nil hlocals]
      exact hglobal name kind
    | cons frame outer =>
      simp only [Step.next, bind, hlocals]
      split <;> exact List.prefix_rfl
  | bindGlobal name kind => exact hglobal name kind
  | _ => exact List.prefix_rfl

theorem globals_after (s : Scope) : ∀ steps : List Step,
    s.globals.bindings <+: (s.after steps).globals.bindings
  | [] => List.prefix_rfl
  | step :: rest => (s.globals_next step).trans (globals_after (step.next s) rest)

/-! ## The main result -/

/-- Bindings of open frames with one identifier are one binding of one frame. -/
theorem Sound.eq_of_identifier_eq {s : Scope} (hs : s.Sound) {i j : Nat} {f g : Frame}
    {b c : Binding} (hf : s.frames[i]? = some f) (hg : s.frames[j]? = some g) (hb : b ∈ f.bindings)
    (hc : c ∈ g.bindings) (heq : b.identifier = c.identifier) : i = j ∧ b = c := by
  obtain ⟨hnodup, hpairwise⟩ := List.nodup_flatMap.mp hs.nodup
  have hbf : b.identifier ∈ f.owned := (hs.owned f (List.mem_of_getElem? hf)).mem_iff.mpr
    (Frame.mem_identifiers.mpr ⟨b, hb, rfl⟩)
  have hcg : b.identifier ∈ g.owned := (hs.owned g (List.mem_of_getElem? hg)).mem_iff.mpr
    (Frame.mem_identifiers.mpr ⟨c, hc, heq.symm⟩)
  obtain ⟨hi, rfl⟩ := List.getElem?_eq_some_iff.mp hf
  obtain ⟨hj, rfl⟩ := List.getElem?_eq_some_iff.mp hg
  rcases Nat.lt_trichotomy i j with hlt | rfl | hlt
  · exact absurd hcg (List.pairwise_iff_getElem.mp hpairwise i j hi hj hlt hbf)
  · have hframe := List.getElem_mem hi
    have hidentifiers := (hs.owned _ hframe).nodup_iff.mp (hnodup _ hframe)
    exact ⟨rfl, List.inj_on_of_nodup_map hidentifiers hb hc heq⟩
  · exact absurd hbf (List.pairwise_iff_getElem.mp hpairwise j i hj hi hlt hcg)

/-- The outermost frame binds an identifier under one key, -/
theorem Sound.global_unique {s : Scope} (hs : s.Sound) {b c : Binding}
    (hb : b ∈ s.globals.bindings) (hc : c ∈ s.globals.bindings)
    (h : b.identifier = c.identifier) : b = c := by
  have hlast : s.frames[s.locals.length]? = some s.globals := by simp [frames]
  exact (hs.eq_of_identifier_eq hlast hlast hb hc h).2

/-- …and a key to one identifier. -/
theorem Sound.identifier?_of_mem {s : Scope} (hs : s.Sound) {b : Binding}
    (hb : b ∈ s.globals.bindings) :
    s.globals.identifier? b.name b.kind = some b.identifier := by
  cases h : s.globals.identifier? b.name b.kind with
  | none => exact absurd ⟨rfl, rfl⟩ (Frame.identifier?_eq_none_iff.mp h b hb)
  | some x =>
    have hkeys := hs.keys s.globals s.mem_frames_of_globals
    have heq := List.inj_on_of_nodup_map hkeys (Frame.mem_of_identifier? h) hb rfl
    exact congrArg (fun c => some c.identifier) heq

/-- **Identifiers stay apart over whole runs.**  Let any steps `earlier` lead from a fresh scope to
`s`, and let any steps `later` follow.  Each open frame owns exactly the identifiers of its
bindings, all of them allocated; two open bindings with one identifier are the same name of the same
kind in the same frame; an identifier of the outermost frame is never handed out for a nested one,
before or after; and what is bound, or handed out without being bound, is an identifier and no
reserved word. -/
theorem identifiers_apart_of_run (reserved : List String) (earlier later : List Step) :
    let start : Scope := { reserved }
    let s := start.after earlier
    (∀ frame ∈ s.frames,
        (∀ x, x ∈ frame.owned ↔ ∃ b ∈ frame.bindings, b.identifier = x) ∧
        frame.owned ⊆ s.allocated) ∧
      (∀ (i j : Nat) (f g : Frame), s.frames[i]? = some f → s.frames[j]? = some g →
        ∀ b ∈ f.bindings, ∀ c ∈ g.bindings, b.identifier = c.identifier →
          i = j ∧ b.name = c.name ∧ b.kind = c.kind) ∧
      (∀ b ∈ s.globals.bindings, b.identifier ∉ start.nestedOf (earlier ++ later)) ∧
      (∀ frame ∈ s.frames, ∀ b ∈ frame.bindings, b.identifier ∉ reserved ∧
        Text.isIdentifier b.identifier) ∧
      (∀ x ∈ start.handedOf earlier, x ∉ reserved ∧ Text.isIdentifier x) := by
  intro start s
  have hstart : start.Sound := sound_initial reserved
  have hs : s.Sound := hstart.after earlier
  have hopen {frame : Frame} (hframe : frame ∈ s.frames) {x : String} (hx : x ∈ frame.owned) :
      x ∈ s.allocated := hs.allocated x (mem_openIdentifiers.mpr ⟨frame, hframe, hx⟩)
  have howned {frame : Frame} (hframe : frame ∈ s.frames) (x : String) :
      x ∈ frame.owned ↔ ∃ b ∈ frame.bindings, b.identifier = x :=
    (hs.owned frame hframe).mem_iff.trans Frame.mem_identifiers
  refine ⟨fun frame hframe => ⟨howned hframe, fun x => hopen hframe⟩,
    fun i j f g hf hg b hb c hc heq => ?_, fun b hb hnested => ?_, fun frame hframe b hb => ?_,
    fun x hx => hstart.handedOf earlier hx⟩
  · obtain ⟨hij, rfl⟩ := hs.eq_of_identifier_eq hf hg hb hc heq
    exact ⟨hij, rfl, rfl⟩
  · have hempty : Apart [] start := fun _ h => absurd h List.not_mem_nil
    have hapart := Apart.nestedOf hstart hempty (earlier ++ later)
    have hkept : b ∈ (start.after (earlier ++ later)).globals.bindings := by
      rw [after_append]
      exact (globals_after s later).subset hb
    exact (hapart _ hnested).2 (Frame.mem_identifiers.mpr ⟨b, hkept, rfl⟩)
  · have hb : b.identifier ∈ s.allocated := hopen hframe ((howned hframe _).mpr ⟨b, hb, rfl⟩)
    have hreserved : s.reserved = reserved := start.reserved_after earlier
    exact ⟨hreserved ▸ hs.unreserved _ hb, hs.legal _ hb⟩

end Scope

end Jigsaw.Name
