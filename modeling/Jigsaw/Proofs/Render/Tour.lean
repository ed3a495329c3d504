import Mathlib.Data.List.Basic
import Jigsaw.Proofs.Render.Declared

/-!
# Proofs/Render/Tour — the blocks that a rendering visits, and what it meets there

Which blocks of a forest are rendered, in which order, and what each of them asks for, can be read
off the forest alone: no identifier and no code is needed, only names as the workspace has them.

    visit · query of a name · support routine · import · integer that has to be written

`Forest.tour` lists these events in the order of rendering.  A block is visited in a position, with
the local names that are known there; the slots that its type reads are visited after it, in their
order (`ValueType.course`, `StatementType.course`).  Other slots are not visited, nor is what stands
below a value.
-/

namespace Jigsaw

open Render Name

namespace Render

/-- The positions that a block can be rendered in. -/
inductive Position where
  /-- As a value, without the blocks below it. -/
  | value
  /-- As a statement. -/
  | statement
deriving DecidableEq

/-- A block that is visited. -/
structure Visit where
  /-- The position it is rendered in. -/
  position : Position
  /-- The block. -/
  block : Block
  /-- The local names that are known there. -/
  names : List String

/-- A question for the identifier of a name. -/
structure Query where
  /-- The name. -/
  name : String
  /-- Its kind. -/
  kind : Kind
  /-- Whether the outermost frame alone is asked. -/
  outermost : Bool
deriving DecidableEq

/-- The answer of a scope. -/
def Query.resolve (q : Query) (s : Scope) : Except Unresolved String :=
  if q.outermost then s.resolveGlobal q.name q.kind else s.resolve q.name q.kind

/-- What rendering meets. -/
inductive Event where
  /-- A block is visited. -/
  | visit (v : Visit)
  /-- A name is looked up for a slot of a block, where these local names are known. -/
  | query (q : Query) (names : List String) (site : Site)
  /-- A support routine is asked for. -/
  | helper (key : String)
  /-- An import is asked for. -/
  | module (name : String)
  /-- An integer that no field spells has to be written. -/
  | integer (k : Int)

/-- The visit that an event is. -/
def Event.visit? : Event → Option Visit
  | .visit v => some v
  | _ => none

/-- The support routine that an event asks for. -/
def Event.helper? : Event → Option String
  | .helper key => some key
  | _ => none

/-- The import that an event asks for. -/
def Event.module? : Event → Option String
  | .module name => some name
  | _ => none

theorem Event.visit?_eq_some {e : Event} {v : Visit} : e.visit? = some v ↔ e = .visit v := by
  cases e <;> simp [Event.visit?]

theorem Event.helper?_eq_some {e : Event} {key : String} :
    e.helper? = some key ↔ e = .helper key := by
  cases e <;> simp [Event.helper?]

theorem Event.module?_eq_some {e : Event} {name : String} :
    e.module? = some name ↔ e = .module name := by
  cases e <;> simp [Event.module?]

/-- A slot that a block's type reads. -/
structure Use where
  /-- Whether it holds a value or a chain of statements. -/
  position : Position
  /-- Its name. -/
  slot : String
  /-- The names that are known in the slot, besides those that the block knows. -/
  declared : List String := []

/-- Value slots, in order. -/
def valuesIn (slots : List String) : List Use :=
  slots.map fun slot => { position := .value, slot }

/-- The value slots `stem0`, `stem1`, …, as many as `count`. -/
def numberedValues (stem : String) (count : Nat) : List Use :=
  valuesIn ((List.range count).map fun i => stem ++ toString i)

/-- What a block's type does in the course of rendering the block. -/
structure Course where
  /-- What it asks for before it reads its slots. -/
  before : List Event := []
  /-- The slots that it reads. -/
  uses : List Use := []
  /-- What it asks for afterwards. -/
  after : List Event := []

/-- The integer that a block of a type is the literal of. -/
def ValueType.integer? (b : Block) : ValueType → Option Int
  | .number =>
    match Numeral.ofText (b.fieldOr "NUM" "0") with
    | .integer k => some k
    | .floating _ _ => none
  | _ => none

end Render

/-! ## Single blocks -/

namespace Block

/-- A lexical reference. -/
def lexicalQuery (b : Block) : Query :=
  let (word, name) := splitScopeWord (b.field "VAR")
  { name, kind := .ofVariable, outermost := word = "global" }

/-- A name in a field, looked up where `names` are known. -/
def fieldQuery (b : Block) (slot : String) (kind : Kind) (outermost : Bool)
    (names : List String) : Event :=
  .query { name := b.field slot, kind, outermost } names (.ofSlot b slot)

/-- The integer that a block is the literal of. -/
def integer? (b : Block) : Option Int := (ValueType.ofName? b.type).bind (ValueType.integer? b)

/-- The integer that stands in a slot, if an empty slot holds `default`. -/
def integerIn? (b : Block) (slot : String) (default : Option Int) : Option Int :=
  match b.values.get? slot with
  | some child => child.integer?
  | none => default

/-- The end of a segment, counted from zero, where it is computed from literals: the start counts
from one, and neither it nor the length is negative or has too many digits. -/
def segmentEnd? (b : Block) : Option Int :=
  match b.integerIn? "START" (some 1), b.integerIn? "LENGTH" (some 1) with
  | some start, some size =>
    if 1 ≤ start ∧ 0 ≤ size ∧ Integer.fits start ∧ Integer.fits size then some (start - 1 + size)
    else none
  | _, _ => none

/-- The support routine for the position of an item. -/
def positionKey (b : Block) : String :=
  if b.fieldOr "END" "FIRST" = "LAST" then "last_index" else "first_index"

end Block

namespace Render

/-- **The course of a value block**, where `names` are known. -/
def ValueType.course (b : Block) (names : List String) : ValueType → Course
  | .emptyList | .text | .number | .truth => {}
  | .listOf | .textJoin => { uses := numberedValues "ADD" b.itemCount }
  | .listRepeat => { uses := valuesIn ["ITEM", "NUM"] }
  | .listLength | .listIsEmpty | .listCopy => { uses := valuesIn ["LIST"] }
  | .listPosition =>
    { uses := valuesIn ["LIST", "ITEM"], after := [.helper b.positionKey] }
  | .listItem => { uses := valuesIn ["LIST", if b.values.has "AT" then "AT" else "NUM"] }
  | .listMember => { uses := valuesIn ["ITEM", "LIST"] }
  | .listRandomItem => { before := [.module "random"], uses := valuesIn ["LIST"] }
  | .isList => { uses := valuesIn ["ITEM"] }
  | .textLength | .textIsEmpty => { uses := valuesIn ["VALUE"] }
  | .textEnd => { uses := valuesIn ["TEXT", "NUM"] }
  | .textPosition => { uses := valuesIn ["FIND", "VALUE"] }
  | .textStartsAt | .textContains => { uses := valuesIn ["TEXT", "PIECE"] }
  | .textChar => { uses := valuesIn ["AT", "VALUE"] }
  | .textSegment =>
    { uses := valuesIn ["TEXT", "START", "LENGTH"], after := b.segmentEnd?.toList.map .integer }
  | .textCase | .textTrim | .textSplit => { uses := valuesIn ["TEXT"] }
  | .textReplaceAll => { uses := valuesIn ["TEXT", "SEGMENT", "REPLACEMENT"] }
  | .textCompare => { uses := valuesIn ["TEXT1", "TEXT2"] }
  | .textPrompt => { before := [.helper "text_prompt"] }
  | .variableGet => { before := [b.fieldQuery "VAR" .ofVariable false names] }
  | .lexicalGet => { before := [.query b.lexicalQuery names (.ofSlot b "VAR")] }
  | .localExpression =>
    { uses := numberedValues "DECL" b.declaredNames.length
        ++ [{ position := .value, slot := "RETURN", declared := b.declaredNames }] }
  | .arithmetic | .logic => { uses := valuesIn ["A", "B"] }
  | .negation => { uses := valuesIn ["BOOL"] }
  | .procedureCall =>
    { before := [b.fieldQuery "PROCNAME" .ofProcedure false names]
      uses := numberedValues "ARG" b.argumentCount }

/-- The slots of the `i`-th condition of a conditional. -/
def clauseUses (i : Nat) : List Use :=
  [{ position := .value, slot := "IF" ++ toString i },
    { position := .statement, slot := "DO" ++ toString i }]

/-- **The course of a statement block**, where `names` are known. -/
def StatementType.course (b : Block) (names : List String) : StatementType → Course
  | .listSetItem => { uses := valuesIn ["LIST", "AT", "TO"] }
  | .listAddItems =>
    { uses := { position := .value, slot := "LIST" } :: numberedValues "ITEM" (max b.itemCount 1) }
  | .listInsert => { uses := valuesIn ["LIST", "INDEX", "ITEM"] }
  | .listReplaceItem => { uses := valuesIn ["LIST", "NUM", "ITEM"] }
  | .listRemove => { uses := valuesIn ["LIST", "INDEX"] }
  | .listAppendList => { uses := valuesIn ["LIST0", "LIST1"] }
  | .textAppend =>
    { before := [.query b.lexicalQuery names (.ofSlot b "VAR")], uses := valuesIn ["TEXT"] }
  | .textPrint => { uses := valuesIn ["TEXT"] }
  | .variableSet =>
    { uses := valuesIn ["VALUE"], after := [b.fieldQuery "VAR" .ofVariable false names] }
  | .globalDeclaration =>
    { before := [b.fieldQuery "NAME" .ofVariable true names], uses := valuesIn ["VALUE"] }
  | .lexicalSet =>
    { before := [.query b.lexicalQuery names (.ofSlot b "VAR")], uses := valuesIn ["VALUE"] }
  | .localStatement =>
    { uses := numberedValues "DECL" b.declaredNames.length
        ++ [{ position := .statement, slot := "STACK", declared := b.declaredNames }] }
  | .conditional =>
    { uses := (List.range (b.count "elseif" + 1)).flatMap clauseUses
        ++ if b.mutation.get? "else" = some "1" || b.statements.has "ELSE" then
            [{ position := .statement, slot := "ELSE" }] else [] }
  | .procedure =>
    { before := [b.fieldQuery "NAME" .ofProcedure true names]
      uses := [{ position := .statement, slot := "STACK", declared := b.declaredNames }] }
  | .function =>
    { before := [b.fieldQuery "NAME" .ofProcedure true names]
      uses := [{ position := .statement, slot := "STACK", declared := b.declaredNames },
        { position := .value, slot := "RETURN", declared := b.declaredNames }] }
  | .procedureCall => ValueType.procedureCall.course b names

/-- The course of a visited block: a value may stand as a statement, and a block without a rule in
its position does nothing. -/
def Visit.course (v : Visit) : Course :=
  match v.position, StatementType.ofName? v.block.type, ValueType.ofName? v.block.type with
  | .statement, some type, _ => type.course v.block v.names
  | _, _, some type => type.course v.block v.names
  | _, _, none => {}

end Render

/-! ## Tours -/

namespace Render

/-- What is met in a block and in the blocks below it, for the local names that are known there. -/
structure Tour where
  /-- The block as a value. -/
  value : List String → List Event
  /-- The block and those below it as statements. -/
  chain : List String → List Event

/-- What is met in the slots of a course, between what it asks for before and after. -/
def Course.events (c : Course) (slot : Use → List Event) : List Event :=
  c.before ++ (c.uses.flatMap slot ++ c.after)

/-- What is met in a slot, for blocks whose tours are known. -/
def Use.events (values statements : Record Tour) (names : List String) (u : Use) : List Event :=
  match u.position with
  | .value =>
    match values.get? u.slot with
    | some tour => tour.value (u.declared ++ names)
    | none => []
  | .statement =>
    match statements.get? u.slot with
    | some tour => tour.chain (u.declared ++ names)
    | none => []

end Render

mutual

/-- **The tour of a block.** -/
def Block.tour : Block → Tour
  | .mk type id fields values statements next mutation =>
    let events (position : Position) (names : List String) : List Event :=
      let v : Visit := ⟨position, .mk type id fields values statements next mutation, names⟩
      .visit v :: v.course.events (Use.events (slotTours values) (slotTours statements) names)
    { value := events .value
      chain := fun names => events .statement names ++ tourBelow next names }
termination_by structural b => b

/-- The tours of the blocks in slots. -/
def slotTours : List (String × Block) → Record Tour
  | [] => []
  | (slot, child) :: rest => (slot, child.tour) :: slotTours rest
termination_by structural slots => slots

/-- The tour of the chain below a block. -/
def tourBelow : Option Block → List String → List Event
  | none => fun _ => []
  | some below => below.tour.chain
termination_by structural below => below

end

/-- **The tour of a forest**: its chains one after the other, where no local names are known. -/
def Forest.tour (forest : Forest) : List Event := forest.flatMap fun b => b.tour.chain []

/-- The blocks that are visited, in order. -/
def Forest.visits (forest : Forest) : List Visit := (Forest.tour forest).filterMap Event.visit?

/-! ## Tours step by step -/

/-- What is met in a slot of a block. -/
def Block.slotEvents (b : Block) (names : List String) (u : Use) : List Event :=
  match u.position with
  | .value =>
    match b.values.get? u.slot with
    | some child => child.tour.value (u.declared ++ names)
    | none => []
  | .statement =>
    match b.statements.get? u.slot with
    | some child => child.tour.chain (u.declared ++ names)
    | none => []

/-- What is met in a block that is visited: the visit, and what its course brings. -/
def Render.Visit.events (v : Visit) : List Event :=
  .visit v :: v.course.events (v.block.slotEvents v.names)

theorem slotTours_eq (slots : Record Block) : slotTours slots = slots.mapValues Block.tour := by
  induction slots with
  | nil => rfl
  | cons entry rest ih => exact congrArg (List.cons (entry.1, entry.2.tour)) ih

theorem Render.Use.events_slotTours (b : Block) (names : List String) (u : Use) :
    u.events (slotTours b.values) (slotTours b.statements) names = b.slotEvents names u := by
  unfold Use.events Block.slotEvents
  rw [slotTours_eq, slotTours_eq, Record.get?_mapValues, Record.get?_mapValues]
  cases u.position with
  | value => cases b.values.get? u.slot <;> rfl
  | statement => cases b.statements.get? u.slot <;> rfl

/-- **A value is visited with its slots**, -/
theorem Block.tour_value : ∀ (b : Block) (names : List String),
    b.tour.value names = Visit.events ⟨.value, b, names⟩
  | .mk type id fields values statements next mutation, names => by
      rw [Visit.events, ← funext (Use.events_slotTours _ names)]
      rfl

/-- …**and a statement with its slots and what stands below.** -/
theorem Block.tour_chain : ∀ (b : Block) (names : List String),
    b.tour.chain names = Visit.events ⟨.statement, b, names⟩ ++ tourBelow b.next names
  | .mk type id fields values statements next mutation, names => by
      rw [Visit.events, ← funext (Use.events_slotTours _ names)]
      rfl

/-! ## What visited blocks ask for -/

/-- What a block asks for by itself, by the name of its type. -/
def Block.demands (b : Block) (names : List String) : List Event :=
  match b.type with
  | "lists_indexOf" | "lists_position_in" => [.helper b.positionKey]
  | "lists_pick_random_item" => [.module "random"]
  | "text_prompt" => [.helper "text_prompt"]
  | "text_segment" => b.segmentEnd?.toList.map .integer
  | "variables_get" | "variables_set" => [b.fieldQuery "VAR" .ofVariable false names]
  | "lexical_variable_get" | "lexical_variable_set" | "text_append" =>
    [.query b.lexicalQuery names (.ofSlot b "VAR")]
  | "procedures_callreturn" | "procedures_callnoreturn" =>
    [b.fieldQuery "PROCNAME" .ofProcedure false names]
  | "global_declaration" => [b.fieldQuery "NAME" .ofVariable true names]
  | "procedures_defnoreturn" | "procedures_defreturn" =>
    [b.fieldQuery "NAME" .ofProcedure true names]
  | _ => []

namespace Render

/-- The block has a rule in its position: values have one everywhere, statements where they stand
as such. -/
def Visit.Supported (v : Visit) : Prop :=
  (ValueType.ofName? v.block.type).isSome ∨
    v.position = .statement ∧ (StatementType.ofName? v.block.type).isSome

instance (v : Visit) : Decidable v.Supported := inferInstanceAs (Decidable (_ ∨ _))

/-- No value is a statement. -/
theorem StatementType.ofName?_of_value {name : String} {type : ValueType}
    (h : ValueType.ofName? name = some type) : StatementType.ofName? name = none := by
  unfold ValueType.ofName? at h
  split at h
  all_goals first | rfl | cases h

/-- A block that does not stand as a statement of its own takes the course of its value type. -/
theorem Visit.course_of_value {v : Visit}
    (h : v.position = .value ∨ StatementType.ofName? v.block.type = none) :
    v.course = match ValueType.ofName? v.block.type with
      | some type => type.course v.block v.names
      | none => {} := by
  unfold Visit.course
  rcases h with h | h
  · rw [h]
    cases ValueType.ofName? v.block.type <;> rfl
  · rw [h]
    cases v.position <;> cases ValueType.ofName? v.block.type <;> rfl

/-- What a visited block asks for by itself, before or after its slots. -/
def Visit.own (v : Visit) : List Event := v.course.before ++ v.course.after

theorem ValueType.asks (b : Block) (names : List String) {type : ValueType}
    (h : ValueType.ofName? b.type = some type) :
    (type.course b names).before ++ (type.course b names).after = b.demands names := by
  unfold Block.demands
  unfold ValueType.ofName? at h
  generalize b.type = name at h
  split at h
  all_goals first | (cases h; rfl) | cases h

theorem StatementType.asks (b : Block) (names : List String) {type : StatementType}
    (h : StatementType.ofName? b.type = some type) :
    (type.course b names).before ++ (type.course b names).after = b.demands names := by
  unfold Block.demands
  unfold StatementType.ofName? at h
  generalize b.type = name at h
  split at h
  all_goals first | (cases h; rfl) | cases h

/-- **A block with a rule asks for what its type demands**, -/
theorem Visit.own_of_supported {v : Visit} (h : v.Supported) : v.own = v.block.demands v.names := by
  unfold Visit.own
  cases htype : ValueType.ofName? v.block.type with
  | some type =>
    rw [Visit.course_of_value (Or.inr (StatementType.ofName?_of_value htype)), htype]
    exact ValueType.asks _ _ htype
  | none =>
    obtain ⟨hposition, hstatement⟩ := h.resolve_left (by rw [htype]; decide)
    obtain ⟨type, hstatement⟩ := Option.isSome_iff_exists.mp hstatement
    rw [Visit.course, hposition, hstatement]
    exact StatementType.asks _ _ hstatement

/-- …and one without a rule asks for nothing. -/
theorem Visit.own_of_not_supported {v : Visit} (h : ¬ v.Supported) : v.own = [] := by
  unfold Visit.Supported at h
  rw [not_or, Option.not_isSome_iff_eq_none] at h
  obtain ⟨hvalue, hstatement⟩ := h
  have hcourse : v.course = {} := by
    refine (Visit.course_of_value ?_).trans (by rw [hvalue])
    cases hposition : v.position with
    | value => exact Or.inl rfl
    | statement => exact Or.inr (by simpa [hposition] using hstatement)
  rw [Visit.own, hcourse]
  rfl

end Render

/-! ## Every event belongs to a visit -/

namespace Render

/-- A block asks for no visits by itself. -/
theorem visit_notMem_own (v w : Visit) : Event.visit w ∉ v.own := by
  by_cases h : v.Supported
  · rw [Visit.own_of_supported h]
    unfold Block.demands
    split <;> simp [Block.fieldQuery]
  · rw [Visit.own_of_not_supported h]
    exact List.not_mem_nil

/-- **The events are those of visits**: of blocks among these, each with all that it asks for. -/
structure Accounted (blocks : List Block) (events : List Event) : Prop where
  block : ∀ {v}, .visit v ∈ events → v.block ∈ blocks
  own : ∀ {v}, .visit v ∈ events → v.own ⊆ events
  origin : ∀ {e}, e ∈ events → ∃ v, .visit v ∈ events ∧ (e = .visit v ∨ e ∈ v.own)

namespace Accounted

variable {blocks more : List Block} {events later : List Event}

theorem nil : Accounted blocks [] where
  block := fun h => absurd h List.not_mem_nil
  own := fun h => absurd h List.not_mem_nil
  origin := fun h => absurd h List.not_mem_nil

theorem mono (h : Accounted blocks events) (hsub : blocks ⊆ more) : Accounted more events :=
  { h with block := fun hv => hsub (h.block hv) }

theorem append (h : Accounted blocks events) (hlater : Accounted blocks later) :
    Accounted blocks (events ++ later) where
  block := fun hv => (List.mem_append.mp hv).elim h.block hlater.block
  own := fun hv => (List.mem_append.mp hv).elim
    (fun hv => List.subset_append_of_subset_left _ (h.own hv))
    (fun hv => List.subset_append_of_subset_right _ (hlater.own hv))
  origin := fun he => by
    rcases List.mem_append.mp he with he | he
    · obtain ⟨v, hv, hor⟩ := h.origin he
      exact ⟨v, List.mem_append_left _ hv, hor⟩
    · obtain ⟨v, hv, hor⟩ := hlater.origin he
      exact ⟨v, List.mem_append_right _ hv, hor⟩

theorem flatMap {α : Type} {f : α → List Event} :
    ∀ {l : List α}, (∀ a ∈ l, Accounted blocks (f a)) → Accounted blocks (l.flatMap f)
  | [], _ => nil
  | a :: _, h => (h a List.mem_cons_self).append
      (flatMap fun c hc => h c (List.mem_cons_of_mem _ hc))

end Accounted

/-- **One visit**: if what is met in the slots is accounted for, so is all that is met. -/
theorem Visit.accounted_events (v : Visit)
    (hslots : ∀ u, Accounted v.block.family (v.block.slotEvents v.names u)) :
    Accounted v.block.family v.events := by
  have hinner : Accounted v.block.family (v.course.uses.flatMap (v.block.slotEvents v.names)) :=
    .flatMap fun u _ => hslots u
  have hmem {e : Event} : e ∈ v.events ↔
      e = .visit v ∨ e ∈ v.own ∨ e ∈ v.course.uses.flatMap (v.block.slotEvents v.names) := by
    simp only [Visit.events, Course.events, Visit.own, List.mem_cons, List.mem_append]
    tauto
  have hvisit {w : Visit} (hw : .visit w ∈ v.events) :
      w = v ∨ .visit w ∈ v.course.uses.flatMap (v.block.slotEvents v.names) := by
    rcases hmem.mp hw with heq | hown | hw
    · exact Or.inl (Event.visit.inj heq)
    · exact absurd hown (visit_notMem_own v w)
    · exact Or.inr hw
  refine ⟨fun hw => ?_, fun hw e he => ?_, fun he => ?_⟩
  · rcases hvisit hw with rfl | hw
    · exact Block.mem_family_self _
    · exact hinner.block hw
  · rcases hvisit hw with rfl | hw
    · exact hmem.mpr (Or.inr (Or.inl he))
    · exact hmem.mpr (Or.inr (Or.inr (hinner.own hw he)))
  · rcases hmem.mp he with rfl | hown | he
    · exact ⟨v, hmem.mpr (Or.inl rfl), Or.inl rfl⟩
    · exact ⟨v, hmem.mpr (Or.inl rfl), Or.inr hown⟩
    · obtain ⟨w, hw, hor⟩ := hinner.origin he
      exact ⟨w, hmem.mpr (Or.inr (Or.inr hw)), hor⟩

/-- The tours of a block are accounted for. -/
structure Tour.Accounted (blocks : List Block) (t : Tour) : Prop where
  value : ∀ names, Render.Accounted blocks (t.value names)
  chain : ∀ names, Render.Accounted blocks (t.chain names)

end Render

/-- A visit of a block whose slots hold blocks with tours that are accounted for. -/
theorem Block.accounted_visit (b : Block)
    (hvalues : ∀ entry ∈ b.values, entry.2.tour.Accounted entry.2.family)
    (hstatements : ∀ entry ∈ b.statements, entry.2.tour.Accounted entry.2.family)
    (position : Position) (names : List String) :
    Accounted b.family (Visit.events ⟨position, b, names⟩) := by
  refine Visit.accounted_events ⟨position, b, names⟩ fun u => ?_
  unfold Block.slotEvents
  cases u.position with
  | value =>
    dsimp only
    split
    · rename_i child hchild
      exact ((hvalues _ (Record.mem_of_get? hchild)).value _).mono
        (Block.family_subset_of_value hchild)
    · exact .nil
  | statement =>
    dsimp only
    split
    · rename_i child hchild
      exact ((hstatements _ (Record.mem_of_get? hchild)).chain _).mono
        (Block.family_subset_of_statement hchild)
    · exact .nil

mutual

/-- **What is met on the tours of a block belongs to its family.** -/
theorem Block.accounted_tour : ∀ b : Block, b.tour.Accounted b.family
  | .mk type id fields values statements next mutation => by
      let b : Block := .mk type id fields values statements next mutation
      have hvisit := b.accounted_visit (slots_accounted values) (slots_accounted statements)
      refine ⟨fun names => ?_, fun names => ?_⟩
      · rw [Block.tour_value]
        exact hvisit .value names
      · rw [Block.tour_chain]
        exact (hvisit .statement names).append
          ((below_accounted next names).mono b.familyBelow_subset)
termination_by structural b => b

theorem slots_accounted : ∀ slots : List (String × Block),
    ∀ entry ∈ slots, entry.2.tour.Accounted entry.2.family
  | [] => fun _ h => absurd h List.not_mem_nil
  | (_, child) :: rest => List.forall_mem_cons.mpr ⟨child.accounted_tour, slots_accounted rest⟩
termination_by structural slots => slots

theorem below_accounted : ∀ (below : Option Block) (names : List String),
    Accounted (familyBelow below) (tourBelow below names)
  | none, _ => .nil
  | some below, names => below.accounted_tour.chain names
termination_by structural below => below

end

/-- **A forest's tour is made of visits of its blocks.** -/
theorem Forest.accounted_tour (forest : Forest) :
    Accounted (forest.flatMap Block.family) (Forest.tour forest) :=
  .flatMap fun b hb => (b.accounted_tour.chain []).mono fun _ hc =>
    List.mem_flatMap.mpr ⟨b, hb, hc⟩

theorem Forest.mem_visits {forest : Forest} {v : Visit} :
    v ∈ Forest.visits forest ↔ .visit v ∈ Forest.tour forest := by
  simp only [Forest.visits, List.mem_filterMap, Event.visit?_eq_some, exists_eq_right]

/-- What is met besides visits is what visited blocks ask for. -/
theorem Forest.mem_tour_iff {forest : Forest} {e : Event} :
    e ∈ Forest.tour forest ↔ ∃ v ∈ Forest.visits forest, e = .visit v ∨ e ∈ v.own := by
  simp only [Forest.mem_visits]
  refine ⟨(Forest.accounted_tour forest).origin, ?_⟩
  rintro ⟨v, hv, rfl | he⟩
  · exact hv
  · exact (Forest.accounted_tour forest).own hv he

end Jigsaw
