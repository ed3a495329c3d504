import Jigsaw.Block.Load
import Jigsaw.Proofs.Block.Record

/-!
# Proofs/Block/Acceptance — which element trees hold a workspace

Not every element of a tree is looked at.  Those that are, the effective ones, are the blocks at the
root level and, from there on, what fills the slots of effective elements: the first block of a slot
or else its first shadow.  A tree holds a workspace exactly if its root may be one, every effective
element has a type, and every field and slot of it has a name (`ofElement_accepts_exactly`).  What
fills a slot and is overwritten later counts like everything else.

Loading is followed once, on success and on failure at the same time: `Yields P Q` says that an
outcome satisfies `P` and that an error satisfies `Q`.
-/

namespace Jigsaw

open Xml (Element)

namespace Load

/-! ## Effective elements -/

/-- The attribute is there, and not empty. -/
def Given (e : Element) (name : String) : Prop := ∃ text, e.attribute? name = some text ∧ text ≠ ""

/-- The tags of elements that need a name. -/
def nameTags : List String := ["field", "title", "value", "statement"]

/-- The tags of elements that hold a block. -/
def slotTags : List String := ["value", "statement", "next"]

/-- The tags that a root may have. -/
def rootTags : List String := ["xml", "block", "shadow"]

/-- What fills a slot: its first block, or its first shadow if it has no block. -/
def filler? (slot : Element) : Option Element :=
  (slot.children.find? fun e => e.tag = "block").or
    (slot.children.find? fun e => e.tag = "shadow")

/-- The effective elements at the root level, in document order. -/
def topElements (root : Element) : List Element :=
  if root.tag = "xml" then root.children.filter fun e => e.tag = "block"
  else if root.tag = "block" ∨ root.tag = "shadow" then [root]
  else []

/-- **The effective elements**, where `tops` are those at the root level. -/
inductive Effective (tops : List Element) : Element → Prop
  | top {e : Element} (h : e ∈ tops) : Effective tops e
  | filler {e slot inner : Element} (he : Effective tops e) (hslot : slot ∈ e.children)
      (htag : slot.tag ∈ slotTags) (hinner : filler? slot = some inner) : Effective tops inner

/-- The element has a type, and its fields and slots have names. -/
structure Complete (e : Element) : Prop where
  typed : Given e "type"
  named : ∀ child ∈ e.children, child.tag ∈ nameTags → Given child "name"

/-- **The defects of structure**, and the errors that report them. -/
inductive Defect (tops : List Element) : LoadError → Prop
  | type {e : Element} (he : Effective tops e) (h : ¬ Given e "type") : Defect tops .missingType
  | name {e child : Element} {type : String} (he : Effective tops e)
      (htype : e.attribute? "type" = some type) (hchild : child ∈ e.children)
      (htag : child.tag ∈ nameTags) (h : ¬ Given child "name") :
      Defect tops (.missingName child.tag type)

theorem Effective.mono {tops more : List Element} {e : Element} (h : Effective tops e)
    (hsub : ∀ t ∈ tops, Effective more t) : Effective more e := by
  induction h with
  | top h => exact hsub _ h
  | filler _ hslot htag hinner ih => exact .filler ih hslot htag hinner

theorem Defect.mono {tops more : List Element} {x : LoadError} (h : Defect tops x)
    (hsub : ∀ t ∈ tops, Effective more t) : Defect more x := by
  cases h with
  | type he h => exact .type (he.mono hsub) h
  | name he htype hchild htag h => exact .name (he.mono hsub) htype hchild htag h

/-- What is effective below an element is the element or effective below a filler of a slot. -/
theorem Effective.cases_single {e d : Element} (h : Effective [e] d) :
    d = e ∨ ∃ slot ∈ e.children, slot.tag ∈ slotTags ∧
      ∃ inner, filler? slot = some inner ∧ Effective [inner] d := by
  induction h with
  | top h => exact Or.inl (List.mem_singleton.mp h)
  | @filler e' slot inner _ hslot htag hinner ih =>
    right
    rcases ih with rfl | ⟨first, hfirst, htag', outer, houter, hwithin⟩
    · exact ⟨slot, hslot, htag, inner, hinner, .top (List.mem_singleton_self _)⟩
    · exact ⟨first, hfirst, htag', outer, houter, .filler hwithin hslot htag hinner⟩

theorem Effective.exists_top {tops : List Element} {e : Element} (h : Effective tops e) :
    ∃ t ∈ tops, Effective [t] e := by
  induction h with
  | top h => exact ⟨_, h, .top (List.mem_singleton_self _)⟩
  | filler _ hslot htag hinner ih =>
    obtain ⟨t, ht, hwithin⟩ := ih
    exact ⟨t, ht, .filler hwithin hslot htag hinner⟩

/-! ## Blocks with names -/

end Load

/-- The block has a type, its fields and slots have names, and so it is for all blocks in it and
below it. -/
inductive Block.Named : Block → Prop
  | mk {type id : String} {fields : Record String} {values statements : Record Block}
      {next : Option Block} {mutation : Record String} (htype : type ≠ "")
      (hfields : ∀ entry ∈ fields, entry.1 ≠ "") (hvalues : ∀ entry ∈ values, entry.1 ≠ "")
      (hstatements : ∀ entry ∈ statements, entry.1 ≠ "")
      (hinValues : ∀ entry ∈ values, entry.2.Named)
      (hinStatements : ∀ entry ∈ statements, entry.2.Named) (hbelow : ∀ b ∈ next, b.Named) :
      Named (.mk type id fields values statements next mutation)

namespace Load

/-- A part with a name where it needs one, and with blocks that have names. -/
def Part.Named : Part → Prop
  | .mutation _ | .other => True
  | .field name _ => name ≠ ""
  | .value name filling | .statement name filling => name ≠ "" ∧ ∀ b ∈ filling, b.Named
  | .next filling => ∀ b ∈ filling, b.Named

/-- A slot that is filled keeps its record's names in order. -/
theorem fill_named {name : String} {filling : Option Block} {slots : Record Block}
    (hname : name ≠ "") (hfilling : ∀ b ∈ filling, b.Named)
    (hslots : ∀ entry ∈ slots, entry.1 ≠ "" ∧ entry.2.Named) :
    ∀ entry ∈ fill name filling slots, entry.1 ≠ "" ∧ entry.2.Named := by
  cases filling with
  | none => exact hslots
  | some b =>
    intro entry hentry
    rcases Record.mem_put hentry with rfl | hentry
    · exact ⟨hname, hfilling b rfl⟩
    · exact hslots entry hentry

/-- **One more part with names leaves a block with names.** -/
theorem addPart_named {b : Block} (hb : b.Named) {part : Part} (hpart : part.Named) :
    (addPart b part).Named := by
  obtain ⟨htype, hfields, hvalues, hstatements, hinValues, hinStatements, hbelow⟩ := hb
  cases part with
  | mutation attributes =>
    exact ⟨htype, hfields, hvalues, hstatements, hinValues, hinStatements, hbelow⟩
  | field name text =>
    refine ⟨htype, fun entry hentry => ?_, hvalues, hstatements, hinValues, hinStatements, hbelow⟩
    rcases Record.mem_put hentry with rfl | hentry
    · exact hpart
    · exact hfields entry hentry
  | value name filling =>
    have hfill := fill_named hpart.1 hpart.2 fun entry hentry =>
      ⟨hvalues entry hentry, hinValues entry hentry⟩
    exact ⟨htype, hfields, fun entry hentry => (hfill entry hentry).1, hstatements,
      fun entry hentry => (hfill entry hentry).2, hinStatements, hbelow⟩
  | statement name filling =>
    have hfill := fill_named hpart.1 hpart.2 fun entry hentry =>
      ⟨hstatements entry hentry, hinStatements entry hentry⟩
    exact ⟨htype, hfields, hvalues, fun entry hentry => (hfill entry hentry).1, hinValues,
      fun entry hentry => (hfill entry hentry).2, hbelow⟩
  | next filling =>
    refine ⟨htype, hfields, hvalues, hstatements, hinValues, hinStatements, fun b hb => ?_⟩
    cases filling with
    | none => exact hbelow b hb
    | some below => exact hpart b hb
  | other => exact ⟨htype, hfields, hvalues, hstatements, hinValues, hinStatements, hbelow⟩

theorem foldl_addPart_named {parts : List Part} (hparts : ∀ part ∈ parts, part.Named) {b : Block}
    (hb : b.Named) : (parts.foldl addPart b).Named := by
  induction parts generalizing b with
  | nil => exact hb
  | cons part rest ih =>
    exact ih (fun p hp => hparts p (List.mem_cons_of_mem part hp))
      (addPart_named hb (hparts part List.mem_cons_self))

/-- Parts change neither the type of a block nor its id. -/
theorem foldl_addPart_type (parts : List Part) (b : Block) :
    (parts.foldl addPart b).type = b.type ∧ (parts.foldl addPart b).id = b.id := by
  induction parts generalizing b with
  | nil => exact ⟨rfl, rfl⟩
  | cons part rest ih =>
    obtain ⟨htype, hid⟩ := ih (addPart b part)
    rw [List.foldl_cons, htype, hid]
    cases b
    cases part <;> exact ⟨rfl, rfl⟩

/-! ## Success and failure together -/

/-- The result satisfies `P`, or it is an error that satisfies `Q`. -/
inductive Yields {α : Type} (P : α → Prop) (Q : LoadError → Prop) : Except LoadError α → Prop
  | ok {a : α} (h : P a) : Yields P Q (.ok a)
  | error {x : LoadError} (h : Q x) : Yields P Q (.error x)

namespace Yields

variable {α β : Type} {P R : α → Prop} {Q S : LoadError → Prop} {m : Except LoadError α}

theorem bind {f : α → Except LoadError β} {R : β → Prop} (hm : Yields P Q m)
    (hf : ∀ a, P a → Yields R Q (f a)) : Yields R Q (m >>= f) := by
  cases hm with
  | ok h => exact hf _ h
  | error h => exact .error h

theorem imp (hm : Yields P Q m) (hP : ∀ a, P a → R a) (hQ : ∀ x, Q x → S x) : Yields R S m := by
  cases hm with
  | ok h => exact .ok (hP _ h)
  | error h => exact .error (hQ _ h)

end Yields

theorem required_yields (e : Element) (name : String) (error : LoadError) :
    Yields (fun text => e.attribute? name = some text ∧ text ≠ "")
      (fun x => x = error ∧ ¬ Given e name) (required e name error) := by
  unfold required
  cases h : e.attribute? name with
  | none =>
    refine .error ⟨rfl, ?_⟩
    rintro ⟨text, htext, -⟩
    cases h.symm.trans htext
  | some text =>
    dsimp only
    split
    · refine .error ⟨rfl, ?_⟩
      rintro ⟨other, hother, hne⟩
      cases h.symm.trans hother
      exact hne ‹_›
    · exact .ok ⟨rfl, ‹_›⟩

/-! ## One element -/

/-- Every element that is effective from this one on is complete. -/
def AllComplete (e : Element) : Prop := ∀ d, Effective [e] d → Complete d

/-- A child with a name where it needs one, and filled with complete elements. -/
structure Sound (child : Element) : Prop where
  named : child.tag ∈ nameTags → Given child "name"
  filled : child.tag ∈ slotTags → ∀ inner, filler? child = some inner → AllComplete inner

/-- The error reports a defect of this child of an element with a type, or of what fills it. -/
inductive Faulty (type : String) (child : Element) : LoadError → Prop
  | unnamed (htag : child.tag ∈ nameTags) (h : ¬ Given child "name") :
      Faulty type child (.missingName child.tag type)
  | inside {inner : Element} {x : LoadError} (htag : child.tag ∈ slotTags)
      (hinner : filler? child = some inner) (h : Defect [inner] x) : Faulty type child x

/-- An element writes down a block of its own type and id, with names everywhere. -/
structure Writes (e : Element) (b : Block) : Prop where
  type : e.attribute? "type" = some b.type
  id : b.id = (e.attribute? "id").getD ""
  named : b.Named

theorem AllComplete.intro {e : Element} (he : Complete e) (h : ∀ child ∈ e.children, Sound child) :
    AllComplete e := by
  intro d hd
  rcases hd.cases_single with rfl | ⟨slot, hslot, htag, inner, hinner, hwithin⟩
  · exact he
  · exact (h slot hslot).filled htag inner hinner d hwithin

theorem Faulty.defect {e child : Element} {type : String} {x : LoadError}
    (h : Faulty type child x) (htype : e.attribute? "type" = some type)
    (hchild : child ∈ e.children) : Defect [e] x := by
  have hself : Effective [e] e := .top (List.mem_singleton_self e)
  cases h with
  | unnamed htag h => exact .name hself htype hchild htag h
  | inside htag hinner h =>
    refine h.mono fun t ht => ?_
    rw [List.mem_singleton.mp ht]
    exact .filler hself hchild htag hinner

theorem firstOf_eq (tag : String) (es : List Element) :
    firstOf tag es = (es.find? fun e => e.tag = tag).map block := by
  induction es with
  | nil => rfl
  | cons e rest ih =>
    rw [firstOf, ih, List.find?_cons]
    by_cases h : e.tag = tag
    · rw [if_pos h, decide_eq_true h, Option.map_some]
    · rw [if_neg h, decide_eq_false h]

/-- A slot is filled with what its filler writes down. -/
theorem filling_eq (slot : Element) :
    filling (firstOf "block" slot.children) (firstOf "shadow" slot.children) =
      match filler? slot with
      | some inner => (block inner).map some
      | none => .ok none := by
  rw [firstOf_eq, firstOf_eq, filling, ← Option.map_or, filler?]
  cases (slot.children.find? fun e => e.tag = "block").or
    (slot.children.find? fun e => e.tag = "shadow") <;> rfl

/-- What loading the fillers of a slot has to do. -/
def Fills (slot : Element) : Prop :=
  ∀ inner, filler? slot = some inner →
    Yields (fun b => Writes inner b ∧ AllComplete inner) (Defect [inner]) (block inner)

theorem filling_yields {slot : Element} (type : String) (htag : slot.tag ∈ slotTags)
    (ih : Fills slot) :
    Yields (fun f => (∀ b ∈ f, b.Named) ∧ ∀ inner, filler? slot = some inner → AllComplete inner)
      (Faulty type slot)
      (filling (firstOf "block" slot.children) (firstOf "shadow" slot.children)) := by
  rw [filling_eq]
  cases h : filler? slot with
  | none => exact .ok ⟨fun b hb => absurd hb (Option.not_mem_none b), fun inner hi => nomatch hi⟩
  | some inner =>
    refine Yields.bind ((ih inner h).imp (fun _ hb => hb) fun x hx => .inside htag h hx) ?_
    rintro b ⟨hb, hcomplete⟩
    refine .ok ⟨?_, ?_⟩
    · rintro c ⟨⟩
      exact hb.named
    · rintro d ⟨⟩
      exact hcomplete

theorem name_yields {child : Element} (type : String) (htag : child.tag ∈ nameTags) :
    Yields (fun name => name ≠ "" ∧ Given child "name") (Faulty type child)
      (required child "name" (.missingName child.tag type)) := by
  refine (required_yields child "name" _).imp (fun name h => ⟨h.2, name, h⟩) ?_
  rintro x ⟨rfl, h⟩
  exact .unnamed htag h

/-- A slot with a name, whatever is made of its name and filling. -/
theorem slot_yields {child : Element} (type : String) (hname : child.tag ∈ nameTags)
    (hslot : child.tag ∈ slotTags) (ih : Fills child) {make : String → Option Block → Part}
    (hmake : ∀ name filling, name ≠ "" → (∀ b ∈ filling, b.Named) → (make name filling).Named) :
    Yields (fun part => part.Named ∧ Sound child) (Faulty type child)
      (do
        let name ← required child "name" (.missingName child.tag type)
        let filling ← filling (firstOf "block" child.children) (firstOf "shadow" child.children)
        .ok (make name filling)) := by
  refine (name_yields type hname).bind fun name h => ?_
  refine (filling_yields type hslot ih).bind fun filling hfilling => .ok ?_
  exact ⟨hmake name filling h.1 hfilling.1, fun _ => h.2, fun _ => hfilling.2⟩

/-- **A child becomes a part with names if it is sound, and an error that reports its fault
otherwise.** -/
theorem part_yields (type : String) (child : Element) (ih : Fills child) :
    Yields (fun part => part.Named ∧ Sound child) (Faulty type child) (part type child) := by
  have hfield (hname : child.tag ∈ nameTags) (hslot : child.tag ∉ slotTags) :
      Yields (fun part : Part => part.Named ∧ Sound child) (Faulty type child)
        (do
          let name ← required child "name" (.missingName child.tag type)
          .ok (.field name child.text)) := by
    refine (name_yields type hname).bind fun name h => .ok ?_
    exact ⟨h.1, fun _ => h.2, fun htag => absurd htag hslot⟩
  -- neither a field nor a slot: there is nothing to check
  have hplain {p : Part} (hp : p.Named) (hname : child.tag ∉ nameTags)
      (hslot : child.tag ∉ slotTags) :
      Yields (fun part => part.Named ∧ Sound child) (Faulty type child) (.ok p) :=
    .ok ⟨hp, fun htag => absurd htag hname, fun htag => absurd htag hslot⟩
  have hmem {t : String} {tags : List String} (h : child.tag = t) (ht : t ∈ tags) :
      child.tag ∈ tags := h ▸ ht
  have hnot {t : String} {tags : List String} (h : child.tag = t) (ht : t ∉ tags) :
      child.tag ∉ tags := h ▸ ht
  obtain ⟨name, attributes, text, children⟩ := child
  rw [part]
  split
  · exact hplain trivial (hnot ‹_› (by decide)) (hnot ‹_› (by decide))
  · exact hfield (hmem ‹_› (by decide)) (hnot ‹_› (by decide))
  · exact hfield (hmem ‹_› (by decide)) (hnot ‹_› (by decide))
  · exact slot_yields type (hmem ‹_› (by decide)) (hmem ‹_› (by decide)) ih
      fun _ _ hname hfilling => ⟨hname, hfilling⟩
  · exact slot_yields type (hmem ‹_› (by decide)) (hmem ‹_› (by decide)) ih
      fun _ _ hname hfilling => ⟨hname, hfilling⟩
  · refine (filling_yields type (hmem ‹_› (by decide)) ih).bind fun filling h => .ok ?_
    exact ⟨h.1, fun hname => absurd hname (hnot ‹_› (by decide)), fun _ => h.2⟩
  · refine hplain trivial ?_ ?_
    · simp only [nameTags, List.mem_cons, List.not_mem_nil, or_false, not_or]
      exact ⟨‹_›, ‹_›, ‹_›, ‹_›⟩
    · simp only [slotTags, List.mem_cons, List.not_mem_nil, or_false, not_or]
      exact ⟨‹_›, ‹_›, ‹_›⟩

theorem parts_yields (type : String) : ∀ es : List Element, (∀ child ∈ es, Fills child) →
    Yields (fun parts => (∀ part ∈ parts, part.Named) ∧ ∀ child ∈ es, Sound child)
      (fun x => ∃ child ∈ es, Faulty type child x) (parts type es)
  | [], _ => .ok ⟨fun _ h => absurd h List.not_mem_nil, fun _ h => absurd h List.not_mem_nil⟩
  | e :: rest, ih => by
      rw [parts]
      have hfirst := part_yields type e (ih e List.mem_cons_self)
      have hrest := parts_yields type rest fun child h => ih child (List.mem_cons_of_mem e h)
      refine (hfirst.imp (fun _ h => h) fun x h => ⟨e, List.mem_cons_self, h⟩).bind ?_
      rintro part ⟨hpart, hsound⟩
      refine (hrest.imp (fun _ h => h) ?_).bind ?_
      · rintro x ⟨child, hchild, h⟩
        exact ⟨child, List.mem_cons_of_mem e hchild, h⟩
      · rintro parts ⟨hparts, hsounds⟩
        exact .ok ⟨List.forall_mem_cons.mpr ⟨hpart, hparts⟩,
          List.forall_mem_cons.mpr ⟨hsound, hsounds⟩⟩

theorem sizeOf_lt_of_mem_children {e child : Element} (h : child ∈ e.children) :
    sizeOf child < sizeOf e := by
  obtain ⟨name, attributes, text, children⟩ := e
  have hlt : sizeOf child < sizeOf children := List.sizeOf_lt_of_mem h
  rw [Element.mk.sizeOf_spec]
  omega

theorem mem_children_of_filler? {slot inner : Element} (h : filler? slot = some inner) :
    inner ∈ slot.children := by
  rcases Option.or_eq_some_iff.mp h with h | ⟨-, h⟩
  · exact List.mem_of_find?_eq_some h
  · exact List.mem_of_find?_eq_some h

/-- **An element writes down a block if all that is effective from it on is complete**, and fails on
a defect that is there otherwise. -/
theorem block_yields (e : Element) :
    Yields (fun b => Writes e b ∧ AllComplete e) (Defect [e]) (block e) := by
  -- the fillers of the slots are smaller elements, two levels down
  have ih : ∀ child ∈ e.children, Fills child := fun child _ inner _ => block_yields inner
  have htype : Yields (fun type => e.attribute? "type" = some type ∧ type ≠ "") (Defect [e])
      (required e "type" .missingType) := by
    refine (required_yields e "type" _).imp (fun _ h => h) ?_
    rintro x ⟨rfl, h⟩
    exact .type (.top (List.mem_singleton_self e)) h
  obtain ⟨name, attributes, text, children⟩ := e
  rw [block]
  refine htype.bind fun type h => ?_
  refine ((parts_yields type children ih).imp (fun _ h => h) ?_).bind ?_
  · rintro x ⟨child, hchild, hfault⟩
    exact hfault.defect h.1 hchild
  · rintro parts ⟨hparts, hsound⟩
    refine .ok ⟨⟨?_, ?_, ?_⟩, ?_⟩
    · rw [(foldl_addPart_type parts _).1]
      exact h.1
    · exact (foldl_addPart_type parts _).2
    · refine foldl_addPart_named hparts (.mk h.2 ?_ ?_ ?_ ?_ ?_ ?_) <;> intro _ hmem <;> cases hmem
    · exact .intro ⟨⟨type, h⟩, fun child hchild => (hsound child hchild).named⟩ hsound
termination_by sizeOf e
decreasing_by
  exact Nat.lt_trans (sizeOf_lt_of_mem_children (mem_children_of_filler? ‹_›))
    (sizeOf_lt_of_mem_children ‹_›)

theorem mapM_block_yields : ∀ es : List Element,
    Yields (fun forest => List.Forall₂ Writes es forest ∧ ∀ e ∈ es, AllComplete e) (Defect es)
      (es.mapM block)
  | [] => .ok ⟨.nil, fun _ h => absurd h List.not_mem_nil⟩
  | e :: rest => by
      rw [List.mapM_cons]
      refine ((block_yields e).imp (fun _ h => h) fun x h => h.mono ?_).bind ?_
      · intro t ht
        exact .top (List.mem_cons.mpr (Or.inl (List.mem_singleton.mp ht)))
      rintro b ⟨hb, hcomplete⟩
      refine ((mapM_block_yields rest).imp (fun _ h => h) fun x h => h.mono ?_).bind ?_
      · exact fun t ht => .top (List.mem_cons_of_mem e ht)
      rintro forest ⟨hforest, hrest⟩
      exact .ok ⟨.cons hb hforest, List.forall_mem_cons.mpr ⟨hcomplete, hrest⟩⟩

/-! ## A whole tree -/

theorem Defect.position {tops : List Element} {x : LoadError} (h : Defect tops x) :
    x.position = ⟨0, 0⟩ := by
  cases h <;> rfl

theorem Defect.not_complete {tops : List Element} {x : LoadError} (h : Defect tops x) :
    ∃ e, Effective tops e ∧ ¬ Complete e := by
  cases h with
  | type he h => exact ⟨_, he, fun hc => h hc.typed⟩
  | name he _ hchild htag h => exact ⟨_, he, fun hc => h (hc.named _ hchild htag)⟩

/-- The blocks at the root level are loaded one by one. -/
theorem ofElement_eq {root : Element} (h : root.tag ∈ rootTags) :
    Forest.ofElement root = (topElements root).mapM block := by
  unfold Forest.ofElement topElements
  split
  · rw [if_pos ‹_›]
    rfl
  · rw [if_neg (by rw [‹root.tag = _›]; decide), if_pos (Or.inl ‹_›)]
    rw [List.mapM_cons, List.mapM_nil]
    rfl
  · rw [if_neg (by rw [‹root.tag = _›]; decide), if_pos (Or.inr ‹_›)]
    rw [List.mapM_cons, List.mapM_nil]
    rfl
  · simp only [rootTags, List.mem_cons, List.not_mem_nil, or_false] at h
    rcases h with h | h | h
    all_goals exact absurd h ‹_›

theorem ofElement_of_root {root : Element} (h : root.tag ∉ rootTags) :
    Forest.ofElement root = .error (.unexpectedRoot root.tag) := by
  unfold Forest.ofElement
  split
  all_goals first | rfl | exact absurd (by rw [‹root.tag = _›]; decide) h

/-- **Loading accepts exactly the complete trees.**  It succeeds if and only if the root may be one
and every effective element is complete.  Any failure reports a defect that the tree has, and is
placed at zero.  On success there is one top-level block for each effective element at the root
level, in document order, and all blocks have types and names throughout. -/
theorem ofElement_accepts_exactly (root : Element) :
    ((∃ forest, Forest.ofElement root = .ok forest) ↔
      root.tag ∈ rootTags ∧ ∀ e, Effective (topElements root) e → Complete e) ∧
    (∀ x, Forest.ofElement root = .error x → x.position = ⟨0, 0⟩ ∧
      (root.tag ∉ rootTags ∧ x = .unexpectedRoot root.tag ∨ Defect (topElements root) x)) ∧
    ∀ forest, Forest.ofElement root = .ok forest →
      List.Forall₂ Writes (topElements root) forest := by
  by_cases hroot : root.tag ∈ rootTags
  · have h := mapM_block_yields (topElements root)
    rw [← ofElement_eq hroot] at h
    generalize Forest.ofElement root = loaded at h
    cases h with
    | ok h =>
      refine ⟨⟨fun _ => ⟨hroot, fun e he => ?_⟩, fun _ => ⟨_, rfl⟩⟩, nofun, ?_⟩
      · obtain ⟨top, htop, hwithin⟩ := he.exists_top
        exact h.2 top htop e hwithin
      · rintro forest ⟨⟩
        exact h.1
    | error h =>
      refine ⟨⟨nofun, fun hall => ?_⟩, ?_, nofun⟩
      · obtain ⟨e, he, hnot⟩ := h.not_complete
        exact absurd (hall.2 e he) hnot
      · rintro x ⟨⟩
        exact ⟨h.position, Or.inr h⟩
  · rw [ofElement_of_root hroot]
    refine ⟨⟨nofun, fun h => absurd h.1 hroot⟩, ?_, nofun⟩
    rintro x ⟨⟩
    exact ⟨rfl, Or.inl ⟨hroot, rfl⟩⟩

/-- An element without text. -/
def plainElement (tag : String) (attributes : List (String × String)) (children : List Element) :
    Element :=
  .mk (.plain tag) (attributes.map fun a => (.plain a.1, a.2)) "" children

/-- A workspace whose one block has a slot that is filled twice, first with `inner`. -/
def filledTwice (inner : Element) : Element :=
  plainElement "xml" [] [plainElement "block" [("type", "logic_negate")]
    [plainElement "value" [("name", "BOOL")] [inner],
      plainElement "value" [("name", "BOOL")]
        [plainElement "shadow" [("type", "logic_boolean")] []]]]

/-- A filling that is overwritten has to be complete all the same: without a type the workspace is
refused, with one the filling is only gone from the block. -/
theorem overwritten_filler_counts :
    (¬ ∃ forest, Forest.ofElement (filledTwice (plainElement "block" [] [])) = .ok forest) ∧
    ∃ forest,
      Forest.ofElement (filledTwice (plainElement "block" [("type", "text")] [])) = .ok forest ∧
        List.Forall₂ Writes
          (topElements (filledTwice (plainElement "block" [("type", "text")] []))) forest := by
  refine ⟨fun h => ?_, _, rfl, (ofElement_accepts_exactly _).2.2 _ rfl⟩
  obtain ⟨-, hall⟩ := (ofElement_accepts_exactly _).1.mp h
  have hinner : Effective (topElements (filledTwice (plainElement "block" [] [])))
      (plainElement "block" [] []) :=
    .filler (.top List.mem_cons_self) List.mem_cons_self (by decide) rfl
  obtain ⟨text, htext, -⟩ := (hall _ hinner).typed
  cases htext

end Load

end Jigsaw
