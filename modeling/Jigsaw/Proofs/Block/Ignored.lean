import Mathlib.Logic.Relation
import Jigsaw.Proofs.Block.Acceptance

/-!
# Proofs/Block/Ignored — what loading does not look at

    unknown children · what a slot does not select · attributes of blocks · namespaces · empty slots

Six kinds of changes to an element tree leave no trace in the workspace, wherever in the tree they
are made, in whatever number, and whether something comes or goes (`ofElement_eq_of_changes`).  The
outcome is the same forest or the same error.

A change is followed upwards.  Loading sees an element from its parent in three ways: by its tag, as
a part of a block, and as a block that fills a slot or stands at the root level.  Elements that
agree in these are `Alike`, and putting one for the other leaves their parents alike.
-/

namespace Jigsaw

open Xml (Element ExpandedName)

namespace Load

/-! ## Changes -/

/-- The tags of elements that are blocks. -/
def blockTags : List String := ["block", "shadow"]

/-- The tags of elements that are parts of a block. -/
def partTags : List String := ["mutation", "field", "title", "value", "statement", "next"]

/-- The attributes of a block that count. -/
def blockAttributes : List String := ["type", "id"]

/-- **A change without consequence**: something comes in, or is replaced, at one place of a tree. -/
inductive Change : Element → Element → Prop
  /-- A child that is no part comes into a block. -/
  | stray {name : ExpandedName} {attributes : List (ExpandedName × String)} {text : String}
      (before after : List Element) {child : Element} (hblock : name.stem ∈ blockTags)
      (hchild : child.tag ∉ partTags) :
      Change (.mk name attributes text (before ++ after))
        (.mk name attributes text (before ++ child :: after))
  /-- A slot that holds neither block nor shadow, and has a name if it needs one, comes into a
  block. -/
  | emptySlot {name : ExpandedName} {attributes : List (ExpandedName × String)} {text : String}
      (before after : List Element) {slot : Element} (hblock : name.stem ∈ blockTags)
      (hslot : slot.tag ∈ slotTags) (hempty : filler? slot = none)
      (hname : slot.tag ∈ nameTags → Given slot "name") :
      Change (.mk name attributes text (before ++ after))
        (.mk name attributes text (before ++ slot :: after))
  /-- A slot gets other children, of which it selects the same. -/
  | unselected {name : ExpandedName} {attributes : List (ExpandedName × String)} {text : String}
      {children others : List Element} (hslot : name.stem ∈ slotTags)
      (hfiller : filler? (.mk name attributes text children)
        = filler? (.mk name attributes text others)) :
      Change (.mk name attributes text children) (.mk name attributes text others)
  /-- A block gets other attributes, of which those that count are the same. -/
  | attributes {name : ExpandedName} {attributes others : List (ExpandedName × String)}
      {text : String} {children : List Element} (hblock : name.stem ∈ blockTags)
      (hsame : ∀ key ∈ blockAttributes, attributes.lookup (.plain key)
        = others.lookup (.plain key)) :
      Change (.mk name attributes text children) (.mk name others text children)
  /-- A name gets another namespace. -/
  | space {stem : String} {uri other : Option String}
      {attributes : List (ExpandedName × String)} {text : String} {children : List Element} :
      Change (.mk ⟨uri, stem⟩ attributes text children)
        (.mk ⟨other, stem⟩ attributes text children)
  /-- A child that is no block comes into a workspace. -/
  | topLevel {name : ExpandedName} {attributes : List (ExpandedName × String)} {text : String}
      (before after : List Element) {child : Element} (hroot : name.stem = "xml")
      (hchild : child.tag ≠ "block") :
      Change (.mk name attributes text (before ++ after))
        (.mk name attributes text (before ++ child :: after))
  /-- A child is changed. -/
  | inside {name : ExpandedName} {attributes : List (ExpandedName × String)} {text : String}
      (before after : List Element) {child changed : Element} (h : Change child changed) :
      Change (.mk name attributes text (before ++ child :: after))
        (.mk name attributes text (before ++ changed :: after))

/-! ## Parts, by their tags -/

/-- The name that a field or a slot has to have. -/
def nameOf (type : String) (e : Element) : Except LoadError String :=
  required e "name" (.missingName e.tag type)

/-- What fills a slot element. -/
def fillingOf (slot : Element) : Except LoadError (Option Block) :=
  filling (firstOf "block" slot.children) (firstOf "shadow" slot.children)

section Part

variable {type : String} {e : Element}

theorem part_of_mutation (h : e.tag = "mutation") :
    part type e = .ok (.mutation (mutation e)) := by
  obtain ⟨⟨space, stem⟩, attributes, text, children⟩ := e
  obtain rfl : stem = "mutation" := h
  rfl

theorem part_of_field (h : e.tag = "field" ∨ e.tag = "title") :
    part type e = nameOf type e >>= fun name => .ok (.field name e.text) := by
  obtain ⟨⟨space, stem⟩, attributes, text, children⟩ := e
  rcases h with h | h
  · obtain rfl : stem = "field" := h
    rfl
  · obtain rfl : stem = "title" := h
    rfl

theorem part_of_value (h : e.tag = "value") :
    part type e
      = nameOf type e >>= fun name => fillingOf e >>= fun filling => .ok (.value name filling) := by
  obtain ⟨⟨space, stem⟩, attributes, text, children⟩ := e
  obtain rfl : stem = "value" := h
  rfl

theorem part_of_statement (h : e.tag = "statement") :
    part type e = nameOf type e >>= fun name =>
      fillingOf e >>= fun filling => .ok (.statement name filling) := by
  obtain ⟨⟨space, stem⟩, attributes, text, children⟩ := e
  obtain rfl : stem = "statement" := h
  rfl

theorem part_of_next (h : e.tag = "next") :
    part type e = fillingOf e >>= fun filling => .ok (.next filling) := by
  obtain ⟨⟨space, stem⟩, attributes, text, children⟩ := e
  obtain rfl : stem = "next" := h
  rfl

theorem part_of_stray (h : e.tag ∉ partTags) : part type e = .ok .other := by
  obtain ⟨name, attributes, text, children⟩ := e
  rw [part]
  split
  case h_7 => rfl
  all_goals
    rename_i htag
    exact absurd (by rw [htag]; decide) h

end Part

/-- A mutation depends on the attributes and on how many arguments there are. -/
theorem mutation_congr {c d : Element} (hattributes : c.attributes = d.attributes)
    (hargs : (c.children.filter fun e => e.tag = "arg").length
      = (d.children.filter fun e => e.tag = "arg").length) : mutation c = mutation d := by
  have hempty : (c.children.filter fun e => e.tag = "arg").isEmpty
      = (d.children.filter fun e => e.tag = "arg").isEmpty := by
    rw [Bool.eq_iff_iff, List.isEmpty_iff_length_eq_zero, List.isEmpty_iff_length_eq_zero, hargs]
  unfold mutation
  simp only [hattributes, hempty, hargs]

/-- A part depends on the tag, the name, the text, and what its tag makes of attributes and
children. -/
theorem part_congr (type : String) {c d : Element} (htag : c.tag = d.tag)
    (hname : c.attribute? "name" = d.attribute? "name") (htext : c.text = d.text)
    (hmutation : c.tag = "mutation" → mutation c = mutation d)
    (hfilling : c.tag ∈ slotTags → fillingOf c = fillingOf d) : part type c = part type d := by
  have hnames : nameOf type c = nameOf type d := by
    rw [nameOf, nameOf, required, required, hname, htag]
  by_cases hpart : c.tag ∈ partTags
  · simp only [partTags, List.mem_cons, List.not_mem_nil, or_false] at hpart
    rcases hpart with h | h | h | h | h | h
    · rw [part_of_mutation h, part_of_mutation (htag ▸ h), hmutation h]
    · rw [part_of_field (.inl h), part_of_field (.inl (htag ▸ h)), hnames, htext]
    · rw [part_of_field (.inr h), part_of_field (.inr (htag ▸ h)), hnames, htext]
    · rw [part_of_value h, part_of_value (htag ▸ h), hnames, hfilling (h ▸ by decide)]
    · rw [part_of_statement h, part_of_statement (htag ▸ h), hnames, hfilling (h ▸ by decide)]
    · rw [part_of_next h, part_of_next (htag ▸ h), hfilling (h ▸ by decide)]
  · rw [part_of_stray hpart, part_of_stray (htag ▸ hpart)]

/-! ## Blocks, one child at a time -/

/-- The block that elements make out of a block, as its further parts. -/
def extended (type : String) (b : Block) (es : List Element) : Except LoadError Block :=
  (parts type es).map (·.foldl addPart b)

theorem extended_cons (type : String) (b : Block) (e : Element) (es : List Element) :
    extended type b (e :: es) = part type e >>= fun p => extended type (addPart b p) es := by
  unfold extended
  rw [parts]
  cases part type e with
  | error x => rfl
  | ok p => cases parts type es <;> rfl

/-- A block starts with a type and an id, and its children extend it. -/
theorem block_eq (e : Element) :
    block e = required e "type" .missingType >>= fun type =>
      extended type (.mk type ((e.attribute? "id").getD "") [] [] [] none []) e.children := by
  obtain ⟨name, attributes, text, children⟩ := e
  rw [block]
  refine bind_congr fun type => ?_
  rw [extended, Element.children]
  cases parts type children <;> rfl

/-- The element contributes a part that leaves every block as it is. -/
def Idle (e : Element) : Prop :=
  ∀ type, ∃ p, part type e = .ok p ∧ ∀ b, addPart b p = b

theorem idle_of_stray {e : Element} (h : e.tag ∉ partTags) : Idle e := fun type =>
  ⟨.other, part_of_stray h, fun b => by cases b; rfl⟩

/-- A slot without a filling contributes nothing, not even where it was filled before. -/
theorem idle_of_emptySlot {slot : Element} (htag : slot.tag ∈ slotTags)
    (hempty : filler? slot = none) (hname : slot.tag ∈ nameTags → Given slot "name") :
    Idle slot := by
  intro type
  have hfilling : fillingOf slot = .ok none := by rw [fillingOf, filling_eq, hempty]
  have hnameOf (h : slot.tag ∈ nameTags) : ∃ name, nameOf type slot = .ok name := by
    obtain ⟨name, hname, hne⟩ := hname h
    exact ⟨name, by rw [nameOf, required, hname]; exact if_neg hne⟩
  simp only [slotTags, List.mem_cons, List.not_mem_nil, or_false] at htag
  rcases htag with h | h | h
  · obtain ⟨name, hname⟩ := hnameOf (h ▸ by decide)
    refine ⟨.value name none, ?_, fun b => by cases b; rfl⟩
    rw [part_of_value h, hname, hfilling]
    rfl
  · obtain ⟨name, hname⟩ := hnameOf (h ▸ by decide)
    refine ⟨.statement name none, ?_, fun b => by cases b; rfl⟩
    rw [part_of_statement h, hname, hfilling]
    rfl
  · refine ⟨.next none, ?_, fun b => by cases b; rfl⟩
    rw [part_of_next h, hfilling]
    rfl

/-- **An idle child may come or go**, between any other children. -/
theorem extended_insert (type : String) {e : Element} (he : Idle e) (before after : List Element)
    (b : Block) :
    extended type b (before ++ after) = extended type b (before ++ e :: after) := by
  induction before generalizing b with
  | nil =>
    obtain ⟨p, hp, hidle⟩ := he type
    rw [List.nil_append, List.nil_append, extended_cons, hp]
    change _ = extended type (addPart b p) after
    rw [hidle]
  | cons first before ih =>
    rw [List.cons_append, List.cons_append, extended_cons, extended_cons]
    exact bind_congr fun p => ih (addPart b p)

/-! ## Alike elements -/

/-- **Elements that loading cannot tell apart**, neither by their tags, nor as parts of a block, nor
as blocks, nor as workspaces. -/
structure Alike (c d : Element) : Prop where
  tag : c.tag = d.tag
  part : ∀ type, part type c = part type d
  block : c.tag ∈ blockTags → block c = block d
  blocks : c.tag = "xml" → blocks c.children = blocks d.children

section Alike

variable {c d : Element} (h : Alike c d) (before after : List Element)

include h

/-- One of the children is replaced by one that is alike: the parts are the same, -/
theorem Alike.extended_eq (type : String) (b : Block) :
    extended type b (before ++ c :: after) = extended type b (before ++ d :: after) := by
  induction before generalizing b with
  | nil =>
    rw [List.nil_append, List.nil_append, extended_cons, extended_cons, h.part]
  | cons first before ih =>
    rw [List.cons_append, List.cons_append, extended_cons, extended_cons]
    exact bind_congr fun p => ih (addPart b p)

/-- …the first block of a kind is the same, -/
theorem Alike.firstOf_eq {tag : String} (htag : tag ∈ blockTags) :
    firstOf tag (before ++ c :: after) = firstOf tag (before ++ d :: after) := by
  induction before with
  | nil =>
    rw [List.nil_append, List.nil_append, firstOf, firstOf, ← h.tag]
    split
    · rw [h.block (by rwa [‹c.tag = tag›])]
    · rfl
  | cons first before ih => rw [List.cons_append, List.cons_append, firstOf, firstOf, ih]

/-- …the children with a tag are as many, -/
theorem Alike.length_filter_eq (tag : String) :
    ((before ++ c :: after).filter fun e => e.tag = tag).length
      = ((before ++ d :: after).filter fun e => e.tag = tag).length := by
  simp only [List.filter_append, List.filter_cons, h.tag, List.length_append]
  split <;> simp

/-- …and so are the blocks of a workspace. -/
theorem Alike.blocks_eq :
    Load.blocks (before ++ c :: after) = Load.blocks (before ++ d :: after) := by
  unfold Load.blocks
  simp only [List.filter_append, List.filter_cons, ← h.tag, decide_eq_true_eq]
  split
  · rw [List.mapM_append, List.mapM_append, List.mapM_cons, List.mapM_cons,
      h.block (by rw [‹c.tag = "block"›]; decide)]
  · rfl

end Alike

theorem ofElement_of_xml {root : Element} (h : root.tag = "xml") :
    Forest.ofElement root = blocks root.children := by
  obtain ⟨⟨space, stem⟩, attributes, text, children⟩ := root
  obtain rfl : stem = "xml" := h
  rfl

theorem ofElement_of_block {root : Element} (h : root.tag ∈ blockTags) :
    Forest.ofElement root = (block root).map ([·]) := by
  obtain ⟨⟨space, stem⟩, attributes, text, children⟩ := root
  simp only [blockTags, List.mem_cons, List.not_mem_nil, or_false] at h
  rcases h with h | h
  · obtain rfl : stem = "block" := h
    rfl
  · obtain rfl : stem = "shadow" := h
    rfl

/-- Elements that are blocks are no parts and no workspaces: they are alike if they load alike. -/
theorem alike_of_block {c d : Element} (htag : c.tag = d.tag) (hc : c.tag ∈ blockTags)
    (hblock : block c = block d) : Alike c d := by
  have htags : ∀ tag ∈ blockTags, tag ∉ partTags ∧ tag ≠ "xml" := by decide
  refine ⟨htag, fun type => ?_, fun _ => hblock, fun hxml => absurd hxml (htags _ hc).2⟩
  rw [part_of_stray (htags _ hc).1, part_of_stray (htag ▸ (htags _ hc).1)]

/-- What stands around a change does not tell it either. -/
theorem Alike.inside {c d : Element} (h : Alike c d) (name : ExpandedName)
    (attributes : List (ExpandedName × String)) (text : String) (before after : List Element) :
    Alike (.mk name attributes text (before ++ c :: after))
      (.mk name attributes text (before ++ d :: after)) where
  tag := rfl
  part := fun type => by
    refine part_congr type rfl rfl rfl (fun _ => ?_) fun _ => ?_
    · exact mutation_congr rfl (h.length_filter_eq before after "arg")
    · exact congrArg₂ filling (h.firstOf_eq before after (by decide))
        (h.firstOf_eq before after (by decide))
  block := fun _ => by
    rw [block_eq, block_eq]
    exact bind_congr fun type => h.extended_eq before after type _
  blocks := fun _ => h.blocks_eq before after

/-- **A change leaves elements alike.** -/
theorem Change.alike {c d : Element} (h : Change c d) : Alike c d := by
  induction h with
  | stray before after hblock hchild =>
    refine alike_of_block rfl hblock ?_
    rw [block_eq, block_eq]
    exact bind_congr fun type => extended_insert type (idle_of_stray hchild) before after _
  | emptySlot before after hblock hslot hempty hname =>
    refine alike_of_block rfl hblock ?_
    rw [block_eq, block_eq]
    exact bind_congr fun type =>
      extended_insert type (idle_of_emptySlot hslot hempty hname) before after _
  | @unselected name attributes text children others hslot hfiller =>
    have htags : ∀ tag ∈ slotTags, tag ∉ blockTags ∧ tag ≠ "mutation" ∧ tag ≠ "xml" := by decide
    obtain ⟨hblock, hmutation, hxml⟩ := htags _ hslot
    refine ⟨rfl, fun type => ?_, fun h => absurd h hblock, fun h => absurd h hxml⟩
    refine part_congr type rfl rfl rfl (fun h => absurd h hmutation) fun _ => ?_
    rw [fillingOf, fillingOf, filling_eq, filling_eq, hfiller]
  | @attributes name attributes others text children hblock hsame =>
    have htype : Element.attribute? (.mk name attributes text children) "type"
        = Element.attribute? (.mk name others text children) "type" := hsame "type" (by decide)
    have hid : Element.attribute? (.mk name attributes text children) "id"
        = Element.attribute? (.mk name others text children) "id" := hsame "id" (by decide)
    refine alike_of_block rfl hblock ?_
    rw [block_eq, block_eq, required, required, htype, hid]
    rfl
  | space =>
    exact ⟨rfl, fun type => part_congr type rfl rfl rfl (fun _ => rfl) fun _ => rfl,
      fun _ => by rw [block_eq, block_eq]; rfl, fun _ => rfl⟩
  | @topLevel name attributes text before after child hroot hchild =>
    have hpart : name.stem ∉ partTags := by rw [hroot]; decide
    have hblock : name.stem ∉ blockTags := by rw [hroot]; decide
    refine ⟨rfl, fun type => ?_, fun h => absurd h hblock, fun _ => ?_⟩
    · have hother (children : List Element) :
          part type (.mk name attributes text children) = .ok .other := part_of_stray hpart
      rw [hother, hother]
    · change blocks (before ++ after) = blocks (before ++ child :: after)
      rw [blocks, blocks, List.filter_append, List.filter_append,
        List.filter_cons_of_neg (by simpa using hchild)]
  | @inside name attributes text before after child changed _ ih =>
    exact ih.inside name attributes text before after

/-- Trees that are alike hold the same workspace. -/
theorem Alike.ofElement_eq {root other : Element} (h : Alike root other) :
    Forest.ofElement root = Forest.ofElement other := by
  by_cases hxml : root.tag = "xml"
  · rw [ofElement_of_xml hxml, ofElement_of_xml (h.tag ▸ hxml), h.blocks hxml]
  by_cases hblock : root.tag ∈ blockTags
  · rw [ofElement_of_block hblock, ofElement_of_block (h.tag ▸ hblock), h.block hblock]
  · have hroot : root.tag ∉ rootTags := fun hmem => (List.mem_cons.mp hmem).elim hxml hblock
    rw [ofElement_of_root hroot, ofElement_of_root (h.tag ▸ hroot), h.tag]

/-! ## The main result -/

/-- **Loading ignores what does not count.**  Changes without consequence, anywhere in a tree and in
any number, made or undone, leave the outcome as it is: the same forest or the same error. -/
theorem ofElement_eq_of_changes {root other : Element} (h : Relation.EqvGen Change root other) :
    Forest.ofElement root = Forest.ofElement other := by
  induction h with
  | rel _ _ h => exact h.alike.ofElement_eq
  | refl _ => rfl
  | symm _ _ _ ih => exact ih.symm
  | trans _ _ _ _ _ ih₁ ih₂ => exact ih₁.trans ih₂

/-- A workspace with one negation, whose parts are these. -/
def negation (attributes : List (String × String)) (children : List Element) : Element :=
  plainElement "xml" [] [plainElement "block" (("type", "logic_negate") :: attributes) children]

/-- A slot of a negation. -/
def operandSlot (children : List Element) : Element :=
  plainElement "value" [("name", "BOOL")] children

/-- A truth literal. -/
def truthElement : Element := plainElement "block" [("type", "logic_boolean")] []

/-- A shadow without a type in front of the block that fills a slot, the same slot once more without
a filling, a child that is no part and a position on the block: the slot keeps its first filling. -/
theorem coveredFilling_kept :
    Forest.ofElement (negation [] [operandSlot [truthElement]])
      = Forest.ofElement (negation [("x", "12")] [operandSlot [plainElement "shadow" [] [],
        truthElement], operandSlot [], plainElement "comment" [] []]) ∧
    Forest.ofElement (negation [] [operandSlot [truthElement]])
      = .ok [.mk "logic_negate" "" [] [("BOOL", .mk "logic_boolean" "" [] [] [] none [])] []
        none []] := by
  have hblock : "block" ∈ blockTags := by decide
  have hfiller : Change (negation [] [operandSlot [truthElement]])
      (negation [] [operandSlot [plainElement "shadow" [] [], truthElement]]) :=
    .inside [] [] (.inside [] [] (.unselected (by decide) rfl))
  have hslot : Change (negation [] [operandSlot [plainElement "shadow" [] [], truthElement]])
      (negation [] [operandSlot [plainElement "shadow" [] [], truthElement], operandSlot []]) :=
    .inside [] [] (.emptySlot [_] [] hblock (by decide) rfl fun _ => ⟨"BOOL", rfl, by decide⟩)
  have hstray : Change
      (negation [] [operandSlot [plainElement "shadow" [] [], truthElement], operandSlot []])
      (negation [] [operandSlot [plainElement "shadow" [] [], truthElement], operandSlot [],
        plainElement "comment" [] []]) :=
    .inside [] [] (.stray [_, _] [] hblock (by decide))
  have hattribute : Change
      (negation [] [operandSlot [plainElement "shadow" [] [], truthElement], operandSlot [],
        plainElement "comment" [] []])
      (negation [("x", "12")] [operandSlot [plainElement "shadow" [] [], truthElement],
        operandSlot [], plainElement "comment" [] []]) :=
    .inside [] [] (.attributes hblock (by decide))
  exact ⟨ofElement_eq_of_changes (((Relation.EqvGen.rel _ _ hfiller).trans _ _ _
    (.rel _ _ hslot)).trans _ _ _ ((Relation.EqvGen.rel _ _ hstray).trans _ _ _
    (.rel _ _ hattribute))), rfl⟩

end Load

end Jigsaw
