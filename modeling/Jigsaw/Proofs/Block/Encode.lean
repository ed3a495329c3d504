import Jigsaw.Block.Load
import Jigsaw.Proofs.Block.Record
import Jigsaw.Proofs.Xml.Reader

/-!
# Proofs/Block/Encode — workspaces survive their documents

`Forest.encode` writes a workspace as a document: an `xml` element with one `block` element for each
top-level block, and in each of these the parts of the block in a fixed order.  `Forest.read_encode`
says that the document is read as that workspace, with the same order of everything.  It rests on
two facts about `Block.toElement`: the element has no namespaces, so the text of the element is read
as the element; and loading takes its children, one by one, for the parts that they were.
-/

namespace Jigsaw

open Xml (Element ExpandedName isName isText)

/-! ## The encoder -/

namespace Encode

/-- An element without namespaces. -/
def element (tag : String) (attributes : Record String) (text : String)
    (children : List Element) : Element :=
  .mk (.plain tag) (attributes.map fun a => (.plain a.1, a.2)) text children

/-- The element of a field. -/
def field (entry : String × String) : Element :=
  element "field" [("name", entry.1)] entry.2 []

end Encode

mutual

/-- The element that writes a block down. -/
def Block.toElement : Block → Element
  | .mk type id fields values statements next mutation =>
    Encode.element "block" [("type", type), ("id", id)] ""
      (Encode.element "mutation" mutation "" [] :: (fields.map Encode.field ++
        (Encode.slots "value" values ++ (Encode.slots "statement" statements ++
          Encode.below next))))
termination_by structural b => b

/-- The elements of slots, all with one tag. -/
def Encode.slots (tag : String) : List (String × Block) → List Element
  | [] => []
  | slot :: rest => Encode.slot tag slot :: Encode.slots tag rest
termination_by structural slots => slots

/-- The element of a slot. -/
def Encode.slot (tag : String) : String × Block → Element
  | (name, b) => Encode.element tag [("name", name)] "" [b.toElement]
termination_by structural slot => slot

/-- The element of the block below, if there is one. -/
def Encode.below : Option Block → List Element
  | none => []
  | some b => [Encode.element "next" [] "" [b.toElement]]
termination_by structural next => next

end

namespace Forest

/-- The element that writes a workspace down. -/
def toElement (forest : Forest) : Element :=
  Encode.element "xml" [] "" (forest.map Block.toElement)

/-- The document that writes a workspace down. -/
def encode (forest : Forest) : String := forest.toElement.write

end Forest

/-! ## What can be encoded -/

/-- Names that can name fields and slots: none is empty, and none stands twice. -/
structure Record.Keyed {α : Type} (record : Record α) : Prop where
  named : ∀ name ∈ record.names, name ≠ "" ∧ isText name
  distinct : record.names.Nodup

theorem Record.Keyed.nonempty {α : Type} {record : Record α} (h : record.Keyed)
    {entry : String × α} (hentry : entry ∈ record) : entry.1 ≠ "" :=
  (h.named _ (List.mem_map_of_mem hentry)).1

theorem Record.Keyed.text {α : Type} {record : Record α} (h : record.Keyed)
    {entry : String × α} (hentry : entry ∈ record) : isText entry.1 :=
  (h.named _ (List.mem_map_of_mem hentry)).2

/-- Names and texts that can be attributes. -/
structure Record.Attributes (record : Record String) : Prop where
  plain : ∀ entry ∈ record, isName entry.1 ∧ entry.1 ≠ "xmlns" ∧ isText entry.2
  distinct : record.names.Nodup

/-- A block that a document can hold, with all blocks in it and below it. -/
inductive Block.Writable : Block → Prop
  | mk {type id : String} {fields : Record String} {values statements : Record Block}
      {next : Option Block} {mutation : Record String} (htype : type ≠ "" ∧ isText type)
      (hid : isText id) (hfields : fields.Keyed) (htexts : ∀ entry ∈ fields, isText entry.2)
      (hvalues : values.Keyed) (hstatements : statements.Keyed) (hmutation : mutation.Attributes)
      (hinValues : ∀ entry ∈ values, entry.2.Writable)
      (hinStatements : ∀ entry ∈ statements, entry.2.Writable)
      (hbelow : ∀ below ∈ next, below.Writable) :
      Writable (.mk type id fields values statements next mutation)

/-! ## Elements without namespaces -/

namespace Encode

theorem plain_element {tag text : String} {attributes : Record String} {children : List Element}
    (htag : isName tag) (hattributes : attributes.Attributes) (htext : isText text)
    (hchildren : ∀ child ∈ children, child.Plain) :
    (element tag attributes text children).Plain := by
  refine .mk rfl htag (fun a ha => ?_) ?_ htext hchildren
  · obtain ⟨entry, hentry, rfl⟩ := List.mem_map.mp ha
    obtain ⟨hname, hdeclares, hvalue⟩ := hattributes.plain entry hentry
    exact ⟨rfl, hname, hdeclares, hvalue⟩
  · have hdistinct := hattributes.distinct
    rw [List.map_map]
    exact hdistinct

theorem slots_eq (tag : String) (slots : Record Block) :
    Encode.slots tag slots = slots.map (slot tag) := by
  induction slots with
  | nil => rfl
  | cons entry rest ih => rw [Encode.slots, ih, List.map_cons]

/-- One attribute for a name. -/
theorem attributes_name {name : String} (h : isText name) :
    Record.Attributes [("name", name)] where
  plain := by simpa using ⟨by decide, h⟩
  distinct := by simp [Record.names]

theorem plain_slot {tag : String} (htag : isName tag) {entry : String × Block}
    (hname : isText entry.1) (hblock : entry.2.toElement.Plain) : (slot tag entry).Plain := by
  rw [slot]
  exact plain_element htag (attributes_name hname) rfl (by simpa using hblock)

end Encode

/-- **The element of a block has no namespaces.** -/
theorem Block.Writable.plain_toElement {b : Block} (h : b.Writable) : b.toElement.Plain := by
  induction h with
  | @mk type id fields values statements next mutation htype hid hfields htexts hvalues hstatements
      hmutation _ _ _ ihValues ihStatements ihBelow =>
    rw [Block.toElement]
    have hattributes : Record.Attributes [("type", type), ("id", id)] :=
      ⟨by simpa using ⟨⟨by decide, htype.2⟩, by decide, hid⟩, by simp [Record.names]⟩
    refine Encode.plain_element (by decide) hattributes rfl ?_
    intro child hchild
    simp only [Encode.slots_eq, List.mem_cons, List.mem_append, List.mem_map] at hchild
    rcases hchild with rfl | ⟨entry, hentry, rfl⟩ | ⟨entry, hentry, rfl⟩ | ⟨entry, hentry, rfl⟩ |
      hbelow
    · exact Encode.plain_element (by decide) hmutation rfl (by simp)
    · exact Encode.plain_element (by decide) (Encode.attributes_name (hfields.text hentry))
        (htexts _ hentry) (by simp)
    · exact Encode.plain_slot (by decide) (hvalues.text hentry) (ihValues _ hentry)
    · exact Encode.plain_slot (by decide) (hstatements.text hentry) (ihStatements _ hentry)
    · cases next with
      | none => simp [Encode.below] at hbelow
      | some below =>
        rw [Encode.below, List.mem_singleton] at hbelow
        rw [hbelow]
        exact Encode.plain_element (by decide) ⟨by simp, by decide⟩ rfl
          (by simpa using ihBelow below rfl)

/-! ## Parts of a block -/

namespace Load

variable {type id : String} {fields mutation : Record String} {values statements : Record Block}
  {next : Option Block}

/-- A list whose items are each taken for something is taken for the list of these. -/
theorem mapM_map_ok {α β γ ε : Type} {f : β → Except ε γ} {w : α → β} {g : α → γ} {items : List α}
    (h : ∀ a ∈ items, f (w a) = .ok (g a)) : (items.map w).mapM f = .ok (items.map g) := by
  induction items with
  | nil => rfl
  | cons a items ih =>
    rw [List.map_cons, List.mapM_cons, h a List.mem_cons_self,
      ih fun b hb => h b (List.mem_cons_of_mem a hb)]
    rfl

theorem mapM_append_ok {α β ε : Type} {f : α → Except ε β} {xs ys : List α} {as bs : List β}
    (hxs : xs.mapM f = .ok as) (hys : ys.mapM f = .ok bs) : (xs ++ ys).mapM f = .ok (as ++ bs) := by
  rw [List.mapM_append, hxs, hys]
  rfl

theorem parts_eq_mapM (es : List Element) : parts type es = es.mapM (part type) := by
  induction es with
  | nil => rfl
  | cons e es ih =>
    rw [parts, List.mapM_cons, ih]
    rfl

/-- Parts with new names enter a record one after the other. -/
theorem foldl_addPart {α : Type} {p : String × α → Part} {f : Record α → Block}
    (hadd : ∀ record entry, addPart (f record) (p entry) = f (Record.put entry.1 entry.2 record))
    {entries : Record α} (done : Record α) (h : (done ++ entries).names.Nodup) :
    (entries.map p).foldl addPart (f done) = f (done ++ entries) := by
  induction entries generalizing done with
  | nil => simp
  | cons entry entries ih =>
    have hnew : entry.1 ∉ Record.names done := fun hmem => by
      rw [Record.names, List.map_append, List.nodup_append] at h
      exact h.2.2 _ hmem _ List.mem_cons_self rfl
    rw [List.map_cons, List.foldl_cons, hadd, Record.put_of_not_mem _ hnew,
      ih _ (by simpa using h)]
    simp

/-! ### What each child is taken for -/

/-- The first attribute of an element is there. -/
theorem required_first {tag name value text : String} {others : Record String}
    {children : List Element} {error : LoadError} (h : value ≠ "") :
    required (Encode.element tag ((name, value) :: others) text children) name error
      = .ok value := by
  simp [required, Encode.element, Element.attribute?, Element.attributes, h]

theorem part_mutation (type : String) (attributes : Record String) :
    part type (Encode.element "mutation" attributes "" []) = .ok (.mutation attributes) := by
  have hmutation : mutation (Encode.element "mutation" attributes "" []) = attributes := by
    change (attributes.map fun a => (ExpandedName.plain a.1, a.2)).map
      (fun a => (a.1.text, a.2)) = attributes
    rw [List.map_map]
    exact List.map_id attributes
  exact congrArg (Except.ok ∘ Part.mutation) hmutation

theorem part_field (type : String) {entry : String × String} (h : entry.1 ≠ "") :
    part type (Encode.field entry) = .ok (.field entry.1 entry.2) := by
  change (required (Encode.field entry) "name" (.missingName "field" type) >>= fun name =>
    .ok (Part.field name entry.2)) = _
  rw [Encode.field, required_first h]
  rfl

theorem tag_toElement (b : Block) : b.toElement.tag = "block" := by
  cases b
  rfl

/-- The block of a slot fills it. -/
theorem filling_toElement {b : Block} (h : block b.toElement = .ok b) :
    filling (firstOf "block" [b.toElement]) (firstOf "shadow" [b.toElement]) = .ok (some b) := by
  rw [firstOf, if_pos (tag_toElement b), h]
  rfl

/-- A slot element is taken for its slot, whatever the kind of slots that has its tag. -/
theorem part_slot {tag name : String} {make : String → Option Block → Part} {b : Block}
    (hpart : part type (Encode.slot tag (name, b))
      = (required (Encode.slot tag (name, b)) "name" (.missingName tag type) >>= fun name =>
        filling (firstOf "block" [b.toElement]) (firstOf "shadow" [b.toElement]) >>=
          fun filling => .ok (make name filling)))
    (h : name ≠ "") (hblock : block b.toElement = .ok b) :
    part type (Encode.slot tag (name, b)) = .ok (make name (some b)) := by
  rw [hpart, Encode.slot, required_first h, filling_toElement hblock]
  rfl

theorem part_next (type : String) {b : Block} (hblock : block b.toElement = .ok b) :
    part type (Encode.element "next" [] "" [b.toElement]) = .ok (.next (some b)) := by
  change (filling (firstOf "block" [b.toElement]) (firstOf "shadow" [b.toElement])
    >>= fun filling => .ok (Part.next filling)) = _
  rw [filling_toElement hblock]
  rfl

/-- The parts of a block, in the order in which they are written. -/
def partsOf (fields mutation : Record String) (values statements : Record Block)
    (next : Option Block) : List Part :=
  .mutation mutation :: (fields.map (fun entry => .field entry.1 entry.2) ++
    (values.map (fun entry => .value entry.1 (some entry.2)) ++
      (statements.map (fun entry => .statement entry.1 (some entry.2)) ++
        next.toList.map (fun below => .next (some below)))))

/-- **The children of a block element are taken for the parts of the block.** -/
theorem parts_toElement (type : String) (mutation : Record String)
    (hfields : fields.Keyed) (hvalues : values.Keyed) (hstatements : statements.Keyed)
    (hinValues : ∀ entry ∈ values, block entry.2.toElement = .ok entry.2)
    (hinStatements : ∀ entry ∈ statements, block entry.2.toElement = .ok entry.2)
    (hbelow : ∀ below ∈ next, block below.toElement = .ok below) :
    parts type (Encode.element "mutation" mutation "" [] :: (fields.map Encode.field ++
      (Encode.slots "value" values ++ (Encode.slots "statement" statements ++ Encode.below next))))
      = .ok (partsOf fields mutation values statements next) := by
  have hfieldParts : (fields.map Encode.field).mapM (part type)
      = .ok (fields.map fun entry => Part.field entry.1 entry.2) :=
    mapM_map_ok fun entry hentry => part_field type (hfields.nonempty hentry)
  have hvalueParts : (values.map (Encode.slot "value")).mapM (part type)
      = .ok (values.map fun entry => Part.value entry.1 (some entry.2)) :=
    mapM_map_ok fun ⟨name, b⟩ hentry =>
      part_slot rfl (hvalues.nonempty hentry) (hinValues _ hentry)
  have hstatementParts : (statements.map (Encode.slot "statement")).mapM (part type)
      = .ok (statements.map fun entry => Part.statement entry.1 (some entry.2)) :=
    mapM_map_ok fun ⟨name, b⟩ hentry =>
      part_slot rfl (hstatements.nonempty hentry) (hinStatements _ hentry)
  have hbelowParts : (Encode.below next).mapM (part type)
      = .ok (next.toList.map fun below => Part.next (some below)) := by
    cases next with
    | none => rfl
    | some below =>
      rw [Encode.below, List.mapM_cons, part_next type (hbelow below rfl)]
      rfl
  rw [parts_eq_mapM, List.mapM_cons, part_mutation, Encode.slots_eq, Encode.slots_eq,
    mapM_append_ok hfieldParts (mapM_append_ok hvalueParts
      (mapM_append_ok hstatementParts hbelowParts))]
  rfl

/-- **The parts of a block make the block.**  They come by kinds, and each kind fills one record. -/
theorem foldl_partsOf (type id : String) (mutation : Record String) (next : Option Block)
    (hfields : fields.names.Nodup) (hvalues : values.names.Nodup)
    (hstatements : statements.names.Nodup) :
    (partsOf fields mutation values statements next).foldl addPart (.mk type id [] [] [] none [])
      = .mk type id fields values statements next mutation := by
  have hfieldsIn : (fields.map fun entry => Part.field entry.1 entry.2).foldl addPart
      (.mk type id [] [] [] none mutation) = .mk type id fields [] [] none mutation :=
    foldl_addPart (f := fun done => .mk type id done [] [] none mutation)
      (fun _ _ => rfl) [] hfields
  have hvaluesIn : (values.map fun entry => Part.value entry.1 (some entry.2)).foldl addPart
      (.mk type id fields [] [] none mutation) = .mk type id fields values [] none mutation :=
    foldl_addPart (f := fun done => .mk type id fields done [] none mutation)
      (fun _ _ => rfl) [] hvalues
  have hstatementsIn :
      (statements.map fun entry => Part.statement entry.1 (some entry.2)).foldl addPart
        (.mk type id fields values [] none mutation)
        = .mk type id fields values statements none mutation :=
    foldl_addPart (f := fun done => .mk type id fields values done none mutation)
      (fun _ _ => rfl) [] hstatements
  rw [partsOf, List.foldl_cons, addPart, List.foldl_append, hfieldsIn, List.foldl_append,
    hvaluesIn, List.foldl_append, hstatementsIn]
  cases next <;> rfl

/-- **The element of a block is loaded as that block.** -/
theorem block_toElement {b : Block} (h : b.Writable) : block b.toElement = .ok b := by
  induction h with
  | @mk type id fields values statements next mutation htype _ hfields _ hvalues hstatements _ _ _
      _ ihValues ihStatements ihBelow =>
    have hparts := parts_toElement type mutation hfields hvalues hstatements ihValues ihStatements
      ihBelow
    have hmake := foldl_partsOf type id mutation next hfields.distinct hvalues.distinct
      hstatements.distinct
    rw [Block.toElement]
    change (required (Encode.element "block" [("type", type), ("id", id)] "" _) "type" .missingType
      >>= fun type => parts type _ >>= fun ps =>
        .ok (ps.foldl addPart (.mk type id [] [] [] none []))) = _
    rw [required_first htype.1, ← hmake]
    exact congrArg (· >>= fun ps => .ok (ps.foldl addPart (.mk type id [] [] [] none []))) hparts

end Load

/-! ## Workspaces -/

namespace Forest

/-- The element of a workspace is loaded as that workspace. -/
theorem ofElement_toElement {forest : Forest} (h : ∀ b ∈ forest, b.Writable) :
    ofElement forest.toElement = .ok forest := by
  have hblocks : (forest.map Block.toElement).filter (fun e => e.tag = "block")
      = forest.map Block.toElement := by
    rw [List.filter_eq_self]
    intro e he
    obtain ⟨b, -, rfl⟩ := List.mem_map.mp he
    simp [Load.tag_toElement]
  change Load.blocks (forest.map Block.toElement) = _
  rw [Load.blocks, hblocks, Load.mapM_map_ok fun b hb => Load.block_toElement (h b hb)]
  simp

/-- **A workspace survives its document.**  The document of a workspace is read as exactly that
workspace: the same blocks in the same order, with the same names in the same order and the same
texts to the last character, in slots and chains of any depth and length. -/
theorem read_encode (forest : Forest) (h : ∀ b ∈ forest, b.Writable) :
    Forest.read forest.encode = .ok forest := by
  have hplain : forest.toElement.Plain :=
    Encode.plain_element (by decide) ⟨by simp, by decide⟩ rfl fun e he => by
      obtain ⟨b, hb, rfl⟩ := List.mem_map.mp he
      exact (h b hb).plain_toElement
  rw [Forest.read, encode, Xml.Document.read_write hplain]
  exact ofElement_toElement h

/-- Two blocks, one of them with every kind of part and with text that looks like markup. -/
def markupSample : Forest :=
  let leaf := Block.mk "text" "" [("TEXT", "]]> & \"'\r\n\t ")] [] [] none []
  [.mk "a<b" "<" [("Ä", ""), ("B", "&amp;")] [("V", leaf)] [("S", leaf)] (some leaf)
    [("z", "2"), ("a-1", "\n")], leaf]

/-- The sample is a workspace that a document can hold, and its document is read as it. -/
theorem read_encode_markupSample : (∀ b ∈ markupSample, b.Writable) ∧
    Forest.read (encode markupSample) = .ok markupSample := by
  have hleaf : (Block.mk "text" "" [("TEXT", "]]> & \"'\r\n\t ")] [] [] none []).Writable :=
    .mk (by decide) (by decide) ⟨by decide, by decide⟩ (by decide) ⟨by decide, by decide⟩
      ⟨by decide, by decide⟩ ⟨by decide, by decide⟩ (by simp) (by simp) (by simp)
  have hsample : ∀ b ∈ markupSample, b.Writable := by
    intro b hb
    rcases List.mem_cons.mp hb with rfl | hb
    · exact .mk (by decide) (by decide) ⟨by decide, by decide⟩ (by decide) ⟨by decide, by decide⟩
        ⟨by decide, by decide⟩ ⟨by decide, by decide⟩ (by simpa using hleaf)
        (by simpa using hleaf) (by simpa using hleaf)
    · rw [List.mem_singleton.mp hb]
      exact hleaf
  exact ⟨hsample, read_encode markupSample hsample⟩

example : encode [.mk "text" "a" [("TEXT", "1 < 2")] [] [] none [("at", "3")]]
    = "<xml><block type=\"text\" id=\"a\"><mutation at=\"3\"></mutation>"
      ++ "<field name=\"TEXT\">1 &lt; 2</field></block></xml>" := by
  rfl

end Forest

end Jigsaw
