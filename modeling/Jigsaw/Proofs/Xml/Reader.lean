import Jigsaw.Proofs.Xml.Writer

/-!
# Proofs/Xml/Reader — written elements are read back

`Document.read_write` says that the document reader finds in a written element that element again.
The proof follows the writer.  Each part of the text leads the reader from content of one shape to
content of another, `Leads`, where a shape is the elements that are open and the piece that is being
read (`Content.At`); places in the text matter to faults only and are left out of it.  Parts one
after the other compose (`Leads.append`), and so do parts that are written for the items of a list
(`Leads.each`).
-/

namespace Jigsaw.Xml

/-! ## What characters lead to -/

/-- Content with these elements open, in the middle of a piece with `P`, and no complete root. -/
structure Content.At (opened : List OpenElement) (P : Piece → Prop) (s : Content) : Prop where
  opened : s.opened = opened
  root : s.root = none
  piece : P s.piece

/-- From all content with `P`, the characters lead to content with `Q`. -/
def Leads (P : Content → Prop) (cs : List Char) (Q : Content → Prop) : Prop :=
  ∀ s, P s → ∃ t, cs.foldlM Document.step (.inside {} s) = .ok (.inside {} t) ∧ Q t

namespace Leads

variable {P Q R : Content → Prop} {c : Char} {cs cs' : List Char}

theorem nil (h : ∀ s, P s → Q s) : Leads P [] Q := fun s hs => ⟨s, rfl, h s hs⟩

theorem append (h : Leads P cs Q) (h' : Leads Q cs' R) : Leads P (cs ++ cs') R := by
  intro s hs
  obtain ⟨t, hread, ht⟩ := h s hs
  obtain ⟨u, hread', hu⟩ := h' t ht
  exact ⟨u, by rw [foldlM_append_ok hread, hread'], hu⟩

theorem cons (h : Leads P [c] Q) (h' : Leads Q cs R) : Leads P (c :: cs) R := h.append h'

/-- What each item of a list leads to, one after the other. -/
theorem each {α : Type} {S : List α → Content → Prop} {w : α → List Char} {items : List α}
    (h : ∀ done, ∀ a ∈ items, Leads (S done) (w a) (S (done ++ [a]))) (done : List α) :
    Leads (S done) (items.flatMap w) (S (done ++ items)) := by
  induction items generalizing done with
  | nil => exact nil (by simp)
  | cons a items ih =>
    have hrest := ih (fun done b hb => h done b (List.mem_cons_of_mem a hb)) (done ++ [a])
    rw [List.append_assoc, List.singleton_append] at hrest
    exact (h done a List.mem_cons_self).append hrest

theorem weaken (h : Leads P cs Q) (hweak : ∀ s, Q s → R s) : Leads P cs R := by
  have h' := h.append (nil hweak)
  rwa [List.append_nil] at h'

/-- What a name leads to, from what its first character and each further one lead to. -/
theorem ofName {name : String} {S : List Char → Content → Prop} (h : isName name)
    (hstart : ∀ c, isNameStart c → Leads P [c] (S [c]))
    (hgo : ∀ done c, isNameChar c → Leads (S done) [c] (S (done ++ [c]))) :
    Leads P name.toList (S name.toList) := by
  obtain ⟨first, rest, hlist, hfirst, hrest⟩ := isName_iff.mp h
  have heach : Leads (S [first]) (rest.flatMap fun c => [c]) (S ([first] ++ rest)) :=
    each (fun done c hc => hgo done c (hrest c hc)) [first]
  rw [List.flatMap_singleton'] at heach
  rw [hlist]
  exact (hstart first hfirst).cons heach

end Leads

variable {o o' : List OpenElement} {p : OpenElement} {c : Char} {cs : List Char}

/-- Reading goes by steps of content; how they expand entities does not matter here. -/
theorem exists_read_eq_step (s : Content) (c : Char) :
    ∃ expand, s.read {} c = s.step {} 0 expand c := ⟨_, rfl⟩

/-- One step of content leads on as long as the root is not complete. -/
theorem leads_step {P Q : Piece → Prop}
    (h : ∀ (s : Content) (expand : String → Content → Reading Content), s.At o P →
      ∃ t, s.step {} 0 expand c = .ok t ∧ t.At o' Q) :
    Leads (Content.At o P) [c] (Content.At o' Q) := by
  intro s hs
  obtain ⟨expand, hexpand⟩ := exists_read_eq_step s c
  obtain ⟨t, hstep, ht⟩ := h s expand hs
  refine ⟨t, foldlM_cons_ok ?_ [], ht⟩
  rw [Document.step, Document.insideStep, hexpand, hstep, Except.map, Document.ofContent, ht.root]

/-- One step that only moves on to another piece. -/
theorem leads_go {P Q : Piece → Prop}
    (h : ∀ (s : Content) (expand : String → Content → Reading Content), P s.piece →
      ∃ start cursor piece,
        s.step {} 0 expand c = .ok { s with start, cursor, piece } ∧ Q piece) :
    Leads (Content.At o P) [c] (Content.At o Q) :=
  leads_step fun s expand hs => by
    obtain ⟨start, cursor, piece, hstep, hpiece⟩ := h s expand hs.piece
    exact ⟨_, hstep, hs.opened, hs.root, hpiece⟩

/-! ## Elements that are open -/

namespace Element

/-- An element without namespaces whose end tag has not come. -/
def opened : Element → OpenElement
  | .mk name attributes text children =>
    ⟨name.stem, ⟨name, attributes, .initial⟩, text.toList.reverse, children.reverse⟩

@[simp] theorem close_opened (e : Element) : e.opened.close = e := by
  cases e
  simp [opened, OpenElement.close]

variable {name : ExpandedName} {attributes : List (ExpandedName × String)}

theorem addChar_opened (text : List Char) (c : Char) :
    (opened (.mk name attributes (String.ofList text) [])).addChar c
      = opened (.mk name attributes (String.ofList (text ++ [c])) []) := by
  simp [opened, OpenElement.addChar]

theorem addChild_opened (text : String) (children : List Element) (child : Element) :
    (opened (.mk name attributes text children)).addChild child
      = opened (.mk name attributes text (children ++ [child])) := by
  simp [opened, OpenElement.addChild]

end Element

/-! ## Text -/

/-- Text that may go on with any character. -/
def InText (piece : Piece) : Prop := ∃ brackets, piece = .text brackets false

namespace Content

variable {s : Content} {expand : String → Content → Reading Content}

theorem At.go {P Q : Piece → Prop} {piece : Piece} (hs : s.At o P) (c : Char) (h : Q piece) :
    (s.go c piece).At o Q := ⟨hs.opened, hs.root, h⟩

theorem At.addChar {P : Piece → Prop} (hs : s.At (p :: o) P) (c : Char) :
    (s.addChar c).At (p.addChar c :: o) P := by
  rw [Content.addChar, hs.opened]
  exact ⟨rfl, hs.root, hs.piece⟩

/-! ### A step of content, by its piece -/

theorem step_of_text {brackets : Nat} (h : s.piece = .text brackets false) :
    s.step {} 0 expand c = s.textStep brackets false c := by
  unfold step
  rw [h]

theorem step_of_reference_more {draft draft' : Reference.Draft} (h : s.piece = .reference draft)
    (hmore : draft.step c = .more draft') :
    s.step {} 0 expand c = .ok (s.go c (.reference draft')) := by
  unfold step
  simp only [h, hmore]

theorem step_of_reference_done {draft : Reference.Draft} {r : Reference}
    (h : s.piece = .reference draft) (hdone : draft.step c = .done r) :
    s.step {} 0 expand c = (s.go c .plain).takeReference expand r := by
  unfold step
  simp only [h, hdone]

theorem step_of_tag_more {draft draft' : Tag.Draft} (h : s.piece = .tag draft)
    (hmore : draft.step s.cursor c = .more draft') :
    s.step {} 0 expand c = .ok (s.go c (.tag draft')) := by
  unfold step
  simp only [h, hmore]

theorem step_of_tag_done {draft : Tag.Draft} {tag : Tag} (h : s.piece = .tag draft)
    (hdone : draft.step s.cursor c = .done tag) :
    s.step {} 0 expand c = (s.go c .plain).openTag {} tag := by
  unfold step
  simp only [h, hdone]

theorem step_of_lessThan (h : s.piece = .lessThan) (hc : isNameStart c) :
    s.step {} 0 expand c = .ok (s.go c
      (.tag { start := s.start.position, part := .name { chars := String.singleton c } })) := by
  unfold step
  rw [h]
  exact if_pos hc

theorem step_of_slash (h : s.piece = .lessThan) :
    s.step {} 0 expand '/' = .ok (s.go '/' .endOpen) := by
  unfold step
  rw [h]
  rfl

theorem step_of_endOpen (h : s.piece = .endOpen) (hc : isNameStart c) :
    s.step {} 0 expand c = .ok (s.go c (.endName (String.singleton c))) := by
  unfold step
  rw [h]
  exact if_pos hc

theorem step_of_endName {name : String} (h : s.piece = .endName name) (hc : isNameChar c) :
    s.step {} 0 expand c = .ok (s.go c (.endName (name.push c))) := by
  unfold step
  rw [h]
  exact if_pos (by simp [hc])

theorem step_of_endName_close {name : String} (h : s.piece = .endName name) :
    s.step {} 0 expand '>' = (s.go '>' .plain).closeTag 0 name := by
  unfold step
  rw [h]
  rfl

/-- A complete reference adds its character. -/
theorem takeReference_of_means {r : Reference} (h : r.Means c) :
    s.takeReference expand r = .ok (s.addChar c) := by
  cases r with
  | character number =>
    have hnumber : Reference.character? number = some c := h
    rw [takeReference, hnumber]
  | entity name =>
    have hname : Reference.predefined? name = some c := h
    rw [takeReference, hname]

end Content

/-- A character that is no markup is text. -/
theorem leads_char (hlegal : isLegal c) (hc : c ∉ ['<', '>', '&', '"', '\'', '\t', '\n', '\r']) :
    Leads (Content.At (p :: o) InText) [c] (Content.At (p.addChar c :: o) InText) :=
  leads_step fun s expand hs => by
    obtain ⟨brackets, hpiece⟩ := hs.piece
    simp only [List.mem_cons, not_or] at hc
    obtain ⟨hless, hgreater, hamp, -, -, -, hfeed, hreturn, -⟩ := hc
    rw [Content.step_of_text hpiece]
    -- A closing bracket is text too, but it is counted, so that `]]>` is known when it comes.
    by_cases hbracket : c = ']'
    · subst hbracket
      exact ⟨_, rfl, (hs.addChar ']').go ']' ⟨_, rfl⟩⟩
    · refine ⟨(s.addChar c).go c .plain, ?_, (hs.addChar c).go c ⟨0, rfl⟩⟩
      simp [Content.textStep, hgreater, hlegal]

/-- The rest of a reference adds its character to the text. -/
theorem leads_spells {r : Reference} {draft : Reference.Draft} (h : r.Spells draft cs)
    (hc : r.Means c) :
    Leads (Content.At (p :: o) (· = .reference draft)) cs
      (Content.At (p.addChar c :: o) InText) := by
  induction h with
  | @done draft last h =>
    refine leads_step fun s expand hs =>
      ⟨(s.go last .plain).addChar c, ?_, (hs.go last ⟨0, rfl⟩).addChar c⟩
    rw [Content.step_of_reference_done hs.piece h, Content.takeReference_of_means hc]
  | @more draft draft' first rest h _ ih =>
    refine Leads.cons (leads_go fun s expand hpiece => ?_) ih
    exact ⟨s.start, s.cursor.next first, .reference draft',
      Content.step_of_reference_more hpiece h, rfl⟩

/-- A written character is text. -/
theorem leads_escape (hlegal : isLegal c) :
    Leads (Content.At (p :: o) InText) (escape c) (Content.At (p.addChar c :: o) InText) := by
  rcases spells_escape c with ⟨hescape, hc⟩ | ⟨body, r, hescape, hspells, hmeans⟩
  · rw [hescape]
    exact leads_char hlegal hc
  · rw [hescape]
    refine Leads.cons (leads_go fun s expand ⟨brackets, hpiece⟩ => ?_) (leads_spells hspells hmeans)
    exact ⟨s.cursor, s.cursor.next '&', .reference .start, Content.step_of_text hpiece, rfl⟩

/-- **Written text is text**, in front of the first child. -/
theorem leads_escapeAll {text : String} (h : isText text) (name : ExpandedName)
    (attributes : List (ExpandedName × String)) :
    Leads (Content.At (Element.opened (.mk name attributes "" []) :: o) InText) (escapeAll text)
      (Content.At (Element.opened (.mk name attributes text []) :: o) InText) := by
  have heach := Leads.each (S := fun done =>
      Content.At (Element.opened (.mk name attributes (String.ofList done) []) :: o) InText)
    (fun done c hc => by
      rw [← Element.addChar_opened]
      exact leads_escape (List.all_eq_true.mp h c hc)) []
  rwa [List.nil_append, String.ofList_toList] at heach

/-! ## Start tags -/

/-- Content in the middle of a start tag with `P`. -/
abbrev AtTag (opened : List OpenElement) (P : Tag.Draft → Prop) : Content → Prop :=
  Content.At opened fun piece => ∃ d, piece = .tag d ∧ P d

/-- One step inside a start tag. -/
theorem leads_tag {P Q : Tag.Draft → Prop}
    (h : ∀ d k, P d → ∃ d', d.step k c = .more d' ∧ Q d') :
    Leads (AtTag o P) [c] (AtTag o Q) :=
  leads_go fun s expand ⟨d, hpiece, hd⟩ => by
    obtain ⟨d', hstep, hd'⟩ := h d s.cursor hd
    exact ⟨s.start, s.cursor.next c, .tag d', Content.step_of_tag_more hpiece hstep, d', rfl, hd'⟩

namespace Tag.Draft

/-- The name and the complete attributes of a start tag. -/
def Has (name : String) (entries : List (String × List Char)) (d : Draft) : Prop :=
  d.name = name ∧ d.attributes.reverse.map RawAttribute.entry = entries

/-- In the name of the tag. -/
def InName (chars : List Char) (d : Draft) : Prop :=
  d.attributes = [] ∧ d.part = .name { chars := String.ofList chars }

/-- Behind the name or an attribute.  The draft is in one of two parts here, and the name is settled
in one of them only; what counts is that it goes on like a draft that has them. -/
def AtBoundary (name : String) (entries : List (String × List Char)) (d : Draft) : Prop :=
  ∃ e : Draft, e.Has name entries ∧ ∀ k c, c ∈ [' ', '>'] → d.step k c = e.boundary c

/-- In front of an attribute. -/
def AtSpace (name : String) (entries : List (String × List Char)) (d : Draft) : Prop :=
  d.Has name entries ∧ d.part = .space

/-- In the name of an attribute. -/
def InKey (name : String) (entries : List (String × List Char)) (chars : List Char)
    (d : Draft) : Prop :=
  d.Has name entries ∧ ∃ position, d.part = .attrName { chars := String.ofList chars } position

/-- In front of the value of an attribute. -/
def AtQuote (name : String) (entries : List (String × List Char)) (key : String)
    (d : Draft) : Prop :=
  d.Has name entries ∧ ∃ position, d.part = .quote key position

/-- In the value of an attribute, and in a reference there. -/
def InValue (name : String) (entries : List (String × List Char)) (key : String)
    (reference : Option Reference.Draft) (chars : List Char) (d : Draft) : Prop :=
  d.Has name entries ∧
    ∃ position cursor, d.part = .value key position '"' cursor chars.reverse reference

variable {name key : String} {entries : List (String × List Char)} {chars : List Char} {d : Draft}

theorem step?_of_isNameChar (h : isNameChar c) :
    NameDraft.step? { chars := String.ofList chars } c
      = some { chars := String.ofList (chars ++ [c]) } := by
  simp [NameDraft.step?, h]

theorem atBoundary_of_inName (h : d.InName name.toList) : d.AtBoundary name [] := by
  refine ⟨{ d with name }, ⟨rfl, by simp [h.1]⟩, fun k c hc => ?_⟩
  have hstep : NameDraft.step? { chars := name } c = none := by
    simp only [List.mem_cons, List.not_mem_nil, or_false] at hc
    rcases hc with rfl | rfl <;> rfl
  simp [step, h.2, hstep]

theorem atBoundary_of_afterValue (h : d.Has name entries) (hpart : d.part = .afterValue) :
    d.AtBoundary name entries :=
  ⟨d, h, fun k c _ => by rw [step, hpart]⟩

end Tag.Draft

open Tag.Draft

variable {name key : String} {entries : List (String × List Char)} {chars : List Char}

/-- The name of the tag. -/
theorem leads_name (h : isName name) :
    Leads (Content.At o (· = .lessThan)) name.toList
      (AtTag o (AtBoundary name [])) := by
  have hname : Leads (Content.At o (· = .lessThan)) name.toList
      (AtTag o (InName name.toList)) := by
    refine Leads.ofName (S := fun done => AtTag o (InName done)) h (fun c hc => ?_)
      fun done c hc => ?_
    · refine leads_go fun s expand hpiece => ?_
      let d : Tag.Draft :=
        { start := s.start.position, part := .name { chars := String.ofList [c] } }
      exact ⟨s.start, s.cursor.next c, .tag d, Content.step_of_lessThan hpiece hc, d, rfl, rfl, rfl⟩
    · exact leads_tag fun d k ⟨hattributes, hpart⟩ =>
        ⟨{ d with part := .name { chars := String.ofList (done ++ [c]) } },
          by simp only [step, hpart, step?_of_isNameChar hc], hattributes, rfl⟩
  exact hname.weaken fun s ⟨hopened, hroot, d, hpiece, hd⟩ =>
    ⟨hopened, hroot, d, hpiece, atBoundary_of_inName hd⟩

/-- The name of an attribute. -/
theorem leads_key (h : isName key) :
    Leads (AtTag o (AtSpace name entries)) key.toList
      (AtTag o (InKey name entries key.toList)) := by
  refine Leads.ofName (S := fun done => AtTag o (InKey name entries done)) h (fun c hc => ?_)
    fun done c hc => ?_
  · exact leads_tag fun d k ⟨hd, hpart⟩ =>
      ⟨{ d with part := .attrName { chars := String.ofList [c] } k.position },
        by simp [step, hpart, hc], hd, _, rfl⟩
  · exact leads_tag fun d k ⟨hd, position, hpart⟩ =>
      ⟨{ d with part := .attrName { chars := String.ofList (done ++ [c]) } position },
        by simp only [step, hpart, step?_of_isNameChar hc], hd, _, rfl⟩

/-- One more character of a value that is not its end. -/
theorem leads_inValue {reference reference' : Option Reference.Draft}
    (h : ∀ (d : Tag.Draft) position cursor (before : List Char),
      d.inValue key position '"' cursor before reference c
        = .more { d with part := .value key position '"' cursor (c :: before) reference' }) :
    Leads (AtTag o (InValue name entries key reference chars)) [c]
      (AtTag o (InValue name entries key reference' (chars ++ [c]))) :=
  leads_tag fun d k ⟨hd, position, cursor, hpart⟩ =>
    ⟨{ d with part := .value key position '"' cursor (c :: chars.reverse) reference' },
      by simp only [step, hpart, h], hd, position, cursor, by simp⟩

/-- The rest of a reference, in the value of an attribute. -/
theorem leads_inReference {r : Reference} {draft : Reference.Draft} (h : r.Spells draft cs) :
    Leads (AtTag o (InValue name entries key (some draft) chars)) cs
      (AtTag o (InValue name entries key none (chars ++ cs))) := by
  induction h generalizing chars with
  | @done draft last h =>
    exact leads_inValue fun d position cursor before => by simp only [inValue, h]
  | @more draft draft' first rest h _ ih =>
    have hfirst : Leads (AtTag o (InValue name entries key (some draft) chars)) [first]
        (AtTag o (InValue name entries key (some draft') (chars ++ [first]))) :=
      leads_inValue fun d position cursor before => by simp only [inValue, h]
    have hrest : Leads (AtTag o (InValue name entries key (some draft') (chars ++ [first]))) rest
        (AtTag o (InValue name entries key none (chars ++ [first] ++ rest))) := ih
    rw [List.append_assoc, List.singleton_append] at hrest
    exact hfirst.cons hrest

/-- A written character, in the value of an attribute. -/
theorem leads_value (hlegal : isLegal c) :
    Leads (AtTag o (InValue name entries key none chars)) (escape c)
      (AtTag o (InValue name entries key none (chars ++ escape c))) := by
  rcases spells_escape c with ⟨hescape, hc⟩ | ⟨body, r, hescape, hspells, -⟩
  · rw [hescape]
    simp only [List.mem_cons, not_or] at hc
    exact leads_inValue fun d position cursor before => by simp [inValue, hc, hlegal]
  · rw [hescape]
    have hamp : Leads (AtTag o (InValue name entries key none chars)) ['&']
        (AtTag o (InValue name entries key (some .start) (chars ++ ['&']))) :=
      leads_inValue fun d position cursor before => by simp [inValue]
    have hrest : Leads (AtTag o (InValue name entries key (some .start) (chars ++ ['&']))) body
        (AtTag o (InValue name entries key none (chars ++ ['&'] ++ body))) :=
      leads_inReference hspells
    rw [List.append_assoc, List.singleton_append] at hrest
    exact hamp.cons hrest

/-- **A written attribute is an attribute.** -/
theorem leads_attribute {a : ExpandedName × String} (ha : PlainAttribute a) :
    Leads (AtTag o (AtBoundary name entries)) (writeAttribute a)
      (AtTag o (AtBoundary name (entries ++ [entryOf a]))) := by
  have hspace : Leads (AtTag o (AtBoundary name entries)) [' ']
      (AtTag o (AtSpace name entries)) :=
    leads_tag fun d k ⟨e, he, hstep⟩ =>
      ⟨{ e with part := .space }, hstep k ' ' List.mem_cons_self, he, rfl⟩
  have hequals : Leads (AtTag o (InKey name entries a.1.stem.toList)) ['=']
      (AtTag o (AtQuote name entries a.1.stem)) :=
    leads_tag fun d k ⟨hd, position, hpart⟩ => by
      have hend : NameDraft.step? { chars := a.1.stem } '=' = none := rfl
      exact ⟨{ d with part := .quote a.1.stem position },
        by simp [step, hpart, hend, isSpace], hd, _, rfl⟩
  have hquote : Leads (AtTag o (AtQuote name entries a.1.stem)) ['"']
      (AtTag o (InValue name entries a.1.stem none [])) :=
    leads_tag fun d k ⟨hd, position, hpart⟩ =>
      ⟨{ d with part := .value a.1.stem position '"' (k.next '"') [] none },
        by simp [step, hpart, isSpace], hd, _, _, rfl⟩
  have hvalue : Leads (AtTag o (InValue name entries a.1.stem none []))
      (escapeAll a.2)
      (AtTag o (InValue name entries a.1.stem none (escapeAll a.2))) :=
    Leads.each (S := fun done =>
        AtTag o (InValue name entries a.1.stem none (done.flatMap escape)))
      (fun done c hc => by
        rw [List.flatMap_append, List.flatMap_singleton]
        exact leads_value (List.all_eq_true.mp ha.value c hc)) []
  have hend : Leads (AtTag o (InValue name entries a.1.stem none (escapeAll a.2)))
      ['"'] (AtTag o (AtBoundary name (entries ++ [entryOf a]))) :=
    leads_tag fun d k ⟨hd, position, cursor, hpart⟩ => by
      let raw : RawAttribute := ⟨a.1.stem, position, (escapeAll a.2).reverse.reverse, cursor⟩
      refine ⟨{ d with attributes := raw :: d.attributes, part := .afterValue }, ?_,
        atBoundary_of_afterValue ⟨hd.1, ?_⟩ rfl⟩
      · simp only [step, hpart, inValue, if_true, raw]
      · simp [hd.2, RawAttribute.entry, entryOf, raw]
  exact hspace.cons ((leads_key ha.name).append (hequals.cons (hquote.cons (hvalue.append hend))))

theorem Content.openTag_of_resolve {s : Content} {tag : Tag} {resolved : Tag.Resolved}
    {spaces : Namespaces} (hs : s.spaces = spaces) (h : tag.resolve {} spaces = .ok resolved)
    (hempty : tag.empty = false) :
    s.openTag {} tag = .ok { s with opened := ⟨tag.name, resolved, [], []⟩ :: s.opened } := by
  rw [openTag, hs, h]
  change (if tag.empty then _ else _) = _
  rw [hempty]
  rfl

/-- **A written start tag opens its element.** -/
theorem leads_startTag {name : ExpandedName} {attributes : List (ExpandedName × String)}
    (ho : ∀ s : Content, s.opened = o → s.spaces = .initial) (hspace : name.space = none)
    (hname : isName name.stem) (hattributes : ∀ a ∈ attributes, PlainAttribute a)
    (hdistinct : (attributes.map (·.1.stem)).Nodup) :
    Leads (Content.At o (· = .lessThan))
      (name.stem.toList ++ (attributes.flatMap writeAttribute ++ ['>']))
      (Content.At (Element.opened (.mk name attributes "" []) :: o) InText) := by
  have hread : Leads (AtTag o (AtBoundary name.stem [])) (attributes.flatMap writeAttribute)
      (AtTag o (AtBoundary name.stem (attributes.map entryOf))) :=
    Leads.each (S := fun done => AtTag o (AtBoundary name.stem (done.map entryOf)))
      (fun done a ha => by
        rw [List.map_append]
        exact leads_attribute (hattributes a ha)) []
  have hopen : Leads (AtTag o (AtBoundary name.stem (attributes.map entryOf))) ['>']
      (Content.At (Element.opened (.mk name attributes "" []) :: o) InText) :=
    leads_step fun s expand hs => by
      obtain ⟨d, hpiece, e, he, hstep⟩ := hs.piece
      have hdone : d.step s.cursor '>' = .done (e.finish false) := hstep _ _ (by simp)
      have hresolve : (e.finish false).resolve {} .initial = .ok ⟨name, attributes, .initial⟩ :=
        Tag.resolve_written he.1 hspace hname he.2 hattributes hdistinct
      have hopened := Content.openTag_of_resolve (ho (s.go '>' .plain) hs.opened) hresolve rfl
      have hwritten : (e.finish false).name = name.stem := he.1
      rw [hwritten] at hopened
      exact ⟨_, (Content.step_of_tag_done hpiece hdone).trans hopened,
        congrArg _ hs.opened, hs.root, 0, rfl⟩
  exact (leads_name hname).append (hread.append hopen)

/-! ## Elements -/

theorem Element.coreAll_eq (es : List Element) :
    coreAll es = es.flatMap fun e => '<' :: (e.core ++ ['>']) := by
  induction es with
  | nil => rfl
  | cons e es ih => simp [coreAll, ih]

theorem leads_lessThan : Leads (Content.At o InText) ['<'] (Content.At o (· = .lessThan)) :=
  leads_go fun s _ ⟨_, hpiece⟩ =>
    ⟨s.cursor, s.cursor.next '<', .lessThan, Content.step_of_text hpiece, rfl⟩

/-- An end tag up to its angle bracket. -/
theorem leads_endTag (h : isName name) :
    Leads (Content.At o InText) ('<' :: '/' :: name.toList)
      (Content.At o (· = .endName name)) := by
  have hslash : Leads (Content.At o (· = .lessThan)) ['/'] (Content.At o (· = .endOpen)) :=
    leads_go fun s _ hpiece =>
      ⟨s.start, s.cursor.next '/', .endOpen, Content.step_of_slash hpiece, rfl⟩
  have hname := Leads.ofName (P := Content.At o (· = .endOpen))
    (S := fun done => Content.At o (· = .endName (String.ofList done))) h
    (fun c hc => leads_go fun s _ hpiece =>
      ⟨s.start, s.cursor.next c, _, Content.step_of_endOpen hpiece hc, rfl⟩)
    (fun done c hc => leads_go fun s _ hpiece =>
      ⟨s.start, s.cursor.next c, _, Content.step_of_endName hpiece hc, by simp⟩)
  rw [String.ofList_toList] at hname
  exact leads_lessThan.cons (hslash.cons hname)

/-- The end of an element completes it. -/
theorem Content.closeTag_opened {s : Content} {e : Element} (h : s.opened = e.opened :: o) :
    s.closeTag 0 e.opened.written = .ok (addElement { s with opened := o } e) := by
  simp [closeTag, h]

/-- The end of an element makes it a child. -/
theorem leads_close (e : Element) :
    Leads (Content.At (e.opened :: p :: o) (· = .endName e.opened.written)) ['>']
      (Content.At (p.addChild e :: o) InText) :=
  leads_step fun s expand hs => by
    have hgo : (s.go '>' .plain).opened = e.opened :: p :: o := hs.opened
    refine ⟨_, (Content.step_of_endName_close hs.piece).trans (Content.closeTag_opened hgo), ?_⟩
    exact ⟨rfl, hs.root, 0, rfl⟩

/-- **A written element becomes what it was**, up to the angle bracket that ends it. -/
theorem leads_core {e : Element} (he : e.Plain) :
    ∀ o, (∀ s : Content, s.opened = o → s.spaces = .initial) →
      Leads (Content.At o (· = .lessThan)) e.core
        (Content.At (e.opened :: o) (· = .endName e.opened.written)) := by
  induction he with
  | @mk name attributes text children hspace hname hattributes hdistinct htext hchildren ih =>
    intro o ho
    -- While the children are read, the element holds those that came before.
    have hinside : Leads
        (Content.At (Element.opened (.mk name attributes text []) :: o) InText)
        (Element.coreAll children)
        (Content.At (Element.opened (.mk name attributes text children) :: o) InText) := by
      rw [Element.coreAll_eq]
      refine Leads.each (S := fun done =>
        Content.At (Element.opened (.mk name attributes text done) :: o) InText)
        (fun done child hchild => ?_) []
      have hcore := ih child hchild (Element.opened (.mk name attributes text done) :: o)
        fun s hs => by simp [Content.spaces, hs, Element.opened]
      rw [← Element.addChild_opened]
      exact leads_lessThan.cons (hcore.append (leads_close child))
    have hend : Leads (Content.At (Element.opened (.mk name attributes text children) :: o) InText)
        ('<' :: '/' :: name.stem.toList)
        (Content.At (Element.opened (.mk name attributes text children) :: o)
          (· = .endName (Element.opened (.mk name attributes text children)).written)) :=
      leads_endTag hname
    have hwhole := (leads_startTag ho hspace hname hattributes hdistinct).append
      ((leads_escapeAll htext name attributes).append (hinside.append hend))
    simpa [Element.core] using hwhole

/-! ## Documents -/

namespace Document

variable {e : Element}

/-- A written element starts with the start of a name. -/
theorem exists_core_eq (he : e.Plain) :
    ∃ first rest, e.core = first :: rest ∧ isNameStart first := by
  cases he with
  | mk _ hname =>
    obtain ⟨first, rest, hlist, hfirst, -⟩ := isName_iff.mp hname
    rw [Element.core, hlist]
    exact ⟨first, _, rfl, hfirst⟩

/-- Where a tag may open the root, a name opens it. -/
theorem step_before {p : Prolog} (hpiece : p.piece = .lessThan) (hstate : p.state = {})
    (hc : isNameStart c) : step (.before p) c
      = step (.inside {} { cursor := p.cursor, start := p.start, piece := .lessThan }) c := by
  have hstarts : p.startsRoot c = true := by
    unfold isNameStart at hc
    rw [Prolog.startsRoot, hpiece]
    split at hc <;> simp_all
  rw [step, if_pos hstarts, hstate]
  rfl

/-- The last angle bracket of the root element. -/
theorem step_end {s : Content} (h : s.At [e.opened] (· = .endName e.opened.written)) :
    ∃ epilog : Prolog, epilog.piece = .none ∧
      step (.inside {} s) '>' = .ok (.after e epilog) := by
  obtain ⟨expand, hexpand⟩ := exists_read_eq_step s '>'
  have hgo : (s.go '>' .plain).opened = [e.opened] := h.opened
  refine ⟨{ cursor := s.cursor.next '>', state := { expect := .nothing } }, rfl, ?_⟩
  rw [step, insideStep, hexpand, Content.step_of_endName_close h.piece, Content.closeTag_opened hgo]
  rfl

/-- The characters of a written element are taken as they are. -/
theorem decode_write (he : e.Plain) : decode e.write = ('<' :: (e.core ++ ['>']), false) := by
  obtain ⟨first, rest, hcore, hfirst⟩ := exists_core_eq he
  have hnull : first ≠ '\x00' := fun heq => absurd hfirst (by rw [heq]; decide)
  simp [decode, Element.write, hcore, ByteOrder.detect?, hnull]

/-- **A document holds the element that was written into it.** -/
theorem read_write (he : e.Plain) : read e.write = .ok e := by
  obtain ⟨first, rest, hcore, hfirst⟩ := exists_core_eq he
  -- The first angle bracket is read in front of the root; the name behind it opens the root.
  let p : Prolog := { cursor := Cursor.next {} '<', piece := .lessThan }
  have hless : step initial '<' = .ok (.before p) := rfl
  obtain ⟨s, hinside, hs⟩ := leads_core he [] (fun s hs => by simp [Content.spaces, hs])
    { cursor := p.cursor, start := p.start, piece := .lessThan } ⟨rfl, rfl, rfl⟩
  have hread : e.core.foldlM step (.before p) = .ok (.inside {} s) := by
    rw [hcore, List.foldlM_cons, step_before rfl rfl hfirst, ← List.foldlM_cons, ← hcore, hinside]
  obtain ⟨epilog, hepilog, hend⟩ := step_end hs
  have hall : ('<' :: (e.core ++ ['>'])).foldlM step initial = .ok (.after e epilog) := by
    rw [foldlM_cons_ok hless, foldlM_append_ok hread, foldlM_cons_ok hend]
    rfl
  have hstart : start ('<' :: (e.core ++ ['>'])) = (initial, '<' :: (e.core ++ ['>'])) := rfl
  have hfinish : finish (.after e epilog) = .ok e := by
    rw [finish, Prolog.finish, hepilog]
    rfl
  rw [read, decode_write he]
  simp only [hstart, hall]
  exact hfinish

end Document

end Jigsaw.Xml
