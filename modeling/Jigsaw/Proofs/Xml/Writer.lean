import Jigsaw.Xml.Document

/-!
# Proofs/Xml/Writer — elements written as text

`Element.write` writes an element with a start tag and an end tag, and writes as references all
characters that could be taken for markup and all spaces that reading would change.  This module has
the writer and what its parts mean to the reader, one by one: a reference stands for its character
(`spells_escape`), a written value is that value (`attributeValue_written`), and a start tag without
namespaces is its name and its attributes (`resolve_written`).
-/

namespace Jigsaw.Xml

/-! ## The writer -/

/-- How a character is written in text and in values. -/
def escape : Char → List Char
  | '<' => ['&', 'l', 't', ';']
  | '>' => ['&', 'g', 't', ';']
  | '&' => ['&', 'a', 'm', 'p', ';']
  | '"' => ['&', 'q', 'u', 'o', 't', ';']
  | '\'' => ['&', 'a', 'p', 'o', 's', ';']
  | '\t' => ['&', '#', '9', ';']
  | '\n' => ['&', '#', '1', '0', ';']
  | '\r' => ['&', '#', '1', '3', ';']
  | c => [c]

/-- How a text is written. -/
def escapeAll (text : String) : List Char := text.toList.flatMap escape

/-- How an attribute is written, with the space in front of it. -/
def writeAttribute (a : ExpandedName × String) : List Char :=
  ' ' :: (a.1.stem.toList ++ '=' :: '"' :: (escapeAll a.2 ++ ['"']))

namespace Element

mutual

/-- How an element is written, without the first and the last angle bracket. -/
def core : Element → List Char
  | .mk name attributes text children =>
    name.stem.toList ++ (attributes.flatMap writeAttribute ++ '>' :: (escapeAll text ++
      (coreAll children ++ '<' :: '/' :: name.stem.toList)))

/-- How elements are written one after the other. -/
def coreAll : List Element → List Char
  | [] => []
  | e :: rest => '<' :: (e.core ++ '>' :: coreAll rest)

end

/-- How an element is written. -/
def write (e : Element) : String := String.ofList ('<' :: (e.core ++ ['>']))

end Element

/-! ## What can be written -/

/-- A name without a colon. -/
def isName (name : String) : Bool :=
  match name.toList with
  | [] => false
  | first :: rest => isNameStart first && rest.all isNameChar

/-- A text that a document may hold. -/
def isText (text : String) : Bool := text.toList.all isLegal

/-- An attribute without a namespace that declares none. -/
structure PlainAttribute (a : ExpandedName × String) : Prop where
  space : a.1.space = none
  name : isName a.1.stem
  declares : a.1.stem ≠ "xmlns"
  value : isText a.2

/-- An element without namespaces, in all its parts. -/
inductive Element.Plain : Element → Prop
  | mk {name : ExpandedName} {attributes : List (ExpandedName × String)} {text : String}
      {children : List Element} (hspace : name.space = none) (hname : isName name.stem)
      (hattributes : ∀ a ∈ attributes, PlainAttribute a)
      (hdistinct : (attributes.map (·.1.stem)).Nodup) (htext : isText text)
      (hchildren : ∀ child ∈ children, child.Plain) : Plain (.mk name attributes text children)

theorem isName_iff {name : String} : isName name ↔
    ∃ first rest, name.toList = first :: rest ∧ isNameStart first ∧ ∀ c ∈ rest, isNameChar c := by
  unfold isName
  split
  · simp_all
  · next first rest hlist =>
    simp only [hlist, Bool.and_eq_true, List.all_eq_true, List.cons.injEq]
    exact ⟨fun h => ⟨first, rest, ⟨rfl, rfl⟩, h⟩, fun ⟨_, _, ⟨rfl, rfl⟩, h⟩ => h⟩

theorem isNameChar_of_isNameStart {c : Char} (h : isNameStart c) : isNameChar c := by
  have halpha : c.isAlphanum = (c.isAlpha || c.isDigit) := rfl
  unfold isNameStart at h
  unfold isNameChar
  split at h <;> grind

/-- All characters of a name may stand in a name; the colon may not. -/
theorem isNameChar_of_isName {name : String} (h : isName name) {c : Char} (hc : c ∈ name.toList) :
    isNameChar c := by
  obtain ⟨first, rest, hlist, hfirst, hrest⟩ := isName_iff.mp h
  rw [hlist] at hc
  rcases List.mem_cons.mp hc with rfl | hc
  · exact isNameChar_of_isNameStart hfirst
  · exact hrest c hc

theorem splitName_of_isName {name : String} (h : isName name) : splitName name = (none, name) := by
  have hcolon : ':' ∉ name.toList := fun hmem =>
    absurd (isNameChar_of_isName h hmem) (by decide)
  simp [splitName, hcolon]

/-! ## Reading step by step -/

section

variable {σ α : Type} {f : σ → α → Reading σ} {s t : σ}

theorem foldlM_cons_ok {a : α} (h : f s a = .ok t) (rest : List α) :
    (a :: rest).foldlM f s = rest.foldlM f t := by
  rw [List.foldlM_cons, h]
  rfl

theorem foldlM_append_ok {read : List α} (h : read.foldlM f s = .ok t) (rest : List α) :
    (read ++ rest).foldlM f s = rest.foldlM f t := by
  rw [List.foldlM_append, h]
  rfl

end

/-! ## References -/

namespace Reference

/-- The characters that finish a reference. -/
inductive Spells (r : Reference) : Draft → List Char → Prop
  | done {d : Draft} {c : Char} (h : d.step c = .done r) : Spells r d [c]
  | more {d d' : Draft} {c : Char} {cs : List Char} (h : d.step c = .more d')
      (rest : Spells r d' cs) : Spells r d (c :: cs)

/-- The character that a reference stands for in every document. -/
def Means (r : Reference) (c : Char) : Prop :=
  match r with
  | .character number => character? number = some c
  | .entity name => predefined? name = some c

end Reference

/-- **A written character is itself or a reference to it.**  One that is itself is no markup and no
space but the blank. -/
theorem spells_escape (c : Char) :
    (escape c = [c] ∧ c ∉ ['<', '>', '&', '"', '\'', '\t', '\n', '\r']) ∨
      ∃ body r, escape c = '&' :: body ∧ Reference.Spells r .start body ∧ r.Means c := by
  unfold escape
  split
  · exact .inr ⟨_, .entity "lt", rfl, .more rfl (.more rfl (.done rfl)), rfl⟩
  · exact .inr ⟨_, .entity "gt", rfl, .more rfl (.more rfl (.done rfl)), rfl⟩
  · exact .inr ⟨_, .entity "amp", rfl, .more rfl (.more rfl (.more rfl (.done rfl))), rfl⟩
  · exact .inr ⟨_, .entity "quot", rfl,
      .more rfl (.more rfl (.more rfl (.more rfl (.done rfl)))), rfl⟩
  · exact .inr ⟨_, .entity "apos", rfl,
      .more rfl (.more rfl (.more rfl (.more rfl (.done rfl)))), rfl⟩
  · exact .inr ⟨_, .character 9, rfl, .more rfl (.more rfl (.done rfl)), rfl⟩
  · exact .inr ⟨_, .character 10, rfl, .more rfl (.more rfl (.more rfl (.done rfl))), rfl⟩
  · exact .inr ⟨_, .character 13, rfl, .more rfl (.more rfl (.more rfl (.done rfl))), rfl⟩
  · exact .inl ⟨rfl, by simp_all⟩

/-! ## Values -/

namespace ValueDraft

variable (expand : String → Position → List Char → Reading (List Char)) {r : Reference}
  {c last : Char} {cs : List Char}

/-- The end of a reference adds its character. -/
theorem step_done {draft : Reference.Draft} (h : draft.step last = .done r) (hc : r.Means c)
    {d : ValueDraft} {start : Position} (hd : d.reference = some (start, draft)) :
    step true expand d last = .ok { cursor := d.cursor.next last, out := c :: d.out } := by
  cases r with
  | character number =>
    have hnumber : Reference.character? number = some c := hc
    have hout : charByNumber true c d.out = c :: d.out := by
      by_cases hblank : c = ' ' <;> simp [charByNumber, space, hblank]
    simp only [step, hd, h, hnumber, hout]
  | entity name =>
    have hname : Reference.predefined? name = some c := hc
    simp only [step, hd, h, hname]

/-- The rest of a reference adds its character. -/
theorem foldlM_spells {draft : Reference.Draft} (h : r.Spells draft cs) (hc : r.Means c)
    (d : ValueDraft) (start : Position) (hd : d.reference = some (start, draft)) :
    ∃ d', cs.foldlM (step true expand) d = .ok d' ∧ d'.out = c :: d.out ∧ d'.reference = none := by
  induction h generalizing d with
  | @done draft last h =>
    refine ⟨{ cursor := d.cursor.next last, out := c :: d.out }, ?_, rfl, rfl⟩
    exact foldlM_cons_ok (step_done expand h hc hd) []
  | @more draft draft' first rest h _ ih =>
    have hstep : step true expand d first
        = .ok { d with cursor := d.cursor.next first, reference := some (start, draft') } := by
      simp only [step, hd, h]
    rw [foldlM_cons_ok hstep]
    exact ih _ rfl

/-- A written character adds itself. -/
theorem foldlM_escape (c : Char) (d : ValueDraft) (hd : d.reference = none) :
    ∃ d', (escape c).foldlM (step true expand) d = .ok d' ∧ d'.out = c :: d.out ∧
      d'.reference = none := by
  rcases spells_escape c with ⟨hescape, hc⟩ | ⟨body, r, hescape, hspells, hmeans⟩
  · have hstep : step true expand d c = .ok { cursor := d.cursor.next c, out := c :: d.out } := by
      simp only [List.mem_cons, not_or] at hc
      obtain ⟨hless, -, hamp, -, -, htab, hfeed, hreturn, -⟩ := hc
      by_cases hblank : c = ' '
      · simp only [step, hd, hblank, space, if_true]
      · simp only [step, hd]
    refine ⟨{ cursor := d.cursor.next c, out := c :: d.out }, ?_, rfl, rfl⟩
    rw [hescape]
    exact foldlM_cons_ok hstep []
  · have hstep : step true expand d '&'
        = .ok ⟨d.cursor.next '&', d.out, false, some (d.cursor.position, .start)⟩ := by
      simp only [step, hd]
    rw [hescape, foldlM_cons_ok hstep]
    exact foldlM_spells expand hspells hmeans _ _ rfl

/-- A written text adds itself. -/
theorem foldlM_escapeAll (cs : List Char) (d : ValueDraft) (hd : d.reference = none) :
    ∃ d', (cs.flatMap escape).foldlM (step true expand) d = .ok d' ∧ d'.out = cs.reverse ++ d.out ∧
      d'.reference = none := by
  induction cs generalizing d with
  | nil => exact ⟨d, rfl, rfl, hd⟩
  | cons c cs ih =>
    obtain ⟨d₁, hread, hout, hnone⟩ := foldlM_escape expand c d hd
    obtain ⟨d₂, hread₂, hout₂, hnone₂⟩ := ih d₁ hnone
    refine ⟨d₂, ?_, by simp [hout₂, hout], hnone₂⟩
    rw [List.flatMap_cons, foldlM_append_ok hread, hread₂]

end ValueDraft

/-- **A written value is read as that value**, whatever its characters. -/
theorem attributeValue_written (anchor : Position) (cursor : Cursor) (value : String) :
    Doctype.attributeValue {} true anchor cursor (escapeAll value) = .ok value := by
  have hexpand (expand : String → Position → List Char → Reading (List Char)) :
      ((escapeAll value).foldlM (ValueDraft.step true expand) { cursor, out := [] }
        >>= ValueDraft.finish) = .ok value.toList.reverse := by
    obtain ⟨d, hread, hout, hnone⟩ :=
      ValueDraft.foldlM_escapeAll expand value.toList { cursor, out := [] } rfl
    rw [escapeAll, hread]
    change d.finish = _
    rw [ValueDraft.finish, hnone, hout, List.append_nil]
  rw [Doctype.attributeValue, Doctype.expandValue]
  simp only [hexpand]
  change Except.ok (String.ofList value.toList.reverse.reverse) = _
  rw [List.reverse_reverse, String.ofList_toList]

/-! ## Start tags -/

theorem declaredPrefix?_of_isName {name : String} (h : isName name) (hne : name ≠ "xmlns") :
    Namespaces.declaredPrefix? name = none := by
  simp [Namespaces.declaredPrefix?, splitName_of_isName h, hne]

theorem plain_stem {name : ExpandedName} (h : name.space = none) : .plain name.stem = name := by
  cases name
  simp_all [ExpandedName.plain]

/-- The name of an attribute and what stands between its quotes. -/
def RawAttribute.entry (raw : RawAttribute) : String × List Char := (raw.name, raw.value)

/-- The same, of the attribute as it is written. -/
def entryOf (a : ExpandedName × String) : String × List Char := (a.1.stem, escapeAll a.2)

namespace Tag

variable {tag : Tag} {a : ExpandedName × String} {attributes : List (ExpandedName × String)}

theorem addRaw_written {s : Settled} {raw : RawAttribute} (hraw : raw.entry = entryOf a)
    (ha : PlainAttribute a) (hnew : a.1.stem ∉ s.names) :
    s.addRaw {} tag raw
      = .ok ⟨s.attributes ++ [(a.1.stem, a.2)], s.names ++ [a.1.stem], s.spaces⟩ := by
  obtain ⟨hname, hvalue⟩ := Prod.mk.inj hraw
  rw [Settled.addRaw, hname, if_neg hnew, hvalue]
  simp only [Doctype.attributeType?, List.find?_nil, Option.map_none, Option.getD_none,
    attributeValue_written]
  change s.add tag a.1.stem a.2 = _
  rw [Settled.add, declaredPrefix?_of_isName ha.name ha.declares]

/-- The attributes of a written tag are settled as they are. -/
theorem foldlM_addRaw {raws : List RawAttribute} (s : Settled)
    (hraws : raws.map RawAttribute.entry = attributes.map entryOf)
    (hplain : ∀ a ∈ attributes, PlainAttribute a)
    (hdistinct : (s.names ++ attributes.map (·.1.stem)).Nodup) :
    raws.foldlM (Settled.addRaw {} tag) s
      = .ok ⟨s.attributes ++ attributes.map fun a => (a.1.stem, a.2),
          s.names ++ attributes.map (·.1.stem), s.spaces⟩ := by
  induction attributes generalizing raws s with
  | nil =>
    rw [List.map_nil, List.map_eq_nil_iff] at hraws
    simp [hraws]
    rfl
  | cons a attributes ih =>
    obtain ⟨raw, raws, rfl, hraw, hraws⟩ := List.map_eq_cons_iff.mp hraws
    have hnew : a.1.stem ∉ s.names := fun hmem =>
      (List.nodup_append.mp hdistinct).2.2 _ hmem _ List.mem_cons_self rfl
    rw [foldlM_cons_ok (addRaw_written hraw (hplain a List.mem_cons_self) hnew)]
    have hrest := ih ⟨s.attributes ++ [(a.1.stem, a.2)], s.names ++ [a.1.stem], s.spaces⟩ hraws
      (fun b hb => hplain b (List.mem_cons_of_mem a hb)) (by simpa using hdistinct)
    simpa using hrest

/-- Names without a colon are names without a namespace, and no two of these are one. -/
theorem foldlM_addExpanded (tag : Tag) (spaces : Namespaces) (done : List (ExpandedName × String))
    (hplain : ∀ a ∈ attributes, PlainAttribute a)
    (hdistinct : ((done ++ attributes).map (·.1.stem)).Nodup) :
    (attributes.map fun a => (a.1.stem, a.2)).foldlM (addExpanded tag spaces) done
      = .ok (done ++ attributes) := by
  induction attributes generalizing done with
  | nil =>
    rw [List.append_nil]
    rfl
  | cons a attributes ih =>
    have ha := hplain a List.mem_cons_self
    have hname : spaces.attributeName? a.1.stem = some a.1 := by
      simp only [Namespaces.attributeName?, splitName_of_isName ha.name, plain_stem ha.space]
    have hnew : done.lookup a.1 = none := by
      rw [List.lookup_eq_none_iff]
      intro b hb
      have hne : b.1.stem ≠ a.1.stem := by
        rw [List.map_append, List.nodup_append] at hdistinct
        exact hdistinct.2.2 _ (List.mem_map_of_mem hb) _ List.mem_cons_self
      simpa using fun heq => hne (congrArg ExpandedName.stem heq).symm
    have hstep : addExpanded tag spaces done (a.1.stem, a.2) = .ok (done ++ [a]) := by
      simp [addExpanded, hname, hnew]
    rw [List.map_cons, foldlM_cons_ok hstep]
    have hrest := ih (done ++ [a]) (fun b hb => hplain b (List.mem_cons_of_mem a hb))
      (by simpa using hdistinct)
    simpa using hrest

/-- **A written start tag means its name and its attributes.** -/
theorem resolve_written {name : ExpandedName} (hname : tag.name = name.stem)
    (hspace : name.space = none) (hstem : isName name.stem)
    (hraws : tag.attributes.map RawAttribute.entry = attributes.map entryOf)
    (hplain : ∀ a ∈ attributes, PlainAttribute a)
    (hdistinct : (attributes.map (·.1.stem)).Nodup) :
    tag.resolve {} .initial = .ok ⟨name, attributes, .initial⟩ := by
  have hsettle : tag.settle {} .initial
      = .ok ⟨attributes.map fun a => (a.1.stem, a.2), attributes.map (·.1.stem), .initial⟩ := by
    rw [settle, foldlM_addRaw _ hraws hplain (by simpa using hdistinct)]
    rfl
  have hexpand := foldlM_addExpanded tag .initial [] hplain hdistinct
  have helement : Namespaces.initial.elementName? tag.name = some name := by
    have hnone : Namespaces.initial.lookup "" = none := rfl
    simp only [hname, Namespaces.elementName?, splitName_of_isName hstem, hnone, plain_stem hspace]
  simp only [resolve, hsettle]
  change ((attributes.map fun a => (a.1.stem, a.2)).foldlM (tag.addExpanded .initial) []
    >>= _) = _
  rw [hexpand]
  simp only [helement]
  rfl

end Tag

end Jigsaw.Xml
