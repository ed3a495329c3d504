import Jigsaw.Proofs.Render.Realize
import Jigsaw.Proofs.Render.Tour

/-!
# Proofs/Render/Traces — a rendering ends as its events say

What a rendering meets is known beforehand, and so is what comes of it.  An event may be a defect:
a block without a rule in its position, a name that is not known, an integer with too many digits.
`Traces` says that a step meets a list of events: it fails with the first defect among them, and if
there is none it succeeds, with a library that has gained just what the events ask for.
-/

namespace Jigsaw.Render

open Name

/-! ## Defects -/

/-- The name is known: it is declared for the whole program, or it is the name of a local variable
and not only the outermost frame is asked. -/
def Query.Known (q : Query) (declared : List (String × Kind)) (names : List String) : Prop :=
  (q.name, q.kind) ∈ declared ∨ q.outermost = false ∧ q.kind = .ofVariable ∧ q.name ∈ names

instance (q : Query) (declared : List (String × Kind)) (names : List String) :
    Decidable (q.Known declared names) := inferInstanceAs (Decidable (_ ∨ _))

/-- The defect of a block without a rule in its position. -/
def Visit.defect? (v : Visit) : Option Error :=
  match ValueType.ofName? v.block.type, StatementType.ofName? v.block.type, v.position with
  | some _, _, _ => none
  | none, some _, .statement => none
  | none, some _, .value => some (.statementAsValue v.block)
  | none, none, _ => some (.unknownType v.block)

/-- The defect that an event is, if the program declares these names. -/
def Event.defect? (declared : List (String × Kind)) : Event → Option Error
  | .visit v => v.defect?
  | .query q names site =>
    if q.Known declared names then none else some (.unresolved ⟨q.name, q.kind⟩ site)
  | .helper _ => none
  | .module _ => none
  | .integer k => if Integer.fits k then none else some .oversizedInteger

/-! ## What a scope knows -/

/-- **The scope knows these names**: those declared for the whole program in its outermost frame,
and the local variables in the frames inside. -/
structure Sees (declared : List (String × Kind)) (names : List String) (s : Scope) : Prop where
  globals : ∀ (name : String) {kind : Kind}, kind ≠ .ofHelper →
    ((s.globals.identifier? name kind).isSome ↔ (name, kind) ∈ declared)
  locals : ∀ (name : String) {kind : Kind}, kind ≠ .ofHelper →
    ((∃ frame ∈ s.locals, (Frame.identifier? frame name kind).isSome) ↔
      kind = .ofVariable ∧ name ∈ names)

/-- A lookup finds what some frame binds. -/
theorem isSome_lookup_iff {s : Scope} {name : String} {kind : Kind} :
    (s.lookup name kind).isSome ↔ (s.globals.identifier? name kind).isSome ∨
      ∃ frame ∈ s.locals, (Frame.identifier? frame name kind).isSome := by
  rw [Scope.lookup, List.findSome?_isSome_iff, Scope.frames]
  simp only [List.mem_append, List.mem_singleton, or_and_right, exists_or, exists_eq_left]
  exact or_comm

/-- **A name that is known resolves, any other is a defect.** -/
theorem Sees.resolve {declared : List (String × Kind)} {names : List String} {s : Scope}
    (h : Sees declared names s) {q : Query} (hq : q.kind ≠ .ofHelper) :
    if q.Known declared names then ∃ x, q.resolve s = .ok x
    else q.resolve s = .error ⟨q.name, q.kind⟩ := by
  obtain ⟨name, kind, outermost⟩ := q
  have hglobals := h.globals name hq
  have hlocals := h.locals name hq
  cases outermost with
  | true =>
    have hknown : Query.Known ⟨name, kind, true⟩ declared names ↔
        (s.globals.identifier? name kind).isSome := by
      rw [hglobals, Query.Known]
      simp
    change if _ then ∃ x, s.resolveGlobal name kind = _ else s.resolveGlobal name kind = _
    simp only [hknown, Scope.resolveGlobal]
    cases s.globals.identifier? name kind <;> simp
  | false =>
    have hknown : Query.Known ⟨name, kind, false⟩ declared names ↔
        (s.lookup name kind).isSome := by
      rw [isSome_lookup_iff, hglobals, hlocals, Query.Known]
      simp
    change if _ then ∃ x, s.resolve name kind = _ else s.resolve name kind = _
    simp only [hknown, Scope.resolve]
    cases s.lookup name kind <;> simp

/-- A rendering changes nothing in what is known, -/
theorem Sees.leads {declared : List (String × Kind)} {names : List String} {p q : Pass}
    (h : Sees declared names p.scope) (hpq : Leads p q) : Sees declared names q.scope where
  globals := fun name _ hkind => by
    rw [hpq.identifier?_globals _ hkind]
    exact h.globals name hkind
  locals := fun name _ hkind => by
    rw [hpq.locals]
    exact h.locals name hkind

/-- …and a frame adds the names that are bound in it. -/
theorem Sees.binds {declared : List (String × Kind)} {names more identifiers : List String}
    {p q : Pass} (h : Sees declared names p.scope)
    (hq : Binds {} p.scope.locals more identifiers { p with scope := p.scope.push } q) :
    Sees declared (more ++ names) q.scope := by
  obtain ⟨frame, hlocals, hnew, hidentifiers⟩ := hq.new_frame
  have hframe {name : String} {kind : Kind} : (Frame.identifier? frame name kind).isSome ↔
      kind = .ofVariable ∧ name ∈ more := by
    constructor
    · intro hsome
      obtain ⟨b, hb, rfl, rfl⟩ := Frame.isSome_identifier?_iff.mp hsome
      exact ⟨(hnew b hb).1, (hnew b hb).2.1⟩
    · rintro ⟨rfl, hname⟩
      obtain ⟨i, hi, rfl⟩ := List.getElem_of_mem hname
      exact Option.isSome_of_eq_some (hidentifiers.get hi (hidentifiers.length_eq ▸ hi))
  refine ⟨fun name _ hkind => ?_, fun name _ hkind => ?_⟩
  · rw [hq.globals]
    exact h.globals name hkind
  · rw [hlocals]
    simp only [List.exists_mem_cons_iff, hframe, h.locals name hkind, List.mem_append]
    tauto

/-! ## Endings -/

/-- One more key at the end, unless it is there. -/
def note (keys : List String) (key : String) : List String :=
  if key ∈ keys then keys else keys ++ [key]

/-- **A library gains what events ask for**, each in the order of its first request. -/
structure Records (events : List Event) (l m : Library) : Prop where
  helpers : m.helpers.map Helper.key
    = (events.filterMap Event.helper?).foldl note (l.helpers.map Helper.key)
  imports : m.imports = (events.filterMap Event.module?).foldl note l.imports

theorem Records.nil (l : Library) : Records [] l l := ⟨rfl, rfl⟩

theorem Records.append {events later : List Event} {l m n : Library} (h : Records events l m)
    (hlater : Records later m n) : Records (events ++ later) l n where
  helpers := by
    rw [List.filterMap_append, List.foldl_append, ← h.helpers, hlater.helpers]
  imports := by
    rw [List.filterMap_append, List.foldl_append, ← h.imports, hlater.imports]

/-- **How a step ends that meets events**: with an outcome as it should be if none of them is a
defect, otherwise with the first that is one. -/
inductive Ends {α : Type} (declared : List (String × Kind)) (events : List Event) (R : α → Prop)
    (p : Pass) : EStateM.Result Error Pass α → Prop
  | ok {a : α} {q : Pass} (hnone : events.findSome? (Event.defect? declared) = none)
      (outcome : R a) (valid : Valid q) (leads : Leads p q)
      (records : Records events p.library q.library) : Ends declared events R p (.ok a q)
  | error {e : Error} {q : Pass}
      (hdefect : events.findSome? (Event.defect? declared) = some e) :
      Ends declared events R p (.error e q)

namespace Ends

variable {α : Type} {declared : List (String × Kind)} {events later : List Event} {R S : α → Prop}
  {p q : Pass} {r : EStateM.Result Error Pass α}

/-- An ending is one for other events that come to the same. -/
theorem imp (h : Ends declared events R p r) (hRS : ∀ a, R a → S a)
    (hdefect : later.findSome? (Event.defect? declared)
      = events.findSome? (Event.defect? declared))
    (hrecords : ∀ l, Records events p.library l → Records later p.library l) :
    Ends declared later S p r := by
  cases h with
  | ok hnone outcome valid leads records =>
    exact .ok (hdefect.trans hnone) (hRS _ outcome) valid leads (hrecords _ records)
  | error hfirst => exact .error (hdefect.trans hfirst)

/-- An ending after events without a defect. -/
theorem after (h : Ends declared later R q r)
    (hnone : events.findSome? (Event.defect? declared) = none) (leads : Leads p q)
    (records : Records events p.library q.library) : Ends declared (events ++ later) R p r := by
  have hdefect : (events ++ later).findSome? (Event.defect? declared)
      = later.findSome? (Event.defect? declared) := by
    rw [List.findSome?_append, hnone]
    rfl
  cases h with
  | ok hnone' outcome valid leads' records' =>
    exact .ok (hdefect.trans hnone') outcome valid (leads.trans leads') (records.append records')
  | error hfirst => exact .error (hdefect.trans hfirst)

end Ends

/-- **The step meets these events**, where the local names `names` are known. -/
structure Traces {α : Type} (declared : List (String × Kind)) (names : List String)
    (m : RenderM α) (events : List Event) (R : α → Prop) : Prop where
  ends : ∀ {p : Pass}, Valid p → Sees declared names p.scope → Ends declared events R p (m p)

namespace Traces

variable {α β : Type} {declared : List (String × Kind)} {names : List String} {m : RenderM α}
  {events later : List Event} {R S : α → Prop}

theorem imp (h : Traces declared names m events R) (hRS : ∀ a, R a → S a) :
    Traces declared names m events S where
  ends := fun hp hsees => (h.ends hp hsees).imp hRS rfl fun _ => id

theorem of_eq (h : Traces declared names m events R) (heq : events = later) :
    Traces declared names m later R := heq ▸ h

theorem pure {a : α} (h : R a) : Traces declared names (pure a) [] R where
  ends := fun {p} hp _ => .ok rfl h hp (.refl p) (.nil _)

/-- A step that does nothing to the pass. -/
theorem idle (h : ∀ p, ∃ a, m p = .ok a p) : Traces declared names m [] fun _ => True where
  ends := fun {p} hp _ => by
    obtain ⟨a, ha⟩ := h p
    rw [ha]
    exact .ok rfl trivial hp (.refl p) (.nil _)

/-- A step that stops at a defect. -/
theorem throw {event : Event} {e : Error} (h : event.defect? declared = some e) :
    Traces declared names (throw e : RenderM α) [event] R where
  ends := fun {p} _ _ => by
    refine Ends.error (q := p) ?_
    rw [List.findSome?_cons, h]

/-- An event without consequences in front. -/
theorem cons {event : Event} (hdefect : event.defect? declared = none)
    (hhelper : event.helper? = none) (hmodule : event.module? = none)
    (h : Traces declared names m events R) : Traces declared names m (event :: events) R where
  ends := fun hp hsees => by
    refine (h.ends hp hsees).imp (fun _ => id) ?_ fun l records => ⟨?_, ?_⟩
    · rw [List.findSome?_cons, hdefect]
    · rw [List.filterMap_cons, hhelper]
      exact records.helpers
    · rw [List.filterMap_cons, hmodule]
      exact records.imports

/-- **Steps in a row**: the second meets its events if the first met no defect. -/
theorem bind {f : α → RenderM β} {S : β → Prop} (hm : Traces declared names m events R)
    (hf : ∀ a, R a → Traces declared names (f a) later S) :
    Traces declared names (m >>= f) (events ++ later) S where
  ends := fun {p} hp hsees => by
    have hfirst := hm.ends hp hsees
    change Ends declared _ S p (EStateM.bind m f p)
    unfold EStateM.bind
    cases hrun : m p with
    | error e q =>
      rw [hrun] at hfirst
      cases hfirst with
      | error hdefect =>
        refine .error ?_
        rw [List.findSome?_append, hdefect]
        rfl
    | ok a q =>
      rw [hrun] at hfirst
      cases hfirst with
      | ok hnone outcome valid leads records =>
        exact ((hf a outcome).ends valid (hsees.leads leads)).after hnone leads records

/-- A step whose outcome is put into another form. -/
theorem bindPure {f : α → β} {S : β → Prop} (hm : Traces declared names m events R)
    (hf : ∀ a, R a → S (f a)) : Traces declared names (m >>= fun a => Pure.pure (f a)) events S :=
  (hm.bind fun a ha => .pure (hf a ha)).of_eq (List.append_nil _)

theorem map {f : α → β} {S : β → Prop} (hm : Traces declared names m events R)
    (hf : ∀ a, R a → S (f a)) : Traces declared names (f <$> m) events S := by
  rw [map_eq_pure_bind]
  exact hm.bindPure hf

/-- A row of steps of one kind. -/
theorem mapM {g : β → RenderM α} {es : β → List Event}
    (hg : ∀ b, Traces declared names (g b) (es b) fun _ => True) :
    ∀ l : List β, Traces declared names (l.mapM g) (l.flatMap es) fun _ => True
  | [] => by
      rw [List.mapM_nil]
      exact .pure trivial
  | b :: rest => by
      rw [List.mapM_cons, List.flatMap_cons]
      exact (hg b).bind fun _ _ => (mapM hg rest).bindPure fun _ _ => trivial

/-- **A frame**: its body knows the names that are bound in it. -/
theorem frame {more : List String} {f : List String → RenderM α}
    (hf : ∀ identifiers, Traces declared (more ++ names) (f identifiers) events R) :
    Traces declared names (frame (more.mapM bindLocal >>= f)) events R where
  ends := fun {p} hp hsees => by
    obtain ⟨identifiers, q, hrun, hq⟩ := mapM_bindLocal_binds more hp.push rfl
    have hbody := (hf identifiers).ends hq.valid (hsees.binds hq)
    rw [frame_eq, bind_of_ok hrun]
    cases hend : f identifiers q with
    | error e r =>
      rw [hend] at hbody
      cases hbody with
      | error hdefect => exact .error hdefect
    | ok a r =>
      rw [hend] at hbody
      cases hbody with
      | ok hnone outcome valid leads records =>
        obtain ⟨hvalid, hleads⟩ := hq.leads_pop hp valid leads
        exact .ok hnone outcome hvalid hleads (hq.library ▸ records)

end Traces

/-! ## Single steps -/

section

variable {declared : List (String × Kind)} {names : List String}

/-- A name that is looked up. -/
theorem traces_reference (b : Block) (slot : String) {q : Query} (hq : q.kind ≠ .ofHelper) :
    Traces declared names (reference b slot q.resolve) [.query q names (.ofSlot b slot)]
      fun _ => True where
  ends := fun {p} hp hsees => by
    have hresolve := hsees.resolve hq
    by_cases hknown : q.Known declared names
    · rw [if_pos hknown] at hresolve
      obtain ⟨x, hx⟩ := hresolve
      rw [reference_of_ok hx]
      refine .ok ?_ trivial hp (.refl p) ⟨rfl, rfl⟩
      rw [List.findSome?_cons, Event.defect?, if_pos hknown]
      rfl
    · rw [if_neg hknown] at hresolve
      rw [reference_of_error hresolve]
      refine .error ?_
      rw [List.findSome?_cons, Event.defect?, if_neg hknown]

/-- A name whose nearest binding is looked up, -/
theorem traces_resolve (b : Block) (slot name : String) {kind : Kind} (hkind : kind ≠ .ofHelper) :
    Traces declared names (resolve b slot name kind)
      [.query ⟨name, kind, false⟩ names (.ofSlot b slot)] fun _ => True :=
  traces_reference b slot (q := ⟨name, kind, false⟩) hkind

/-- …and one that is looked up in the outermost frame. -/
theorem traces_resolveGlobal (b : Block) (slot name : String) {kind : Kind}
    (hkind : kind ≠ .ofHelper) :
    Traces declared names (resolveGlobal b slot name kind)
      [.query ⟨name, kind, true⟩ names (.ofSlot b slot)] fun _ => True :=
  traces_reference b slot (q := ⟨name, kind, true⟩) hkind

/-- A request for a routine notes its key. -/
theorem keys_helper (p : Pass) (key : String) (define : String → String) :
    (p.helper key define).2.library.helpers.map Helper.key
      = note (p.library.helpers.map Helper.key) key := by
  unfold Pass.helper
  split
  · rename_i h hfind
    have hmem : key ∈ p.library.helpers.map Helper.key :=
      List.mem_map.mpr ⟨h, List.mem_of_find?_eq_some hfind, by simpa using List.find?_some hfind⟩
    rw [note, if_pos hmem]
  · rename_i hfind
    have hnew : key ∉ p.library.helpers.map Helper.key := fun hmem => by
      obtain ⟨h, hh, hkey⟩ := List.mem_map.mp hmem
      exact List.find?_eq_none.mp hfind h hh (by simpa using hkey)
    rw [note, if_neg hnew, List.map_append]
    rfl

/-- A support routine that is asked for. -/
theorem traces_helper (key : String) (define : String → String) :
    Traces declared names (helper key define) [.helper key] fun _ => True where
  ends := fun {p} hp _ => by
    obtain ⟨hvalid, hleads⟩ := helper_leads hp key define
    refine Ends.ok (q := (p.helper key define).2) rfl trivial hvalid hleads ⟨?_, ?_⟩
    · exact keys_helper p key define
    · unfold Pass.helper
      split <;> rfl

/-- An import that is asked for. -/
theorem traces_requireRandom :
    Traces declared names (requireImport "random") [.module "random"] fun _ => True where
  ends := fun {p} hp _ => by
    obtain ⟨hvalid, hleads⟩ := Composed.requireRandom.leads hp
    refine Ends.ok rfl trivial hvalid hleads ⟨?_, ?_⟩
    · exact congrArg (List.map Helper.key) (prefix_withImport p.library "random").1
    · change (p.library.withImport "random").imports = note p.library.imports "random"
      unfold Library.withImport note
      split <;> rfl

end

end Jigsaw.Render
