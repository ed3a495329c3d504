import Jigsaw.Proofs.Name.Run

/-!
# Proofs/Name/Compatibility — identifiers that are one identifier to the reader of the program

Identifiers of a program are compared in a normal form, in which a full-width letter is the letter
and a ligature its letters.  A scope compares them as they are written.  `Normalizes` is all that is
used of the form.  Identifiers that are their own form, those of ASCII among them, stay apart in
every run and are never reserved.  Any other identifier made of ASCII, full-width letters and the
ligature is handed out as it stands, although its form is a reserved word or belongs to a binding
that is there already.
-/

namespace Jigsaw.Name

/-! ## Compatibility characters -/

/-- The letters of ASCII. -/
def letters : List Char := "ABCDEFGHIJKLMNOPQRSTUVWXYZabcdefghijklmnopqrstuvwxyz".toList

/-- The full-width form of a letter. -/
def fullWidth (letter : Char) : Char := Char.ofNat (letter.toNat + 0xFEE0)

/-- The ligature of `f` and `i`. -/
def ligature : Char := Char.ofNat 0xFB01

/-- The full-width letters and the ligature, with what they stand for. -/
def compatibility : List (Char × List Char) :=
  (ligature, ['f', 'i']) :: letters.map fun letter => (fullWidth letter, [letter])

/-- What a character stands for: itself, if the table does not have it. -/
def resolved (c : Char) : List Char := (compatibility.lookup c).getD [c]

/-- A text with every character of the table resolved. -/
def fold (s : String) : String := String.ofList (s.toList.flatMap resolved)

/-- Whether all characters are of ASCII. -/
def isAscii (s : String) : Bool := s.toList.all fun c => c.toNat < 0x80

/-- **What is assumed of the form in which identifiers are compared.** -/
structure Normalizes (nfkc : String → String) : Prop where
  /-- A text of ASCII is its own form. -/
  ascii : ∀ s, isAscii s → nfkc s = s
  /-- Inside an identifier, a full-width letter has the form of the letter and the ligature that of
  its letters. -/
  inside : ∀ (before after : List Char) (c : Char),
    Text.isIdentifier (String.ofList (before ++ c :: after)) →
      nfkc (String.ofList (before ++ c :: after))
        = nfkc (String.ofList (before ++ resolved c ++ after))

/-- The table has no character of ASCII, and gives characters of ASCII that may start an
identifier. -/
theorem compatibility_spec : ∀ e ∈ compatibility, 0x80 ≤ e.1.toNat ∧ e.2 ≠ [] ∧
    e.2.all fun d => d.toNat < 0x80 && Text.isIdentifierStart d := by
  decide +kernel

/-- A character outside the table is resolved to itself. -/
theorem resolved_cases (c : Char) : resolved c = [c] ∨ 0x80 ≤ c.toNat ∧ resolved c ≠ [] ∧
    ∀ d ∈ resolved c, d.toNat < 0x80 ∧ Text.isIdentifierStart d := by
  rw [resolved]
  cases h : compatibility.lookup c with
  | none => exact .inl rfl
  | some ds =>
    obtain ⟨l, r, heq, -⟩ := List.lookup_eq_some_iff.mp h
    obtain ⟨hc, hne, hds⟩ := compatibility_spec (c, ds) (by simp [heq])
    exact .inr ⟨hc, hne, by simpa using hds⟩

theorem resolved_of_ascii {c : Char} (h : c.toNat < 0x80) : resolved c = [c] := by
  rcases resolved_cases c with heq | ⟨hc, -⟩
  · exact heq
  · exact absurd hc (Nat.not_le.mpr h)

/-! ## Folding an identifier -/

/-- What may start an identifier may go on in it. -/
theorem isIdentifierPart_of_start {c : Char} (h : Text.isIdentifierStart c) :
    Text.isIdentifierPart c := by
  rw [Text.isIdentifierStart] at h
  rw [Text.isIdentifierPart]
  by_cases hascii : c.toNat < 0x80
  · simp only [if_pos hascii, Char.isAlphanum, Bool.or_eq_true] at h ⊢
    exact h.imp_left .inl
  · rw [if_neg hascii] at h ⊢
    rw [h, Bool.true_or]

/-- An identifier stays one when one of its characters is resolved. -/
theorem isIdentifier_resolved {before after : List Char} {c : Char}
    (h : Text.isIdentifier (String.ofList (before ++ c :: after))) :
    Text.isIdentifier (String.ofList (before ++ resolved c ++ after)) := by
  rcases resolved_cases c with heq | ⟨-, hne, hds⟩
  · simpa [heq] using h
  · have hparts : ∀ d ∈ resolved c, Text.isIdentifierPart d := fun d hd =>
      isIdentifierPart_of_start (hds d hd).2
    simp only [isIdentifier_iff, String.toList_ofList] at h ⊢
    obtain ⟨e, es, heq, he, hes⟩ := h
    cases before with
    | nil =>
      obtain ⟨-, rfl⟩ := List.cons.inj heq
      obtain ⟨d, ds, hd⟩ := List.exists_cons_of_ne_nil hne
      rw [hd] at hds hparts ⊢
      refine ⟨d, ds ++ after, rfl, (hds d List.mem_cons_self).2, fun x hx => ?_⟩
      rcases List.mem_append.mp hx with hx | hx
      · exact hparts x (List.mem_cons_of_mem _ hx)
      · exact hes x hx
    | cons b bs =>
      obtain ⟨rfl, rfl⟩ := List.cons.inj heq
      refine ⟨b, bs ++ resolved c ++ after, rfl, he, fun x hx => ?_⟩
      rcases List.mem_append.mp hx with hx | hx
      · rcases List.mem_append.mp hx with hx | hx
        · exact hes x (List.mem_append_left _ hx)
        · exact hparts x hx
      · exact hes x (List.mem_append_right _ (List.mem_cons_of_mem _ hx))

/-- Resolving the characters of an identifier from left to right leaves an identifier of the same
form. -/
theorem Normalizes.resolve {nfkc : String → String} (h : Normalizes nfkc) :
    ∀ (cs before : List Char), Text.isIdentifier (String.ofList (before ++ cs)) →
      Text.isIdentifier (String.ofList (before ++ cs.flatMap resolved)) ∧
        nfkc (String.ofList (before ++ cs)) = nfkc (String.ofList (before ++ cs.flatMap resolved))
  | [], _, hid => ⟨hid, rfl⟩
  | c :: cs, before, hid => by
      obtain ⟨hfolded, hform⟩ := h.resolve cs (before ++ resolved c) (isIdentifier_resolved hid)
      rw [List.flatMap_cons, ← List.append_assoc]
      exact ⟨hfolded, (h.inside before cs c hid).trans hform⟩

theorem Normalizes.isIdentifier_fold {nfkc : String → String} (h : Normalizes nfkc) {s : String}
    (hs : Text.isIdentifier s) : Text.isIdentifier (fold s) :=
  (h.resolve s.toList [] (by rwa [List.nil_append, String.ofList_toList])).1

/-- **An identifier that folds to ASCII has its folding as its form.** -/
theorem Normalizes.form_eq_fold {nfkc : String → String} (h : Normalizes nfkc) {s : String}
    (hs : Text.isIdentifier s) (hfold : isAscii (fold s)) : nfkc s = fold s := by
  have hform := (h.resolve s.toList [] (by rwa [List.nil_append, String.ofList_toList])).2
  rw [List.nil_append, String.ofList_toList] at hform
  exact hform.trans (h.ascii (fold s) hfold)

/-- Folding is such a form itself. -/
theorem normalizes_fold : Normalizes fold where
  ascii s hs := by
    have hself : s.toList.flatMap resolved = s.toList.flatMap fun c => [c] :=
      List.flatMap_congr fun c hc => resolved_of_ascii (by simpa using List.all_eq_true.mp hs c hc)
    rw [fold, hself, List.flatMap_singleton', String.ofList_toList]
  inside before after c _ := by
    have htwice : (resolved c).flatMap resolved = resolved c := by
      rcases resolved_cases c with heq | ⟨-, -, hds⟩
      · rw [heq, List.flatMap_singleton, heq]
      · rw [List.flatMap_congr fun d hd => resolved_of_ascii (hds d hd).1, List.flatMap_singleton']
    simp [fold, htwice]

namespace Scope

/-! ## Forms of open bindings -/

/-- Two open bindings with one form are the same name of the same kind in the same frame. -/
def FormsApart (nfkc : String → String) (s : Scope) : Prop :=
  ∀ (i j : Nat) (f g : Frame), s.frames[i]? = some f → s.frames[j]? = some g →
    ∀ b ∈ f.bindings, ∀ c ∈ g.bindings, nfkc b.identifier = nfkc c.identifier →
      i = j ∧ b.name = c.name ∧ b.kind = c.kind

/-- No open binding has the form of a reserved word. -/
def FormsUnreserved (nfkc : String → String) (s : Scope) : Prop :=
  ∀ frame ∈ s.frames, ∀ b ∈ frame.bindings, nfkc b.identifier ∉ Name.reserved

theorem isAscii_of_mem_reserved : ∀ w ∈ Name.reserved, isAscii w := by
  decide +kernel

/-- **An identifier that is not taken is handed out as it stands.** -/
theorem after_bind {s : Scope} {name : String} {kind : Kind} (hlocals : s.locals = [])
    (hname : Text.isIdentifier name) (hfree : name ∉ s.everTaken)
    (hkey : s.globals.identifier? name kind = none) :
    s.after [.bind name kind] = s.addGlobal ⟨name, kind, name⟩ := by
  have hfound : firstFree s.everTaken (base name) = name := by
    rw [base_of_isIdentifier hname, firstFree_of_notMem hfree]
  rw [after, after, Step.next, bind_of_nil hlocals, bindGlobal, hkey, hfound]
  rfl

variable {nfkc : String → String} {name : String} {kind : Kind}

/-- A variant of a reserved word is bound, with the form of that word. -/
theorem not_formsUnreserved (hname : Text.isIdentifier name) (hascii : ¬ isAscii name)
    (hform : nfkc name ∈ Name.reserved) :
    ¬ FormsUnreserved nfkc (after {} [.bind name kind]) := by
  have hfree : name ∉ Name.reserved := fun hmem => hascii (isAscii_of_mem_reserved name hmem)
  rw [after_bind rfl hname (by simpa [everTaken, openIdentifiers, frames])
    rfl]
  intro h
  exact h _ (List.mem_singleton.mpr rfl) _ (List.mem_singleton.mpr rfl) hform

/-- A word and a variant of it are bound side by side, with one form. -/
theorem not_formsApart {word : String} (hname : Text.isIdentifier name)
    (hascii : ¬ isAscii name) (hword : Text.isIdentifier word) (hfree : word ∉ Name.reserved)
    (hne : name ≠ word) (hform : nfkc word = nfkc name) :
    ¬ FormsApart nfkc (after {} [.bind word kind, .bind name kind]) := by
  have hname' : name ∉ Name.reserved := fun hmem => hascii (isAscii_of_mem_reserved name hmem)
  have hsteps : after {} [.bind word kind, .bind name kind]
      = (addGlobal {} ⟨word, kind, word⟩).addGlobal ⟨name, kind, name⟩ := by
    rw [← after_bind (s := addGlobal {} ⟨word, kind, word⟩) rfl hname,
      ← after_bind (s := {}) rfl hword _ rfl]
    · rfl
    · simpa [everTaken, openIdentifiers, frames]
    · simpa [everTaken, openIdentifiers, frames, addGlobal, Frame.add] using ⟨hname', hne⟩
    · simp [addGlobal, Frame.add, Frame.identifier?, Ne.symm hne]
  rw [hsteps]
  intro h
  obtain ⟨-, heq, -⟩ := h 0 0 _ _ rfl rfl ⟨word, kind, word⟩
    (by simp [addGlobal, Frame.add]) ⟨name, kind, name⟩ (by simp [addGlobal, Frame.add]) hform
  exact hne heq.symm

/-- **Identifiers stay apart as far as they are their own forms, and no further.**  In every run,
two open bindings whose identifiers are their own forms, as those of ASCII are, have different
forms, and none of these is a reserved word.  But every other identifier that folds to ASCII breaks
one of the two: it has the form of the word that it folds to, and if that is reserved, the
identifier is bound all the same; if it is not, the word and the identifier are bound side by side
with one form. -/
theorem forms_apart_of_own_form (nfkc : String → String) (h : Normalizes nfkc) :
    (∀ steps : List Step,
      let s := after {} steps
      (∀ (i j : Nat) (f g : Frame), s.frames[i]? = some f → s.frames[j]? = some g →
        ∀ b ∈ f.bindings, ∀ c ∈ g.bindings,
          nfkc b.identifier = b.identifier → nfkc c.identifier = c.identifier →
          nfkc b.identifier = nfkc c.identifier → i = j ∧ b.name = c.name ∧ b.kind = c.kind) ∧
      (∀ frame ∈ s.frames, ∀ b ∈ frame.bindings, nfkc b.identifier = b.identifier →
        nfkc b.identifier ∉ Name.reserved)) ∧
    (∀ (name : String) (kind : Kind), Text.isIdentifier name → ¬ isAscii name →
      isAscii (fold name) → nfkc name = fold name ∧
        (fold name ∈ Name.reserved → ¬ FormsUnreserved nfkc (after {} [.bind name kind])) ∧
        (fold name ∉ Name.reserved →
          ¬ FormsApart nfkc (after {} [.bind (fold name) kind, .bind name kind]))) := by
  refine ⟨fun steps => ?_, fun name kind hname hascii hfold => ?_⟩
  · have hs : (after {} steps).Sound := (sound_initial Name.reserved).after steps
    have hreserved : (after {} steps).reserved = Name.reserved := reserved_after {} steps
    refine ⟨fun i j f g hf hg b hb c hc hbform hcform heq => ?_, fun frame hframe b hb hform => ?_⟩
    · rw [hbform, hcform] at heq
      obtain ⟨hij, rfl⟩ := hs.eq_of_identifier_eq hf hg hb hc heq
      exact ⟨hij, rfl, rfl⟩
    · have howned : b.identifier ∈ (after {} steps).openIdentifiers :=
        hs.mem_openIdentifiers.mpr ⟨frame, hframe, Frame.mem_identifiers.mpr ⟨b, hb, rfl⟩⟩
      rw [hform, ← hreserved]
      exact hs.unreserved _ (hs.allocated _ howned)
  · have hform := h.form_eq_fold hname hfold
    have hne : name ≠ fold name := fun heq => hascii (heq ▸ hfold)
    refine ⟨hform, fun hreserved => ?_, fun hfree => ?_⟩
    · exact not_formsUnreserved hname hascii (hform ▸ hreserved)
    · refine not_formsApart hname hascii (h.isIdentifier_fold hname) hfree hne ?_
      rw [hform, h.ascii _ hfold]

/-- The ligature in front of `lter`, and `x` beside its full-width form. -/
theorem fold_forms_not_apart : Normalizes fold ∧ fold "\ufb01lter" = "filter" ∧
    ¬ FormsUnreserved fold (after {} [.bind "\ufb01lter" .ofVariable]) ∧
    ¬ FormsApart fold (after {} [.bind "x" .ofVariable, .bind "\uff58" .ofVariable]) := by
  have hnames := (forms_apart_of_own_form fold normalizes_fold).2
  have hfilter := hnames "\ufb01lter" .ofVariable (by decide +kernel) (by decide) (by decide)
  have hx := hnames "\uff58" .ofVariable (by decide +kernel) (by decide) (by decide)
  exact ⟨normalizes_fold, by decide, hfilter.2.1 (by decide), hx.2.2 (by decide)⟩

/-- **No such form keeps the identifiers of all runs apart, and none keeps them clear of the
reserved words.** -/
theorem variants_not_apart : ¬ ∃ nfkc, Normalizes nfkc ∧
    (FormsApart nfkc (after {} [.bind "x" .ofVariable, .bind "\uff58" .ofVariable]) ∨
      FormsUnreserved nfkc (after {} [.bind "\ufb01lter" .ofVariable])) := by
  have hwide : Text.isIdentifier "\uff58" := by decide +kernel
  have hligature : Text.isIdentifier "\ufb01lter" := by decide +kernel
  rintro ⟨nfkc, h, hapart | hunreserved⟩
  · have hform : nfkc "\uff58" = "x" := h.form_eq_fold hwide (by decide)
    refine not_formsApart hwide (by decide) (by decide) (by decide) (by decide) ?_ hapart
    rw [hform, h.ascii "x" (by decide)]
  · have hform : nfkc "\ufb01lter" = "filter" := h.form_eq_fold hligature (by decide)
    exact not_formsUnreserved hligature (by decide) (hform ▸ by decide) hunreserved

end Scope

end Jigsaw.Name
