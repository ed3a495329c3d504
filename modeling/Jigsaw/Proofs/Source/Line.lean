import Jigsaw.Program.Stmt
import Jigsaw.Proofs.Source.Reading

/-!
# Proofs/Source/Line — code that fits on one line

No character of an identifier, a number or a mark is blank, and a string literal writes line ends as
escapes.  So the code of a proper expression is one line: no line end in it, no blank at its ends
(`Expr.Proper.isLine`).  Simple statements and headers are built from such code and are lines too
(`Simple.Proper.isLine`, `Header.Proper.isLine`).
-/

namespace Jigsaw

namespace Text

/-! ## Blank characters -/

theorem isBlank_eq_false_iff {c : Char} :
    isBlank c = false ↔ ∀ r ∈ blanks, c.toNat < r.1 ∨ r.2 < c.toNat := by
  simp only [isBlank, inRanges, List.any_eq_false, Bool.and_eq_true, decide_eq_true_eq, not_and,
    Nat.not_le]
  exact forall₂_congr fun r _ => by omega

/-- Ranges apart from those of the blanks hold no blank. -/
theorem isBlank_of_inRanges {ranges : List (Nat × Nat)}
    (hapart : ranges.all fun r => blanks.all fun b => decide (r.2 < b.1) || decide (b.2 < r.1))
    {c : Char} (h : inRanges ranges c) : isBlank c = false := by
  obtain ⟨r, hr, hc⟩ := List.any_eq_true.mp h
  simp only [Bool.and_eq_true, decide_eq_true_eq] at hc
  refine isBlank_eq_false_iff.mpr fun b hb => ?_
  have hrb := List.all_eq_true.mp (List.all_eq_true.mp hapart r hr) b hb
  simp only [Bool.or_eq_true, decide_eq_true_eq] at hrb
  omega

theorem identifierStarts_apart : identifierStarts.all fun r => blanks.all fun b =>
    decide (r.2 < b.1) || decide (b.2 < r.1) := by decide +kernel

theorem identifierExtensions_apart : identifierExtensions.all fun r => blanks.all fun b =>
    decide (r.2 < b.1) || decide (b.2 < r.1) := by decide +kernel

/-- A graphic character of ASCII is no blank. -/
theorem isBlank_of_ascii {c : Char} (hlow : 0x20 < c.toNat) (hhigh : c.toNat < 0x85) :
    isBlank c = false := by
  refine isBlank_eq_false_iff.mpr fun b hb => ?_
  simp only [blanks, List.mem_cons, List.not_mem_nil, or_false] at hb
  rcases hb with rfl | rfl | rfl | rfl | rfl | rfl | rfl | rfl | rfl | rfl <;> dsimp only <;> omega

theorem isBlank_of_isIdentifierPart {c : Char} (h : isIdentifierPart c) : isBlank c = false := by
  unfold isIdentifierPart at h
  split at h
  · obtain ⟨hlow, hhigh⟩ := Name.toNat_of_isWord h
    exact isBlank_of_ascii hlow (Nat.lt_trans hhigh (by decide))
  · rcases Bool.or_eq_true_iff.mp h with h | h
    · exact isBlank_of_inRanges identifierStarts_apart h
    · exact isBlank_of_inRanges identifierExtensions_apart h

theorem isBlank_of_isDigit {c : Char} (h : Integer.isDigit c) : isBlank c = false := by
  have hval : c.toNat = c.val.toNat := rfl
  have h0 : '0'.val.toNat = 48 := rfl
  have h9 : '9'.val.toNat = 57 := rfl
  simp only [Integer.isDigit, Bool.and_eq_true, decide_eq_true_eq, Char.le_def,
    UInt32.le_iff_toNat_le] at h
  exact isBlank_of_ascii (by omega) (by omega)

/-- A text without blanks is not trimmed. -/
theorem trimChars_of_forall {cs : List Char} (h : ∀ c ∈ cs, isBlank c = false) :
    trimChars cs = cs := by
  have hdrop {ds : List Char} (hds : ∀ c ∈ ds, isBlank c = false) : ds.dropWhile isBlank = ds := by
    cases ds with
    | nil => rfl
    | cons d ds => rw [List.dropWhile_cons_of_neg]; simp [hds d List.mem_cons_self]
  rw [trimChars, hdrop h, hdrop fun c hc => h c (List.mem_reverse.mp hc), List.reverse_reverse]

end Text

namespace Source

/-! ## Lines -/

/-- No line ends here. -/
def Unbroken (cs : List Char) : Prop := ∀ c ∈ cs, c ≠ '\n' ∧ c ≠ '\r'

instance (cs : List Char) : Decidable (Unbroken cs) :=
  inferInstanceAs (Decidable (∀ c ∈ cs, c ≠ '\n' ∧ c ≠ '\r'))

/-- The text can open a line: no line end in it, and no blank in front. -/
structure OpensLine (s : String) : Prop where
  unbroken : Unbroken s.toList
  first : ∃ c, s.toList.head? = some c ∧ Text.isBlank c = false

/-- **The text is one line**: no line end in it and no blank at its ends.  `header` says whether it
ends with a colon. -/
structure IsLine (header : Bool) (s : String) : Prop extends OpensLine s where
  last : ∃ c, s.toList.getLast? = some c ∧ Text.isBlank c = false ∧ (c = ':' ↔ header = true)

theorem opensLine_iff {s : String} :
    OpensLine s ↔ Unbroken s.toList ∧ s.toList.head?.any (!Text.isBlank ·) = true := by
  simp only [Option.any_eq_true, Bool.not_eq_true']
  exact ⟨fun h => ⟨h.unbroken, h.first⟩, fun h => ⟨h.1, h.2⟩⟩

theorem isLine_iff {header : Bool} {s : String} :
    IsLine header s ↔ OpensLine s ∧ s.toList.getLast?.any
      (fun c => !Text.isBlank c && decide (c = ':' ↔ header = true)) = true := by
  simp only [Option.any_eq_true, Bool.and_eq_true, Bool.not_eq_true', decide_eq_true_eq]
  exact ⟨fun h => ⟨h.toOpensLine, h.last⟩, fun h => ⟨h.1, h.2⟩⟩

instance (s : String) : Decidable (OpensLine s) := decidable_of_iff _ opensLine_iff.symm

instance (header : Bool) (s : String) : Decidable (IsLine header s) :=
  decidable_of_iff _ isLine_iff.symm

theorem Unbroken.append {s t : String} (hs : Unbroken s.toList) (ht : Unbroken t.toList) :
    Unbroken (s ++ t).toList := by
  rw [String.toList_append]
  exact fun c h => (List.mem_append.mp h).elim (hs c) (ht c)

theorem OpensLine.append {s t : String} (hs : OpensLine s) (ht : Unbroken t.toList) :
    OpensLine (s ++ t) := by
  obtain ⟨c, hc, hblank⟩ := hs.first
  refine ⟨hs.unbroken.append ht, c, ?_, hblank⟩
  rw [String.toList_append, List.head?_append, hc]
  rfl

theorem OpensLine.close {header : Bool} {s t : String} (hs : OpensLine s) (ht : IsLine header t) :
    IsLine header (s ++ t) := by
  obtain ⟨c, hc, hlast⟩ := ht.last
  refine ⟨hs.append ht.unbroken, c, ?_, hlast⟩
  rw [String.toList_append, List.getLast?_append, hc]
  rfl

/-- Characters that are no blanks are a line. -/
theorem isLine_of_solid {s : String} (hne : s.toList ≠ [])
    (h : ∀ c ∈ s.toList, Text.isBlank c = false ∧ c ≠ ':') : IsLine false s := by
  refine ⟨⟨fun c hc => ?_, ?_⟩, ?_⟩
  · constructor
    · rintro rfl
      exact absurd (h _ hc).1 (by decide)
    · rintro rfl
      exact absurd (h _ hc).1 (by decide)
  · obtain ⟨c, cs, hcs⟩ := List.exists_cons_of_ne_nil hne
    exact ⟨c, by rw [hcs]; rfl, (h c (by rw [hcs]; exact List.mem_cons_self)).1⟩
  · have hlast := List.getLast?_eq_some_getLast hne
    obtain ⟨hblank, hcolon⟩ := h _ (List.getLast_mem hne)
    exact ⟨_, hlast, hblank, by simpa using hcolon⟩

theorem isIdentifierPart_of_isIdentifierStart {c : Char} (h : Text.isIdentifierStart c) :
    Text.isIdentifierPart c := by
  unfold Text.isIdentifierStart at h
  unfold Text.isIdentifierPart
  split at h
  · rw [if_pos ‹_›, Char.isAlphanum, Bool.or_right_comm, h, Bool.true_or]
  · rw [if_neg ‹_›, h, Bool.true_or]

theorem isLine_of_isIdentifier {x : String} (hx : Text.isIdentifier x) : IsLine false x := by
  obtain ⟨c, cs, hlist, hc, hcs⟩ := Name.isIdentifier_iff.mp hx
  refine isLine_of_solid (by rw [hlist]; exact List.cons_ne_nil c cs) fun d hd => ?_
  have hpart : Text.isIdentifierPart d := by
    rw [hlist] at hd
    rcases List.mem_cons.mp hd with rfl | hd
    · exact isIdentifierPart_of_isIdentifierStart hc
    · exact hcs d hd
  refine ⟨Text.isBlank_of_isIdentifierPart hpart, ?_⟩
  rintro rfl
  exact absurd hpart (by decide)

/-! ### Numbers and texts -/

theorem solid_of_isDigit {c : Char} (h : Integer.isDigit c) :
    Text.isBlank c = false ∧ c ≠ ':' := by
  refine ⟨Text.isBlank_of_isDigit h, ?_⟩
  rintro rfl
  exact absurd h (by decide)

theorem isLine_natural (n : Nat) : IsLine false (toString n) := by
  refine isLine_of_solid ?_ fun c hc => ?_
  · rw [Nat.toString_eq_ofList_toDigits, String.toList_ofList]
    exact Nat.toDigits_ne_nil
  · rw [Nat.toString_eq_ofList_toDigits, String.toList_ofList] at hc
    exact solid_of_isDigit (isDigit_of_mem_toDigits hc)

theorem isLine_magnitude (x : Binary64) : IsLine false x.text := by
  obtain ⟨whole, part, power, heq, hparts⟩ := floatingParts_text x
  have hpart : ∀ c ∈ part, Text.isBlank c = false ∧ c ≠ ':' := by
    rcases hparts.part_eq with rfl | ⟨ds, rfl, hds⟩
    · exact fun _ h => absurd h List.not_mem_nil
    · exact List.forall_mem_cons.mpr ⟨by decide, fun c hc => solid_of_isDigit (hds c hc)⟩
  have hpower : ∀ c ∈ power, Text.isBlank c = false ∧ c ≠ ':' := by
    rcases hparts.power_eq with rfl | ⟨sign, ds, rfl, hsign, -, hds⟩
    · exact fun _ h => absurd h List.not_mem_nil
    · refine List.forall_mem_cons.mpr ⟨by decide, List.forall_mem_cons.mpr
        ⟨?_, fun c hc => solid_of_isDigit (hds c hc)⟩⟩
      rcases hsign with rfl | rfl
      · decide
      · decide
  refine isLine_of_solid (by rw [heq]; simp [hparts.whole_ne_nil]) fun c hc => ?_
  rw [heq] at hc
  rcases List.mem_append.mp hc with hc | hc
  · rcases List.mem_append.mp hc with hc | hc
    · exact solid_of_isDigit (hparts.whole_digit c hc)
    · exact hpart c hc
  · exact hpower c hc

theorem opensLine_minus : OpensLine "-" := by decide

theorem isLine_numeral (value : Numeral) : IsLine false value.text := by
  cases value with
  | integer k =>
    rw [Numeral.text, Expr.toString_int]
    split
    · exact opensLine_minus.close (isLine_natural k.natAbs)
    · exact isLine_natural k.natAbs
  | floating negative x =>
    cases negative with
    | true => exact opensLine_minus.close (isLine_magnitude x)
    | false => exact isLine_magnitude x

/-- Line ends are escaped. -/
theorem unbroken_escapeChar (c : Char) : Unbroken (Text.escapeChar c) := by
  unfold Text.escapeChar
  split
  case h_9 hslash hquote hfeed htab hreturn hform hvertical hnull =>
    intro d hd
    obtain rfl := List.mem_singleton.mp hd
    exact ⟨hfeed, hreturn⟩
  all_goals decide

theorem isLine_quote (content : String) : IsLine false (Text.quote content) := by
  have hquote : IsLine false "\"" := by decide
  refine (hquote.toOpensLine.append fun c hc => ?_).close hquote
  rw [Text.escape, String.toList_ofList] at hc
  obtain ⟨d, -, hd⟩ := List.mem_flatMap.mp hc
  exact unbroken_escapeChar d c hd

/-! ### Rows -/

theorem unbroken_joinItems : ∀ {items : List String}, (∀ s ∈ items, Unbroken s.toList) →
    Unbroken (Text.joinItems items).toList
  | [], _ => by decide
  | [s], h => h s List.mem_cons_self
  | s :: t :: rest, h => by
      have hrest := unbroken_joinItems fun u hu => h u (List.mem_cons_of_mem s hu)
      exact ((h s List.mem_cons_self).append (by decide)).append hrest

theorem unbroken_codes {es : List Expr} (h : ∀ e ∈ es, IsLine false e.code) :
    Unbroken (Text.joinItems (Expr.codes es)).toList := by
  refine unbroken_joinItems fun s hs => ?_
  induction es with
  | nil => exact absurd hs List.not_mem_nil
  | cons e es ih =>
    rcases List.mem_cons.mp hs with rfl | hs
    · exact (h e List.mem_cons_self).unbroken
    · exact ih (fun f hf => h f (List.mem_cons_of_mem e hf)) hs

theorem unbroken_names {xs : List String} (h : ∀ x ∈ xs, Expr.IsName x) :
    Unbroken (Text.joinItems xs).toList :=
  unbroken_joinItems fun x hx => (isLine_of_isIdentifier (h x hx).1).unbroken

/-! ## Expressions -/

theorem opensLine_paren : OpensLine "(" := by decide

theorem opensLine_bracket : OpensLine "[" := by decide

theorem isLine_closeParen : IsLine false ")" := by decide

theorem isLine_closeBracket : IsLine false "]" := by decide

theorem isLine_codeAt {e : Expr} (h : IsLine false e.code) (least : Precedence) :
    IsLine false (e.codeAt least) := by
  unfold Expr.codeAt Precedence.wrap
  split
  · exact (opensLine_paren.append h.unbroken).close isLine_closeParen
  · exact h

end Source

namespace Expr

open Source

/-- **The code of a proper expression is one line.** -/
theorem Proper.isLine {e : Expr} (h : e.Proper) : IsLine false e.code := by
  induction h with
  | name hx => exact isLine_of_isIdentifier hx.1
  | numeral value => exact isLine_numeral value
  | zero => exact isLine_natural 0
  | text content => exact isLine_quote content
  | truth value => cases value <;> exact isLine_of_isIdentifier (by decide)
  | none => exact isLine_of_isIdentifier (by decide : Text.isIdentifier "None")
  | list _ ih => exact (opensLine_bracket.append (unbroken_codes ih)).close isLine_closeBracket
  | collect _ hbinder _ ihe ihs =>
    have helement := (opensLine_bracket.append ihe.unbroken).append
      (by decide : Unbroken " for ".toList)
    have hin := (helement.append (isLine_of_isIdentifier hbinder.1).unbroken).append
      (by decide : Unbroken " in ".toList)
    exact (hin.append ihs.unbroken).close isLine_closeBracket
  | call hf _ ih =>
    have hopen := (isLine_of_isIdentifier hf.1).toOpensLine.append opensLine_paren.unbroken
    exact (hopen.append (unbroken_codes ih)).close isLine_closeParen
  | method _ _ hs _ ihr iha =>
    have hpoint := (isLine_codeAt ihr .member).toOpensLine.append (by decide : Unbroken ".".toList)
    have hselected := hpoint.append (isLine_of_isIdentifier hs.1).unbroken
    exact ((hselected.append opensLine_paren.unbroken).append (unbroken_codes iha)).close
      isLine_closeParen
  | item _ _ ihr ihi =>
    have hopen := (isLine_codeAt ihr .member).toOpensLine.append opensLine_bracket.unbroken
    exact (hopen.append ihi.unbroken).close isLine_closeBracket
  | sliceFrom _ _ ihr ihs =>
    have hopen := (isLine_codeAt ihr .member).toOpensLine.append opensLine_bracket.unbroken
    exact (hopen.append ihs.unbroken).close (by decide : IsLine false ":]")
  | sliceTo _ _ ihr ihs =>
    have hopen := (isLine_codeAt ihr .member).toOpensLine.append (by decide : Unbroken "[:".toList)
    exact (hopen.append ihs.unbroken).close isLine_closeBracket
  | slice _ _ _ ihr ihs iht =>
    have hopen := (isLine_codeAt ihr .member).toOpensLine.append opensLine_bracket.unbroken
    have hcolon := (hopen.append ihs.unbroken).append (by decide : Unbroken ":".toList)
    exact (hcolon.append iht.unbroken).close isLine_closeBracket
  | negate _ ih => exact opensLine_minus.close (isLine_codeAt ih .sign)
  | not _ ih =>
    have hnot : OpensLine "not " := by decide
    exact hnot.close (isLine_codeAt ih .negation)
  | @binary op _ _ _ _ ihl ihr =>
    have hsymbol : Unbroken op.symbol.toList := by cases op <;> decide
    have hleft := (isLine_codeAt ihl op.left).toOpensLine.append hsymbol
    exact hleft.close (isLine_codeAt ihr op.right)
  | @letIn parameters _ _ hp _ _ iha ihb =>
    have hhead : Unbroken (lambdaHead parameters).toList := by
      unfold lambdaHead
      split
      · decide
      · have hword : Unbroken "lambda ".toList := by decide
        exact (hword.append (unbroken_names hp)).append (by decide)
    have hbody := (opensLine_paren.append hhead).append ihb.unbroken
    have hcall := hbody.append (by decide : Unbroken ")(".toList)
    exact (hcall.append (unbroken_codes iha)).close isLine_closeParen

end Expr

/-! ## Statements -/

open Source

/-- A line whose names may stand as ones and whose expressions are proper. -/
inductive Simple.Proper : Simple → Prop
  | expr {value : Expr} (h : value.Proper) : Proper (.expr value)
  | assign {target : String} {value : Expr} (ht : Expr.IsName target) (h : value.Proper) :
      Proper (.assign target value)
  | assignItem {receiver index value : Expr} (hr : receiver.Proper) (hi : index.Proper)
      (h : value.Proper) : Proper (.assignItem receiver index value)
  | globals {identifiers : List String} (hne : identifiers ≠ [])
      (h : ∀ x ∈ identifiers, Expr.IsName x) : Proper (.globals identifiers)
  | result {value : Expr} (h : value.Proper) : Proper (.result value)
  | pass : Proper .pass

/-- A header of the same kind. -/
inductive Header.Proper : Header → Prop
  | when {test : Expr} (h : test.Proper) : Proper (.when test)
  | orWhen {test : Expr} (h : test.Proper) : Proper (.orWhen test)
  | otherwise : Proper .otherwise
  | define {name : String} {parameters : List String} (hn : Expr.IsName name)
      (h : ∀ x ∈ parameters, Expr.IsName x) : Proper (.define name parameters)

/-- Every line of the statement is proper, and no header is left without a suite. -/
inductive Stmt.Proper : Stmt → Prop
  | simple {line : Simple} (h : line.Proper) : Proper (.simple line)
  | compound {header : Header} {suite : List Stmt} (h : header.Proper) (hne : suite ≠ [])
      (hs : ∀ s ∈ suite, Proper s) : Proper (.compound header suite)

namespace Source

theorem isLine_names : ∀ {xs : List String}, xs ≠ [] → (∀ x ∈ xs, Expr.IsName x) →
    IsLine false (Text.joinItems xs)
  | [], hne, _ => absurd rfl hne
  | [x], _, h => isLine_of_isIdentifier (h x List.mem_cons_self).1
  | x :: y :: rest, _, h => by
      have hx := isLine_of_isIdentifier (h x List.mem_cons_self).1
      have hrest := isLine_names (List.cons_ne_nil y rest) fun z hz => h z (.tail x hz)
      exact (hx.toOpensLine.append (by decide : Unbroken ", ".toList)).close hrest

end Source

/-- **A proper simple statement is one line**, -/
theorem Simple.Proper.isLine {line : Simple} (h : line.Proper) : IsLine false line.code := by
  have hequals : Unbroken " = ".toList := by decide
  cases h with
  | expr h => exact h.isLine
  | assign ht h =>
    exact ((isLine_of_isIdentifier ht.1).toOpensLine.append hequals).close h.isLine
  | assignItem hr hi h =>
    exact ((Expr.Proper.item hr hi).isLine.toOpensLine.append hequals).close h.isLine
  | globals hne h =>
    have hword : OpensLine "global " := by decide
    exact hword.close (isLine_names hne h)
  | result h =>
    have hword : OpensLine "return " := by decide
    exact hword.close h.isLine
  | pass => exact isLine_of_isIdentifier (by decide : Text.isIdentifier "pass")

/-- …and a proper header is one that ends with a colon. -/
theorem Header.Proper.isLine {header : Header} (h : header.Proper) :
    IsLine true header.code := by
  have hcolon : IsLine true ":" := by decide
  cases h with
  | when h =>
    have hword : OpensLine "if " := by decide
    exact (hword.append h.isLine.unbroken).close hcolon
  | orWhen h =>
    have hword : OpensLine "elif " := by decide
    exact (hword.append h.isLine.unbroken).close hcolon
  | otherwise => exact (by decide : OpensLine "else").close hcolon
  | define hn h =>
    have hword : OpensLine "def " := by decide
    have hname := hword.append (isLine_of_isIdentifier hn.1).unbroken
    have hparameters := (hname.append opensLine_paren.unbroken).append (unbroken_names h)
    exact hparameters.close (by decide : IsLine true "):")

/-! ## Lines stay as they are

A line put deeper only gets the indentation in front, and there is nothing to trim on it. -/

namespace Source

theorem indentChars_of_unbroken (indent : List Char) : ∀ {cs : List Char}, Unbroken cs →
    Text.indentChars indent false cs = cs
  | [], _ => rfl
  | c :: cs, h => by
      have hrest := indentChars_of_unbroken indent fun d hd => h d (List.mem_cons_of_mem c hd)
      rw [Text.indentChars, hrest]
      · rfl
      · exact (h c List.mem_cons_self).1

variable {header : Bool} {s : String}

theorem IsLine.indentLines (h : IsLine header s) (indent : String) :
    Text.indentLines indent s = indent ++ s := by
  obtain ⟨c, hhead, -⟩ := h.first
  obtain ⟨cs, hcs⟩ := List.head?_eq_some_iff.mp hhead
  have hunbroken := h.unbroken
  rw [hcs] at hunbroken
  have hrest := indentChars_of_unbroken indent.toList fun d hd =>
    hunbroken d (List.mem_cons_of_mem c hd)
  apply String.toList_injective
  rw [Text.indentLines, String.toList_ofList, String.toList_append, hcs, Text.indentChars, hrest]
  · rfl
  · exact (hunbroken c List.mem_cons_self).1

theorem IsLine.trim (h : IsLine header s) : Text.trim s = s := by
  obtain ⟨c, hhead, hc⟩ := h.first
  obtain ⟨d, hlast, hd, -⟩ := h.last
  have hfront : s.toList.dropWhile Text.isBlank = s.toList := by
    obtain ⟨cs, hcs⟩ := List.head?_eq_some_iff.mp hhead
    rw [hcs, List.dropWhile_cons_of_neg (by rw [hc]; decide)]
  have hback : s.toList.reverse.dropWhile Text.isBlank = s.toList.reverse := by
    obtain ⟨ds, hds⟩ := List.getLast?_eq_some_iff.mp hlast
    rw [hds, List.reverse_append, List.reverse_singleton, List.singleton_append,
      List.dropWhile_cons_of_neg (by rw [hd]; decide)]
  rw [Text.trim, Text.trimChars, hfront, hback, List.reverse_reverse, String.ofList_toList]

end Source

end Jigsaw
