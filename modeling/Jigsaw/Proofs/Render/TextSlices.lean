import Jigsaw.Proofs.Render.IndexCode
import Jigsaw.Proofs.Render.TourRules

/-!
# Proofs/Render/TextSlices — pieces of texts

A segment with literal bounds is one slice, where the general form takes two.  Both select the same
characters of every text, since the short form is used only for bounds that are not negative
(`selectsSegment_of_ok`).

The last characters are a slice from a negated count on, which is the whole text when the count is
zero.  A literal zero is written differently, so a count that is written down is always right; a
count of zero that is computed is not (`selectsLast_lastChars`).
-/

namespace Jigsaw

namespace Render

open Source

/-! ## Slots in a row -/

/-- A block of a value type renders by the rule of the type. -/
theorem rendering_value {b : Block} {type : ValueType} (h : ValueType.ofName? b.type = some type) :
    b.rendering.value = type.render b.node := by
  have hvalue : b.rendering.value = b.node.asValue := by
    cases b
    rfl
  rw [hvalue, Node.asValue, show b.node.block = b from rfl, h]

/-- The block of a number renders to its literal. -/
theorem value_of_integer? {b : Block} {k : Int} (hk : b.integer? = some k) (p : Pass) :
    b.rendering.value p = .ok (.int k) p := by
  obtain ⟨type, htype, hk⟩ := Option.bind_eq_some_iff.mp hk
  rw [rendering_value htype]
  cases type
  case number =>
    have hint : b.node.number.int? = some k := by
      rw [← hk, Node.number, ValueType.integer?, show b.node.block = b from rfl]
      cases Numeral.ofText (b.fieldOr "NUM" "0") <;> rfl
    exact congrArg (EStateM.Result.ok · p) (eq_int_of_int? hint)
  all_goals cases hk

/-- So a literal in a slot is what the slot holds. -/
theorem value_of_integerIn? {b : Block} {slot : String} {default k : Int}
    (hk : b.integerIn? slot (some default) = some k) {p q : Pass} {e : Expr}
    (h : b.node.value slot (.int default) p = .ok e q) : e = .int k := by
  unfold Block.integerIn? at hk
  cases hchild : b.values.get? slot with
  | some child =>
    rw [hchild] at hk
    rw [node_value_of_some hchild, value_of_integer? hk] at h
    cases h
    rfl
  | none =>
    rw [hchild] at hk
    rw [node_value_of_none hchild] at h
    cases hk
    cases h
    rfl

/-! ## Segments -/

/-- **The expression selects a segment.**  Under every standard interpretation it computes the text,
the start and the length, in this order, and then has the value of the general form
`text[start - 1:][:size]`. -/
structure SelectsSegment (text start size e : Expr) : Prop where
  eval_eq {M : Type → Type} [Monad M] [LawfulMonad M] {V : Type} {I : Semantics M V}
    {ofInt : Int → V} {ofText : String → V} (hI : I.Standard ofInt ofText) {env : Env V}
    {m : M String} {m' m'' : M Int} (htext : I.eval env text = ofText <$> m)
    (hstart : I.eval env start = ofInt <$> m') (hsize : I.eval env size = ofInt <$> m'') :
    I.eval env e = ofText <$> (do
      let t ← m
      let k ← m'
      let n ← m''
      pure (Text.slice (Text.slice t (some (k - 1)) none) none (some n)))

/-- Two slices in a row are the general form. -/
theorem selectsSegment_general (text start size : Expr) :
    SelectsSegment text start size (.sliceTo (.sliceFrom text start.zeroBased) size) := by
  refine ⟨fun {M _ _ V I ofInt ofText} hI {env m m' m''} htext hstart hsize => ?_⟩
  have hfrom : I.eval env (.sliceFrom text start.zeroBased) = ofText <$> (do
      let t ← m
      let k ← m'
      pure (Text.slice t (some (k - 1)) none)) := by
    rw [Semantics.eval, htext, hI.eval_zeroBased hstart, hI.sliceFrom]
    simp only [bind_assoc, pure_bind]
  rw [Semantics.eval, hfrom, hsize, hI.sliceTo]
  simp only [bind_assoc, pure_bind]

/-- One slice between literals selects the same, if neither bound is negative. -/
theorem selectsSegment_literal (text : Expr) {k n : Int} (hk : 0 ≤ k - 1) (hn : 0 ≤ n) :
    SelectsSegment text (.int k) (.int n) (.slice text (.int (k - 1)) (.int (k - 1 + n))) := by
  refine ⟨fun {M _ _ V I ofInt ofText} hI {env m m' m''} htext hstart hsize => ?_⟩
  obtain rfl := hI.eq_pure_of_eval_int hstart
  obtain rfl := hI.eq_pure_of_eval_int hsize
  rw [Semantics.eval, htext, hI.eval_int, hI.eval_int, hI.slice]
  simp only [pure_bind, Text.slice_slice hk hn]

/-- **A segment is the general form, or one slice between natural literals.** -/
theorem segment_cases {text start size e : Expr} {p q : Pass}
    (h : segment text start size p = .ok e q) :
    q = p ∧ (e = .sliceTo (.sliceFrom text start) size ∨
      ∃ s n, naturalLiteral? start = some s ∧ naturalLiteral? size = some n ∧
        e = .slice text start (.int (s + n))) := by
  unfold segment at h
  cases hs : naturalLiteral? start with
  | none =>
    rw [hs] at h
    cases h
    exact ⟨rfl, .inl rfl⟩
  | some s =>
    cases hn : naturalLiteral? size with
    | none =>
      rw [hs, hn] at h
      cases h
      exact ⟨rfl, .inl rfl⟩
    | some n =>
      rw [hs, hn] at h
      dsimp only at h
      by_cases hfits : Integer.fits s && Integer.fits n
      · rw [if_pos hfits] at h
        by_cases hend : Integer.fits (s + n)
        · rw [if_pos hend] at h
          cases h
          exact ⟨rfl, .inr ⟨s, n, rfl, rfl, rfl⟩⟩
        · rw [if_neg hend] at h
          cases h
      · rw [if_neg hfits] at h
        cases h
        exact ⟨rfl, .inl rfl⟩

/-- **Whatever form it takes, a segment selects the same characters.** -/
theorem selectsSegment_of_ok {text start size e : Expr} {p q : Pass}
    (h : segment text start.zeroBased size p = .ok e q) : SelectsSegment text start size e := by
  obtain ⟨-, rfl | ⟨s, n, hs, hn, rfl⟩⟩ := segment_cases h
  · exact selectsSegment_general text start size
  · -- A literal index that is not negative comes from a literal start of one or more.
    obtain ⟨hs, hnatural⟩ := naturalLiteral?_eq_some.mp hs
    obtain ⟨hn, hsize⟩ := naturalLiteral?_eq_some.mp hn
    obtain ⟨k, rfl⟩ : ∃ k, s = k - 1 := ⟨s + 1, by omega⟩
    have hstart := (int?_zeroBased_eq_some.mp hs).1
    rw [Int.sub_add_cancel] at hstart
    rw [eq_int_of_int? hs, eq_int_of_int? hn, eq_int_of_int? hstart]
    exact selectsSegment_literal text hnatural hsize

/-- **A segment with literal bounds selects what the general form does.**  The value of every block
of a segment is that of `text[start - 1:][:size]`, whether its start and its length are literals,
which may be negative or past the end of the text and have any number of digits, or whatever else
its slots hold; and it is written in the general form unless the start is a literal. -/
theorem segments_select_alike {p : Pass} (hp : Reachable p) {b : Block}
    (hb : b.type = "text_segment") {code : String} {level : Precedence} {q : Pass}
    (h : expressionCode b p = .ok (code, level) q) :
    ∃ text start size e p₁ p₂, b.node.value "TEXT" (.text "") p = .ok text p₁ ∧
      b.node.value "START" (.int 1) p₁ = .ok start p₂ ∧
      b.node.value "LENGTH" (.int 1) p₂ = .ok size q ∧
      (∀ k, b.integerIn? "START" (some 1) = some k → start = .int k) ∧
      (∀ n, b.integerIn? "LENGTH" (some 1) = some n → size = .int n) ∧
      b.rendering.value p = .ok e q ∧ e.code = code ∧ Reads (nonterminal level) code e.tree ∧
      (start.int? = none →
        e = .sliceTo (.sliceFrom text (.binary .subtract start (.int 1))) size) ∧
      SelectsSegment text start size e := by
  obtain ⟨e, hvalue, rfl, rfl⟩ := expressionCode_eq_ok.mp h
  have hreads := (spells_of_value hp hvalue).proper.reads
  have htype : ValueType.ofName? b.type = some .textSegment := by
    rw [hb]
    rfl
  have he := hvalue
  rw [rendering_value htype] at he
  obtain ⟨text, p₁, htext, he⟩ := bind_eq_ok.mp he
  obtain ⟨index, p₂, hindex, he⟩ := bind_eq_ok.mp he
  obtain ⟨start, p₃, hstart, hindex⟩ := bind_eq_ok.mp hindex
  cases hindex
  obtain ⟨size, p₄, hsize, he⟩ := bind_eq_ok.mp he
  obtain ⟨rfl, hcases⟩ := segment_cases he
  refine ⟨text, start, size, e, p₁, p₂, htext, hstart, hsize, fun k hk => ?_, fun n hn => ?_,
    hvalue, rfl, hreads, fun hnone => ?_, selectsSegment_of_ok he⟩
  · exact value_of_integerIn? hk hstart
  · exact value_of_integerIn? hn hsize
  · rcases hcases with hgeneral | ⟨s, n, hs, -, -⟩
    · rwa [zeroBased_eq, hnone] at hgeneral
    · have hint := int?_zeroBased_eq_some.mp (naturalLiteral?_eq_some.mp hs).1
      rw [hnone] at hint
      cases hint.1

/-- A text. -/
def textBlock (content : String) : Block := .mk "text" "" [("TEXT", content)] [] [] none []

/-- Three characters from the second on. -/
def middleSegment : Block :=
  .mk "text_segment" "" [] [("TEXT", textBlock "hello"), ("START", numberBlock "2"),
    ("LENGTH", numberBlock "3")] [] none []

theorem middleSegment_selects :
    expressionCode middleSegment {} = .ok ("\"hello\"[1:4]", .member) {} ∧
      ∃ e, middleSegment.rendering.value {} = .ok e {} ∧
        Semantics.plain.eval (fun _ => none) e = some (.inr "ell") := by
  have hcode : expressionCode middleSegment {} = .ok ("\"hello\"[1:4]", .member) {} := by rfl
  obtain ⟨text, start, size, e, p₁, p₂, htext, -, -, hk, hn, he, -, -, -, hselects⟩ :=
    segments_select_alike .initial rfl hcode
  obtain rfl := hk 2 (by rfl)
  obtain rfl := hn 3 (by rfl)
  cases htext
  have hplain := Semantics.plain_standard
  exact ⟨hcode, e, he, hselects.eval_eq hplain (hplain.eval_text "hello") (hplain.eval_int 2)
    (hplain.eval_int 3)⟩

/-! ## Last characters -/

/-- **The expression selects the last characters**, of a text and for a count.  For a literal these
are as many as it says; for a count that is computed, a zero leaves the whole text. -/
structure SelectsLast (text count e : Expr) : Prop where
  eval_literal {M : Type → Type} [Monad M] [LawfulMonad M] {V : Type} {I : Semantics M V}
    {ofInt : Int → V} {ofText : String → V} (hI : I.Standard ofInt ofText) {env : Env V}
    {m : M String} (htext : I.eval env text = ofText <$> m) {n : Nat} (hcount : count = .int n) :
    I.eval env e = ofText <$> (do
      let t ← m
      pure (Text.last n t))
  eval_computed {M : Type → Type} [Monad M] [LawfulMonad M] {V : Type} {I : Semantics M V}
    {ofInt : Int → V} {ofText : String → V} (hI : I.Standard ofInt ofText) {env : Env V}
    {m : M String} (htext : I.eval env text = ofText <$> m) (hcount : count.int? = none)
    {m' : M Nat} (hvalue : I.eval env count = ofInt <$> Int.ofNat <$> m') :
    I.eval env e = ofText <$> (do
      let t ← m
      let n ← m'
      pure (if n = 0 then t else Text.last n t))

/-- A slice from a negated count on. -/
theorem eval_sliceFrom_negate {M : Type → Type} [Monad M] [LawfulMonad M] {V : Type}
    {I : Semantics M V} {ofInt : Int → V} {ofText : String → V} (hI : I.Standard ofInt ofText)
    {env : Env V} {text count : Expr} {m : M String} {m' : M Nat}
    (htext : I.eval env text = ofText <$> m)
    (hcount : I.eval env count = ofInt <$> Int.ofNat <$> m') :
    I.eval env (.sliceFrom text (.negate count)) = ofText <$> (do
      let t ← m
      let n ← m'
      pure (if n = 0 then t else Text.last n t)) := by
  rw [Semantics.eval, htext, Semantics.eval, hcount, hI.negate, hI.sliceFrom]
  simp only [map_eq_pure_bind, bind_assoc, pure_bind, Int.ofNat_eq_natCast, Text.slice_neg]

theorem selectsLast_lastChars (text count : Expr) :
    SelectsLast text count (lastChars text count) := by
  constructor
  case eval_literal =>
    intro M _ _ V I ofInt ofText hI env m htext n hcount
    rw [lastChars_eq, hcount, show (Expr.int n).int? = some (n : Int) from rfl]
    -- Only zero is written as a slice up to it.
    rcases Nat.eq_zero_or_pos n with rfl | hn
    · rw [Int.natCast_zero, if_pos rfl, Semantics.eval, htext, hI.eval_int, hI.sliceTo]
      simp only [pure_bind, Text.slice_to_zero]
    · have hnot : some (n : Int) ≠ some 0 := by
        rw [Ne, Option.some.injEq]
        omega
      have hliteral : I.eval env (.int n) = ofInt <$> Int.ofNat <$> (pure n : M Nat) := by
        rw [map_pure]
        exact hI.eval_int n
      rw [if_neg hnot, eval_sliceFrom_negate hI htext hliteral]
      simp only [pure_bind, if_neg (Nat.ne_of_gt hn)]
  case eval_computed =>
    intro M _ _ V I ofInt ofText hI env m htext hcount m' hvalue
    rw [lastChars_eq, hcount, if_neg (by simp)]
    exact eval_sliceFrom_negate hI htext hvalue

/-- **The value of the last characters of a text.**  They are as many as the count says, or all
there are, for every literal count and for every count that is computed and not zero; but for a
computed zero they are the whole text. -/
theorem last_characters {p : Pass} (hp : Reachable p) {b : Block} (hb : b.type = "text_endString")
    (hend : b.fieldOr "END" "FIRST" = "LAST") {code : String} {level : Precedence} {q : Pass}
    (h : expressionCode b p = .ok (code, level) q) :
    ∃ text count e p₁, b.node.value "TEXT" (.text "") p = .ok text p₁ ∧
      b.node.value "NUM" (.int 1) p₁ = .ok count q ∧
      (∀ n, b.integerIn? "NUM" (some 1) = some n → count = .int n) ∧
      b.rendering.value p = .ok e q ∧ e.code = code ∧ Reads (nonterminal level) code e.tree ∧
      SelectsLast text count e := by
  obtain ⟨e, hvalue, rfl, rfl⟩ := expressionCode_eq_ok.mp h
  have hreads := (spells_of_value hp hvalue).proper.reads
  have htype : ValueType.ofName? b.type = some .textEnd := by
    rw [hb]
    rfl
  have he := hvalue
  rw [rendering_value htype] at he
  obtain ⟨text, p₁, htext, he⟩ := bind_eq_ok.mp he
  obtain ⟨count, p₂, hcount, he⟩ := bind_eq_ok.mp he
  have hlast : ¬ b.node.block.fieldOr "END" "FIRST" = "FIRST" := by
    rw [show b.node.block = b from rfl, hend]
    decide
  rw [if_neg hlast] at he
  cases he
  exact ⟨text, count, _, p₁, htext, hcount, fun n hn => value_of_integerIn? hn hcount, hvalue,
    rfl, hreads, selectsLast_lastChars text count⟩

/-- The last characters of a text, for some count. -/
def lastBlock (count : Block) : Block :=
  .mk "text_endString" "" [("END", "LAST")] [("TEXT", textBlock "abc"), ("NUM", count)] [] none []

theorem lastTwo_selected :
    expressionCode (lastBlock (numberBlock "2")) {} = .ok ("\"abc\"[-2:]", .member) {} ∧
      ∃ e, (lastBlock (numberBlock "2")).rendering.value {} = .ok e {} ∧
        Semantics.plain.eval (fun _ => none) e = some (.inr "bc") := by
  have hcode : expressionCode (lastBlock (numberBlock "2")) {}
      = .ok ("\"abc\"[-2:]", .member) {} := by rfl
  obtain ⟨text, count, e, p₁, htext, -, hn, he, -, -, hselects⟩ :=
    last_characters .initial rfl rfl hcode
  cases htext
  have hplain := Semantics.plain_standard
  exact ⟨hcode, e, he, hselects.eval_literal hplain (hplain.eval_text "abc") (hn 2 (by rfl))⟩

/-- The last characters, for a count that is computed and comes to zero. -/
def lastComputed : Block := lastBlock (arithmeticBlock "MINUS" (numberBlock "1") (numberBlock "1"))

/-- **A computed zero selects the whole text**, and not its last none characters. -/
theorem lastComputed_selects_all :
    expressionCode lastComputed {} = .ok ("\"abc\"[-(1 - 1):]", .member) {} ∧
      (∃ e, lastComputed.rendering.value {} = .ok e {} ∧
        Semantics.plain.eval (fun _ => none) e = some (.inr "abc")) ∧
      Text.last (1 - 1) "abc" = "" :=
  ⟨rfl, ⟨_, rfl, rfl⟩, rfl⟩

end Render

end Jigsaw
