import Jigsaw.Proofs.Number.Literal
import Jigsaw.Proofs.Number.Shortest

/-!
# Proofs/Number/ReadBack — number literals are read back as what they were written for

The literal of a number is one token with at most a minus sign in front.  Read as the text of a
field it spells the same number again: an integer digit by digit, a floating point number because
its digits, wherever the point stands, are the shortest decimal that is covered by its magnitude.
-/

namespace Jigsaw

open Source

/-! ## The characters of literals -/

/-- A character of a number literal. -/
def Decimal.IsPart (c : Char) : Prop := Integer.isDigit c ∨ c ∈ ['.', 'e', '+', '-']

namespace Decimal

theorem IsPart.isBlank_eq_false {c : Char} (h : IsPart c) : Text.isBlank c = false := by
  rcases h with h | h
  · exact Text.isBlank_of_isDigit h
  · exact (by decide : ∀ d ∈ ['.', 'e', '+', '-'], Text.isBlank d = false) c h

/-- An ASCII digit is its own plain form, -/
theorem plainDigit_of_isDigit {c : Char} (h : Integer.isDigit c) : plainDigit c = c := by
  rw [isDigit_eq] at h
  obtain ⟨hlow, hhigh⟩ := Name.toNat_of_isDigit h
  have hvalue : Text.digitValue? c = some (c.toNat - 48) := by
    rw [Text.digitValue?, Text.digitZeros, List.find?_cons_of_pos]
    · rfl
    · simp only [Bool.and_eq_true, decide_eq_true_eq]
      omega
  rw [plainDigit, hvalue]
  dsimp only
  rw [show '0'.toNat + (c.toNat - 48) = c.toNat by
    rw [show '0'.toNat = 48 from rfl]
    omega, Char.ofNat_toNat]

/-- …and so are the marks. -/
theorem IsPart.plainDigit_eq {c : Char} (h : IsPart c) : plainDigit c = c := by
  rcases h with h | h
  · exact plainDigit_of_isDigit h
  · exact (by decide : ∀ d ∈ ['.', 'e', '+', '-'], plainDigit d = d) c h

theorem IsPart.ne_lowLine {c : Char} (h : IsPart c) : c ≠ '_' := by
  rintro rfl
  exact absurd h (by unfold IsPart; decide)

/-- A text without low lines has no groups to join. -/
theorem joinGroups_of_not_mem : ∀ {cs : List Char}, (∀ c ∈ cs, c ≠ '_') → ∀ last : Char,
    joinGroups last cs = some cs
  | [], _, _ => rfl
  | c :: cs, h, last => by
      have hc := h c List.mem_cons_self
      rw [joinGroups, if_neg hc, joinGroups_of_not_mem fun d hd => h d (List.mem_cons_of_mem _ hd),
        Option.map_some]
      exact fun _ _ hgroup => absurd hgroup hc

theorem read?_eq_plain? {cs : List Char} (h : ∀ c ∈ cs, IsPart c) : read? cs = plain? cs := by
  have hplain : cs.map plainDigit = cs := by
    conv_rhs => rw [← List.map_id cs]
    exact List.map_congr_left fun c hc => (h c hc).plainDigit_eq
  rw [read?, hplain, joinGroups_of_not_mem (fun c hc => (h c hc).ne_lowLine) ' ', Option.bind_some]

/-! ## Reading a literal -/

/-- The sign of a literal. -/
def signText (negative : Bool) : List Char := if negative then ['-'] else []

theorem sign_digits {cs rest : List Char} (h : Integer.Digits cs) (negative : Bool) :
    sign (signText negative ++ (cs ++ rest)) = (negative, cs ++ rest) := by
  cases negative with
  | true => rfl
  | false =>
    obtain ⟨c, ds, rfl⟩ := List.exists_cons_of_ne_nil h.1
    have hc := h.2 c List.mem_cons_self
    rw [signText, if_neg (by decide), List.nil_append, List.cons_append, sign]
    · exact fun _ heq => absurd hc (by rw [(List.cons.inj heq).1]; decide)
    · exact fun _ heq => absurd hc (by rw [(List.cons.inj heq).1]; decide)

/-- **A literal is read part by part**: digits, perhaps a point with digits after it, and perhaps an
exponent. -/
theorem plain?_parts {whole part ds power : List Char} {e : Int} (hwhole : Integer.Digits whole)
    (hpart : part = '.' :: ds ∨ part = [] ∧ ds = []) (hds : ∀ c ∈ ds, Integer.isDigit c)
    (hpower : exponent? power = some e) (hstop : ∀ c ∈ power.head?, c = 'e') (negative : Bool) :
    plain? (signText negative ++ (whole ++ (part ++ power)))
      = some ⟨negative, Integer.ofDigits (whole ++ ds), e - ds.length⟩ := by
  have hpowerStop : ∀ c ∈ power.head?, Integer.isDigit c = false := by
    intro c hc
    obtain rfl := hstop c hc
    decide
  have hwholeStop : ∀ c ∈ (part ++ power).head?, Integer.isDigit c = false := by
    rcases hpart with rfl | ⟨rfl, -⟩
    · intro c hc
      obtain rfl : '.' = c := by simpa using hc
      decide
    · exact hpowerStop
  have hfraction : fraction (part ++ power) = (ds, power) := by
    rcases hpart with rfl | ⟨rfl, rfl⟩
    · rw [List.cons_append, fraction, takeWhile_append_of_stop hds hpowerStop,
        dropWhile_append_of_stop hds hpowerStop]
    · rw [List.nil_append, fraction]
      rintro cs rfl
      exact absurd (hstop '.' rfl) (by decide)
  have hne : whole.isEmpty = false := by simpa using hwhole.1
  unfold plain?
  rw [sign_digits hwhole]
  dsimp only
  rw [takeWhile_append_of_stop hwhole.2 hwholeStop, dropWhile_append_of_stop hwhole.2 hwholeStop,
    hfraction]
  dsimp only
  rw [hne, Bool.false_and, if_neg (by decide), hpower, Option.map_some]

end Decimal

/-! ## Digits and zeros -/

namespace Integer

theorem ofDigits_append (cs ds : List Char) :
    ofDigits (cs ++ ds) = 10 ^ ds.length * ofDigits cs + ofDigits ds :=
  (Nat.ofDigitChars_append 0).trans Nat.ofDigitChars_eq_ofDigitChars_zero

theorem ofDigits_zeroText (n : Nat) : ofDigits (Binary64.zeroText n) = 0 :=
  Nat.ofDigitChars_replicate_zero.trans (Nat.mul_zero _)

theorem ofDigits_zeroText_append (n : Nat) (cs : List Char) :
    ofDigits (Binary64.zeroText n ++ cs) = ofDigits cs := by
  rw [ofDigits_append, ofDigits_zeroText, Nat.mul_zero, Nat.zero_add]

end Integer

/-! ## Layouts -/

namespace Binary64

open Decimal

/-- The text, after a sign or none, is read as a decimal of this value. -/
def Spells (cs : List Char) (v : ℚ) : Prop := ∀ negative : Bool, ∃ (c : ℕ) (f : ℤ),
  plain? (signText negative ++ cs) = some ⟨negative, c, f⟩ ∧ c * (10 : ℚ) ^ f = v

/-- Digits, a point and digits after it. -/
theorem spells_point {whole ds : List Char} (hwhole : Integer.Digits whole)
    (hds : ∀ c ∈ ds, Integer.isDigit c) :
    Spells (whole ++ '.' :: ds) (Integer.ofDigits (whole ++ ds) * 10 ^ (-ds.length : ℤ)) := by
  intro negative
  have hread := plain?_parts hwhole (Or.inl rfl) hds (show exponent? [] = some 0 from rfl)
    (by simp) negative
  rw [List.append_nil, zero_sub] at hread
  exact ⟨_, _, hread, rfl⟩

/-- **A positional literal has the value of its digits**, -/
theorem spells_positionalText {ds : List Char} (h : Integer.Digits ds) (e : ℤ) :
    Spells (positionalText ds e) (Integer.ofDigits ds * 10 ^ e) := by
  unfold positionalText
  split
  · -- Zeros stand up to the point.
    rename_i he
    obtain ⟨n, rfl⟩ := Int.eq_ofNat_of_zero_le he
    have hwhole : Integer.Digits (ds ++ zeroText n) :=
      ⟨by simp [h.1], fun c hc => (List.mem_append.mp hc).elim (h.2 c) isDigit_of_mem_zeroText⟩
    have hvalue : (Integer.ofDigits (ds ++ zeroText n ++ ['0']) : ℚ) * 10 ^ (-['0'].length : ℤ)
        = Integer.ofDigits ds * 10 ^ (n : ℤ) := by
      rw [Integer.ofDigits_append, Integer.ofDigits_append, Integer.ofDigits_zeroText,
        show Integer.ofDigits ['0'] = 0 from rfl, zeroText, List.length_replicate, zpow_natCast]
      push_cast
      norm_num
      ring
    rw [← hvalue]
    exact spells_point hwhole (by decide)
  dsimp only
  split
  · -- The point stands among the digits.
    rename_i hcut
    obtain ⟨n, hn⟩ := Int.eq_ofNat_of_zero_le hcut.le
    have hlength : (-(ds.drop n).length : ℤ) = e := by
      rw [List.length_drop]
      omega
    have hwhole : Integer.Digits (ds.take n) :=
      ⟨by rw [Ne, List.take_eq_nil_iff, not_or]; exact ⟨by omega, h.1⟩,
        fun c hc => h.2 c (List.mem_of_mem_take hc)⟩
    have hpart : ∀ c ∈ ds.drop n, Integer.isDigit c := fun c hc => h.2 c (List.mem_of_mem_drop hc)
    have hspells := spells_point hwhole hpart
    rw [List.take_append_drop, hlength] at hspells
    rw [hn]
    exact hspells
  · -- The point stands in front of the digits, with zeros between.
    rename_i hcut
    obtain ⟨n, hn⟩ := Int.eq_ofNat_of_zero_le (show 0 ≤ -(ds.length + e : ℤ) by omega)
    have hds : ∀ c ∈ zeroText n ++ ds, Integer.isDigit c :=
      fun c hc => (List.mem_append.mp hc).elim isDigit_of_mem_zeroText (h.2 c)
    have hlength : (-(zeroText n ++ ds).length : ℤ) = e := by
      rw [List.length_append, zeroText, List.length_replicate]
      omega
    have hvalue : Integer.ofDigits (zeroText 1 ++ (zeroText n ++ ds)) = Integer.ofDigits ds := by
      rw [Integer.ofDigits_zeroText_append, Integer.ofDigits_zeroText_append]
    have hspells := spells_point (show Integer.Digits (zeroText 1) from ⟨by decide, by decide⟩) hds
    rw [hlength, hvalue] at hspells
    rw [hn]
    exact hspells

theorem exponent?_exponentText (e : ℤ) : exponent? (exponentText e) = some e := by
  have hds : Integer.digits? (zeroText (2 - e.natAbs.repr.toList.length) ++ e.natAbs.repr.toList)
      = some (zeroText (2 - e.natAbs.repr.toList.length) ++ e.natAbs.repr.toList) := by
    refine Integer.digits?_eq_some.mpr ⟨⟨?_, fun c hc => ?_⟩, rfl⟩
    · rw [Nat.toList_repr]
      simp [Nat.toDigits_ne_nil]
    · rw [Nat.toList_repr] at hc
      exact (List.mem_append.mp hc).elim isDigit_of_mem_zeroText isDigit_of_mem_toDigits
  have hvalue : Integer.ofDigits
      (zeroText (2 - e.natAbs.repr.toList.length) ++ e.natAbs.repr.toList) = e.natAbs := by
    rw [Integer.ofDigits_zeroText_append, Nat.toList_repr, ofDigits_toDigits]
  unfold exponentText exponent?
  dsimp only
  rw [if_pos (by decide)]
  by_cases he : e < 0
  · rw [if_pos he, sign, hds, Option.map_some, hvalue, if_pos rfl]
    exact congrArg some (by omega)
  · rw [if_neg he, sign, hds, Option.map_some, hvalue, if_neg nofun]
    exact congrArg some (by omega)

/-- …**and so has a scientific literal.** -/
theorem spells_scientificText {d : Char} {rest : List Char} (h : Integer.Digits (d :: rest))
    (e : ℤ) : Spells (scientificText (d :: rest) e) (Integer.ofDigits (d :: rest) * 10 ^ e) := by
  intro negative
  have hd : Integer.Digits [d] :=
    ⟨List.cons_ne_nil _ _, fun c hc => h.2 c (List.mem_singleton.mp hc ▸ List.mem_cons_self)⟩
  have hrest : ∀ c ∈ rest, Integer.isDigit c := fun c hc => h.2 c (List.mem_cons_of_mem _ hc)
  have hpart : (if rest.isEmpty then [] else '.' :: rest) = '.' :: rest ∨
      (if rest.isEmpty then [] else '.' :: rest) = [] ∧ rest = [] := by
    cases rest with
    | nil => exact Or.inr ⟨rfl, rfl⟩
    | cons _ _ => exact Or.inl rfl
  have hread := plain?_parts hd hpart hrest (exponent?_exponentText ((d :: rest).length + e - 1))
    (by simp [exponentText]) negative
  have htext : scientificText (d :: rest) e = [d] ++ ((if rest.isEmpty then [] else '.' :: rest)
      ++ exponentText ((d :: rest).length + e - 1)) := by
    rw [scientificText]
    split <;> rfl
  rw [htext]
  refine ⟨_, _, hread, ?_⟩
  rw [List.singleton_append, List.length_cons]
  congr 2
  push_cast
  ring

theorem digits_shortest (x : Binary64) : Integer.Digits x.shortest.1.repr.toList := by
  rw [Nat.toList_repr]
  exact Integer.digits_toDigits _

/-- **The text of a magnitude has the value of its shortest decimal.** -/
theorem spells_text (x : Binary64) :
    Spells x.text.toList (x.shortest.1 * 10 ^ x.shortest.2) := by
  have hdigits := x.digits_shortest
  have hvalue : Integer.ofDigits x.shortest.1.repr.toList = x.shortest.1 := by
    rw [Nat.toList_repr, ofDigits_toDigits]
  conv in (x.shortest.1 : ℚ) => rw [← hvalue]
  rw [text]
  dsimp only
  rw [String.toList_ofList]
  split
  · exact spells_positionalText hdigits _
  · obtain ⟨d, rest, hlist⟩ := List.exists_cons_of_ne_nil hdigits.1
    rw [hlist] at hdigits ⊢
    exact spells_scientificText hdigits _

theorem isPart_text (x : Binary64) : ∀ c ∈ x.text.toList, IsPart c := by
  obtain ⟨whole, part, power, heq, hparts⟩ := floatingParts_text x
  rw [heq]
  intro c hc
  rcases List.mem_append.mp hc with hc | hc
  · rcases List.mem_append.mp hc with hc | hc
    · exact Or.inl (hparts.whole_digit c hc)
    · rcases hparts.part_eq with rfl | ⟨ds, rfl, hds⟩
      · exact absurd hc List.not_mem_nil
      · rcases List.mem_cons.mp hc with rfl | hc
        · exact Or.inr (by decide)
        · exact Or.inl (hds c hc)
  · rcases hparts.power_eq with rfl | ⟨sign, ds, rfl, hsign, -, hds⟩
    · exact absurd hc List.not_mem_nil
    · rcases List.mem_cons.mp hc with rfl | hc
      · exact Or.inr (by decide)
      rcases List.mem_cons.mp hc with rfl | hc
      · rcases hsign with rfl | rfl <;> exact Or.inr (by decide)
      · exact Or.inl (hds c hc)

theorem isPart_signed (x : Binary64) (negative : Bool) :
    ∀ c ∈ signText negative ++ x.text.toList, IsPart c := by
  intro c hc
  rcases List.mem_append.mp hc with hc | hc
  · cases negative with
    | true =>
      obtain rfl := List.mem_singleton.mp hc
      exact Or.inr (by decide)
    | false => exact absurd hc List.not_mem_nil
  · exact x.isPart_text c hc

/-- **The text of a magnitude is read back as the magnitude**, with the sign in front. -/
theorem read?_text {x : Binary64} (hx : x.Canonical) (negative : Bool) : ∃ c f,
    Decimal.read? (signText negative ++ x.text.toList) = some ⟨negative, c, f⟩ ∧
      c * (10 : ℚ) ^ f = x.shortest.1 * 10 ^ x.shortest.2 ∧ ofDecimal? c f = some x := by
  obtain ⟨c, f, hread, hvalue⟩ := x.spells_text negative
  rw [read?_eq_plain? (x.isPart_signed negative)]
  refine ⟨c, f, hread, hvalue, (reads_iff hx).mpr ?_⟩
  rw [hvalue]
  exact (reads_iff hx).mp (shortest_spec hx).reads

/-- The text of a magnitude has a point or an exponent, -/
theorem exists_mark_text (x : Binary64) : ∃ c ∈ x.text.toList, c ∈ ['.', 'e'] := by
  obtain ⟨whole, part, power, heq, hparts⟩ := floatingParts_text x
  rw [heq]
  rcases hparts.part_eq with hpart | ⟨ds, rfl, -⟩
  · rcases hparts.power_eq with hpower | ⟨sign, ds, rfl, -⟩
    · exact absurd hpower (hparts.not_integer.resolve_left fun hne => hne hpart)
    · exact ⟨'e', by simp, by decide⟩
  · exact ⟨'.', by simp, by decide⟩

/-- …so it is no integer literal. -/
theorem spell?_text (x : Binary64) (negative : Bool) :
    Integer.spell? (signText negative ++ x.text.toList) = none := by
  obtain ⟨c, hc, hmark⟩ := x.exists_mark_text
  obtain ⟨hsign, hdigit⟩ := (by decide : ∀ d ∈ ['.', 'e'], d ≠ '-' ∧ ¬ Integer.isDigit d) c hmark
  refine Option.eq_none_iff_forall_ne_some.mpr fun s hs => ?_
  obtain ⟨hdigits, hlist⟩ := Integer.spell?_eq_some.mp hs
  have hmem : c ∈ if s.negative then '-' :: s.digits else s.digits :=
    hlist ▸ List.mem_append_right _ hc
  split at hmem
  · exact hdigit (hdigits.2 c ((List.mem_cons.mp hmem).resolve_left hsign))
  · exact hdigit (hdigits.2 c hmem)

end Binary64

/-! ## Numerals -/

namespace Numeral

/-- The magnitude of a floating point number is one of those that there are. -/
def Canonical : Numeral → Prop
  | .integer _ => True
  | .floating _ x => x.Canonical

theorem toList_text_floating (negative : Bool) (x : Binary64) :
    (floating negative x).text.toList = Decimal.signText negative ++ x.text.toList := by
  cases negative with
  | true => exact String.toList_append
  | false => rfl

/-- **A text spells a number that there is**, -/
theorem canonical_ofText (raw : String) : (ofText raw).Canonical := by
  unfold ofText ofChars
  split
  · exact trivial
  split
  · exact trivial
  split
  · rename_i hread
    exact (Binary64.ofDecimal?_eq_some_iff.mp hread).1
  · exact trivial

/-- …**and its literal spells the number again.** -/
theorem ofText_text {n : Numeral} (h : n.Canonical) : ofText n.text = n := by
  cases n with
  | integer k => exact ofText_toString k
  | floating negative x =>
    obtain ⟨c, f, hread, -, hdecimal⟩ := Binary64.read?_text h negative
    have hblank : ∀ d ∈ Decimal.signText negative ++ x.text.toList, Text.isBlank d = false :=
      fun d hd => (x.isPart_signed negative d hd).isBlank_eq_false
    rw [ofText, toList_text_floating, Text.trimChars_of_forall hblank, ofChars, x.spell?_text]
    dsimp only
    rw [hread]
    dsimp only
    rw [hdecimal]

/-! ## Tokens -/

/-- The number of a literal, without its sign, as a token. -/
def token : Numeral → Token
  | .integer k => .integer k.natAbs
  | .floating _ x => .floating x.text

/-- **A literal is one token**, with a minus sign in front if the number is negative. -/
theorem scan_text (n : Numeral) :
    scan n.text.toList = some ((if n.isNegative then [.mark "-"] else []) ++ [n.token]) := by
  have hminus {cs : List Char} {t : Token} (h : scan cs = some [t]) :
      scan ('-' :: cs) = some [.mark "-", t] := by
    rw [scan_mark (by decide) (by decide), h]
    rfl
  cases n with
  | integer k =>
    have hdigits : scan (Nat.toDigits 10 k.natAbs) = some [.integer k.natAbs] := by
      have hscan := scan_integer k.natAbs (Follows.nil false)
      rwa [List.append_nil, scan_nil] at hscan
    rw [text, Integer.toList_toString, isNegative]
    by_cases hk : k < 0
    · rw [if_pos hk, if_pos (decide_eq_true hk)]
      exact hminus hdigits
    · rw [if_neg hk, if_neg (by simpa using hk)]
      exact hdigits
  | floating negative x =>
    have hmagnitude : scan x.text.toList = some [.floating x.text] := by
      obtain ⟨whole, part, power, heq, hparts⟩ := floatingParts_text x
      have hscan := scan_floating hparts (Follows.nil true)
      rwa [List.append_nil, scan_nil, ← heq, String.ofList_toList] at hscan
    rw [toList_text_floating]
    cases negative with
    | true => exact hminus hmagnitude
    | false => exact hmagnitude

end Numeral

/-! ## Canonical literals -/

/-- The value of a decimal, without its sign. -/
def Decimal.magnitude (d : Decimal) : ℚ := d.coefficient * 10 ^ d.exponent

namespace Numeral

/-- A decimal that is no integer literal is rounded to the nearest magnitude, or is past the
greatest. -/
theorem ofText_decimal {raw : String} {d : Decimal}
    (hspell : Integer.spell? (Text.trimChars raw.toList) = none)
    (hread : Decimal.read? (Text.trimChars raw.toList) = some d) :
    (Binary64.overflow ≤ d.magnitude ∧ ofText raw = .integer 0) ∨
      ∃ x : Binary64, x.Nearest d.magnitude ∧ d.magnitude < Binary64.overflow ∧
        ofText raw = .floating d.negative x := by
  unfold ofText ofChars
  rw [hspell]
  dsimp only
  rw [hread]
  dsimp only
  cases hdecimal : Binary64.ofDecimal? d.coefficient d.exponent with
  | none => exact Or.inl ⟨Binary64.ofDecimal?_eq_none_iff.mp hdecimal, rfl⟩
  | some x =>
    obtain ⟨hx, hcovers⟩ := Binary64.ofDecimal?_eq_some_iff.mp hdecimal
    exact Or.inr ⟨x, hcovers.nearest hx, hcovers.lt_overflow hx, rfl⟩

/-- **Number literals are canonical.**  The literal of a field's text is one token after at most a
minus sign, and spells the number that it is the literal of, so it is its own literal.  Digits with
an optional minus sign keep their integer, however many they are; every other decimal becomes the
shortest decimal of the magnitude nearest to it, or zero if it is past the greatest; and what is no
number at all becomes zero. -/
theorem literal_canonical (raw : String) :
    scan (ofText raw).text.toList
        = some ((if (ofText raw).isNegative then [.mark "-"] else []) ++ [(ofText raw).token]) ∧
    ofText (ofText raw).text = ofText raw ∧
    (ofText (ofText raw).text).text = (ofText raw).text ∧
    (∀ (negative : Bool) (digits : List Char), Integer.Digits digits →
      Text.trimChars raw.toList = Decimal.signText negative ++ digits →
      (ofText raw).text = toString (if negative then -(Integer.ofDigits digits : ℤ)
        else Integer.ofDigits digits)) ∧
    (∀ d, Integer.spell? (Text.trimChars raw.toList) = none →
      Decimal.read? (Text.trimChars raw.toList) = some d →
      (Binary64.overflow ≤ d.magnitude ∧ (ofText raw).text = "0") ∨
        ∃ (x : Binary64) (k : ℕ) (e : ℤ), x.Nearest d.magnitude ∧
          d.magnitude < Binary64.overflow ∧ x.Shortest k e ∧
          ofText raw = .floating d.negative x ∧
          ∃ t, Decimal.read? (ofText raw).text.toList = some t ∧ t.negative = d.negative ∧
            t.magnitude = k * 10 ^ e) ∧
    (Integer.spell? (Text.trimChars raw.toList) = none →
      Decimal.read? (Text.trimChars raw.toList) = none → (ofText raw).text = "0") := by
  have hback := ofText_text (canonical_ofText raw)
  refine ⟨scan_text _, hback, congrArg text hback, ?_, ?_, ?_⟩
  · intro negative digits hdigits htrim
    have hspell : Integer.spell? (Text.trimChars raw.toList) = some ⟨negative, digits⟩ := by
      rw [htrim, Integer.spell?_eq_some]
      refine ⟨hdigits, ?_⟩
      cases negative <;> rfl
    rw [ofText, ofChars, hspell]
    rfl
  · intro d hspell hread
    rcases ofText_decimal hspell hread with ⟨hover, heq⟩ | ⟨x, hnearest, hlt, heq⟩
    · exact Or.inl ⟨hover, by rw [heq]; rfl⟩
    · obtain ⟨c, f, hback, hvalue, -⟩ := Binary64.read?_text hnearest.canonical d.negative
      refine Or.inr ⟨x, _, _, hnearest, hlt, Binary64.shortest_spec hnearest.canonical, heq,
        ⟨d.negative, c, f⟩, ?_, rfl, hvalue⟩
      rw [heq, toList_text_floating]
      exact hback
  · intro hspell hread
    rw [ofText, ofChars, hspell]
    dsimp only
    rw [hread]
    rfl

end Numeral

end Jigsaw
