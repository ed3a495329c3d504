import Jigsaw.Number.Layout
import Jigsaw.Proofs.Name.Fresh
import Jigsaw.Proofs.Source.Literal

/-!
# Proofs/Source/Token — program text as a row of tokens

`scan` cuts a line of program text into words, numbers, string literals and marks, each as long as
it can be; blanks only keep tokens apart.  A number takes a point that follows it, so `5.upper` is
no integer with a selector: this is the one place where what follows a token decides how it is read,
and `Follows` says which characters may come after a piece of text.
-/

namespace Jigsaw.Source

/-- What is said of the characters of a list is decided one by one. -/
instance decidableForallMem (cs : List Char) (p : Char → Prop) [DecidablePred p] :
    Decidable (∀ c ∈ cs, p c) := List.decidableBAll p cs

/-- A token of program text. -/
inductive Token where
  /-- A name or a keyword. -/
  | word (text : String)
  /-- An integer literal. -/
  | integer (value : Nat)
  /-- A number literal with a point or an exponent, as it is written. -/
  | floating (literal : String)
  /-- A string literal, by the text it stands for. -/
  | text (content : String)
  /-- An operator or a bracket. -/
  | mark (symbol : String)
deriving DecidableEq

/-! ## Numbers -/

/-- A point with the digits after it, and the rest. -/
def fraction : List Char → List Char × List Char
  | '.' :: cs => ('.' :: cs.takeWhile Integer.isDigit, cs.dropWhile Integer.isDigit)
  | cs => ([], cs)

/-- The sign of an exponent, if there is one, and the rest. -/
def exponentSign : List Char → List Char × List Char
  | '+' :: cs => (['+'], cs)
  | '-' :: cs => (['-'], cs)
  | cs => ([], cs)

/-- An exponent with its mark, if one follows, and the rest. -/
def exponent (cs : List Char) : List Char × List Char :=
  match cs with
  | [] => ([], [])
  | c :: after =>
    let signed := exponentSign after
    let digits := signed.2.takeWhile Integer.isDigit
    if (c = 'e' || c = 'E') && !digits.isEmpty then
      (c :: (signed.1 ++ digits), signed.2.dropWhile Integer.isDigit)
    else ([], cs)

/-- The number that a text opens with.  An integer has no needless zeros in front, and no letter
follows a number. -/
def number (cs : List Char) : Option (Token × List Char) :=
  let whole := cs.takeWhile Integer.isDigit
  let part := fraction (cs.dropWhile Integer.isDigit)
  let power := exponent part.2
  let rest := power.2
  if rest.head?.any Text.isIdentifierPart then none
  else if part.1.isEmpty && power.1.isEmpty then
    if Nat.toDigits 10 (Integer.ofDigits whole) = whole then
      some (.integer (Integer.ofDigits whole), rest)
    else none
  else some (.floating (String.ofList (whole ++ part.1 ++ power.1)), rest)

/-! ## Tokens -/

/-- The marks of one character. -/
def marks : List Char := ['(', ')', '[', ']', ',', ':', '.', '+', '-', '*', '/', '<', '>']

/-- The mark that a text opens with. -/
def mark : List Char → Option (Token × List Char)
  | '*' :: '*' :: cs => some (.mark "**", cs)
  | '=' :: '=' :: cs => some (.mark "==", cs)
  | '!' :: '=' :: cs => some (.mark "!=", cs)
  | c :: cs => if c ∈ marks then some (.mark (String.singleton c), cs) else none
  | [] => none

/-- The token that a text opens with, and the rest. -/
def next : List Char → Option (Token × List Char)
  | [] => none
  | c :: cs =>
    if Text.isIdentifierStart c then
      some (.word (String.ofList (c :: cs.takeWhile Text.isIdentifierPart)),
        cs.dropWhile Text.isIdentifierPart)
    else if Integer.isDigit c then number (c :: cs)
    else if c = '"' then
      (Text.unquote cs).map fun read => (.text (String.ofList read.1), read.2)
    else mark (c :: cs)

theorem length_dropWhile_le (p : Char → Bool) (cs : List Char) :
    (cs.dropWhile p).length ≤ cs.length := (List.dropWhile_sublist p).length_le

theorem length_fraction_le (cs : List Char) : (fraction cs).2.length ≤ cs.length := by
  unfold fraction
  split
  · exact Nat.le_succ_of_le (length_dropWhile_le _ _)
  · exact Nat.le_refl _

theorem length_exponentSign_le (cs : List Char) : (exponentSign cs).2.length ≤ cs.length := by
  unfold exponentSign
  split
  · exact Nat.le_succ _
  · exact Nat.le_succ _
  · exact Nat.le_refl _

theorem length_exponent_le (cs : List Char) : (exponent cs).2.length ≤ cs.length := by
  unfold exponent
  split
  · exact Nat.le_refl _
  · rename_i c after
    dsimp only
    split
    · calc ((exponentSign after).2.dropWhile Integer.isDigit).length
          ≤ (exponentSign after).2.length := length_dropWhile_le _ _
        _ ≤ after.length := length_exponentSign_le after
        _ ≤ (c :: after).length := Nat.le_succ _
    · exact Nat.le_refl _

theorem length_of_number {c : Char} {cs rest : List Char} {t : Token} (hc : Integer.isDigit c)
    (h : number (c :: cs) = some (t, rest)) : rest.length < (c :: cs).length := by
  have hrest : rest = (exponent (fraction ((c :: cs).dropWhile Integer.isDigit)).2).2 := by
    unfold number at h
    dsimp only at h
    split at h
    · cases h
    · split at h
      · split at h
        · cases h; rfl
        · cases h
      · cases h; rfl
  rw [hrest, List.dropWhile_cons_of_pos hc]
  calc (exponent (fraction (cs.dropWhile Integer.isDigit)).2).2.length
      ≤ (fraction (cs.dropWhile Integer.isDigit)).2.length := length_exponent_le _
    _ ≤ (cs.dropWhile Integer.isDigit).length := length_fraction_le _
    _ ≤ cs.length := length_dropWhile_le _ _
    _ < (c :: cs).length := Nat.lt_succ_self _

theorem length_of_mark {cs rest : List Char} {t : Token} (h : mark cs = some (t, rest)) :
    rest.length < cs.length := by
  unfold mark at h
  split at h
  case h_4 =>
    split at h
    · cases h; exact Nat.lt_succ_self _
    · cases h
  case h_5 => cases h
  all_goals
    cases h
    exact Nat.lt_succ_of_lt (Nat.lt_succ_self _)

/-- A token takes something away. -/
theorem length_of_next {cs rest : List Char} {t : Token} (h : next cs = some (t, rest)) :
    rest.length < cs.length := by
  cases cs with
  | nil => cases h
  | cons c cs =>
    rw [next] at h
    split at h
    · cases h
      exact Nat.lt_succ_of_le (length_dropWhile_le _ _)
    split at h
    · rename_i hdigit
      exact length_of_number hdigit h
    split at h
    · obtain ⟨⟨content, rest'⟩, hread, heq⟩ := Option.map_eq_some_iff.mp h
      cases heq
      exact Nat.lt_succ_of_lt (Text.length_of_unquote hread)
    · exact length_of_mark h

/-- The tokens of a text; none if some part of it is no token. -/
def scan (cs : List Char) : Option (List Token) :=
  match cs with
  | [] => some []
  | ' ' :: cs => scan cs
  | c :: cs =>
    match _h : next (c :: cs) with
    | none => none
    | some (t, rest) => (scan rest).map (t :: ·)
termination_by cs.length
decreasing_by
  · exact Nat.lt_succ_self _
  · exact length_of_next _h

theorem scan_nil : scan [] = some [] := by rw [scan]

@[simp] theorem scan_space (cs : List Char) : scan (' ' :: cs) = scan cs := by rw [scan]

/-- A text that opens with a token is that token and the rest. -/
theorem scan_of_next {cs rest : List Char} {t : Token} (h : next cs = some (t, rest)) :
    scan cs = (scan rest).map (t :: ·) := by
  cases cs with
  | nil => cases h
  | cons c cs =>
    have hc : c ≠ ' ' := by
      rintro rfl
      exact absurd h (by simp [next, mark, marks, Text.isIdentifierStart, Integer.isDigit])
    rw [scan]
    · split
      · rename_i hnone
        rw [h] at hnone
        cases hnone
      · rename_i hsome
        rw [h] at hsome
        cases hsome
        rfl
    · exact hc

/-! ## What may follow

After a finished piece of an expression comes a blank, a comma, a colon, a bracket or the end of the
text, and after most pieces a point. -/

/-- The characters that end every token before them. -/
def closers : List Char := [' ', ',', ')', ']', ':', '[', '(']

/-- The text starts with a character that may follow a piece of code; `point` says whether a point
may. -/
def Follows (point : Bool) (rest : List Char) : Prop :=
  ∀ c ∈ rest.head?, c ∈ closers ∨ point ∧ c = '.'

theorem Follows.nil (point : Bool) : Follows point [] := fun _ h => absurd h (by simp)

theorem Follows.cons {c : Char} (hc : c ∈ closers) (point : Bool) (rest : List Char) :
    Follows point (c :: rest) := by
  intro d hd
  obtain rfl : c = d := by simpa using hd
  exact Or.inl hc

theorem Follows.point (rest : List Char) : Follows true ('.' :: rest) := by
  intro d hd
  obtain rfl : '.' = d := by simpa using hd
  exact Or.inr ⟨rfl, rfl⟩

/-- A point may follow where nothing forbids it. -/
theorem Follows.weaken {point : Bool} {rest : List Char} (h : Follows false rest) :
    Follows point rest := fun c hc =>
  (h c hc).imp_right fun hfalse => absurd hfalse.1 (by decide)

/-- No character that may follow is part of a word. -/
theorem Follows.not_part {point : Bool} {rest : List Char} (h : Follows point rest) :
    ∀ c ∈ rest.head?, Text.isIdentifierPart c = false := by
  intro c hc
  rcases h c hc with hc | ⟨-, rfl⟩
  · exact (by decide : ∀ d ∈ closers, Text.isIdentifierPart d = false) c hc
  · decide

/-- …or a digit. -/
theorem Follows.not_digit {point : Bool} {rest : List Char} (h : Follows point rest) :
    ∀ c ∈ rest.head?, Integer.isDigit c = false := by
  intro c hc
  rcases h c hc with hc | ⟨-, rfl⟩
  · exact (by decide : ∀ d ∈ closers, Integer.isDigit d = false) c hc
  · decide

/-- The longest run of a class of characters ends where the next character is outside it. -/
theorem takeWhile_append_of_stop {p : Char → Bool} {cs rest : List Char} (hcs : ∀ c ∈ cs, p c)
    (hrest : ∀ c ∈ rest.head?, p c = false) : (cs ++ rest).takeWhile p = cs := by
  rw [List.takeWhile_append_of_pos hcs]
  cases rest with
  | nil => simp
  | cons c rest => simp [hrest c rfl]

theorem dropWhile_append_of_stop {p : Char → Bool} {cs rest : List Char} (hcs : ∀ c ∈ cs, p c)
    (hrest : ∀ c ∈ rest.head?, p c = false) : (cs ++ rest).dropWhile p = rest := by
  rw [List.dropWhile_append_of_pos hcs]
  cases rest with
  | nil => rfl
  | cons c rest => simp [hrest c rfl]

/-! ## Tokens in front of a text -/

/-- **A word is read as far as it goes.** -/
theorem scan_word {w : String} (hw : Text.isIdentifier w) {rest : List Char}
    (hrest : Follows true rest) :
    scan (w.toList ++ rest) = (scan rest).map (Token.word w :: ·) := by
  obtain ⟨c, cs, hlist, hc, hcs⟩ := Name.isIdentifier_iff.mp hw
  refine scan_of_next ?_
  rw [hlist, List.cons_append, next, if_pos hc, takeWhile_append_of_stop hcs hrest.not_part,
    dropWhile_append_of_stop hcs hrest.not_part, ← hlist, String.ofList_toList]

/-- **A string literal is read as its text**, whatever follows. -/
theorem scan_quote (content : String) (rest : List Char) :
    scan ((Text.quote content).toList ++ rest) = (scan rest).map (Token.text content :: ·) := by
  refine scan_of_next ?_
  have hlist : (Text.quote content).toList ++ rest
      = '"' :: (content.toList.flatMap Text.escapeChar ++ '"' :: rest) := by
    simp [Text.quote, Text.escape]
  rw [hlist, next, if_neg (by decide), if_neg (by decide), if_pos rfl, Text.unquote_escape,
    Option.map_some, String.ofList_toList]

/-- A bracket, a comma, a colon, a point or a sign is a token of its own. -/
theorem scan_mark {c : Char} (hc : c ∈ marks) (hstar : c ≠ '*') (rest : List Char) :
    scan (c :: rest) = (scan rest).map (Token.mark (String.singleton c) :: ·) := by
  refine scan_of_next ?_
  have hplain : ∀ d ∈ marks, Text.isIdentifierStart d = false ∧ Integer.isDigit d = false ∧
      d ≠ '"' ∧ d ≠ '=' ∧ d ≠ '!' := by decide
  obtain ⟨hstart, hdigit, hquote, hequal, hbang⟩ := hplain c hc
  rw [next, if_neg (by simp [hstart]), if_neg (by simp [hdigit]), if_neg hquote, mark,
    if_pos hc]
  · exact fun _ h => absurd h hstar
  · exact fun _ h => absurd h hequal
  · exact fun _ h => absurd h hbang

/-! ### Numbers -/

theorem isDigit_eq (c : Char) : Integer.isDigit c = c.isDigit := by
  simp only [Integer.isDigit, Char.isDigit, Char.le_def, ge_iff_le]

/-- Digits spell the number they were made of. -/
theorem ofDigits_toDigits (n : Nat) : Integer.ofDigits (Nat.toDigits 10 n) = n :=
  Nat.ofDigitChars_toDigits (by decide) (by decide)

theorem isDigit_of_mem_toDigits {n : Nat} {c : Char} (h : c ∈ Nat.toDigits 10 n) :
    Integer.isDigit c := by
  rw [isDigit_eq]
  exact Nat.isDigit_of_mem_toDigits (by decide) (by decide) h

theorem fraction_of_head {rest : List Char} (h : '.' ∉ rest.head?) :
    fraction rest = ([], rest) := by
  unfold fraction
  split
  · exact absurd rfl h
  · rfl

/-- No exponent starts with a character that may follow a number. -/
theorem exponent_of_follows {point : Bool} {rest : List Char} (h : Follows point rest) :
    exponent rest = ([], rest) := by
  cases rest with
  | nil => rfl
  | cons c rest =>
    have hc : ¬ (c = 'e' || c = 'E') := by
      rcases h c rfl with hc | ⟨-, rfl⟩
      · exact (by decide : ∀ d ∈ closers, ¬ (d = 'e' || d = 'E')) c hc
      · decide
    simp [exponent, hc]

/-- What `next` does with a text that opens with a digit. -/
theorem next_digit {c : Char} (hc : Integer.isDigit c) (cs : List Char) :
    next (c :: cs) = number (c :: cs) := by
  have hstart : Text.isIdentifierStart c = false := by
    by_contra hstart
    have hno := Name.isDigit_of_isIdentifierStart (by simpa using hstart)
    rw [isDigit_eq, hno] at hc
    cases hc
  rw [next, if_neg (by simp [hstart]), if_pos hc]

/-- **An integer is read as itself, unless a point follows.** -/
theorem scan_integer (n : Nat) {rest : List Char} (hrest : Follows false rest) :
    scan (Nat.toDigits 10 n ++ rest) = (scan rest).map (Token.integer n :: ·) := by
  refine scan_of_next ?_
  have hdigits : ∀ c ∈ Nat.toDigits 10 n, Integer.isDigit c := fun c hc =>
    isDigit_of_mem_toDigits hc
  have hpoint : '.' ∉ rest.head? := fun h => by
    rcases hrest '.' h with h | h
    · exact absurd h (by decide)
    · exact absurd h.1 (by decide)
  have hnumber : number (Nat.toDigits 10 n ++ rest) = some (.integer n, rest) := by
    have hpart : rest.head?.any Text.isIdentifierPart = false := by
      cases hhead : rest.head? with
      | none => rfl
      | some c => simpa using hrest.not_part c hhead
    simp only [number, takeWhile_append_of_stop hdigits hrest.not_digit,
      dropWhile_append_of_stop hdigits hrest.not_digit, fraction_of_head hpoint,
      exponent_of_follows hrest, hpart, ofDigits_toDigits]
    rfl
  obtain ⟨c, cs, hlist⟩ := List.exists_cons_of_ne_nil (Nat.toDigits_ne_nil : Nat.toDigits 10 n ≠ [])
  rw [hlist] at hdigits hnumber ⊢
  rw [List.cons_append, next_digit (hdigits c List.mem_cons_self)]
  exact hnumber

/-- The parts of a number literal with a point or an exponent. -/
structure FloatingParts (whole part power : List Char) : Prop where
  /-- Digits come first. -/
  whole_ne_nil : whole ≠ []
  whole_digit : ∀ c ∈ whole, Integer.isDigit c
  /-- A point may follow, with digits after it. -/
  part_eq : part = [] ∨ ∃ ds, part = '.' :: ds ∧ ∀ c ∈ ds, Integer.isDigit c
  /-- An exponent may follow, with a sign and digits. -/
  power_eq : power = [] ∨ ∃ sign ds, power = 'e' :: sign :: ds ∧ (sign = '+' ∨ sign = '-') ∧
    ds ≠ [] ∧ ∀ c ∈ ds, Integer.isDigit c
  /-- One of the two is there. -/
  not_integer : part ≠ [] ∨ power ≠ []

theorem exponent_append {power rest : List Char} (hrest : Follows true rest)
    (h : power = [] ∨ ∃ sign ds, power = 'e' :: sign :: ds ∧ (sign = '+' ∨ sign = '-') ∧
      ds ≠ [] ∧ ∀ c ∈ ds, Integer.isDigit c) : exponent (power ++ rest) = (power, rest) := by
  rcases h with rfl | ⟨sign, ds, rfl, hsign, hne, hds⟩
  · exact exponent_of_follows hrest
  · have hsigned : exponentSign (sign :: (ds ++ rest)) = ([sign], ds ++ rest) := by
      rcases hsign with rfl | rfl <;> rfl
    simp [exponent, hsigned, takeWhile_append_of_stop hds hrest.not_digit,
      dropWhile_append_of_stop hds hrest.not_digit, hne]

/-- What stands after the point is no digit. -/
theorem FloatingParts.power_stop {whole part power rest : List Char}
    (h : FloatingParts whole part power) (hrest : Follows true rest) :
    ∀ c ∈ (power ++ rest).head?, Integer.isDigit c = false := by
  rcases h.power_eq with rfl | ⟨sign, ds, rfl, -⟩
  · exact hrest.not_digit
  · intro c hc
    obtain rfl : 'e' = c := by simpa using hc
    decide

theorem FloatingParts.fraction {whole part power rest : List Char}
    (h : FloatingParts whole part power) (hrest : Follows true rest) :
    fraction (part ++ (power ++ rest)) = (part, power ++ rest) := by
  rcases h.part_eq with rfl | ⟨ds, rfl, hds⟩
  · refine fraction_of_head fun hpoint => ?_
    rcases h.power_eq with hpower | ⟨sign, ds, rfl, -⟩
    · exact absurd hpower (h.not_integer.resolve_left (fun hne => hne rfl))
    · exact absurd hpoint (by simp)
  · simp [Source.fraction, takeWhile_append_of_stop hds (h.power_stop hrest),
      dropWhile_append_of_stop hds (h.power_stop hrest)]

/-- The digits in front end at the point or the exponent. -/
theorem FloatingParts.whole_stop {whole part power rest : List Char}
    (h : FloatingParts whole part power) (hrest : Follows true rest) :
    ∀ c ∈ (part ++ (power ++ rest)).head?, Integer.isDigit c = false := by
  rcases h.part_eq with rfl | ⟨ds, rfl, -⟩
  · exact h.power_stop hrest
  · intro c hc
    obtain rfl : '.' = c := by simpa using hc
    decide

/-- **A number with a point or an exponent is read as it is written**, even if a point follows. -/
theorem scan_floating {whole part power : List Char} (h : FloatingParts whole part power)
    {rest : List Char} (hrest : Follows true rest) :
    scan (whole ++ part ++ power ++ rest)
      = (scan rest).map (Token.floating (String.ofList (whole ++ part ++ power)) :: ·) := by
  refine scan_of_next ?_
  have hnumber : number (whole ++ (part ++ (power ++ rest)))
      = some (.floating (String.ofList (whole ++ part ++ power)), rest) := by
    have hpart : rest.head?.any Text.isIdentifierPart = false := by
      cases hhead : rest.head? with
      | none => rfl
      | some c => simpa using hrest.not_part c hhead
    have hempty : (part.isEmpty && power.isEmpty) = false := by
      rcases h.not_integer with hne | hne <;> simp [hne]
    simp [number, takeWhile_append_of_stop h.whole_digit (h.whole_stop hrest),
      dropWhile_append_of_stop h.whole_digit (h.whole_stop hrest), h.fraction hrest,
      exponent_append hrest h.power_eq, hpart, hempty]
  obtain ⟨c, cs, rfl⟩ := List.exists_cons_of_ne_nil h.whole_ne_nil
  rw [List.append_assoc, List.append_assoc, List.cons_append,
    next_digit (h.whole_digit c List.mem_cons_self)]
  exact hnumber

/-! ### The literals of floating point numbers -/

theorem isDigit_of_mem_zeroText {n : Nat} {c : Char} (h : c ∈ Binary64.zeroText n) :
    Integer.isDigit c := by
  obtain rfl := List.eq_of_mem_replicate h
  decide

/-- A positional literal has a point and no exponent. -/
theorem floatingParts_positional {ds : List Char} (hne : ds ≠ [])
    (hds : ∀ c ∈ ds, Integer.isDigit c) (e : Int) :
    ∃ whole part, Binary64.positionalText ds e = whole ++ part ++ [] ∧
      FloatingParts whole part [] := by
  unfold Binary64.positionalText
  split
  · refine ⟨ds ++ Binary64.zeroText e.toNat, ['.', '0'], by simp, by simp [hne], ?_,
      Or.inr ⟨['0'], rfl, by decide⟩, Or.inl rfl, Or.inl (by simp)⟩
    intro c hc
    rcases List.mem_append.mp hc with hc | hc
    · exact hds c hc
    · exact isDigit_of_mem_zeroText hc
  dsimp only
  split
  · rename_i hcut
    refine ⟨ds.take (ds.length + e).toNat, '.' :: ds.drop (ds.length + e).toNat, by simp, ?_,
      fun c hc => hds c (List.mem_of_mem_take hc),
      Or.inr ⟨_, rfl, fun c hc => hds c (List.mem_of_mem_drop hc)⟩, Or.inl rfl, Or.inl (by simp)⟩
    rw [Ne, List.take_eq_nil_iff, not_or]
    exact ⟨by omega, hne⟩
  · refine ⟨['0'], '.' :: (Binary64.zeroText (-(ds.length + e)).toNat ++ ds), by simp, by simp,
      by decide, Or.inr ⟨_, rfl, fun c hc => ?_⟩, Or.inl rfl, Or.inl (by simp)⟩
    rcases List.mem_append.mp hc with hc | hc
    · exact isDigit_of_mem_zeroText hc
    · exact hds c hc

/-- A scientific literal has an exponent, and a point if it has two digits or more. -/
theorem floatingParts_scientific {d : Char} {rest : List Char}
    (hds : ∀ c ∈ d :: rest, Integer.isDigit c) (e : Int) :
    ∃ part power, Binary64.scientificText (d :: rest) e = [d] ++ part ++ power ∧
      FloatingParts [d] part power := by
  refine ⟨if rest.isEmpty then [] else '.' :: rest,
    Binary64.exponentText ((d :: rest).length + e - 1), ?_, by simp,
    fun c hc => hds c (List.mem_singleton.mp hc ▸ List.mem_cons_self), ?_, Or.inr ?_,
    Or.inr (by simp [Binary64.exponentText])⟩
  · simp only [Binary64.scientificText]
    split <;> rfl
  · split
    · exact Or.inl rfl
    · exact Or.inr ⟨rest, rfl, fun c hc => hds c (List.mem_cons_of_mem _ hc)⟩
  · refine ⟨_, _, rfl, ?_, ?_, fun c hc => ?_⟩
    · split
      · exact Or.inr rfl
      · exact Or.inl rfl
    · rw [Nat.toList_repr]
      simp [Nat.toDigits_ne_nil]
    · rcases List.mem_append.mp hc with hc | hc
      · exact isDigit_of_mem_zeroText hc
      · rw [Nat.toList_repr] at hc
        exact isDigit_of_mem_toDigits hc

/-- **The literal of a magnitude has a point or an exponent.** -/
theorem floatingParts_text (x : Binary64) : ∃ whole part power,
    x.text.toList = whole ++ part ++ power ∧ FloatingParts whole part power := by
  have hds : ∀ c ∈ x.shortest.1.repr.toList, Integer.isDigit c := fun c hc => by
    rw [Nat.toList_repr] at hc
    exact isDigit_of_mem_toDigits hc
  have hne : x.shortest.1.repr.toList ≠ [] := by
    rw [Nat.toList_repr]
    exact Nat.toDigits_ne_nil
  rw [Binary64.text]
  simp only [String.toList_ofList]
  split
  · obtain ⟨whole, part, heq, hparts⟩ := floatingParts_positional hne hds x.shortest.2
    exact ⟨whole, part, [], heq, hparts⟩
  · obtain ⟨d, rest, hlist⟩ := List.exists_cons_of_ne_nil hne
    rw [hlist] at hds ⊢
    obtain ⟨part, power, heq, hparts⟩ := floatingParts_scientific hds x.shortest.2
    exact ⟨[d], part, power, heq, hparts⟩

end Jigsaw.Source
