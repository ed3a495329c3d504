import Jigsaw.Proofs.Source.Line
import Jigsaw.Proofs.Source.Unambiguous

/-!
# Proofs/Number/Literal — texts of integers as literals

The decimal text of an integer is a literal of that integer (`spelling?_toString`), so it is read
back as long as its digits keep to the limit, and lowered by one as long as the digits of both
integers do (`zeroBased_toString`).  In the other direction, code that is an expression and a
literal at once has the integer of the literal for its tree (`int?_of_reads`).
-/

namespace Jigsaw

open Source

namespace Integer

/-! ## The literal of an integer -/

/-- Sign and digits of an integer. -/
def spellingOf (k : Int) : Spelling := ⟨decide (k < 0), Nat.toDigits 10 k.natAbs⟩

theorem value_spellingOf (k : Int) : (spellingOf k).value = k := by
  rw [Spelling.value, spellingOf, ofDigits_toDigits]
  by_cases hk : k < 0
  · rw [if_pos (decide_eq_true hk)]
    omega
  · rw [if_neg (by simpa using hk)]
    omega

/-- Digits are one character or more. -/
def Digits (cs : List Char) : Prop := cs ≠ [] ∧ ∀ c ∈ cs, isDigit c

theorem digits_toDigits (n : Nat) : Digits (Nat.toDigits 10 n) :=
  ⟨Nat.toDigits_ne_nil, fun _ => isDigit_of_mem_toDigits⟩

theorem digits?_eq_some {cs ds : List Char} : digits? cs = some ds ↔ Digits cs ∧ cs = ds := by
  unfold digits? Digits
  split
  · rename_i h
    simp only [Bool.or_eq_true, List.isEmpty_iff, Bool.not_eq_true', List.all_eq_false] at h
    grind
  · rename_i h
    simp_all

/-- A literal is its digits, or a minus sign and its digits. -/
theorem spell?_eq_some {cs : List Char} {s : Spelling} :
    spell? cs = some s ↔
      Digits s.digits ∧ cs = if s.negative then '-' :: s.digits else s.digits := by
  have hsign (ds : List Char) : ¬ Digits ('-' :: ds) := fun h =>
    absurd (h.2 '-' List.mem_cons_self) (by decide)
  obtain ⟨negative, digits⟩ := s
  unfold spell?
  split
  · simp only [Option.map_eq_some_iff, digits?_eq_some, Spelling.mk.injEq]
    cases negative <;> grind
  · simp only [Option.map_eq_some_iff, digits?_eq_some, Spelling.mk.injEq]
    cases negative <;> grind

/-- The text of an integer is its digits, after a minus sign if it is negative. -/
theorem toList_toString (k : Int) :
    (toString k).toList
      = if k < 0 then '-' :: Nat.toDigits 10 k.natAbs else Nat.toDigits 10 k.natAbs := by
  rw [Expr.toString_int]
  split <;> simp

theorem spell?_toString (k : Int) : spell? (toString k).toList = some (spellingOf k) := by
  refine spell?_eq_some.mpr ⟨digits_toDigits _, ?_⟩
  rw [toList_toString, spellingOf]
  simp only [decide_eq_true_eq]

theorem dropLineFeed_eq {cs : List Char} (h : '\n' ∉ cs) : dropLineFeed cs = cs :=
  if_neg fun hlast => h (List.mem_of_getLast? hlast)

/-- **The text of an integer is a literal of it.** -/
theorem spelling?_toString (k : Int) : spelling? (toString k) = some (spellingOf k) := by
  have hfeed : '\n' ∉ (toString k).toList := by
    rw [toList_toString]
    have hdigits : '\n' ∉ Nat.toDigits 10 k.natAbs := fun h =>
      absurd (isDigit_of_mem_toDigits h) (by decide)
    split
    · simpa using hdigits
    · exact hdigits
  rw [spelling?, dropLineFeed_eq hfeed, spell?_toString]

theorem read?_toString (k : Int) : read? (toString k) = if fits k then some k else none := by
  unfold read?
  rw [spelling?_toString]
  dsimp only
  rw [value_spellingOf, fits, Nat.repr, String.length_ofList, spellingOf]
  simp only [decide_eq_true_eq]

/-- A literal is lowered if the digits of both integers keep to the limit. -/
theorem zeroBased_toString (k : Int) :
    zeroBased (toString k)
      = if fits k && fits (k - 1) then toString (k - 1) else toString k ++ " - 1" := by
  rw [zeroBased, predecessor?, read?_toString]
  cases fits k with
  | false => rfl
  | true =>
    rw [if_pos rfl, Option.bind_some, write?, Bool.true_and]
    cases fits (k - 1) <;> rfl

theorem zeroBased_of_spelling?_eq_none {code : String} (h : spelling? code = none) :
    zeroBased code = code ++ " - 1" := by
  unfold zeroBased predecessor? read?
  rw [h]
  rfl

end Integer

/-- **The text of an integer spells the integer.** -/
theorem Numeral.ofText_toString (k : Int) : ofText (toString k) = .integer k := by
  have hdigit (c : Char) (hc : c ∈ Nat.toDigits 10 k.natAbs) : Text.isBlank c = false :=
    Text.isBlank_of_isDigit (isDigit_of_mem_toDigits hc)
  have hblank : ∀ c ∈ (toString k).toList, Text.isBlank c = false := by
    rw [Integer.toList_toString]
    split
    · exact List.forall_mem_cons.mpr ⟨by decide, hdigit⟩
    · exact hdigit
  rw [ofText, Text.trimChars_of_forall hblank, ofChars, Integer.spell?_toString]
  exact congrArg integer (Integer.value_spellingOf k)

/-! ## Code that is a literal -/

namespace Source

/-- A text that opens with no token has none. -/
theorem scan_of_next_eq_none {c : Char} {cs : List Char} (hc : c ≠ ' ')
    (h : next (c :: cs) = none) : scan (c :: cs) = none := by
  rw [scan]
  · split
    · rfl
    · rename_i hsome
      rw [h] at hsome
      cases hsome
  · exact hc

/-- Digits are one number: with a needless zero in front they are none. -/
theorem number_digits {cs : List Char} (h : Integer.Digits cs) :
    number cs = if Nat.toDigits 10 (Integer.ofDigits cs) = cs then
      some (.integer (Integer.ofDigits cs), []) else none := by
  have htake := takeWhile_append_of_stop h.2 (Follows.nil false).not_digit
  have hdrop := dropWhile_append_of_stop h.2 (Follows.nil false).not_digit
  rw [List.append_nil] at htake hdrop
  unfold number
  rw [htake, hdrop]
  rfl

/-- Digits are read as their number or not at all. -/
theorem scan_digits {cs : List Char} (h : Integer.Digits cs) {ts : List Token}
    (hts : scan cs = some ts) : ts = [.integer (Integer.ofDigits cs)] := by
  obtain ⟨c, rest, rfl⟩ := List.exists_cons_of_ne_nil h.1
  have hc : Integer.isDigit c := h.2 c List.mem_cons_self
  have hnext := (next_digit hc rest).trans (number_digits h)
  split at hnext
  · rw [scan_of_next hnext, scan_nil] at hts
    cases hts
    rfl
  · have hblank : c ≠ ' ' := by
      rintro rfl
      exact absurd hc (by decide)
    rw [scan_of_next_eq_none hblank hnext] at hts
    cases hts

/-- **Code that is a literal has its integer for a tree.** -/
theorem int?_of_reads {n : Nonterminal} {code : String} {t : Tree String} (h : Reads n code t)
    {s : Integer.Spelling} (hs : Integer.spell? code.toList = some s) : t.int? = some s.value := by
  obtain ⟨ts, hts, ht⟩ := h
  obtain ⟨hdigits, hcode⟩ := Integer.spell?_eq_some.mp hs
  rw [hcode] at hts
  rw [Integer.Spelling.value]
  split at hts
  · rename_i hsign
    rw [scan_mark (by decide) (by decide), Option.map_eq_some_iff] at hts
    obtain ⟨us, hus, rfl⟩ := hts
    obtain rfl := scan_digits hdigits hus
    rw [ht.unique (.negate ((Derives.integer _).loosen (by decide))), if_pos hsign]
    rfl
  · rename_i hsign
    obtain rfl := scan_digits hdigits hts
    rw [ht.unique (.integer _), if_neg hsign]
    rfl

end Source

end Jigsaw
