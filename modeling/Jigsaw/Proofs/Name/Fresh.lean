import Jigsaw.Name.Fresh
import Jigsaw.Proofs.Counting

/-!
# Proofs/Name/Fresh — the first free candidate is free, and an identifier

The candidates `base`, `base2`, `base3`, … of one base are pairwise different, so a list of taken
identifiers cannot hold more of them than it is long.  The search of `firstFree` therefore never
reaches its default, and what it gives is the *first* candidate that is not taken
(`firstFree_spec`).  A base is an identifier whatever the name was, and so is each of its
candidates.
-/

namespace Jigsaw.Name

/-! ## Candidates differ -/

/-- A number is read off its decimal text. -/
theorem toString_nat_injective : Function.Injective (fun n : Nat => toString n) := by
  intro m n h
  have hdigits : Nat.toDigits 10 m = Nat.toDigits 10 n :=
    String.ofList_injective (by simpa only [Nat.toString_eq_ofList_toDigits] using h)
  have hvalue := congrArg (fun ds => Nat.ofDigitChars 10 ds 0) hdigits
  simpa only [Nat.ofDigitChars_toDigits (by decide : 1 < 10) (by decide)] using hvalue

/-- …also behind a stem. -/
theorem append_toString_injective (stem : String) :
    Function.Injective fun n : Nat => stem ++ toString n := by
  intro m n h
  have hsuffix := List.append_cancel_left
    (by simpa only [String.toList_append] using congrArg String.toList h)
  exact toString_nat_injective (String.toList_injective hsuffix)

/-- A numbered candidate is longer than its base. -/
theorem candidate_succ_ne (base : String) (n : Nat) : candidate base (n + 1) ≠ base := by
  intro h
  have hlength := congrArg (fun s : String => s.toList.length) h
  have hpos : 0 < (Nat.toDigits 10 (n + 2)).length := Nat.length_toDigits_pos
  simp only [candidate, String.toList_append, List.length_append,
    Nat.toString_eq_ofList_toDigits, String.toList_ofList] at hlength
  omega

/-- **The candidates of one base are pairwise different.** -/
theorem candidate_injective (base : String) : Function.Injective (candidate base) := by
  intro m n h
  match m, n with
  | 0, 0 => rfl
  | 0, n + 1 => exact absurd h.symm (candidate_succ_ne base n)
  | m + 1, 0 => exact absurd h (candidate_succ_ne base m)
  | m + 1, n + 1 =>
    have hnumber : m + 2 = n + 2 := append_toString_injective base h
    omega

/-- One of the first `taken.length + 1` candidates is free. -/
theorem exists_candidate_notMem (taken : List String) (base : String) :
    ∃ n, n < taken.length + 1 ∧ candidate base n ∉ taken := by
  obtain ⟨n, hgap, hle⟩ := exists_isLeast_gap (candidate_injective base)
    (p := fun n => candidate base n ∈ taken) (fun _ h => List.mem_toFinset.mpr h)
  have hcard := List.toFinset_card_le taken
  exact ⟨n, by omega, hgap.1⟩

/-- **The search finds the first candidate that is not taken**, and finds it among the first
`taken.length + 1`. -/
theorem firstFree_spec (taken : List String) (base : String) :
    ∃ n, firstFree taken base = candidate base n ∧ candidate base n ∉ taken ∧
      n ≤ taken.length ∧ ∀ m < n, candidate base m ∈ taken := by
  obtain ⟨k, hk, hfree⟩ := exists_candidate_notMem taken base
  cases hfind : (List.range (taken.length + 1)).find?
      fun n => !taken.contains (candidate base n) with
  | none =>
    have hno := List.find?_eq_none.mp hfind k (List.mem_range.mpr hk)
    exact absurd hfree (by simpa using hno)
  | some n =>
    obtain ⟨hn, hrange, hbefore⟩ := List.find?_range_eq_some.mp hfind
    refine ⟨n, by rw [firstFree, hfind], by simpa using hn, ?_, fun m hm => ?_⟩
    · exact Nat.le_of_lt_succ (List.mem_range.mp hrange)
    · simpa using hbefore m hm

/-- What the search gives is not taken. -/
theorem firstFree_notMem (taken : List String) (base : String) : firstFree taken base ∉ taken := by
  obtain ⟨n, heq, hfree, -, -⟩ := firstFree_spec taken base
  rw [heq]
  exact hfree

/-- A base that is not taken is found itself. -/
theorem firstFree_of_notMem {taken : List String} {base : String} (h : base ∉ taken) :
    firstFree taken base = base := by
  obtain ⟨n, heq, -, -, hbefore⟩ := firstFree_spec taken base
  cases n with
  | zero => exact heq
  | succ n => exact absurd (hbefore 0 n.succ_pos) h

/-- Taking more does not change the search as long as what it gave stays free. -/
theorem firstFree_eq_of_subset {taken more : List String} {base : String} (hsub : taken ⊆ more)
    (hfree : firstFree taken base ∉ more) : firstFree more base = firstFree taken base := by
  obtain ⟨n, hn, -, -, hbefore⟩ := firstFree_spec taken base
  obtain ⟨m, hm, hmore, -, hbefore'⟩ := firstFree_spec more base
  rw [hn] at hfree
  rcases Nat.lt_trichotomy m n with hlt | rfl | hlt
  · exact absurd (hsub (hbefore m hlt)) hmore
  · rw [hm, hn]
  · exact absurd (hbefore' n hlt) hfree

/-! ## Candidates are identifiers -/

/-- Where the letters of ASCII stand, -/
theorem toNat_of_isAlpha {c : Char} (h : c.isAlpha) : 65 ≤ c.toNat ∧ c.toNat ≤ 122 := by
  have hA : 'A'.val.toNat = 65 := rfl
  have hZ : 'Z'.val.toNat = 90 := rfl
  have ha : 'a'.val.toNat = 97 := rfl
  have hz : 'z'.val.toNat = 122 := rfl
  have hval : c.toNat = c.val.toNat := rfl
  delta Char.isAlpha Char.isUpper Char.isLower at h
  simp only [Bool.or_eq_true, Bool.and_eq_true, decide_eq_true_eq, ge_iff_le,
    UInt32.le_iff_toNat_le] at h
  omega

/-- …and its digits. -/
theorem toNat_of_isDigit {c : Char} (h : c.isDigit) : 48 ≤ c.toNat ∧ c.toNat ≤ 57 := by
  have h0 : '0'.val.toNat = 48 := rfl
  have h9 : '9'.val.toNat = 57 := rfl
  have hval : c.toNat = c.val.toNat := rfl
  delta Char.isDigit at h
  simp only [Bool.and_eq_true, decide_eq_true_eq, ge_iff_le, UInt32.le_iff_toNat_le] at h
  omega

/-- A word character is a graphic character of ASCII. -/
theorem toNat_of_isWord {c : Char} (h : isWord c) : 0x20 < c.toNat ∧ c.toNat < 0x80 := by
  simp only [isWord, Char.isAlphanum, Bool.or_eq_true, beq_iff_eq] at h
  rcases h with (h | h) | rfl
  · have hrange := toNat_of_isAlpha h
    omega
  · have hrange := toNat_of_isDigit h
    omega
  · decide

/-- A word character may stand in an identifier. -/
theorem isIdentifierPart_of_isWord {c : Char} (h : isWord c) : Text.isIdentifierPart c := by
  rw [Text.isIdentifierPart, if_pos (toNat_of_isWord h).2]
  exact h

/-- …and open one, unless it is a digit. -/
theorem isIdentifierStart_of_isWord {c : Char} (h : isWord c) (hd : c.isDigit = false) :
    Text.isIdentifierStart c := by
  rw [Text.isIdentifierStart, if_pos (toNat_of_isWord h).2]
  simpa only [isWord, Char.isAlphanum, hd, Bool.or_false] using h

theorem isWord_of_isDigit {c : Char} (h : c.isDigit) : isWord c := by
  simp only [isWord, Char.isAlphanum, h, Bool.or_true, Bool.true_or]

/-- What may open an identifier is no digit. -/
theorem isDigit_of_isIdentifierStart {c : Char} (h : Text.isIdentifierStart c) :
    c.isDigit = false := by
  by_contra hd
  rw [Bool.not_eq_false] at hd
  rw [Text.isIdentifierStart, if_pos (toNat_of_isWord (isWord_of_isDigit hd)).2] at h
  have hdigit := toNat_of_isDigit hd
  simp only [Bool.or_eq_true, beq_iff_eq] at h
  rcases h with h | rfl
  · have hletter := toNat_of_isAlpha h
    omega
  · exact absurd hd (by decide)

/-- An identifier is a start with parts after it. -/
theorem isIdentifier_iff {s : String} : Text.isIdentifier s ↔
    ∃ c cs, s.toList = c :: cs ∧ Text.isIdentifierStart c ∧ ∀ d ∈ cs, Text.isIdentifierPart d := by
  rw [Text.isIdentifier]
  cases s.toList with
  | nil => simp
  | cons c cs => simp

/-- Digits may follow an identifier. -/
theorem isIdentifier_append {s t : String} (hs : Text.isIdentifier s)
    (ht : ∀ d ∈ t.toList, d.isDigit) : Text.isIdentifier (s ++ t) := by
  obtain ⟨c, cs, hlist, hc, hcs⟩ := isIdentifier_iff.mp hs
  refine isIdentifier_iff.mpr ⟨c, cs ++ t.toList, ?_, hc, fun d hd => ?_⟩
  · rw [String.toList_append, hlist, List.cons_append]
  · rcases List.mem_append.mp hd with hd | hd
    · exact hcs d hd
    · exact isIdentifierPart_of_isWord (isWord_of_isDigit (ht d hd))

/-- A name that is an identifier is its own base. -/
theorem base_of_isIdentifier {name : String} (h : Text.isIdentifier name) : base name = name := by
  obtain ⟨c, cs, hlist, hc, -⟩ := isIdentifier_iff.mp h
  rw [base, wordChars, if_pos h, hlist]
  simp [isDigit_of_isIdentifierStart hc, ← hlist]

/-- **A base is an identifier, whatever the name.** -/
theorem isIdentifier_base (name : String) : Text.isIdentifier (base name) := by
  by_cases hname : Text.isIdentifier name
  · rwa [base_of_isIdentifier hname]
  · have hwords : ∀ c ∈ wordChars name, isWord c := by
      intro c hc
      rw [wordChars, if_neg hname] at hc
      obtain ⟨d, -, rfl⟩ := List.mem_map.mp hc
      by_cases hd : isWord d
      · rwa [if_pos hd]
      · rw [if_neg hd]
        decide
    rw [base]
    cases hchars : wordChars name with
    | nil => decide
    | cons c cs =>
      rw [hchars] at hwords
      have hparts : ∀ d ∈ c :: cs, Text.isIdentifierPart d := fun d hd =>
        isIdentifierPart_of_isWord (hwords d hd)
      cases hd : c.isDigit with
      | true => exact isIdentifier_iff.mpr ⟨'_', c :: cs, by simp [hd], by decide, hparts⟩
      | false =>
        refine isIdentifier_iff.mpr ⟨c, cs, by simp [hd], ?_, fun d hd => ?_⟩
        · exact isIdentifierStart_of_isWord (hwords c List.mem_cons_self) hd
        · exact hparts d (List.mem_cons_of_mem _ hd)

/-- …and so is each of its candidates. -/
theorem isIdentifier_candidate {base : String} (h : Text.isIdentifier base) :
    ∀ n, Text.isIdentifier (candidate base n)
  | 0 => h
  | n + 1 => by
      refine isIdentifier_append h fun d hd => ?_
      rw [Nat.toString_eq_ofList_toDigits, String.toList_ofList] at hd
      exact Nat.isDigit_of_mem_toDigits (by decide) (by decide) hd

/-- **What is found for a name is an identifier.** -/
theorem isIdentifier_firstFree (taken : List String) (name : String) :
    Text.isIdentifier (firstFree taken (base name)) := by
  obtain ⟨n, heq, -, -, -⟩ := firstFree_spec taken (base name)
  rw [heq]
  exact isIdentifier_candidate (isIdentifier_base name) n

end Jigsaw.Name
