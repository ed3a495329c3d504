import Jigsaw.Proofs.Source.Evaluation

/-!
# Proofs/Source/Slicing — slices of texts, and expressions that compute them

A slice of a text has two bounds, either of which may be left out.  A negative bound counts from the
end, and a bound outside the text is moved to its nearer end (`Text.slice`).  So two slices in a row
are one slice as long as no bound is negative (`Text.slice_slice`), and a slice from a negated count
on is made of the last characters unless the count is zero (`Text.slice_neg`).

`Semantics.Standard` says of an interpretation of expressions that integers, texts, signs,
differences and slices have their meaning in it.  Everything else, and all effects, are left open.
-/

namespace Jigsaw

/-! ## Slices -/

namespace Text

/-- Where a bound falls in a text of `length` characters: a negative one counts from the end, and
what lies outside the text is moved to its nearer end. -/
def place (length : Nat) (bound : Int) : Nat :=
  if bound < 0 then (length + bound).toNat else min bound.toNat length

/-- The characters of a text from one bound up to another; a bound that is left out is the end of
the text on its side. -/
def slice (t : String) (start stop : Option Int) : String :=
  let cs := t.toList
  .ofList ((cs.take (stop.elim cs.length (place cs.length))).drop
    (start.elim 0 (place cs.length)))

/-- The last `n` characters of a text, or all of it if there are fewer. -/
def last (n : Nat) (t : String) : String := .ofList (t.toList.drop (t.toList.length - n))

theorem place_of_nonneg {length : Nat} {bound : Int} (h : 0 ≤ bound) :
    place length bound = min bound.toNat length := if_neg (by omega)

theorem drop_min {cs : List Char} {length : Nat} (h : cs.length ≤ length) (i : Nat) :
    cs.drop (min i length) = cs.drop i := by
  rcases Nat.le_total i length with hi | hi
  · rw [Nat.min_eq_left hi]
  · rw [Nat.min_eq_right hi, List.drop_eq_nil_of_le h, List.drop_eq_nil_of_le (Nat.le_trans h hi)]

/-- From a bound that is not negative, -/
theorem toList_slice_from {t : String} {i : Int} (hi : 0 ≤ i) :
    (slice t (some i) none).toList = t.toList.drop i.toNat := by
  simp only [slice, String.toList_ofList, Option.elim_some, Option.elim_none, List.take_length,
    place_of_nonneg hi]
  exact drop_min (Nat.le_refl _) _

/-- …up to one, -/
theorem toList_slice_to {t : String} {j : Int} (hj : 0 ≤ j) :
    (slice t none (some j)).toList = t.toList.take j.toNat := by
  simp only [slice, String.toList_ofList, Option.elim_some, Option.elim_none, List.drop_zero,
    place_of_nonneg hj]
  rw [← List.take_take, List.take_length]

/-- …and between two. -/
theorem toList_slice {t : String} {i j : Int} (hi : 0 ≤ i) (hj : 0 ≤ j) :
    (slice t (some i) (some j)).toList = (t.toList.take j.toNat).drop i.toNat := by
  simp only [slice, String.toList_ofList, Option.elim_some, place_of_nonneg hi, place_of_nonneg hj]
  rw [← List.take_take, List.take_length, drop_min (List.length_take_le' _ _)]

/-- **Slices in a row are one slice**, where no bound is negative. -/
theorem slice_slice {t : String} {s n : Int} (hs : 0 ≤ s) (hn : 0 ≤ n) :
    slice (slice t (some s) none) none (some n) = slice t (some s) (some (s + n)) := by
  refine String.toList_injective ?_
  rw [toList_slice_to hn, toList_slice_from hs, toList_slice hs (Int.add_nonneg hs hn),
    List.take_drop, Int.toNat_add hs hn]

/-- **A slice from a negated count on is made of the last characters**, but a count of zero leaves
the whole text. -/
theorem slice_neg (t : String) (n : Nat) :
    slice t (some (-n)) none = if n = 0 then t else last n t := by
  refine String.toList_injective ?_
  rcases Nat.eq_zero_or_pos n with rfl | hn
  · rw [if_pos rfl]
    exact toList_slice_from (Int.le_refl 0)
  · have hplace : place t.toList.length (-n) = t.toList.length - n := by
      rw [place, if_pos (by omega)]
      omega
    rw [if_neg (by omega)]
    simp only [slice, last, String.toList_ofList, Option.elim_some, Option.elim_none,
      List.take_length, hplace]

/-- The slice up to zero is the last none characters. -/
theorem slice_to_zero (t : String) : slice t none (some 0) = last 0 t := by
  refine String.toList_injective ?_
  rw [toList_slice_to (Int.le_refl 0), last, String.toList_ofList, Nat.sub_zero, List.drop_length]
  rfl

end Text

/-! ## Interpretations -/

/-- **An interpretation in which integers, texts, signs, differences and slices have their
meaning.**  Operands are computed from left to right, once each, whatever their effects. -/
structure Semantics.Standard {M : Type → Type} [Monad M] {V : Type} (I : Semantics M V)
    (integer : Int → V) (text : String → V) : Prop where
  /-- An integer has one value only. -/
  integer_injective : Function.Injective integer
  literal_int (k : Int) : I.literal (.int k) = pure (integer k)
  literal_text (content : String) : I.literal (.text content) = pure (text content)
  negate (m : M Int) : I.operation .negate [integer <$> m] = integer <$> (do
    let k ← m
    pure (-k))
  subtract (m m' : M Int) :
    I.operation (.binary .subtract) [integer <$> m, integer <$> m'] = integer <$> (do
      let j ← m
      let k ← m'
      pure (j - k))
  sliceFrom (m : M String) (m' : M Int) :
    I.operation .sliceFrom [text <$> m, integer <$> m'] = text <$> (do
      let t ← m
      let i ← m'
      pure (Text.slice t (some i) none))
  sliceTo (m : M String) (m' : M Int) :
    I.operation .sliceTo [text <$> m, integer <$> m'] = text <$> (do
      let t ← m
      let j ← m'
      pure (Text.slice t none (some j)))
  slice (m : M String) (m' m'' : M Int) :
    I.operation .slice [text <$> m, integer <$> m', integer <$> m''] = text <$> (do
      let t ← m
      let i ← m'
      let j ← m''
      pure (Text.slice t (some i) (some j)))

namespace Semantics.Standard

variable {M : Type → Type} [Monad M] [LawfulMonad M] {V : Type} {I : Semantics M V}
  {integer : Int → V} {text : String → V} (h : I.Standard integer text) {env : Env V}

include h

theorem eval_int (k : Int) : I.eval env (.int k) = integer <$> pure k := by
  rw [map_pure]
  exact h.literal_int k

theorem eval_text (content : String) : I.eval env (.text content) = text <$> pure content := by
  rw [map_pure]
  exact h.literal_text content

/-- What a literal computes is its integer. -/
theorem eq_pure_of_eval_int {k : Int} {m : M Int} (hm : I.eval env (.int k) = integer <$> m) :
    m = pure k := by
  have hinverse := Function.leftInverse_invFun h.integer_injective
  have hback (c : M Int) : Function.invFun integer <$> integer <$> c = c := by
    rw [← comp_map, hinverse.comp_eq_id, id_map]
  rw [← hback m, ← hm, h.eval_int, hback]

/-- **An index counted from zero is one less.** -/
theorem eval_zeroBased {e : Expr} {m : M Int} (he : I.eval env e = integer <$> m) :
    I.eval env e.zeroBased = integer <$> (do
      let k ← m
      pure (k - 1)) := by
  have hsubtract : I.eval env (.binary .subtract e (.int 1)) = integer <$> (do
      let k ← m
      pure (k - 1)) := by
    rw [Semantics.eval, he, h.eval_int, h.subtract]
    simp only [pure_bind]
  unfold Expr.zeroBased
  split
  · rename_i n
    split
    · rw [h.eq_pure_of_eval_int he, pure_bind]
      exact h.eval_int (n - 1)
    · exact hsubtract
  · exact hsubtract

end Semantics.Standard

/-- The least standard interpretation: what is neither an integer nor a text has no value. -/
def Semantics.plain : Semantics Option (Int ⊕ String) where
  outside _ := none
  literal
    | .numeral (.integer k) => some (.inl k)
    | .text content => some (.inr content)
    | _ => none
  operation
    | .negate, [some (.inl k)] => some (.inl (-k))
    | .binary .subtract, [some (.inl j), some (.inl k)] => some (.inl (j - k))
    | .sliceFrom, [some (.inr t), some (.inl i)] => some (.inr (Text.slice t (some i) none))
    | .sliceTo, [some (.inr t), some (.inl j)] => some (.inr (Text.slice t none (some j)))
    | .slice, [some (.inr t), some (.inl i), some (.inl j)] =>
      some (.inr (Text.slice t (some i) (some j)))
    | _, _ => none
  collect _ _ := none
  refused := none
  line _ _ := none

theorem Semantics.plain_standard : plain.Standard Sum.inl Sum.inr where
  integer_injective _ _ := Sum.inl.inj
  literal_int _ := rfl
  literal_text _ := rfl
  negate m := by cases m <;> rfl
  subtract m m' := by cases m <;> cases m' <;> rfl
  sliceFrom m m' := by cases m <;> cases m' <;> rfl
  sliceTo m m' := by cases m <;> cases m' <;> rfl
  slice m m' m'' := by cases m <;> cases m' <;> cases m'' <;> rfl

end Jigsaw
