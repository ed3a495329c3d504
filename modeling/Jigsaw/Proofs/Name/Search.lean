import Mathlib.Data.Set.Card
import Jigsaw.Proofs.Name.Run

/-!
# Proofs/Name/Search — the search for a free identifier ends, and ends at the least number

    x = base; n = 2
    while x is taken: x = base ++ n; n = n + 1

The loop has no measure of its own.  Each round brings a candidate that was not there before
(`candidate_injective`), and only finitely many identifiers are taken, so it stops at a number that
is at most one more than there are of them.  `firstFree` is what the loop gives, in every scope,
whether or not a run leads there, and for both notions of what is taken.
-/

namespace Jigsaw.Name

/-! ## The loop -/

/-- A state of the search. -/
structure Search where
  /-- The identifier at hand. -/
  identifier : String
  /-- The number to try next. -/
  number : Nat

namespace Search

/-- The base comes first, and two is the first number. -/
def start (base : String) : Search := ⟨base, 2⟩

/-- One round: the base with the next number. -/
def next (base : String) (q : Search) : Search := ⟨base ++ toString q.number, q.number + 1⟩

/-- **After `n` rounds candidate `n` is at hand.** -/
theorem next_iterate (base : String) :
    ∀ n, (next base)^[n] (start base) = ⟨candidate base n, n + 2⟩
  | 0 => rfl
  | n + 1 => by
      rw [Function.iterate_succ_apply', next_iterate base n]
      rfl

/-- The search ends with the least candidate that is not taken. -/
theorem ends_iff_of_isLeast {taken : String → Prop} {base : String} {n : Nat}
    (h : IsLeast {m | ¬ taken (candidate base m)} n) {q : Search} :
    Loop.Ends (fun q => taken q.identifier) (next base) (start base) q
      ↔ q = ⟨candidate base n, n + 2⟩ := by
  rw [← next_iterate base n]
  refine Loop.ends_iff_of_isLeast ?_
  simpa only [next_iterate] using h

end Search

namespace Scope

/-! ## What is taken -/

/-- **An identifier is taken**: it is a reserved word, or an open frame owns it, or, where closed
frames count too, it was handed out before. -/
def Taken (s : Scope) (ever : Bool) (x : String) : Prop :=
  x ∈ s.reserved ∨ (ever ∧ x ∈ s.allocated) ∨ ∃ frame ∈ s.frames, x ∈ frame.owned

/-- The taken identifiers, some of them more than once. -/
def takenList (s : Scope) (ever : Bool) : List String := if ever then s.everTaken else s.taken

theorem mem_takenList_iff {s : Scope} {ever : Bool} {x : String} :
    x ∈ s.takenList ever ↔ s.Taken ever x := by
  cases ever <;> simp [takenList, Taken, taken, everTaken, mem_openIdentifiers]

/-- The set of taken identifiers, as a finite set. -/
theorem setOf_taken_eq (s : Scope) (ever : Bool) :
    {x | s.Taken ever x} = ((s.takenList ever).toFinset : Set String) := by
  ext x
  simp [mem_takenList_iff]

/-- The identifier that the search finds for a name. -/
def fresh (s : Scope) (ever : Bool) (name : String) : String :=
  firstFree (s.takenList ever) (base name)

/-- **What is found for a name is its least candidate that is not taken**, and as many identifiers
are taken as candidates come before it. -/
theorem fresh_spec (s : Scope) (ever : Bool) (name : String) :
    ∃ n, s.fresh ever name = candidate (base name) n ∧
      IsLeast {m | ¬ s.Taken ever (candidate (base name) m)} n ∧
      n ≤ {x | s.Taken ever x}.ncard := by
  obtain ⟨n, heq, hfree, -, hbefore⟩ := firstFree_spec (s.takenList ever) (base name)
  refine ⟨n, heq, ⟨fun h => hfree (mem_takenList_iff.mpr h), fun m hm => ?_⟩, ?_⟩
  · by_contra hlt
    exact hm (mem_takenList_iff.mp (hbefore m (Nat.not_le.mp hlt)))
  · rw [setOf_taken_eq, Set.ncard_coe_finset]
    exact le_card_of_injective (candidate_injective (base name)) fun m hm =>
      List.mem_toFinset.mpr (hbefore m hm)

/-! ## The numbers -/

/-- Where the base itself is taken, the least candidate is the base with the least number from two
on. -/
theorem isLeast_number {taken : String → Prop} {base : String} {n : Nat} (hbase : taken base)
    (h : IsLeast {m | ¬ taken (candidate base m)} n) :
    ∃ k, n = k + 1 ∧ IsLeast {m | 2 ≤ m ∧ ¬ taken (base ++ toString m)} (k + 2) := by
  obtain ⟨hfree, hleast⟩ := h
  cases n with
  | zero => exact absurd hbase hfree
  | succ k =>
    refine ⟨k, rfl, ⟨Nat.le_add_left 2 k, hfree⟩, fun m hm => ?_⟩
    obtain ⟨j, rfl⟩ := Nat.exists_eq_add_of_le' hm.1
    -- Number `j + 2` is that of candidate `j + 1`.
    have hle : k + 1 ≤ j + 1 := hleast hm.2
    omega

/-- **The search for a free identifier ends, at the least number.**  In every scope, for every name
and both notions of what is taken, the loop has exactly one end, with the identifier that the scope
hands out: the base if it is not taken, and otherwise the base with the least number from two on
that makes it free.  That number is at most one more than the number of taken identifiers, which is
finite.  A local binding and an identifier bound to no name are searched for against the open
frames, a global binding against all frames there were. -/
theorem search_finds_least (s : Scope) (ever : Bool) (name : String) :
    let taken := s.Taken ever
    let ends := Loop.Ends (fun q : Search => taken q.identifier) (Search.next (base name))
      (Search.start (base name))
    (∃! q, ends q) ∧ (∀ q, ends q → q.identifier = s.fresh ever name) ∧
      (¬ taken (base name) → s.fresh ever name = base name) ∧
      (taken (base name) → ∃ n, s.fresh ever name = base name ++ toString n ∧
        IsLeast {m | 2 ≤ m ∧ ¬ taken (base name ++ toString m)} n ∧
        n ≤ {x | taken x}.ncard + 1) ∧
      {x | taken x}.Finite ∧
      s.distinct name = s.fresh false name ∧
      (∀ kind, s.globals.identifier? name kind = none →
        (s.bindGlobal name kind).1 = s.fresh true name) ∧
      (∀ kind frame outer, s.locals = frame :: outer → frame.identifier? name kind = none →
        (s.bind name kind).1 = s.fresh false name) := by
  intro taken ends
  obtain ⟨n, heq, hleast, hle⟩ := s.fresh_spec ever name
  have hends (q : Search) : ends q ↔ q = ⟨candidate (base name) n, n + 2⟩ :=
    Search.ends_iff_of_isLeast hleast
  refine ⟨⟨_, (hends _).mpr rfl, fun q hq => (hends q).mp hq⟩, fun q hq => ?_, fun hbase => ?_,
    fun hbase => ?_, ?_, rfl, fun kind hkey => ?_, fun kind frame outer hlocals hkey => ?_⟩
  · rw [(hends q).mp hq, heq]
  · have hzero : n = 0 := Nat.le_zero.mp (hleast.2 hbase)
    rw [heq, hzero]
    rfl
  · obtain ⟨k, rfl, hnumber⟩ := isLeast_number hbase hleast
    exact ⟨k + 2, heq, hnumber, Nat.succ_le_succ hle⟩
  · exact setOf_taken_eq s ever ▸ Finset.finite_toSet _
  · rw [bindGlobal, hkey]
    rfl
  · rw [bind_eq_of_none hlocals hkey]
    rfl

end Scope

end Jigsaw.Name
