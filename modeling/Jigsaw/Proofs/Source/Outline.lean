import Jigsaw.Proofs.Source.Line

/-!
# Proofs/Source/Outline — reading a program by the offside rule

The offside rule sees the lines of a program and their columns, no more.  A line that holds
something is a `Row`; the suite of a row is the run of rows below it that stand deeper, and the
statements of one suite stand at one column (`readAt`).

```text
    def f(x):              node "def f(x):"
      if x:                  [node "if x:"
        pass                    [node "pass" []],
      return x                node "return x" []]
```

`HasOutline code os` says that the code reads as the outlines `os` wherever it is put and whatever
comes after it, at its column or to the left.  It is closed under everything that builds a program:
lines, headers with an indented suite, and texts one below the other.  So a program of proper
statements reads as the outline of its statements (`Stmt.Proper.hasOutline`).
-/

namespace Jigsaw

namespace Source

/-- A statement as the offside rule gives it: a line, and the statements of its suite. -/
inductive Outline where
  | node (line : String) (suite : List Outline)

/-- A line that holds something: its column, and its text from there on. -/
structure Row where
  column : Nat
  text : String

namespace Row

/-- A line as a row; a blank line is none. -/
def ofLine? (line : List Char) : Option Row :=
  if line.all Text.isBlank then none
  else some ⟨(line.takeWhile (· = ' ')).length, String.ofList (line.dropWhile (· = ' '))⟩

/-- The rows of a program. -/
def ofCode (code : String) : List Row := (code.toList.splitOn '\n').filterMap ofLine?

/-- Whether the row announces a suite. -/
def isHeader (row : Row) : Bool := row.text.toList.getLast? = some ':'

/-- The row, farther to the right. -/
def shift (n : Nat) (row : Row) : Row := ⟨n + row.column, row.text⟩

end Row

/-! ## The offside rule -/

/-- The column of the first row. -/
def firstColumn : List Row → Nat
  | [] => 0
  | row :: _ => row.column

/-- **The offside rule**: the statements that stand at one column.  The rows below a statement that
stand deeper are its suite, and they are there if and only if it announces one. -/
def readAt (column : Nat) : List Row → Option (List Outline)
  | [] => some []
  | row :: rest =>
    let inside := rest.takeWhile (column < ·.column)
    let after := rest.dropWhile (column < ·.column)
    if row.column = column ∧ (row.isHeader ↔ inside ≠ []) then do
      let suite ← readAt (firstColumn inside) inside
      let more ← readAt column after
      pure (.node row.text suite :: more)
    else none
termination_by rows => rows.length
decreasing_by
  · exact Nat.lt_succ_of_le (List.takeWhile_sublist _).length_le
  · exact Nat.lt_succ_of_le (List.dropWhile_sublist _).length_le

/-- The statements of a program. -/
def Outline.read (code : String) : Option (List Outline) := readAt 0 (Row.ofCode code)

/-- Rows that do not stand deeper than a column, as far as the first of them says. -/
def EndsSuite (column : Nat) (after : List Row) : Prop := ∀ row ∈ after.head?, row.column ≤ column

/-- One statement with its suite, and what comes after. -/
theorem readAt_cons {column : Nat} {row : Row} {inside after : List Row} {suite more : List Outline}
    (hcolumn : row.column = column) (hheader : row.isHeader ↔ inside ≠ [])
    (hinside : ∀ r ∈ inside, column < r.column) (hafter : EndsSuite column after)
    (hsuite : readAt (firstColumn inside) inside = some suite)
    (hmore : readAt column after = some more) :
    readAt column (row :: (inside ++ after)) = some (.node row.text suite :: more) := by
  have hdeep : ∀ r ∈ inside, decide (column < r.column) = true := fun r hr =>
    decide_eq_true (hinside r hr)
  have hends : after.takeWhile (column < ·.column) = [] ∧
      after.dropWhile (column < ·.column) = after := by
    cases after with
    | nil => exact ⟨rfl, rfl⟩
    | cons r rest =>
      have hr : ¬ decide (column < r.column) = true := by
        simpa using hafter r rfl
      exact ⟨List.takeWhile_cons_of_neg hr, List.dropWhile_cons_of_neg hr⟩
  have htake : (inside ++ after).takeWhile (column < ·.column) = inside := by
    rw [List.takeWhile_append_of_pos hdeep, hends.1, List.append_nil]
  have hdrop : (inside ++ after).dropWhile (column < ·.column) = after := by
    rw [List.dropWhile_append_of_pos hdeep, hends.2]
  rw [readAt, htake, hdrop, if_pos ⟨hcolumn, hheader⟩, hsuite, hmore]
  rfl

example : Outline.read "if x:\n  y\n\n  z\nw"
    = some [.node "if x:" [.node "y" [], .node "z" []], .node "w" []] := by cbv

-- Statements of one suite at two columns, and a header without a suite.
example : Outline.read "if x:\n    y\n  z" = none := by cbv

example : Outline.read "if x:\npass" = none := by cbv

/-! ## Rows at a column -/

/-- **The rows stand at a column for these outlines**, whatever ends their suite. -/
structure Stands (column : Nat) (rows : List Row) (os : List Outline) : Prop where
  deep : ∀ r ∈ rows, column ≤ r.column
  starts : ∀ r ∈ rows.head?, r.column = column
  reads : ∀ {after : List Row} {more : List Outline}, EndsSuite column after →
    readAt column after = some more → readAt column (rows ++ after) = some (os ++ more)

namespace Stands

variable {column : Nat} {rows more : List Row} {os ps : List Outline}

theorem nil (column : Nat) : Stands column [] [] where
  deep := fun _ h => absurd h List.not_mem_nil
  starts := fun _ h => absurd h (by simp)
  reads := fun _ hmore => hmore

theorem read (h : Stands column rows os) : readAt column rows = some os := by
  have hend := h.reads (fun _ h => absurd h (by simp) : EndsSuite column []) (by rw [readAt])
  rwa [List.append_nil, List.append_nil] at hend

/-- Where there are statements, there are rows. -/
theorem ne_nil (h : Stands column rows os) (hne : os ≠ []) : rows ≠ [] := by
  rintro rfl
  have hread := h.read
  rw [readAt] at hread
  exact hne (Option.some.inj hread).symm

/-- Rows below rows at the same column. -/
theorem append (h : Stands column rows os) (hmore : Stands column more ps) :
    Stands column (rows ++ more) (os ++ ps) where
  deep := fun r hr => (List.mem_append.mp hr).elim (h.deep r) (hmore.deep r)
  starts := fun r hr => by
    cases rows with
    | nil => exact hmore.starts r hr
    | cons first rest => exact h.starts r hr
  reads := fun {after rest} hafter hrest => by
    have hends : EndsSuite column (more ++ after) := fun r hr => by
      cases more with
      | nil => exact hafter r hr
      | cons first others => exact Nat.le_of_eq (hmore.starts r hr)
    rw [List.append_assoc, List.append_assoc]
    exact h.reads hends (hmore.reads hafter hrest)

/-- A row with the rows of its suite, if it has one. -/
theorem statement {row : Row} {deeper : Nat} {inside : List Row} (hcolumn : row.column = column)
    (hheader : row.isHeader ↔ inside ≠ []) (hdeeper : column < deeper)
    (h : Stands deeper inside os) : Stands column (row :: inside) [.node row.text os] where
  deep := List.forall_mem_cons.mpr ⟨Nat.le_of_eq hcolumn.symm, fun r hr =>
    Nat.le_of_lt (Nat.lt_of_lt_of_le hdeeper (h.deep r hr))⟩
  starts := fun r hr => by
    cases hr
    exact hcolumn
  reads := fun {after rest} hafter hrest => by
    refine readAt_cons hcolumn hheader (fun r hr => Nat.lt_of_lt_of_le hdeeper (h.deep r hr)) hafter
      ?_ hrest
    cases inside with
    | nil =>
      have hread := h.read
      rwa [readAt] at hread ⊢
    | cons first others =>
      rw [firstColumn, h.starts first rfl]
      exact h.read

end Stands

/-! ## Rows of code -/

/-- The text of `n` spaces. -/
def spaces (n : Nat) : String := String.ofList (List.replicate n ' ')

namespace Row

/-- One line is one row. -/
theorem ofCode_of_isLine {header : Bool} {s : String} (h : IsLine header s) :
    ofCode s = [⟨0, s⟩] := by
  obtain ⟨c, hhead, hc⟩ := h.first
  obtain ⟨cs, hcs⟩ := List.head?_eq_some_iff.mp hhead
  have hsingle : s.toList.splitOn '\n' = [s.toList] :=
    List.splitOn_eq_singleton fun hmem => (h.unbroken _ hmem).1 rfl
  have hspace : c ≠ ' ' := by
    rintro rfl
    exact absurd hc (by decide)
  have hfull : s.toList.all Text.isBlank = false := by rw [hcs, List.all_cons, hc, Bool.false_and]
  have htake : s.toList.takeWhile (· = ' ') = [] := by simp [hcs, hspace]
  have hdrop : s.toList.dropWhile (· = ' ') = s.toList := by simp [hcs, hspace]
  have hrow : ofLine? s.toList = some ⟨0, s⟩ := by
    rw [ofLine?, hfull, htake, hdrop, String.ofList_toList]
    rfl
  rw [ofCode, hsingle, List.filterMap_cons, hrow]
  rfl

/-- A line end separates rows. -/
theorem ofCode_append (s t : String) : ofCode (s ++ "\n" ++ t) = ofCode s ++ ofCode t := by
  have hlist : (s ++ "\n" ++ t).toList = s.toList ++ '\n' :: t.toList := by simp
  rw [ofCode, hlist, List.splitOn_append_cons_self, List.filterMap_append]
  rfl

theorem isHeader_of_isLine {header : Bool} {s : String} (h : IsLine header s) (column : Nat) :
    isHeader ⟨column, s⟩ = header := by
  obtain ⟨c, hlast, -, hcolon⟩ := h.last
  rw [Bool.eq_iff_iff, isHeader, hlast, decide_eq_true_eq, Option.some_inj]
  exact hcolon

theorem shift_comp_shift (m n : Nat) : shift m ∘ shift n = shift (m + n) :=
  funext fun row => by rw [Function.comp, shift, shift, shift, Nat.add_assoc]

theorem shift_zero : shift 0 = id := funext fun row => by rw [shift, Nat.zero_add]; rfl

/-! ### Indentation -/

/-- A line as `Text.indentLines` puts it deeper. -/
def pad (n : Nat) (line : List Char) : List Char :=
  if line.isEmpty then line else List.replicate n ' ' ++ line

theorem splitOn_replicate_append (n : Nat) {cs line : List Char} {rest : List (List Char)}
    (h : cs.splitOn '\n' = line :: rest) :
    (List.replicate n ' ' ++ cs).splitOn '\n' = (List.replicate n ' ' ++ line) :: rest := by
  induction n with
  | zero => exact h
  | succ n ih =>
    rw [List.replicate_succ, List.cons_append, List.splitOn_cons_eq_if_modifyHead, ih]
    rfl

/-- **The lines of an indented text**: all are put deeper, but for one that is under way. -/
theorem splitOn_indentChars (n : Nat) : ∀ cs : List Char,
    (Text.indentChars (List.replicate n ' ') true cs).splitOn '\n' = (cs.splitOn '\n').map (pad n) ∧
      ∀ {line rest}, cs.splitOn '\n' = line :: rest →
        (Text.indentChars (List.replicate n ' ') false cs).splitOn '\n' = line :: rest.map (pad n)
  | [] => ⟨rfl, fun h => by cases h; rfl⟩
  | c :: cs => by
      obtain ⟨hstart, hinside⟩ := splitOn_indentChars n cs
      by_cases hc : c = '\n'
      · subst hc
        have hlines (ds : List Char) : ('\n' :: ds).splitOn '\n' = [] :: ds.splitOn '\n' :=
          List.splitOn_append_cons_self [] ds
        have hends (atStart : Bool) : Text.indentChars (List.replicate n ' ') atStart ('\n' :: cs)
            = '\n' :: Text.indentChars (List.replicate n ' ') true cs := by rw [Text.indentChars]
        rw [hends, hends, hlines, hlines, hstart]
        exact ⟨rfl, fun h => by cases h; rfl⟩
      · obtain ⟨line, rest, hcs⟩ := List.exists_cons_of_ne_nil (List.splitOn_ne_nil '\n' cs)
        have hlines {ds : List Char} {l : List Char} {ls : List (List Char)}
            (h : ds.splitOn '\n' = l :: ls) : (c :: ds).splitOn '\n' = (c :: l) :: ls := by
          rw [List.splitOn_cons_eq_if_modifyHead, if_neg (by simpa using hc), h]
          rfl
        have hunder := hlines (hinside hcs)
        rw [hlines hcs, Text.indentChars, Text.indentChars, if_pos rfl]
        · exact ⟨splitOn_replicate_append n hunder, fun h => by cases h; exact hunder⟩
        · exact hc
        · exact hc

/-- A line put deeper is the same row, farther to the right. -/
theorem ofLine?_pad (n : Nat) (line : List Char) :
    ofLine? (pad n line) = (ofLine? line).map (shift n) := by
  cases line with
  | nil => rfl
  | cons c cs =>
    have hspaces : ∀ d ∈ List.replicate n ' ', decide (d = ' ') = true := fun d hd =>
      decide_eq_true (List.eq_of_mem_replicate hd)
    have hblank : (List.replicate n ' ').all Text.isBlank = true :=
      List.all_eq_true.mpr fun d hd => List.eq_of_mem_replicate hd ▸ (by decide)
    change ofLine? (List.replicate n ' ' ++ c :: cs) = _
    rw [ofLine?, ofLine?, List.all_append, hblank, Bool.true_and,
      List.takeWhile_append_of_pos hspaces, List.dropWhile_append_of_pos hspaces,
      List.length_append, List.length_replicate]
    split
    · rfl
    · rfl

/-- **Indented code is the same rows, farther to the right.** -/
theorem ofCode_indentLines (n : Nat) (code : String) :
    ofCode (Text.indentLines (spaces n) code) = (ofCode code).map (shift n) := by
  rw [ofCode, Text.indentLines, spaces, String.toList_ofList, String.toList_ofList,
    (splitOn_indentChars n code.toList).1, ofCode, List.filterMap_map, List.map_filterMap]
  exact congrArg (List.filterMap · _) (funext (ofLine?_pad n))

end Row

/-! ## Code and its outline -/

/-- **The code reads as these outlines**, wherever it is put and whatever ends its suite. -/
def HasOutline (code : String) (os : List Outline) : Prop :=
  ∀ column, Stands column ((Row.ofCode code).map (Row.shift column)) os

namespace HasOutline

variable {s t : String} {os ps : List Outline}

/-- Such code is read as a program. -/
theorem read (h : HasOutline s os) : Outline.read s = some os := by
  have hread := (h 0).read
  rwa [Row.shift_zero, List.map_id] at hread

theorem empty : HasOutline "" [] := fun column => .nil column

/-- A line is a statement without a suite. -/
theorem line (h : IsLine false s) : HasOutline s [.node s []] := fun column => by
  rw [Row.ofCode_of_isLine h]
  have hheader : Row.isHeader ⟨column, s⟩ ↔ ([] : List Row) ≠ [] := by
    rw [Row.isHeader_of_isLine h]
    decide
  exact Stands.statement rfl hheader (Nat.lt_succ_self column) (.nil _)

/-- A header is a statement with the suite below it, as far as the suite is indented at all. -/
theorem block {n : Nat} (hn : 1 ≤ n) (h : IsLine true s) (hsuite : HasOutline t os)
    (hne : os ≠ []) :
    HasOutline (s ++ "\n" ++ Text.indentLines (spaces n) t) [.node s os] := fun column => by
  have hinside := hsuite (column + n)
  rw [Row.ofCode_append, Row.ofCode_of_isLine h, Row.ofCode_indentLines, List.map_append,
    List.map_map, Row.shift_comp_shift]
  have hheader : Row.isHeader ⟨column, s⟩ ↔
      (Row.ofCode t).map (Row.shift (column + n)) ≠ [] := by
    rw [Row.isHeader_of_isLine h]
    exact iff_of_true rfl (hinside.ne_nil hne)
  exact Stands.statement rfl hheader (by omega) hinside

/-- Code below code. -/
theorem below (hs : HasOutline s os) (ht : HasOutline t ps) :
    HasOutline (s ++ "\n" ++ t) (os ++ ps) := fun column => by
  rw [Row.ofCode_append, List.map_append]
  exact (hs column).append (ht column)

/-- Empty lines in between do not matter. -/
theorem apart (hs : HasOutline s os) (ht : HasOutline t ps) :
    HasOutline (s ++ "\n\n\n" ++ t) (os ++ ps) := by
  have hlines : s ++ "\n\n\n" ++ t = s ++ "\n" ++ ("" ++ "\n" ++ ("" ++ "\n" ++ t)) :=
    String.toList_injective (by simp)
  rw [hlines]
  exact hs.below (empty.below (empty.below ht))

/-- Texts below each other, with a separator that divides lines. -/
theorem joinWith {separator : String}
    (hseparator : ∀ {s t : String} {os ps : List Outline}, HasOutline s os → HasOutline t ps →
      HasOutline (s ++ separator ++ t) (os ++ ps)) :
    ∀ {codes : List String} {outlines : List (List Outline)},
      List.Forall₂ HasOutline codes outlines →
        HasOutline (Text.joinWith separator codes) outlines.flatten
  | [], _, .nil => empty
  | [s], _, .cons hs .nil => by
      rw [List.flatten_cons, List.flatten_nil, List.append_nil]
      exact hs
  | _ :: _ :: _, _, .cons hs hrest => hseparator hs (joinWith hseparator hrest)

end HasOutline

end Source

/-! ## Statements -/

open Source

namespace Stmt

mutual

/-- The outline of a statement. -/
def outline : Stmt → Outline
  | .simple line => .node line.code []
  | .compound header suite => .node header.code (outlines suite)

/-- The outlines of several statements. -/
def outlines : List Stmt → List Outline
  | [] => []
  | s :: rest => s.outline :: outlines rest

end

theorem outlines_eq_map : ∀ ss : List Stmt, outlines ss = ss.map outline
  | [] => rfl
  | s :: rest => congrArg (s.outline :: ·) (outlines_eq_map rest)

theorem outlines_append (ss tt : List Stmt) : outlines (ss ++ tt) = outlines ss ++ outlines tt := by
  rw [outlines_eq_map, outlines_eq_map, outlines_eq_map, List.map_append]

theorem outlines_flatten (parts : List (List Stmt)) :
    outlines parts.flatten = (parts.map outlines).flatten := by
  rw [outlines_eq_map, List.map_flatten, funext outlines_eq_map]

/-- A suite reads as its statements do. -/
theorem hasOutline_suiteCode {indent : String} : ∀ {ss : List Stmt},
    (∀ s ∈ ss, HasOutline (s.code indent) [s.outline]) →
      HasOutline (suiteCode indent ss) (outlines ss)
  | [], _ => .empty
  | [s], h => h s List.mem_cons_self
  | s :: _ :: _, h =>
      (h s List.mem_cons_self).below (hasOutline_suiteCode fun t ht => h t (.tail s ht))

/-- **A proper statement reads as its outline.** -/
theorem Proper.hasOutline {n : Nat} (hn : 1 ≤ n) {s : Stmt} (h : s.Proper) :
    HasOutline (s.code (spaces n)) [s.outline] := by
  induction h with
  | simple h => exact .line h.isLine
  | @compound header suite h hne _ ih =>
    have houtlines : outlines suite ≠ [] := by
      cases suite with
      | nil => exact absurd rfl hne
      | cons s rest => exact List.cons_ne_nil _ _
    exact .block hn h.isLine (hasOutline_suiteCode ih) houtlines

/-- **Parts of proper statements read as their statements, part by part.** -/
theorem hasOutline_partsCode {n : Nat} (hn : 1 ≤ n) : ∀ {parts : List (List Stmt)},
    (∀ part ∈ parts, ∀ s ∈ part, s.Proper) →
      HasOutline (partsCode (spaces n) parts) (outlines parts.flatten)
  | [], _ => .empty
  | [part], h => by
      rw [List.flatten_cons, List.flatten_nil, List.append_nil]
      exact hasOutline_suiteCode fun s hs => (h part List.mem_cons_self s hs).hasOutline hn
  | part :: next :: rest, h => by
      have hpart : HasOutline (suiteCode (spaces n) part) (outlines part) :=
        hasOutline_suiteCode fun s hs => (h part List.mem_cons_self s hs).hasOutline hn
      have hrest := hasOutline_partsCode hn fun p hp => h p (.tail part hp)
      rw [List.flatten_cons, outlines_append, partsCode, gap]
      split
      · exact hpart.apart hrest
      · exact hpart.below hrest

end Stmt

end Jigsaw
