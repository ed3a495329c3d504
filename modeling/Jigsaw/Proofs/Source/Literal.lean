import Jigsaw.Text.Digit
import Jigsaw.Text.Literal

/-!
# Proofs/Source/Literal — reading a string literal back

`unquote` reads a one-line string literal, from behind its opening quote up to and past the closing
one, by the escapes of the generated language.  It undoes `escape` whatever follows the literal
(`unquote_escape`), so a literal ends exactly at the quote that `quote` put there.
-/

namespace Jigsaw.Text

/-- The character that a backslash with one character after it stands for. -/
def escaped? : Char → Option Char
  | '\\' => some '\\'
  | '"' => some '"'
  | 'n' => some '\n'
  | 't' => some '\t'
  | 'r' => some '\r'
  | 'f' => some '\x0c'
  | 'v' => some '\x0b'
  | _ => none

/-- The characters that cannot stand for themselves in a one-line literal. -/
def breaksLiteral (c : Char) : Bool := c == '\n' || c == '\r' || c == '\x00'

/-- The text of a literal whose opening quote was read, and what follows its closing quote. -/
def unquote : List Char → Option (List Char × List Char)
  | [] => none
  | '"' :: cs => some ([], cs)
  | '\\' :: 'x' :: high :: low :: cs =>
    match hexValue? high, hexValue? low with
    | some h, some l => (unquote cs).map fun read => (Char.ofNat (16 * h + l) :: read.1, read.2)
    | _, _ => none
  | '\\' :: c :: cs =>
    match escaped? c with
    | some d => (unquote cs).map fun read => (d :: read.1, read.2)
    | none => none
  | c :: cs =>
    if breaksLiteral c || c == '\\' then none
    else (unquote cs).map fun read => (c :: read.1, read.2)

/-- A character that needs no escape stands for itself. -/
theorem unquote_plain {c : Char} (hquote : c ≠ '"') (hslash : c ≠ '\\')
    (hbreak : breaksLiteral c = false) (cs : List Char) :
    unquote (c :: cs) = (unquote cs).map fun read => (c :: read.1, read.2) := by
  rw [unquote]
  · simp [hbreak, hslash]
  · exact hquote
  · exact fun _ _ _ h => absurd h hslash
  · exact fun _ _ h => absurd h hslash

/-- **One written character is read as the character it was written for.** -/
theorem unquote_escapeChar (c : Char) (cs : List Char) :
    unquote (escapeChar c ++ cs) = (unquote cs).map fun read => (c :: read.1, read.2) := by
  unfold escapeChar
  split
  case h_9 hslash hquote hfeed _ hreturn _ _ hnull =>
    refine unquote_plain hquote hslash ?_ cs
    simp only [breaksLiteral, Bool.or_eq_false_iff, beq_eq_false_iff_ne]
    exact ⟨⟨hfeed, hreturn⟩, hnull⟩
  all_goals rfl

/-- **A written text is read as itself**, up to the closing quote. -/
theorem unquote_escape (content rest : List Char) :
    unquote (content.flatMap escapeChar ++ '"' :: rest) = some (content, rest) := by
  induction content with
  | nil => rfl
  | cons c cs ih =>
    rw [List.flatMap_cons, List.append_assoc, unquote_escapeChar, ih]
    rfl

/-- What is left of a literal's line is shorter than the line. -/
theorem length_of_unquote {cs content rest : List Char} (h : unquote cs = some (content, rest)) :
    rest.length < cs.length := by
  fun_induction unquote cs generalizing content
  case case2 =>
    cases h
    exact Nat.lt_succ_self _
  case case3 ih | case5 ih | case8 ih =>
    obtain ⟨read, hread, heq⟩ := Option.map_eq_some_iff.mp h
    cases heq
    have := ih hread
    simp only [List.length_cons]
    omega
  all_goals cases h

end Jigsaw.Text
