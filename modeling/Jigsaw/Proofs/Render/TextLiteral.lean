import Jigsaw.Proofs.Render.ExpressionCode

/-!
# Proofs/Render/TextLiteral — string literals denote their texts

A literal is read as the text it was written for, it ends at its last character and nowhere before,
and it breaks no line.  Its escapes are those that eight replacements give, made one after the other
over the whole text: backslashes come first, so no later replacement meets an escape of an earlier
one (`flatMap_escapeChar`).  A field of a block reaches the code only through such a literal, and so
it is one token there, whatever it holds (`literals_denote_texts`).
-/

namespace Jigsaw

namespace Text

/-! ## Replacements in turn -/

/-- The text with a character replaced wherever it stands. -/
def replaceChar (c : Char) (written : List Char) (cs : List Char) : List Char :=
  cs.flatMap fun d => if d = c then written else [d]

/-- The characters that are replaced, in this order, and what is written for them. -/
def replacements : List (Char × List Char) :=
  [('\\', ['\\', '\\']), ('"', ['\\', '"']), ('\n', ['\\', 'n']), ('\t', ['\\', 't']),
    ('\r', ['\\', 'r']), ('\x0c', ['\\', 'f']), ('\x0b', ['\\', 'v']),
    ('\x00', ['\\', 'x', '0', '0'])]

/-- The text after replacements, each of them made on what the ones before left. -/
def replaceInTurn (rs : List (Char × List Char)) (cs : List Char) : List Char :=
  rs.foldl (fun text r => replaceChar r.1 r.2 text) cs

theorem replaceInTurn_append (rs : List (Char × List Char)) (cs ds : List Char) :
    replaceInTurn rs (cs ++ ds) = replaceInTurn rs cs ++ replaceInTurn rs ds := by
  induction rs generalizing cs ds with
  | nil => rfl
  | cons r rs ih =>
    have hfirst : replaceChar r.1 r.2 (cs ++ ds)
        = replaceChar r.1 r.2 cs ++ replaceChar r.1 r.2 ds := List.flatMap_append
    change replaceInTurn rs (replaceChar r.1 r.2 (cs ++ ds)) = _
    rw [hfirst]
    exact ih _ _

theorem replaceInTurn_nil (rs : List (Char × List Char)) : replaceInTurn rs [] = [] := by
  induction rs with
  | nil => rfl
  | cons r rs ih => exact ih

/-- What is replaced for one character is never replaced again. -/
theorem replaceInTurn_singleton (c : Char) : replaceInTurn replacements [c] = escapeChar c := by
  unfold escapeChar
  split
  case h_9 hslash hquote hfeed htab hreturn hform hvertical hnull =>
    simp only [replaceInTurn, replacements, replaceChar, List.foldl_cons, List.foldl_nil,
      List.flatMap_singleton, if_neg hslash, if_neg hquote, if_neg hfeed, if_neg htab,
      if_neg hreturn, if_neg hform, if_neg hvertical, if_neg hnull]
  all_goals decide

/-- **Character by character is in turn.** -/
theorem flatMap_escapeChar (cs : List Char) :
    cs.flatMap escapeChar = replaceInTurn replacements cs := by
  induction cs with
  | nil => exact (replaceInTurn_nil _).symm
  | cons c cs ih =>
    rw [List.flatMap_cons, ih, ← replaceInTurn_singleton, ← replaceInTurn_append]
    rfl

/-! ## Where a literal ends -/

/-- The text of the literal that a line opens with, and what follows its closing quote. -/
def literal? : List Char → Option (String × List Char)
  | '"' :: cs => (unquote cs).map fun read => (String.ofList read.1, read.2)
  | _ => none

/-- An escape of one character is read as that character. -/
theorem unquote_escaped {c d : Char} (h : escaped? c = some d) (cs : List Char) :
    unquote ('\\' :: c :: cs) = (unquote cs).map fun read => (d :: read.1, read.2) := by
  unfold escaped? at h
  split at h
  case h_8 => cases h
  all_goals
    cases h
    rfl

/-- **What follows the closing quote does not matter.** -/
theorem unquote_append {cs content rest : List Char} (h : unquote cs = some (content, rest))
    (more : List Char) : unquote (cs ++ more) = some (content, rest ++ more) := by
  fun_induction unquote cs generalizing content
  case case2 =>
    cases h
    rfl
  case case3 high low cs hhigh hlow ih =>
    obtain ⟨read, hread, heq⟩ := Option.map_eq_some_iff.mp h
    cases heq
    simp only [List.cons_append, unquote, hhigh, hlow, ih hread, Option.map_some]
  case case5 c cs _ d hescaped ih =>
    obtain ⟨read, hread, heq⟩ := Option.map_eq_some_iff.mp h
    cases heq
    rw [List.cons_append, List.cons_append, unquote_escaped hescaped, ih hread]
    rfl
  case case8 c cs hquote _ _ hplain ih =>
    obtain ⟨read, hread, heq⟩ := Option.map_eq_some_iff.mp h
    cases heq
    rw [Bool.or_eq_true, not_or, Bool.not_eq_true, beq_iff_eq] at hplain
    rw [List.cons_append, unquote_plain hquote hplain.2 hplain.1, ih hread]
    rfl
  all_goals cases h

theorem literal?_append {cs rest : List Char} {content : String}
    (h : literal? cs = some (content, rest)) (more : List Char) :
    literal? (cs ++ more) = some (content, rest ++ more) := by
  unfold literal? at h
  split at h
  · obtain ⟨read, hread, heq⟩ := Option.map_eq_some_iff.mp h
    cases heq
    rw [List.cons_append, literal?, unquote_append hread more]
    rfl
  · cases h

/-- **A literal is read as its text**, whatever follows it, -/
theorem literal?_quote (v : String) (rest : List Char) :
    literal? ((quote v).toList ++ rest) = some (v, rest) := by
  have hlist : (quote v).toList ++ rest = '"' :: (v.toList.flatMap escapeChar ++ '"' :: rest) := by
    simp [quote, escape]
  rw [hlist, literal?, unquote_escape, Option.map_some, String.ofList_toList]

/-- …and no shorter beginning of it is a literal. -/
theorem literal?_of_append_eq_quote {part more : List Char} {v : String}
    (h : part ++ more = (quote v).toList) (hmore : more ≠ []) : literal? part = none := by
  cases hpart : literal? part with
  | none => rfl
  | some read =>
    obtain ⟨content, rest⟩ := read
    have hwhole := literal?_append hpart more
    have hquote := literal?_quote v []
    rw [List.append_nil, ← h, hwhole] at hquote
    cases hrest : rest ++ more with
    | nil => exact absurd (List.append_eq_nil_iff.mp hrest).2 hmore
    | cons c cs =>
      rw [hrest] at hquote
      cases hquote

/-- Texts with one literal are one text. -/
theorem quote_injective : Function.Injective quote := fun v w h => by
  have hv := literal?_quote v []
  rw [h, literal?_quote w []] at hv
  exact (Prod.mk.inj (Option.some.inj hv)).1.symm

theorem breaksLiteral_escapeChar (c : Char) : ∀ d ∈ escapeChar c, breaksLiteral d = false := by
  unfold escapeChar
  split
  case h_9 _ _ hfeed _ hreturn _ _ hnull =>
    simp only [List.mem_singleton, forall_eq, breaksLiteral, Bool.or_eq_false_iff,
      beq_eq_false_iff_ne]
    exact ⟨⟨hfeed, hreturn⟩, hnull⟩
  all_goals decide

/-- **A literal breaks no line.** -/
theorem breaksLiteral_of_mem_quote {v : String} {c : Char} (h : c ∈ (quote v).toList) :
    breaksLiteral c = false := by
  simp only [quote, escape, String.toList_append, String.toList_ofList, List.mem_append,
    List.mem_flatMap] at h
  rcases h with (h | ⟨d, -, h⟩) | h
  · obtain rfl : c = '"' := by simpa using h
    rfl
  · exact breaksLiteral_escapeChar d c h
  · obtain rfl : c = '"' := by simpa using h
    rfl

end Text

namespace Render

open Source

/-! ## Literals in code -/

/-- The code of a text block is the literal of its field. -/
theorem expressionCode_text {b : Block} (hb : b.type = "text") (p : Pass) :
    expressionCode b p = .ok (Text.quote (b.field "TEXT"), .atom) p := by
  obtain ⟨type, id, fields, values, statements, next, mutation⟩ := b
  obtain rfl : type = "text" := hb
  rfl

/-- The expression of a prompt: a call with one text, made a number if that is asked for. -/
def promptExpr (function : String) (number : Bool) (v : String) : Expr :=
  if number then .call "float" [.call function [.text v]] else .call function [.text v]

theorem expressionCode_prompt {b : Block} (hb : b.type = "text_prompt") (p : Pass) :
    let asked := p.helper "text_prompt" Node.promptSource
    expressionCode b p
      = .ok ((promptExpr asked.1 (b.field "TYPE" = "NUMBER") (b.field "TEXT")).code, .call)
          asked.2 := by
  obtain ⟨type, id, fields, values, statements, next, mutation⟩ := b
  obtain rfl : type = "text_prompt" := hb
  intro asked
  refine expressionCode_eq_ok.mpr ⟨_, rfl, ?_, ?_⟩
  · dsimp only [promptExpr]
    simp only [decide_eq_true_eq]
    rfl
  · split <;> rfl

/-- The tokens of a prompt. -/
def promptTokens (function : String) (number : Bool) (v : String) : List Token :=
  let asked := [.word function, .mark "(", .text v, .mark ")"]
  if number then .word "float" :: .mark "(" :: (asked ++ [.mark ")"]) else asked

/-- **A prompt is read with its text as one token.** -/
theorem scans_prompt {function : String} (hf : Text.isIdentifier function) (number : Bool)
    (v : String) :
    Scans anything (promptExpr function number v).code (promptTokens function number v) := by
  have hquote : Scans (Follows false) (Text.quote v) [.text v] := fun rest _ => scan_quote v rest
  have hasked : Scans anything (Expr.call function [.text v]).code
      [.word function, .mark "(", .text v, .mark ")"] := Expr.scans_call (scans_word hf) hquote
  cases number with
  | false => exact hasked
  | true => exact Expr.scans_call (scans_word (by decide)) hasked.of_anything

/-! ## The main result -/

/-- **String literals denote their texts.**  The literal of a text is read as that text, up to its
last character and whatever follows; no shorter beginning of it is a literal, and it holds no line
feed, no carriage return and no null character.  Its escapes are those of the replacements made in
turn.  Different texts have different literals.  The field of a text block or of a prompt reaches
the code as one such literal: it is one token there, and the other tokens do not depend on it. -/
theorem literals_denote_texts (v : String) :
    ((∀ rest, Text.literal? ((Text.quote v).toList ++ rest) = some (v, rest)) ∧
      (∀ part more, part ++ more = (Text.quote v).toList → more ≠ [] →
        Text.literal? part = none) ∧
      (∀ c ∈ (Text.quote v).toList, c ≠ '\n' ∧ c ≠ '\r' ∧ c ≠ '\x00') ∧
      (Text.escape v).toList = Text.replaceInTurn Text.replacements v.toList) ∧
    Function.Injective Text.quote ∧
    ∀ {p : Pass}, Reachable p → ∀ {b : Block}, b.field "TEXT" = v →
      (b.type = "text" → ∃ code, expressionCode b p = .ok (code, .atom) p ∧
        code = Text.quote v ∧ Scans anything code [.text v]) ∧
      (b.type = "text_prompt" →
        let asked := p.helper "text_prompt" Node.promptSource
        ∃ code, expressionCode b p = .ok (code, .call) asked.2 ∧
          Scans anything code (promptTokens asked.1 (b.field "TYPE" = "NUMBER") v)) := by
  refine ⟨⟨Text.literal?_quote v, fun part more => Text.literal?_of_append_eq_quote, fun c hc => ?_,
    ?_⟩, Text.quote_injective, fun {p} hp {b} hfield => ⟨fun htype => ?_, fun htype => ?_⟩⟩
  · have hbreaks := Text.breaksLiteral_of_mem_quote hc
    simp only [Text.breaksLiteral, Bool.or_eq_false_iff, beq_eq_false_iff_ne] at hbreaks
    exact ⟨hbreaks.1.1, hbreaks.1.2, hbreaks.2⟩
  · rw [Text.escape, String.toList_ofList, Text.flatMap_escapeChar]
  · subst hfield
    exact ⟨_, expressionCode_text htype p, rfl, fun rest _ => scan_quote _ rest⟩
  · subst hfield
    have hname : Expr.IsName (p.helper "text_prompt" Node.promptSource).1 :=
      ((renders_helper .prompt).outcome hp.valid rfl
        (helper_leads hp.valid "text_prompt" Node.promptSource).1.agrees).2
    exact ⟨_, expressionCode_prompt htype p, scans_prompt hname.1 _ _⟩

/-- A text that looks like the end of a literal: a backslash, a null character in front of digits, a
quote and a line feed. -/
def hostileText : String := "\\\x0041\"\n"

/-- A block with a text. -/
def fieldBlock (type v : String) : Block :=
  .mk type "" [("TYPE", "NUMBER"), ("TEXT", v)] [] [] none []

theorem hostileText_denoted :
    Text.quote hostileText = "\"\\\\\\x0041\\\"\\n\"" ∧
    Text.literal? (Text.quote hostileText).toList = some (hostileText, []) ∧
    Text.literal? "\"\\\\\\x0041\\\"".toList = none ∧
    (∃ code, expressionCode (fieldBlock "text" hostileText) {} = .ok (code, .atom) {} ∧
      Scans anything code [.text hostileText]) ∧
    ∃ code q, expressionCode (fieldBlock "text_prompt" hostileText) {} = .ok (code, .call) q ∧
      Scans anything code (promptTokens "text_prompt" true hostileText) := by
  obtain ⟨⟨hread, hpart, -, -⟩, -, hblock⟩ := literals_denote_texts hostileText
  have hquote : Text.quote hostileText = "\"\\\\\\x0041\\\"\\n\"" := by decide
  obtain ⟨code, hcode, -, hscans⟩ :=
    (hblock .initial (b := fieldBlock "text" hostileText) rfl).1 rfl
  obtain ⟨asked, hasked, hprompt⟩ :=
    (hblock .initial (b := fieldBlock "text_prompt" hostileText) rfl).2 rfl
  refine ⟨hquote, ?_, ?_, ⟨code, hcode, hscans⟩, asked, _, hasked, hprompt⟩
  · rw [← List.append_nil (Text.quote hostileText).toList]
    exact hread []
  · exact hpart _ "\\n\"".toList (by rw [hquote]; decide) (by decide)

end Render

end Jigsaw
