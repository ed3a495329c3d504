import Jigsaw.Json.Value
import Jigsaw.Xml.Char
import Jigsaw.Xml.Encoding

/-!
# Proofs/Json/Reader — written JSON is read back

The reader takes a text one character at a time: it holds the lists and records that are open and
the piece that is being read, skips spaces wherever they may stand, and knows every escape of a
quoted text.  `read?_write` says that it finds in a written value that value again.  The proof
follows the writer: each of its functions leads the reader from one piece to the next.
-/

namespace Jigsaw.Json

open Xml (isSpace isLeadUnit isTrailUnit)

/-! ## The reader -/

/-- An escape read up to some point; `lead` is a first half of a character whose second half has to
follow. -/
inductive Escape where
  /-- No escape. -/
  | none
  /-- A backslash. -/
  | backslash (lead : Option Nat)
  /-- `\u` and so many digits, with their number. -/
  | digits (lead : Option Nat) (count number : Nat)
  /-- A first half is complete, and the escape of the second has to follow. -/
  | half (lead : Nat)

/-- A list or record whose end has not come; what is complete in it stands latest first. -/
inductive Level where
  /-- A list. -/
  | list (items : List Value)
  /-- A record. -/
  | record (entries : List (String × Value))
  /-- A record that awaits the value of a name. -/
  | entry (name : String) (entries : List (String × Value))

/-- What a text is in the middle of. -/
inductive Piece where
  /-- In front of a value, or of the end of a list that holds nothing. -/
  | value (orEnd : Bool)
  /-- In front of a name, or of the end of a record that holds nothing. -/
  | name (orEnd : Bool)
  /-- A quoted text, latest character first; a name or a value. -/
  | quoted (isName : Bool) (chars : List Char) (escape : Escape)
  /-- Behind a name. -/
  | colon (name : String)
  /-- Behind a value. -/
  | after
  /-- Behind the whole text. -/
  | whole (v : Value)

/-- JSON read up to some point. -/
structure Reader where
  /-- The open lists and records, innermost first. -/
  levels : List Level
  /-- The current piece. -/
  piece : Piece

/-- The character that one letter after a backslash stands for. -/
def Escape.simple? : Char → Option Char
  | '"' => some '"'
  | '\\' => some '\\'
  | '/' => some '/'
  | 'b' => some '\x08'
  | 'f' => some '\x0c'
  | 'n' => some '\n'
  | 'r' => some '\r'
  | 't' => some '\t'
  | _ => Option.none

namespace Reader

/-- The characters of a quoted text and its escape after the escape of a 16-bit unit. -/
def takeUnit (chars : List Char) (lead : Option Nat) (n : Nat) : Option (List Char × Escape) :=
  match lead with
  | none =>
    if isLeadUnit n then some (chars, .half n)
    else if isTrailUnit n then none
    else some (Char.ofNat n :: chars, .none)
  | some first =>
    if isTrailUnit n then
      some (Char.ofNat (0x10000 + (first - 0xD800) * 0x400 + (n - 0xDC00)) :: chars, .none)
    else none

/-- One more character of a quoted text that does not end it. -/
def quotedStep (chars : List Char) (escape : Escape) (c : Char) :
    Option (List Char × Escape) :=
  match escape with
  | .none =>
    if c = '\\' then some (chars, .backslash none)
    else if c < ' ' then none
    else some (c :: chars, .none)
  | .backslash lead =>
    if c = 'u' then some (chars, .digits lead 0 0)
    else if lead.isSome then none
    else (Escape.simple? c).map fun d => (d :: chars, .none)
  | .digits lead count number => do
    let digit ← Text.hexValue? c
    if count < 3 then some (chars, .digits lead (count + 1) (16 * number + digit))
    else takeUnit chars lead (16 * number + digit)
  | .half lead => if c = '\\' then some (chars, .backslash (some lead)) else none

/-- The reader behind a complete value. -/
def complete (levels : List Level) (v : Value) : Option Reader :=
  match levels with
  | [] => some ⟨[], .whole v⟩
  | .list items :: outer => some ⟨.list (v :: items) :: outer, .after⟩
  | .entry name entries :: outer => some ⟨.record ((name, v) :: entries) :: outer, .after⟩
  | .record _ :: _ => none

/-- The end of the innermost list. -/
def closeList (r : Reader) : Option Reader :=
  match r.levels with
  | .list items :: outer => complete outer (.list items.reverse)
  | _ => none

/-- The end of the innermost record. -/
def closeRecord (r : Reader) : Option Reader :=
  match r.levels with
  | .record entries :: outer => complete outer (.record entries.reverse)
  | _ => none

/-- The end of a quoted text. -/
def endQuoted (levels : List Level) (isName : Bool) (chars : List Char) : Option Reader :=
  let text := String.ofList chars.reverse
  if isName then some ⟨levels, .colon text⟩ else complete levels (.text text)

/-- The piece behind a comma. -/
def comma (r : Reader) : Option Reader :=
  match r.levels with
  | .list _ :: _ => some { r with piece := .value false }
  | .record _ :: _ => some { r with piece := .name false }
  | _ => none

/-- One more character that is no part of a quoted text and no space. -/
def markStep (r : Reader) (c : Char) : Option Reader :=
  match r.piece with
  | .value orEnd =>
    if c = '"' then some { r with piece := .quoted false [] .none }
    else if c = '[' then some ⟨.list [] :: r.levels, .value true⟩
    else if c = '\x7b' then some ⟨.record [] :: r.levels, .name true⟩
    else if c = ']' && orEnd then r.closeList
    else none
  | .name orEnd =>
    if c = '"' then some { r with piece := .quoted true [] .none }
    else if c = '\x7d' && orEnd then r.closeRecord
    else none
  | .colon name =>
    match r.levels with
    | .record entries :: outer =>
      if c = ':' then some ⟨.entry name entries :: outer, .value false⟩ else none
    | _ => none
  | .after =>
    if c = ',' then r.comma
    else if c = ']' then r.closeList
    else if c = '\x7d' then r.closeRecord
    else none
  | _ => none

/-- One more character. -/
def step (r : Reader) (c : Char) : Option Reader :=
  match r.piece with
  | .quoted isName chars .none =>
    if c = '"' then endQuoted r.levels isName chars
    else (quotedStep chars .none c).map fun q => { r with piece := .quoted isName q.1 q.2 }
  | .quoted isName chars escape =>
    (quotedStep chars escape c).map fun q => { r with piece := .quoted isName q.1 q.2 }
  | _ => if isSpace c then some r else r.markStep c

/-- Several characters. -/
def run (r : Reader) (cs : List Char) : Option Reader := cs.foldlM step r

end Reader

/-- The value that a text holds. -/
def Value.read? (text : String) : Option Value :=
  match Reader.run ⟨[], .value false⟩ text.toList with
  | some ⟨_, .whole v⟩ => some v
  | _ => none

/-! ## Quoted texts -/

namespace Reader

theorem run_append (r : Reader) (cs ds : List Char) :
    r.run (cs ++ ds) = (r.run cs).bind (·.run ds) := List.foldlM_append

theorem run_cons (r : Reader) (c : Char) (cs : List Char) :
    r.run (c :: cs) = (r.step c).bind (·.run cs) := List.foldlM_cons

theorem run_singleton (r : Reader) (c : Char) : r.run [c] = r.step c := by
  rw [run_cons]
  exact Option.bind_fun_some (r.step c)

/-- A hexadecimal digit has its value. -/
theorem hexValue?_hexDigit : ∀ n < 16, Text.hexValue? (Text.hexDigit n) = some n := by decide

/-- The reader in the middle of a quoted text. -/
def inQuoted (levels : List Level) (isName : Bool) (q : List Char × Escape) : Reader :=
  ⟨levels, .quoted isName q.1 q.2⟩

/-- A character inside an escape is taken by the escape. -/
theorem step_inEscape (levels : List Level) (isName : Bool) (chars : List Char) {escape : Escape}
    (h : escape ≠ .none) (c : Char) :
    (inQuoted levels isName (chars, escape)).step c
      = (quotedStep chars escape c).map (inQuoted levels isName) := by
  cases escape with
  | none => exact absurd rfl h
  | _ => rfl

/-- A character that is no mark stands for itself. -/
theorem step_plain (levels : List Level) (isName : Bool) (chars : List Char) {c : Char}
    (hquote : c ≠ '"') (hbackslash : c ≠ '\\') (hcontrol : ¬ c < ' ') :
    (inQuoted levels isName (chars, .none)).step c
      = some (inQuoted levels isName (c :: chars, .none)) := by
  simp [step, inQuoted, quotedStep, hquote, hbackslash, hcontrol]

/-- The four digits of a unit give the unit. -/
theorem run_digits (levels : List Level) (isName : Bool) (chars : List Char) (lead : Option Nat)
    {n : Nat} (h : n < 0x10000) :
    (inQuoted levels isName (chars, .digits lead 0 0)).run
        [Text.hexDigit (n / 4096 % 16), Text.hexDigit (n / 256 % 16), Text.hexDigit (n / 16 % 16),
          Text.hexDigit (n % 16)]
      = (takeUnit chars lead n).map (inQuoted levels isName) := by
  have hvalue : 16 * (16 * (16 * (16 * 0 + n / 4096 % 16) + n / 256 % 16) + n / 16 % 16) + n % 16
      = n := by omega
  have hdigit (k : Nat) : Text.hexValue? (Text.hexDigit (k % 16)) = some (k % 16) :=
    hexValue?_hexDigit _ (Nat.mod_lt _ (by decide))
  simp only [run_cons, step_inEscape, quotedStep, hdigit, Option.bind_eq_bind, Option.bind_some,
    Option.map_some, ne_eq, reduceCtorEq, not_false_eq_true, Nat.reduceLT, if_true, Nat.zero_add,
    Nat.reduceAdd, Nat.lt_irrefl, if_false, hvalue]
  cases takeUnit chars lead n <;> rfl

/-- Where the escape of a unit starts. -/
def unitStart : Option Nat → Escape
  | none => .none
  | some lead => .half lead

/-- The escape of a unit gives the unit. -/
theorem run_unitEscape (levels : List Level) (isName : Bool) (chars : List Char)
    (lead : Option Nat) {n : Nat} (h : n < 0x10000) :
    (inQuoted levels isName (chars, unitStart lead)).run (unitEscape n)
      = (takeUnit chars lead n).map (inQuoted levels isName) := by
  rw [unitEscape, ← run_digits levels isName chars lead h]
  cases lead <;> rfl

theorem isLeadUnit_iff {n : Nat} : isLeadUnit n ↔ 0xD800 ≤ n ∧ n < 0xDC00 := by
  simp [isLeadUnit]

theorem isTrailUnit_iff {n : Nat} : isTrailUnit n ↔ 0xDC00 ≤ n ∧ n < 0xE000 := by
  simp [isTrailUnit]

/-- Where the characters stand: nowhere among the halves. -/
theorem toNat_range (c : Char) : c.toNat < 0xD800 ∨ (0xDFFF < c.toNat ∧ c.toNat < 0x110000) :=
  c.valid

/-- **The escapes of a character's units give the character.** -/
theorem run_units (levels : List Level) (isName : Bool) (chars : List Char) (c : Char) :
    (inQuoted levels isName (chars, .none)).run ((units c).flatMap unitEscape)
      = some (inQuoted levels isName (c :: chars, .none)) := by
  have hrange := toNat_range c
  unfold units
  dsimp only
  split
  case isTrue hsmall =>
    have hlead : ¬ isLeadUnit c.toNat := fun h => by have := isLeadUnit_iff.mp h; omega
    have htrail : ¬ isTrailUnit c.toNat := fun h => by have := isTrailUnit_iff.mp h; omega
    rw [List.flatMap_singleton, ← unitStart, run_unitEscape levels isName chars none hsmall,
      takeUnit, if_neg hlead, if_neg htrail, Char.ofNat_toNat]
    rfl
  case isFalse hlarge =>
    have hlead : isLeadUnit (0xD800 + (c.toNat - 0x10000) / 0x400) :=
      isLeadUnit_iff.mpr (by omega)
    have htrail : isTrailUnit (0xDC00 + (c.toNat - 0x10000) % 0x400) :=
      isTrailUnit_iff.mpr (by omega)
    have hwhole : 0x10000 + (0xD800 + (c.toNat - 0x10000) / 0x400 - 0xD800) * 0x400
        + (0xDC00 + (c.toNat - 0x10000) % 0x400 - 0xDC00) = c.toNat := by omega
    rw [List.flatMap_cons, List.flatMap_singleton, run_append, ← unitStart,
      run_unitEscape levels isName chars none (by omega), takeUnit, if_pos hlead, Option.map_some,
      Option.bind_some]
    change (inQuoted levels isName (chars, unitStart (some _))).run _ = _
    rw [run_unitEscape levels isName chars _ (by omega), takeUnit, if_pos htrail, hwhole,
      Char.ofNat_toNat]
    rfl

/-- **A character is read from the way it is written.** -/
theorem run_escapeChar (levels : List Level) (isName : Bool) (chars : List Char) (c : Char) :
    (inQuoted levels isName (chars, .none)).run (escapeChar c)
      = some (inQuoted levels isName (c :: chars, .none)) := by
  unfold escapeChar
  split
  case h_8 hquote hbackslash _ _ _ _ _ =>
    split
    case isTrue hprint =>
      simp only [Bool.and_eq_true, decide_eq_true_eq] at hprint
      have hcontrol : ¬ c < ' ' := Char.not_lt.mpr hprint.1
      rw [run_cons, step_plain levels isName chars hquote hbackslash hcontrol]
      rfl
    case isFalse => exact run_units levels isName chars c
  all_goals rfl

theorem run_escaped (levels : List Level) (isName : Bool) : ∀ cs chars : List Char,
    (inQuoted levels isName (chars, .none)).run (cs.flatMap escapeChar)
      = some (inQuoted levels isName (cs.reverse ++ chars, .none))
  | [], chars => rfl
  | c :: cs, chars => by
      rw [List.flatMap_cons, run_append, run_escapeChar, Option.bind_some, run_escaped,
        List.reverse_cons, List.append_assoc]
      rfl

/-- The rest of a quoted text gives the text. -/
theorem run_quoteEnd (levels : List Level) (isName : Bool) (s : String) :
    (inQuoted levels isName ([], .none)).run (s.toList.flatMap escapeChar ++ ['"'])
      = endQuoted levels isName s.toList.reverse := by
  rw [run_append, run_escaped, Option.bind_some, List.append_nil, run_singleton]
  rfl

/-- A quoted value is that text, -/
theorem run_quote_value (levels : List Level) (orEnd : Bool) (s : String) :
    run ⟨levels, .value orEnd⟩ (quote s) = complete levels (.text s) := by
  have hend := run_quoteEnd levels false s
  rw [endQuoted, List.reverse_reverse, String.ofList_toList] at hend
  exact hend

/-- …and a quoted name awaits its value. -/
theorem run_quote_name (levels : List Level) (orEnd : Bool) (s : String) :
    run ⟨levels, .name orEnd⟩ (quote s) = some ⟨levels, .colon s⟩ := by
  have hend := run_quoteEnd levels true s
  rw [endQuoted, List.reverse_reverse, String.ofList_toList] at hend
  exact hend

/-! ## Lists and records -/

/-- Spaces between pieces are passed over. -/
theorem run_lineStart {r : Reader} (h : ∀ c, isSpace c → r.step c = some r) (depth : Nat) :
    r.run (lineStart depth) = some r := by
  have hspaces : ∀ n, r.run (List.replicate n ' ') = some r := by
    intro n
    induction n with
    | zero => rfl
    | succ n ih => rw [List.replicate_succ, run_cons, h ' ' rfl, Option.bind_some, ih]
  rw [lineStart, run_cons, h '\n' rfl, Option.bind_some, hspaces]

theorem step_space_value (levels : List Level) (orEnd : Bool) (c : Char) (h : isSpace c) :
    step ⟨levels, .value orEnd⟩ c = some ⟨levels, .value orEnd⟩ := if_pos h

theorem step_space_name (levels : List Level) (orEnd : Bool) (c : Char) (h : isSpace c) :
    step ⟨levels, .name orEnd⟩ c = some ⟨levels, .name orEnd⟩ := if_pos h

theorem step_space_after (levels : List Level) (c : Char) (h : isSpace c) :
    step ⟨levels, .after⟩ c = some ⟨levels, .after⟩ := if_pos h

/-- The end of a list on a line of its own. -/
theorem run_listEnd (items : List Value) (outer : List Level) (depth : Nat) :
    run ⟨.list items :: outer, .after⟩ (lineStart depth ++ [']'])
      = complete outer (.list items.reverse) := by
  rw [run_append, run_lineStart (step_space_after _) depth, Option.bind_some, run_singleton]
  rfl

/-- The end of a record on a line of its own. -/
theorem run_recordEnd (entries : List (String × Value)) (outer : List Level) (depth : Nat) :
    run ⟨.record entries :: outer, .after⟩ (lineStart depth ++ ['\x7d'])
      = complete outer (.record entries.reverse) := by
  rw [run_append, run_lineStart (step_space_after _) depth, Option.bind_some, run_singleton]
  rfl

mutual

/-- **A written value leads the reader behind that value**, whatever is open around it. -/
theorem run_chars (levels : List Level) (orEnd : Bool) (depth : Nat) : ∀ v : Value,
    run ⟨levels, .value orEnd⟩ (v.chars depth) = complete levels v
  | .text s => by
      rw [Value.chars]
      exact run_quote_value levels orEnd s
  | .list [] => by
      rw [Value.chars]
      exact run_singleton ⟨.list [] :: levels, .value true⟩ ']'
  | .list (v :: rest) => by
      rw [Value.chars]
      change run ⟨.list [] :: levels, .value true⟩ (_ ++ _ ++ _) = _
      rw [List.append_assoc, run_append, run_itemChars [] levels true (depth + 1) (v :: rest) rfl,
        Option.bind_some, run_listEnd, List.append_nil, List.reverse_reverse]
  | .record [] => by
      rw [Value.chars]
      exact run_singleton ⟨.record [] :: levels, .name true⟩ '\x7d'
  | .record (entry :: rest) => by
      rw [Value.chars]
      change run ⟨.record [] :: levels, .name true⟩ (_ ++ _ ++ _) = _
      rw [List.append_assoc, run_append,
        run_entryChars [] levels true (depth + 1) (entry :: rest) rfl, Option.bind_some,
        run_recordEnd, List.append_nil, List.reverse_reverse]
termination_by structural v => v

/-- Written items are read behind those that are complete. -/
theorem run_itemChars (done : List Value) (outer : List Level) (orEnd : Bool) (depth : Nat) :
    ∀ items : List Value, items.isEmpty = false →
      run ⟨.list done :: outer, .value orEnd⟩ (Value.itemChars depth items)
        = some ⟨.list (items.reverse ++ done) :: outer, .after⟩
  | [], h => absurd h (by decide)
  | v :: rest, _ => by
      rw [Value.itemChars, List.append_assoc, List.append_assoc, run_append,
        run_lineStart (step_space_value _ _) depth, Option.bind_some, run_append,
        run_chars (.list done :: outer) orEnd depth v, complete, Option.bind_some]
      cases hrest : rest.isEmpty with
      | true =>
        rw [List.isEmpty_iff.mp hrest]
        rfl
      | false =>
        change run ⟨.list (v :: done) :: outer, .value false⟩ (Value.itemChars depth rest) = _
        rw [run_itemChars (v :: done) outer false depth rest hrest, List.reverse_cons,
          List.append_assoc]
        rfl
termination_by structural items => items

/-- Written entries are read behind those that are complete. -/
theorem run_entryChars (done : List (String × Value)) (outer : List Level) (orEnd : Bool)
    (depth : Nat) : ∀ entries : List (String × Value), entries.isEmpty = false →
      run ⟨.record done :: outer, .name orEnd⟩ (Value.entryChars depth entries)
        = some ⟨.record (entries.reverse ++ done) :: outer, .after⟩
  | [], h => absurd h (by decide)
  | entry :: rest, _ => by
      rw [Value.entryChars, List.append_assoc, List.append_assoc, run_append,
        run_lineStart (step_space_name _ _) depth, Option.bind_some, run_append,
        run_oneEntry done outer orEnd depth entry, Option.bind_some]
      cases hrest : rest.isEmpty with
      | true =>
        rw [List.isEmpty_iff.mp hrest]
        rfl
      | false =>
        change run ⟨.record (entry :: done) :: outer, .name false⟩ (Value.entryChars depth rest) = _
        rw [run_entryChars (entry :: done) outer false depth rest hrest, List.reverse_cons,
          List.append_assoc]
        rfl
termination_by structural entries => entries

/-- A written entry is read behind those that are complete. -/
theorem run_oneEntry (done : List (String × Value)) (outer : List Level) (orEnd : Bool)
    (depth : Nat) : ∀ entry : String × Value,
      run ⟨.record done :: outer, .name orEnd⟩ (Value.oneEntry depth entry)
        = some ⟨.record (entry :: done) :: outer, .after⟩
  | (name, v) => by
      rw [Value.oneEntry, List.append_assoc, run_append, run_quote_name, Option.bind_some]
      change run ⟨.entry name done :: outer, .value false⟩ (v.chars depth) = _
      rw [run_chars (.entry name done :: outer) false depth v, complete]
termination_by structural entry => entry

end

end Reader

/-- **A written value is read back**, also with a line feed behind it. -/
theorem Value.read?_write (v : Value) : Value.read? (v.write ++ "\n") = some v := by
  have hrun : Reader.run ⟨[], .value false⟩ (v.write ++ "\n").toList = some ⟨[], .whole v⟩ := by
    rw [Value.write, String.toList_append, String.toList_ofList, Reader.run_append,
      Reader.run_chars [] false 0 v]
    rfl
  rw [Value.read?, hrun]

end Jigsaw.Json
