import Mathlib.Data.List.Basic
import Jigsaw.Proofs.Command.Run

/-!
# Proofs/Command/Arguments — arguments are read by a grammar

    arguments ::= item*
    item      ::= --stop-at (parse | generate) | --indent count | (-o | --output) any | - | file

Reading accepts exactly the lists that split into items with at most one file, after which no
operand comes (`Splits`, `Placed`), and gives the last value of every flag.  All other lists have a
first part that does not fit (`Misfit`, or a flag without its value at the very end), and that part
alone decides how reading stops: what comes before it fits, and what comes after it is not read.

The argument is one step and its repetition.  At any point either an item comes next and reading
goes on behind it, or reading is over (`item_or_final`); so a list is items, and then the end
(`exists_split`).
-/

namespace Jigsaw.Command

/-! ## The grammar -/

/-- One thing that arguments say. -/
inductive Item where
  /-- The last phase. -/
  | phase (phase : Phase)
  /-- Spaces for each level of indentation. -/
  | indent (spaces : Nat)
  /-- The output file. -/
  | output (file : String)
  /-- An input: a file, or standard input for a dash. -/
  | operand (file : Option String)

namespace Item

/-- **The arguments that say an item.**  The value of a flag is the argument after it, whatever that
looks like. -/
inductive Spelled : Item → List String → Prop
  | parse : Spelled (.phase .parse) ["--stop-at", "parse"]
  | generate : Spelled (.phase .generate) ["--stop-at", "generate"]
  | indent {value : String} (h : 1 ≤ Integer.count value) :
      Spelled (.indent (Integer.count value)) ["--indent", value]
  | output {flag : String} (h : flag = "-o" ∨ flag = "--output") (file : String) :
      Spelled (.output file) [flag, file]
  | dash : Spelled (.operand none) ["-"]
  | file {name : String} (h : name.toList.head? ≠ some '-') :
      Spelled (.operand (some name)) [name]

/-! The parts of the options that an item has a value for. -/

def phase? : Item → Option Phase
  | phase p => some p
  | _ => none

def indent? : Item → Option Nat
  | indent n => some n
  | _ => none

def output? : Item → Option String
  | output file => some file
  | _ => none

def operand? : Item → Option (Option String)
  | operand file => some file
  | _ => none

end Item

/-- Arguments split into items, from left to right. -/
inductive Splits : List String → List Item → Prop
  | nil : Splits [] []
  | cons {item : Item} {spelling arguments : List String} {items : List Item}
      (h : item.Spelled spelling) (rest : Splits arguments items) :
      Splits (spelling ++ arguments) (item :: items)

/-- The operands are dashes, any number of them, and then at most one file, which is the input. -/
def Placed (items : List Item) (input : Option String) : Prop :=
  ∃ dashes, items.filterMap Item.operand? = List.replicate dashes none ++ (input.map some).toList

/-- **What items ask for**: the last value of each flag, or its default. -/
def Options.ofItems (items : List Item) (input : Option String) : Options where
  phase := (items.filterMap Item.phase?).getLast?.getD .generate
  indent := (items.filterMap Item.indent?).getLast?.getD 4
  input := input
  output := (items.filterMap Item.output?).getLast?

/-- The flags that take a value. -/
def valueFlags : List String := ["--stop-at", "--indent", "-o", "--output"]

/-- How reading stops short of options. -/
inductive Stop where
  /-- Help is asked for. -/
  | help
  /-- The arguments are refused. -/
  | refused (error : ArgumentError)

/-- The result of reading that stops. -/
def Stop.result : Stop → Except ArgumentError Request
  | help => .ok .help
  | refused error => .error error

/-- What a run does that stops at its arguments: it shows the usage and exits with zero, or it tells
one message and exits with two. -/
def Stop.outcome (w : World) : Stop → Ending × World
  | help => (.exit 0, { w with stdout := w.stdout ++ usage })
  | refused error =>
    (.exit 2, { w with stderr := w.stderr ++ ("error: " ++ error.message ++ "\n") })

/-- **Arguments that do not fit** where the input is known, or not, from the items before. -/
inductive Misfit (input : Option String) : List String → Stop → Prop
  | help {flag : String} (h : flag = "--help" ∨ flag = "-h") : Misfit input [flag] .help
  | unknownPhase {value : String} (h : value ≠ "parse" ∧ value ≠ "generate") :
      Misfit input ["--stop-at", value] (.refused (.unknownPhase value))
  | invalidIndent {value : String} (h : Integer.count value = 0) :
      Misfit input ["--indent", value] (.refused (.invalidIndent value))
  | unknownFlag {flag : String} (h : flag.toList.head? = some '-')
      (hknown : flag ∉ "-" :: "--help" :: "-h" :: valueFlags) :
      Misfit input [flag] (.refused (.unknownFlag flag))
  | surplus {operand : String} (h : operand = "-" ∨ operand.toList.head? ≠ some '-')
      (hinput : input ≠ none) : Misfit input [operand] (.refused (.surplus operand))

/-- **Reading stops at the first arguments that do not fit.**  Whatever comes after a misfit does
not matter; a flag without its value has nothing after it. -/
inductive Stopped (arguments : List String) : Stop → Prop
  | misfit {before fault after : List String} {items : List Item} {input : Option String}
      {stop : Stop} (hsplit : arguments = before ++ (fault ++ after)) (hitems : Splits before items)
      (hplaced : Placed items input) (hfault : Misfit input fault stop) : Stopped arguments stop
  | missingValue {before : List String} {flag : String} {items : List Item}
      {input : Option String} (hsplit : arguments = before ++ [flag])
      (hitems : Splits before items) (hplaced : Placed items input) (hflag : flag ∈ valueFlags) :
      Stopped arguments (.refused (.missingValue flag))

/-! ## What arguments look like -/

theorem Phase.ofName?_eq_none_iff {value : String} :
    Phase.ofName? value = none ↔ value ≠ "parse" ∧ value ≠ "generate" := by
  unfold Phase.ofName?
  split <;> simp_all

theorem Flag.ofText?_eq_none_iff {argument : String} :
    Flag.ofText? argument = none ↔ argument ∉ valueFlags := by
  unfold Flag.ofText?
  split <;> simp_all [valueFlags]

theorem looksLikeFlag_iff {argument : String} :
    looksLikeFlag argument ↔ argument.toList.head? = some '-' ∧ argument ≠ "-" := by
  simp [looksLikeFlag]

/-- An operand is neither a flag nor help. -/
theorem not_flag_of_operand {argument : String}
    (h : argument = "-" ∨ argument.toList.head? ≠ some '-') :
    ¬ (argument = "--help" || argument = "-h") ∧ Flag.ofText? argument = none ∧
      looksLikeFlag argument = false := by
  rw [Flag.ofText?_eq_none_iff, ← Bool.not_eq_true, looksLikeFlag_iff]
  rcases h with rfl | h
  · decide
  · refine ⟨?_, ?_, fun hflag => h hflag.1⟩
    · rintro hhelp
      simp only [Bool.or_eq_true, decide_eq_true_eq] at hhelp
      rcases hhelp with rfl | rfl <;> exact h rfl
    · intro hmem
      simp only [valueFlags, List.mem_cons, List.not_mem_nil, or_false] at hmem
      rcases hmem with rfl | rfl | rfl | rfl <;> exact h rfl

namespace Options

variable {o : Options}

/-- The options with what an item says. -/
def take (o : Options) : Item → Options
  | .phase phase => { o with phase }
  | .indent indent => { o with indent }
  | .output file => { o with output := some file }
  | .operand file => { o with input := file.or o.input }

/-! ## One step -/

/-- A flag and its value are set, and reading goes on. -/
theorem request_flag {text : String} {flag : Flag} (h : Flag.ofText? text = some flag)
    (value : String) (rest : List String) :
    o.request (text :: value :: rest) = (o.set flag value >>= fun p => p.request rest) := by
  have hhelp : ¬ (text = "--help" || text = "-h") := by
    simp only [Bool.or_eq_true, decide_eq_true_eq]
    rintro (rfl | rfl) <;> simp [Flag.ofText?] at h
  rw [request, if_neg hhelp, h]
  cases hset : o.set flag value <;> simp only [hset, bind, Except.bind]

/-- An operand is taken, and reading goes on. -/
theorem request_operand {argument : String}
    (h : argument = "-" ∨ argument.toList.head? ≠ some '-') (rest : List String) :
    o.request (argument :: rest) = (o.operand argument >>= fun p => p.request rest) := by
  obtain ⟨hhelp, hflag, hlooks⟩ := not_flag_of_operand h
  rw [request, if_neg hhelp, hflag]
  cases o.operand argument <;> simp [hlooks, bind, Except.bind]

/-- **Reading goes on behind an item**, unless the item is an operand behind a file. -/
theorem request_item {item : Item} {spelling : List String} (h : item.Spelled spelling)
    (hfirst : item.operand?.isSome → o.input = none) (rest : List String) :
    o.request (spelling ++ rest) = (o.take item).request rest := by
  cases h with
  | parse => rfl
  | generate => rfl
  | @indent value h =>
    have hset : o.set .indent value = .ok (o.take (.indent (Integer.count value))) :=
      if_neg (Nat.one_le_iff_ne_zero.mp h)
    exact (request_flag rfl value rest).trans (by rw [hset]; rfl)
  | output h file =>
    rcases h with rfl | rfl <;> rfl
  | dash =>
    have hoperand : o.operand "-" = .ok o := by simp [operand, hfirst rfl]
    exact (request_operand (.inl rfl) rest).trans (by rw [hoperand]; rfl)
  | @file name h =>
    have hdash : name ≠ "-" := fun heq => h (by rw [heq]; rfl)
    have hoperand : o.operand name = .ok (o.take (.operand (some name))) := by
      simp [operand, hfirst rfl, hdash, take]
    exact (request_operand (.inr h) rest).trans (by rw [hoperand]; rfl)

/-- **Reading is over**: at the end, at a misfit, or at a flag without its value. -/
inductive Final (o : Options) : List String → Except ArgumentError Request → Prop
  | done : Final o [] (.ok (.run o))
  | misfit {fault : List String} {stop : Stop} (h : Misfit o.input fault stop)
      (rest : List String) : Final o (fault ++ rest) stop.result
  | missingValue {flag : String} (h : flag ∈ valueFlags) :
      Final o [flag] (.error (.missingValue flag))

theorem request_misfit {fault : List String} {stop : Stop} (h : Misfit o.input fault stop)
    (rest : List String) : o.request (fault ++ rest) = stop.result := by
  cases h with
  | help h => rcases h with rfl | rfl <;> rfl
  | @unknownPhase value h =>
    have hset : o.set .stopAt value = .error (.unknownPhase value) := by
      simp [set, Phase.ofName?_eq_none_iff.mpr h]
    exact (request_flag rfl value rest).trans (by rw [hset]; rfl)
  | @invalidIndent value h =>
    have hset : o.set .indent value = .error (.invalidIndent value) := if_pos h
    exact (request_flag rfl value rest).trans (by rw [hset]; rfl)
  | unknownFlag h hknown =>
    simp only [List.mem_cons, not_or] at hknown
    obtain ⟨hdash, hlong, hshort, hflags⟩ := hknown
    have hlooks := looksLikeFlag_iff.mpr ⟨h, hdash⟩
    have hflag := Flag.ofText?_eq_none_iff.mpr hflags
    simp [request, hlong, hshort, hflag, hlooks, Stop.result]
  | @surplus argument h hinput =>
    have hoperand : o.operand argument = .error (.surplus argument) :=
      if_pos (Option.isSome_iff_ne_none.mpr hinput)
    exact (request_operand h rest).trans (by rw [hoperand]; rfl)

theorem request_missingValue {flag : String} (h : flag ∈ valueFlags) :
    o.request [flag] = .error (.missingValue flag) := by
  simp only [valueFlags, List.mem_cons, List.not_mem_nil, or_false] at h
  rcases h with rfl | rfl | rfl | rfl <;> rfl

theorem Final.request_eq {rest : List String} {r : Except ArgumentError Request}
    (h : Final o rest r) : o.request rest = r := by
  cases h with
  | done => rfl
  | misfit h rest => exact request_misfit h rest
  | missingValue h => exact request_missingValue h

/-- What a flag and its value are: an item or a misfit. -/
theorem flag_item_or_final {flag : String} (h : flag ∈ valueFlags) (value : String)
    (rest : List String) :
    (∃ item : Item, item.Spelled [flag, value] ∧ item.operand? = none) ∨
      ∃ r, Final o (flag :: value :: rest) r := by
  simp only [valueFlags, List.mem_cons, List.not_mem_nil, or_false] at h
  rcases h with rfl | rfl | h
  · by_cases hphase : value ≠ "parse" ∧ value ≠ "generate"
    · exact .inr ⟨_, .misfit (.unknownPhase hphase) rest⟩
    · rcases not_and_or.mp hphase with hphase | hphase
      · obtain rfl := not_not.mp hphase
        exact .inl ⟨_, .parse, rfl⟩
      · obtain rfl := not_not.mp hphase
        exact .inl ⟨_, .generate, rfl⟩
  · by_cases hcount : Integer.count value = 0
    · exact .inr ⟨_, .misfit (.invalidIndent hcount) rest⟩
    · exact .inl ⟨_, .indent (Nat.one_le_iff_ne_zero.mpr hcount), rfl⟩
  · exact .inl ⟨_, .output h value, rfl⟩

/-- **At any point an item comes next, or reading is over.** -/
theorem item_or_final (o : Options) (arguments : List String) :
    (∃ (item : Item) (spelling rest : List String), arguments = spelling ++ rest ∧
      spelling ≠ [] ∧ item.Spelled spelling ∧ (item.operand?.isSome → o.input = none)) ∨
      ∃ r, Final o arguments r := by
  cases arguments with
  | nil => exact .inr ⟨_, .done⟩
  | cons argument rest =>
    -- Help first, then flags with a value, then operands; what is left only looks like a flag.
    by_cases hhelp : argument = "--help" ∨ argument = "-h"
    · exact .inr ⟨_, .misfit (.help hhelp) rest⟩
    by_cases hflag : argument ∈ valueFlags
    · cases rest with
      | nil => exact .inr ⟨_, .missingValue hflag⟩
      | cons value rest =>
        refine (flag_item_or_final hflag value rest).imp_left fun ⟨item, hitem, hnone⟩ => ?_
        exact ⟨item, _, rest, rfl, by simp, hitem, by simp [hnone]⟩
    by_cases hoperand : argument = "-" ∨ argument.toList.head? ≠ some '-'
    · by_cases hinput : o.input = none
      · refine .inl ?_
        rcases hoperand with rfl | h
        · exact ⟨_, ["-"], rest, rfl, by simp, .dash, fun _ => hinput⟩
        · exact ⟨_, [argument], rest, rfl, by simp, .file h, fun _ => hinput⟩
      · exact .inr ⟨_, .misfit (.surplus hoperand hinput) rest⟩
    · obtain ⟨hdash, hhead⟩ := not_or.mp hoperand
      refine .inr ⟨_, .misfit (.unknownFlag (not_not.mp hhead) ?_) rest⟩
      obtain ⟨hlong, hshort⟩ := not_or.mp hhelp
      simp [hdash, hlong, hshort, hflag]

/-! ## Step after step -/

/-- Items can follow the options that hold: no operand comes behind a file. -/
def Admits (o : Options) : List Item → Prop
  | [] => True
  | item :: items => (item.operand?.isSome → o.input = none) ∧ (o.take item).Admits items

/-- **Reading goes on behind items.** -/
theorem request_items {before : List String} {items : List Item} (h : Splits before items) :
    ∀ {o : Options}, o.Admits items → ∀ rest : List String,
      o.request (before ++ rest) = (items.foldl take o).request rest := by
  induction h with
  | nil => exact fun _ _ => rfl
  | cons hitem _ ih =>
    intro o hadmits rest
    rw [List.append_assoc, request_item hitem hadmits.1, ih hadmits.2]
    rfl

/-- **Arguments are items, and then reading is over.** -/
theorem exists_split (o : Options) (arguments : List String) :
    ∃ (before rest : List String) (items : List Item) (r : Except ArgumentError Request),
      arguments = before ++ rest ∧ Splits before items ∧ o.Admits items ∧
        Final (items.foldl take o) rest r := by
  rcases item_or_final o arguments with ⟨item, spelling, rest, heq, hne, hitem, hfirst⟩ | ⟨r, h⟩
  · obtain ⟨before, after, items, r, hrest, hsplits, hadmits, hfinal⟩ :=
      exists_split (o.take item) rest
    refine ⟨spelling ++ before, after, item :: items, r, ?_, .cons hitem hsplits,
      ⟨hfirst, hadmits⟩, hfinal⟩
    rw [heq, hrest, List.append_assoc]
  · exact ⟨[], arguments, [], r, rfl, .nil, trivial, h⟩
termination_by arguments.length
decreasing_by
  have hpos := List.length_pos_iff.mpr hne
  rw [heq, List.length_append]
  omega

/-! ## Operands -/

theorem input_take (o : Options) (item : Item) :
    (o.take item).input = item.operand?.join.or o.input := by
  cases item <;> rfl

end Options

section Placed

variable {item : Item} {items : List Item} {input : Option String}

theorem placed_cons_flag (h : item.operand? = none) :
    Placed (item :: items) input ↔ Placed items input := by
  rw [Placed, List.filterMap_cons_none h, Placed]

theorem placed_cons_dash (h : item.operand? = some none) :
    Placed (item :: items) input ↔ Placed items input := by
  rw [Placed, List.filterMap_cons_some h, Placed]
  constructor
  · rintro ⟨dashes, heq⟩
    cases dashes with
    | zero => cases input <;> simp at heq
    | succ dashes => exact ⟨dashes, (List.cons.inj heq).2⟩
  · rintro ⟨dashes, heq⟩
    exact ⟨dashes + 1, by rw [heq, List.replicate_succ, List.cons_append]⟩

theorem placed_cons_file {file : String} (h : item.operand? = some (some file)) :
    Placed (item :: items) input ↔ items.filterMap Item.operand? = [] ∧ input = some file := by
  rw [Placed, List.filterMap_cons_some h]
  constructor
  · rintro ⟨dashes, heq⟩
    cases dashes with
    | zero =>
      cases input with
      | none => simp at heq
      | some name => simpa [eq_comm, and_comm] using heq
    | succ dashes => exact absurd (List.cons.inj heq).1 (by simp)
  · rintro ⟨hnil, rfl⟩
    exact ⟨0, by rw [hnil]; rfl⟩

end Placed

namespace Options

/-- Behind a file no operand may come. -/
theorem admits_of_some : ∀ {items : List Item} {o : Options}, o.input ≠ none →
    (o.Admits items ↔ items.filterMap Item.operand? = [])
  | [], _, _ => by simp [Admits]
  | item :: items, o, h => by
      cases hop : item.operand? with
      | none =>
        have hinput : (o.take item).input ≠ none := by rwa [input_take, hop]
        simp [Admits, hop, admits_of_some hinput]
      | some file => simp [Admits, hop, h]

/-- **Items can be taken exactly if their operands are placed well.** -/
theorem admits_of_none : ∀ {items : List Item} {o : Options}, o.input = none →
    (o.Admits items ↔ ∃ input, Placed items input)
  | [], _, _ => by simpa [Admits] using ⟨none, 0, rfl⟩
  | item :: items, o, h => by
      cases hop : item.operand? with
      | none =>
        have hinput : (o.take item).input = none := by rwa [input_take, hop]
        simp [Admits, hop, admits_of_none hinput, placed_cons_flag hop]
      | some file =>
        cases file with
        | none =>
          have hinput : (o.take item).input = none := by rwa [input_take, hop]
          simp [Admits, hop, h, admits_of_none hinput, placed_cons_dash hop]
        | some name =>
          have hinput : (o.take item).input ≠ none := by simp [input_take, hop]
          simp [Admits, hop, h, admits_of_some hinput, placed_cons_file hop]

/-! ## Flags -/

/-- The last item with a value for a part of the options decides that part. -/
theorem foldl_take {β γ : Type} (part : Options → γ) (value? : Item → Option β) (f : β → γ)
    (h : ∀ o item, part (take o item) = ((value? item).map f).getD (part o)) :
    ∀ (items : List Item) (o : Options),
      part (items.foldl take o) = ((items.filterMap value?).getLast?.map f).getD (part o)
  | [], _ => rfl
  | item :: items, o => by
      rw [List.foldl_cons, foldl_take part value? f h items, h]
      cases hvalue : value? item with
      | none => rw [List.filterMap_cons_none hvalue]; rfl
      | some b =>
        rw [List.filterMap_cons_some hvalue, List.getLast?_cons]
        cases (items.filterMap value?).getLast? <;> rfl

/-- **Items taken one after the other are what they ask for.** -/
theorem foldl_take_eq_ofItems {items : List Item} {input : Option String}
    (h : Placed items input) : items.foldl take {} = ofItems items input := by
  have hphase : (items.foldl take {}).phase
      = (items.filterMap Item.phase?).getLast?.getD .generate := by
    simpa using foldl_take phase Item.phase? id (fun o item => by cases item <;> rfl) items {}
  have hindent : (items.foldl take {}).indent
      = (items.filterMap Item.indent?).getLast?.getD 4 := by
    simpa using foldl_take indent Item.indent? id (fun o item => by cases item <;> rfl) items {}
  have houtput : (items.foldl take {}).output = (items.filterMap Item.output?).getLast? := by
    rw [foldl_take Options.output Item.output? some (fun o item => by cases item <;> rfl)]
    cases (items.filterMap Item.output?).getLast? <;> rfl
  -- Of the operands that are placed well, only the last can be a file.
  have hfiles : items.filterMap (fun item => item.operand?.join) = input.toList := by
    obtain ⟨dashes, heq⟩ := h
    calc items.filterMap (fun item => item.operand?.join)
        = (items.filterMap Item.operand?).filterMap id := (List.filterMap_filterMap ..).symm
      _ = input.toList := by
          rw [heq]
          cases input <;> simp
  have hinput : (items.foldl take {}).input = input := by
    rw [foldl_take Options.input (fun item => item.operand?.join) some, hfiles]
    · cases input <;> rfl
    · intro o item
      rw [input_take]
      cases item.operand?.join <;> rfl
  calc items.foldl take {}
      = ⟨(items.foldl take {}).phase, (items.foldl take {}).indent, (items.foldl take {}).input,
          (items.foldl take {}).output⟩ := rfl
    _ = ofItems items input := by rw [hphase, hindent, hinput, houtput, ofItems]

end Options

/-! ## The main result -/

variable {arguments : List String} {stop : Stop}

theorem Stop.result_injective : Function.Injective Stop.result := by
  rintro (_ | e) (_ | e') h <;> simp_all [Stop.result]

theorem Stop.result_ne_run (stop : Stop) (o : Options) : stop.result ≠ .ok (.run o) := by
  cases stop <;> simp [Stop.result]

/-- What is read behind items that fit. -/
theorem read_of_splits {before : List String} {items : List Item} {input : Option String}
    (hitems : Splits before items) (hplaced : Placed items input) (rest : List String) :
    Options.read (before ++ rest) = (Options.ofItems items input).request rest := by
  rw [← Options.foldl_take_eq_ofItems hplaced]
  exact Options.request_items hitems ((Options.admits_of_none rfl).mpr ⟨input, hplaced⟩) rest

/-- **Every list of arguments is accepted by the grammar or stops reading**, as reading it says. -/
theorem accepted_or_stopped (arguments : List String) :
    (∃ items input, Splits arguments items ∧ Placed items input ∧
      Options.read arguments = .ok (.run (Options.ofItems items input))) ∨
      ∃ stop, Stopped arguments stop ∧ Options.read arguments = stop.result := by
  obtain ⟨before, rest, items, r, rfl, hitems, hadmits, hfinal⟩ :=
    Options.exists_split {} arguments
  obtain ⟨input, hplaced⟩ := (Options.admits_of_none rfl).mp hadmits
  rw [Options.foldl_take_eq_ofItems hplaced] at hfinal
  have hread := (read_of_splits hitems hplaced rest).trans hfinal.request_eq
  cases hfinal with
  | done =>
    rw [List.append_nil] at hread ⊢
    exact .inl ⟨items, input, hitems, hplaced, hread⟩
  | misfit h after => exact .inr ⟨_, .misfit rfl hitems hplaced h, hread⟩
  | missingValue h => exact .inr ⟨.refused _, .missingValue rfl hitems hplaced h, hread⟩

theorem read_of_stopped (h : Stopped arguments stop) : Options.read arguments = stop.result := by
  cases h with
  | misfit hsplit hitems hplaced hfault =>
    rw [hsplit, read_of_splits hitems hplaced]
    exact Options.request_misfit hfault _
  | missingValue hsplit hitems hplaced hflag =>
    rw [hsplit, read_of_splits hitems hplaced]
    exact Options.request_missingValue hflag

theorem run_of_stop (h : Options.read arguments = stop.result) (w : World) :
    run arguments w = stop.outcome w := by
  cases stop with
  | help =>
    rw [run_eq]
    simp only [stages, h, Stop.result]
    rfl
  | refused e =>
    rw [run_eq]
    simp only [stages, h, Stop.result]
    rfl

/-- **Arguments are accepted exactly by their grammar.**  Reading gives options exactly if the
arguments split into items whose operands are dashes and then at most one file; the options are the
last value of each flag, or its default, and the file.  All other arguments stop reading, at the
first part that does not fit: a wish for help shows the usage and exits with zero, everything else
shows one message and exits with two, whatever the input and the files.  What comes after a part
that does not fit makes no difference. -/
theorem read_iff_grammar (arguments : List String) :
    (∀ o, Options.read arguments = .ok (.run o) ↔ ∃ items input, Splits arguments items ∧
      Placed items input ∧ o = Options.ofItems items input) ∧
    (∀ stop : Stop, Options.read arguments = stop.result ↔ Stopped arguments stop) ∧
    ((¬ ∃ items input, Splits arguments items ∧ Placed items input) →
      ∃ stop, Stopped arguments stop ∧
        ∀ w, run arguments w = stop.outcome w) ∧
    (∀ before fault items input stop, Splits before items → Placed items input →
      Misfit input fault stop →
        ∀ after, Options.read (before ++ (fault ++ after)) = stop.result) := by
  refine ⟨fun o => ⟨fun h => ?_, ?_⟩, fun stop => ⟨fun h => ?_, read_of_stopped⟩, fun hnone => ?_,
    fun before fault items input stop hitems hplaced hfault after => ?_⟩
  · rcases accepted_or_stopped arguments with ⟨items, input, hitems, hplaced, heq⟩ | ⟨stop, -, heq⟩
    · have hrun := Except.ok.inj (h.symm.trans heq)
      exact ⟨items, input, hitems, hplaced, Request.run.inj hrun⟩
    · exact absurd (heq.symm.trans h) (stop.result_ne_run o)
  · rintro ⟨items, input, hitems, hplaced, rfl⟩
    have hread := (read_of_splits hitems hplaced []).trans Options.Final.done.request_eq
    rwa [List.append_nil] at hread
  · rcases accepted_or_stopped arguments with ⟨items, input, -, -, heq⟩ | ⟨stop', hstopped, heq⟩
    · exact absurd (h.symm.trans heq) (stop.result_ne_run _)
    · rwa [Stop.result_injective (h.symm.trans heq)]
  · rcases accepted_or_stopped arguments with ⟨items, input, hitems, hplaced, -⟩ | ⟨stop, h, heq⟩
    · exact absurd ⟨items, input, hitems, hplaced⟩ hnone
    · exact ⟨stop, h, fun w => run_of_stop heq w⟩
  · exact read_of_stopped (.misfit rfl hitems hplaced hfault)

/-- The value of a flag may look like a flag, and the empty text is a file. -/
example : Options.read ["-", "-o", "--help", "--indent", " 2 ", "", "--stop-at", "parse"]
    = .ok (.run ⟨.parse, 2, some "", some "--help"⟩) := by cbv

end Jigsaw.Command
