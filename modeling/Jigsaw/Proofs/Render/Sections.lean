import Mathlib.Data.List.Induction
import Mathlib.Data.List.Nodup
import Jigsaw.Proofs.Render.Layout
import Jigsaw.Proofs.Render.Success

/-!
# Proofs/Render/Sections — what stands in front of a program

Support routines and imports are asked for while blocks are rendered, wherever they stand.  What a
program brings along can still be read off its tour: one routine for each key that a visited block
needs, in the order of the first request, and the import of random numbers if some visited block
picks an item at random.  `program_sections` says so of the text itself.
-/

namespace Jigsaw

open Render Name

namespace Render

/-! ## Keys in the order of their first request -/

theorem nodup_note {keys : List String} (h : keys.Nodup) (key : String) :
    (note keys key).Nodup := by
  unfold note
  split
  · exact h
  · rename_i hnew
    exact List.nodup_append_comm.mp (List.nodup_cons.mpr ⟨hnew, h⟩)

theorem nodup_foldl_note (requests : List String) {keys : List String} (h : keys.Nodup) :
    (requests.foldl note keys).Nodup := by
  induction requests generalizing keys with
  | nil => exact h
  | cons key rest ih => exact ih (nodup_note h key)

/-- Requests that are noted one after the other leave each key at the place of its first one. -/
theorem foldl_note_eq_eraseDups (requests : List String) :
    requests.foldl note [] = requests.eraseDups := by
  induction requests using List.reverseRecOn with
  | nil => rfl
  | append_singleton earlier key ih =>
    rw [List.foldl_append, ih, List.eraseDups_append]
    change note earlier.eraseDups key = _
    unfold note List.removeAll
    by_cases hkey : key ∈ earlier
    · simp [hkey]
    · simp [hkey, List.eraseDups_cons]

end Render

/-! ## Which blocks ask for what -/

/-- The support routine that a block needs. -/
def Block.helperKey? (b : Block) : Option String :=
  match b.type with
  | "lists_indexOf" | "lists_position_in" => some b.positionKey
  | "text_prompt" => some "text_prompt"
  | _ => none

/-- The support routines that visited blocks ask for, each at the place of its first request. -/
def Forest.helperKeys (forest : Forest) : List String :=
  ((Forest.tour forest).filterMap Event.helper?).eraseDups

/-- Whether some visited block picks an item at random. -/
def Forest.picksAtRandom (forest : Forest) : Bool :=
  (Forest.visits forest).any fun v => v.block.type = "lists_pick_random_item"

namespace Render

theorem supported_of_value {v : Visit} {name : String} {type : ValueType}
    (h : v.block.type = name) (htype : ValueType.ofName? name = some type) : v.Supported :=
  Or.inl (by rw [h, htype]; rfl)

theorem supported_of_helperKey? {v : Visit} {key : String} (h : v.block.helperKey? = some key) :
    v.Supported := by
  unfold Block.helperKey? at h
  split at h
  · exact supported_of_value ‹_› rfl
  · exact supported_of_value ‹_› rfl
  · exact supported_of_value ‹_› rfl
  · cases h

/-- A visited block asks for the routine that it needs, -/
theorem helper_mem_own {v : Visit} {key : String} :
    .helper key ∈ v.own ↔ v.block.helperKey? = some key := by
  by_cases hsupported : v.Supported
  · rw [Visit.own_of_supported hsupported]
    unfold Block.demands Block.helperKey?
    generalize v.block.type = name
    split
    all_goals simp [Block.fieldQuery, eq_comm]
  · rw [Visit.own_of_not_supported hsupported]
    exact ⟨fun h => absurd h List.not_mem_nil, fun h =>
      absurd (supported_of_helperKey? h) hsupported⟩

/-- …and for random numbers if it picks an item. -/
theorem module_mem_own {v : Visit} {name : String} :
    .module name ∈ v.own ↔ v.block.type = "lists_pick_random_item" ∧ name = "random" := by
  by_cases hsupported : v.Supported
  · rw [Visit.own_of_supported hsupported]
    unfold Block.demands
    generalize v.block.type = type
    split
    all_goals simp_all [Block.fieldQuery]
  · rw [Visit.own_of_not_supported hsupported]
    exact ⟨fun h => absurd h List.not_mem_nil, fun h =>
      absurd (supported_of_value h.1 rfl) hsupported⟩

theorem mem_helperKeys {forest : Forest} {key : String} :
    key ∈ Forest.helperKeys forest ↔ ∃ v ∈ Forest.visits forest, v.block.helperKey? = some key := by
  simp only [Forest.helperKeys, List.mem_eraseDups, List.mem_filterMap, Event.helper?_eq_some,
    exists_eq_right, Forest.mem_tour_iff, helper_mem_own, reduceCtorEq, false_or]

theorem mem_imports {forest : Forest} {name : String} :
    name ∈ (Forest.tour forest).filterMap Event.module? ↔
      Forest.picksAtRandom forest ∧ name = "random" := by
  simp only [List.mem_filterMap, Event.module?_eq_some, exists_eq_right, Forest.mem_tour_iff,
    module_mem_own, reduceCtorEq, false_or, Forest.picksAtRandom, List.any_eq_true,
    decide_eq_true_eq, ← and_assoc, exists_and_right]

/-- The one import that is ever asked for is that of random numbers. -/
theorem imports_requested (forest : Forest) :
    ((Forest.tour forest).filterMap Event.module?).eraseDups
      = if Forest.picksAtRandom forest then ["random"] else [] := by
  cases hrequests : (Forest.tour forest).filterMap Event.module? with
  | nil =>
    have hnone : ¬ Forest.picksAtRandom forest := fun h =>
      absurd (hrequests ▸ mem_imports.mpr ⟨h, rfl⟩) List.not_mem_nil
    rw [if_neg hnone, List.eraseDups_nil]
  | cons name rest =>
    have hall : ∀ module ∈ name :: rest, Forest.picksAtRandom forest ∧ module = "random" :=
      fun module hmodule => mem_imports.mp (hrequests ▸ hmodule)
    have hrest : rest.filter (fun module => !module == name) = [] :=
      List.filter_eq_nil_iff.mpr fun module hmodule => by
        simp [(hall module (List.mem_cons_of_mem _ hmodule)).2, (hall name List.mem_cons_self).2]
    rw [if_pos (hall name List.mem_cons_self).1, List.eraseDups_cons, hrest, List.eraseDups_nil,
      (hall name List.mem_cons_self).2]

/-! ## Sections -/

/-- The sections that are not empty, two blank lines apart, and a line feed at the end. -/
def joinSections (sections : List String) : String :=
  match sections.filter (· ≠ "") with
  | [] => ""
  | sections => Text.joinWith "\n\n\n" sections ++ "\n"

theorem joinWith_ne_empty (separator : String) {first : String} (h : first ≠ "")
    (rest : List String) : Text.joinWith separator (first :: rest) ≠ "" := by
  cases rest with
  | nil => exact h
  | cons second rest =>
    change first ++ separator ++ Text.joinWith separator (second :: rest) ≠ ""
    simp [String.append_eq_empty_iff, h]

/-- No support routine is empty. -/
theorem StandardHelper.source_ne_empty {key : String} {define : String → String}
    (h : StandardHelper key define) (identifier : String) : define identifier ≠ "" := by
  cases h
  all_goals exact joinWith_ne_empty _ (by simp [String.append_eq_empty_iff]) _

/-- A program is made of the sections that are there. -/
theorem assemble_eq {l : Library} (hl : Standard l) (body : String) :
    l.assemble body = joinSections
      (Text.joinLines (l.imports.map ("import " ++ ·)) :: l.definitions ++ [body]) := by
  have hdefinitions : l.definitions.filter (· ≠ "") = l.definitions := by
    refine List.filter_eq_self.mpr fun source hsource => ?_
    obtain ⟨routine, hroutine, rfl⟩ := List.mem_map.mp hsource
    obtain ⟨define, hdefine, heq⟩ := hl.helpers routine hroutine
    rw [heq]
    exact decide_eq_true (hdefine.source_ne_empty _)
  have himports : (if l.imports.isEmpty then []
      else [Text.joinLines (l.imports.map ("import " ++ ·))])
        = [Text.joinLines (l.imports.map ("import " ++ ·))].filter (· ≠ "") := by
    cases l.imports with
    | nil => rfl
    | cons module rest =>
      refine (List.filter_eq_self.mpr fun code hcode => ?_).symm
      obtain rfl := List.mem_singleton.mp hcode
      exact decide_eq_true (joinWith_ne_empty _ (by simp [String.append_eq_empty_iff]) _)
  have hbody : (if body = "" then [] else [body]) = [body].filter (· ≠ "") := by
    by_cases h : body = "" <;> simp [h]
  have hsections : l.sections body
      = ([Text.joinLines (l.imports.map ("import " ++ ·))] ++ l.definitions ++ [body]).filter
        (· ≠ "") := by
    rw [List.filter_append, List.filter_append, hdefinitions, ← himports, ← hbody]
    rfl
  rw [Library.assemble, hsections]
  rfl

/-- Routines with keys of their own are found by them. -/
theorem helperNames_of_mem {p : Pass} (hkeys : (p.library.helpers.map Helper.key).Nodup)
    {routine : Helper} (h : routine ∈ p.library.helpers) :
    helperNames p routine.key = some routine.identifier := by
  obtain ⟨found, hfound⟩ := Option.isSome_iff_exists.mp
    (List.find?_isSome.mpr ⟨routine, h, decide_eq_true rfl⟩ :
      (p.library.find? routine.key).isSome)
  have hkey : found.key = routine.key := by simpa using List.find?_some hfound
  obtain rfl := List.inj_on_of_nodup_map hkeys (List.mem_of_find?_eq_some hfound) h hkey
  exact congrArg (Option.map Helper.identifier) hfound

/-- **What a program consists of**: the import of random numbers if a visited block picks an item,
one support routine for each key that visited blocks need, in the order of their first request, and
the statements of the chains, which call each routine by its identifier. -/
theorem program_sections {indent : String} {forest : Forest} {program : String}
    (h : Forest.generate indent forest = .ok program) :
    let declared := ((Forest.declare forest).runOn {}).2
    let final := ((Forest.program indent forest).runOn {}).2
    final.library.helpers.map Helper.key = Forest.helperKeys forest ∧
    (Forest.helperKeys forest).Nodup ∧
    (∀ key, key ∈ Forest.helperKeys forest ↔
      ∃ v ∈ Forest.visits forest, v.block.helperKey? = some key) ∧
    (∀ routine ∈ final.library.helpers,
      helperNames final routine.key = some routine.identifier ∧
      ∃ define, StandardHelper routine.key define ∧ routine.source = define routine.identifier) ∧
    ∃ chains, List.Forall₂ (fun b ss =>
        Lays (view declared (helperNames final)) (b.plans fitting).chain ss) forest chains ∧
      program = joinSections ((if Forest.picksAtRandom forest then "import random" else "")
        :: final.library.helpers.map Helper.source
        ++ [Stmt.partsCode indent (chains.filter fun part => !part.isEmpty)]) := by
  intro declared final
  obtain ⟨p, chains, hdeclare, hchains, rfl⟩ := program_eq_ok (generate_eq_ok h)
  cases hdeclare.symm.trans (declare_eq forest)
  have hdeclared : declared = declaredPass forest :=
    congrArg Prod.snd (runOn_of_ok (declare_eq forest))
  have hends := chains_end forest
  rw [hchains] at hends
  cases hends with
  | ok hnone _ valid leads records =>
    have hkeys : final.library.helpers.map Helper.key = Forest.helperKeys forest :=
      records.helpers.trans (foldl_note_eq_eraseDups _)
    have himports : final.library.imports
        = if Forest.picksAtRandom forest then ["random"] else [] :=
      (records.imports.trans (foldl_note_eq_eraseDups _)).trans (imports_requested forest)
    have hnodup : (Forest.helperKeys forest).Nodup := by
      rw [Forest.helperKeys, ← foldl_note_eq_eraseDups]
      exact nodup_foldl_note _ List.nodup_nil
    have hstandard := (renders_chains forest).composed.standard (valid_declaredPass forest) .empty
    rw [runOn_of_ok hchains] at hstandard
    refine ⟨hkeys, hnodup, fun key => mem_helperKeys, fun routine hroutine =>
      ⟨helperNames_of_mem (hkeys ▸ hnodup) hroutine, hstandard.helpers routine hroutine⟩,
      chains, ?_, ?_⟩
    · rw [hdeclared]
      exact (renders_chains forest).outcome (valid_declaredPass forest) hchains valid.agrees
    · rw [assemble_eq hstandard]
      have hline : Text.joinLines (final.library.imports.map ("import " ++ ·))
          = if Forest.picksAtRandom forest then "import random" else "" := by
        rw [himports]
        split <;> rfl
      rw [← hline]
      rfl

/-- A position is printed of an item picked at random, in a list with an answer. -/
def nestedRequests : Forest :=
  [printBlock (.mk "lists_indexOf" "" []
    [("LIST", .mk "lists_create_with" "" [] [("ADD0", promptBlock "?")] [] none [("items", "1")]),
      ("ITEM", .mk "lists_pick_random_item" "" [] [] [] none [])] [] none [])]

/-- Its program: the routine for the position comes after that for the answer. -/
def nestedProgram : String := joinSections
  ["import random", Node.promptSource "text_prompt", Node.firstIndexSource "first_index",
   "print(first_index([text_prompt(\"?\")], random.choice([])))"]

set_option maxRecDepth 4000 in
theorem nestedRequests_sections :
    Forest.generate "  " nestedRequests = .ok nestedProgram ∧
      ((Forest.program "  " nestedRequests).runOn {}).2.library.helpers.map Helper.key
        = ["text_prompt", "first_index"] ∧
      ∃ chains : List (List Stmt), nestedProgram = joinSections ("import random"
        :: ((Forest.program "  " nestedRequests).runOn {}).2.library.helpers.map Helper.source
        ++ [Stmt.partsCode "  " (chains.filter fun part => !part.isEmpty)]) := by
  have hprogram : Forest.generate "  " nestedRequests = .ok nestedProgram := by rfl
  obtain ⟨hkeys, -, -, -, chains, -, hsections⟩ := program_sections hprogram
  have hrandom : Forest.picksAtRandom nestedRequests = true := by rfl
  rw [hrandom] at hsections
  exact ⟨hprogram, hkeys.trans (by rfl), chains, hsections⟩

end Render

end Jigsaw
