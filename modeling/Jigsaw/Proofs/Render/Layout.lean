import Jigsaw.Proofs.Render.ExpressionCode
import Jigsaw.Proofs.Source.Outline

/-!
# Proofs/Render/Layout — programs read back as the statements of their blocks

`Outlined v plans os` says which outlines plans call for: what stands on every line, and what its
suite is.

```text
    expr t                code                      when t body           if code: …
    assign r t            x = code                  orWhen t body         elif code: …
    assignItem t u w      target = code             otherwise body        else: …
    result t              return code               define f xs body      def f(xs): …
    declare xs ts body    x = code, …, and the body
```

The statements that a rendering gives are proper (`Lays.proper`), so their code has their outline,
and that is the one that the plans call for (`Lays.outlined`).  In front of them stand imports and
support routines, each with the outline of its own (`Helper.hasOutline`).
-/

namespace Jigsaw

open Source Name

namespace Render

/-! ## What plans call for -/

/-- The text is one line, and an expression with this tree. -/
structure LineFor (v : View) (t : Tree Ref) (code : String) : Prop where
  isLine : IsLine false code
  readsAs : ReadsAs (nonterminal .any) code v.naming t

/-- The suite of a body: an empty one is `pass`. -/
def bodyOutline (os : List Outline) : List Outline :=
  if os.isEmpty then [.node "pass" []] else os

/-- The line that declares the global variables, if there are any. -/
def globalsOutline (v : View) : List Outline :=
  if v.globals.isEmpty then [] else [.node ("global " ++ Text.joinItems v.globals) []]

/-- A line that assigns. -/
def assignOutline (target code : String) : Outline := .node (target ++ " = " ++ code) []

/-- **The outlines that plans call for.**  A condition and a definition have one suite each, and a
local declaration is flattened. -/
inductive Outlined : View → List Plan → List Outline → Prop
  | nil (v : View) : Outlined v [] []
  | expr {v : View} {t : Tree Ref} {code : String} {plans : List Plan} {os : List Outline}
      (h : LineFor v t code) (hrest : Outlined v plans os) :
      Outlined v (.expr t :: plans) (.node code [] :: os)
  | assign {v : View} {r : Ref} {x code : String} {t : Tree Ref} {plans : List Plan}
      {os : List Outline} (hr : v.naming r = some x) (h : LineFor v t code)
      (hrest : Outlined v plans os) :
      Outlined v (.assign r t :: plans) (assignOutline x code :: os)
  | assignItem {v : View} {t u w : Tree Ref} {target code : String} {plans : List Plan}
      {os : List Outline} (htarget : LineFor v (.item t u) target) (h : LineFor v w code)
      (hrest : Outlined v plans os) :
      Outlined v (.assignItem t u w :: plans) (assignOutline target code :: os)
  | result {v : View} {t : Tree Ref} {code : String} {plans : List Plan} {os : List Outline}
      (h : LineFor v t code) (hrest : Outlined v plans os) :
      Outlined v (.result t :: plans) (.node ("return " ++ code) [] :: os)
  | when {v : View} {t : Tree Ref} {code : String} {body plans : List Plan} {bs os : List Outline}
      (h : LineFor v t code) (hbody : Outlined v body bs) (hrest : Outlined v plans os) :
      Outlined v (.when t body :: plans) (.node ("if " ++ code ++ ":") (bodyOutline bs) :: os)
  | orWhen {v : View} {t : Tree Ref} {code : String} {body plans : List Plan}
      {bs os : List Outline} (h : LineFor v t code) (hbody : Outlined v body bs)
      (hrest : Outlined v plans os) :
      Outlined v (.orWhen t body :: plans) (.node ("elif " ++ code ++ ":") (bodyOutline bs) :: os)
  | otherwise {v : View} {body plans : List Plan} {bs os : List Outline}
      (hbody : Outlined v body bs) (hrest : Outlined v plans os) :
      Outlined v (.otherwise body :: plans) (.node "else:" (bodyOutline bs) :: os)
  | define {v w : View} {name x : String} {parameters identifiers : List String}
      {body plans : List Plan} {bs os : List Outline} (hr : v.naming (.definition name) = some x)
      (hopens : Opens parameters identifiers v w) (hbody : Outlined w body bs)
      (hrest : Outlined v plans os) :
      Outlined v (.define name parameters body :: plans)
        (.node ("def " ++ x ++ "(" ++ Text.joinItems identifiers ++ "):")
          (bodyOutline (globalsOutline v ++ bs)) :: os)
  | declare {v w : View} {names identifiers codes : List String} {ts : List (Tree Ref)}
      {body plans : List Plan} {bs os : List Outline} (hvalues : List.Forall₂ (LineFor v) ts codes)
      (hlength : names.length = ts.length) (hopens : Opens names identifiers v w)
      (hbody : Outlined w body bs) (hrest : Outlined v plans os) :
      Outlined v (.declare names ts body :: plans)
        (List.zipWith assignOutline identifiers codes ++ bs ++ os)

/-! ## Statements meet the plans -/

/-- An expression that spells a tree is a line for it. -/
theorem lineFor_code {v : View} {t : Tree Ref} {e : Expr} (h : Spells v.naming t e) :
    LineFor v t e.code := ⟨h.proper.isLine, readsAs_codeAt h .any⟩

theorem outline_block (header : Header) (bs : List Stmt) :
    (Stmt.block header bs).outline = .node header.code (bodyOutline (Stmt.outlines bs)) := by
  cases bs <;> rfl

theorem outlines_globalsLine (v : View) :
    Stmt.outlines (globalsLine v) = globalsOutline v := by
  rw [globalsLine, globalsOutline]
  split <;> rfl

theorem outlines_assignLines : ∀ (xs : List String) (es : List Expr),
    Stmt.outlines (List.zipWith Node.assignLine xs es)
      = List.zipWith assignOutline xs (es.map Expr.code)
  | [], _ => rfl
  | _ :: _, [] => rfl
  | x :: xs, e :: es => congrArg (assignOutline x e.code :: ·) (outlines_assignLines xs es)

/-- **The statements that carry out plans have the outlines that the plans call for.** -/
theorem Lays.outlined {v : View} {plans : List Plan} {ss : List Stmt} (h : Lays v plans ss) :
    Outlined v plans (Stmt.outlines ss) := by
  induction h with
  | nil v => exact .nil v
  | expr h _ ih => exact .expr (lineFor_code h) ih
  | assign hr _ h _ ih => exact .assign hr (lineFor_code h) ih
  | assignItem he hf hg _ ih =>
    exact .assignItem (lineFor_code (he.item hf)) (lineFor_code hg) ih
  | result h _ ih => exact .result (lineFor_code h) ih
  | when h _ _ ihbody ih =>
    rw [Stmt.outlines, outline_block]
    exact .when (lineFor_code h) ihbody ih
  | orWhen h _ _ ihbody ih =>
    rw [Stmt.outlines, outline_block]
    exact .orWhen (lineFor_code h) ihbody ih
  | otherwise _ _ ihbody ih =>
    rw [Stmt.outlines, outline_block]
    exact .otherwise ihbody ih
  | define hr _ _ hopens _ _ ihbody ih =>
    rw [Stmt.outlines, outline_block, Stmt.outlines_append, outlines_globalsLine]
    exact .define hr hopens ihbody ih
  | declare hvalues hlength hopens _ _ ihbody ih =>
    rw [Stmt.outlines_append, Stmt.outlines_append, outlines_assignLines]
    exact .declare (List.forall₂_map_right_iff.mpr (hvalues.imp fun _ _ h => lineFor_code h))
      hlength hopens ihbody ih

/-- A header with a body, empty or not, is proper if both are. -/
theorem proper_block {header : Header} {bs : List Stmt} (h : header.Proper)
    (hs : ∀ s ∈ bs, s.Proper) : (Stmt.block header bs).Proper := by
  cases bs with
  | nil => exact .compound h (List.cons_ne_nil _ _) (List.forall_mem_singleton.mpr (.simple .pass))
  | cons s rest => exact .compound h (List.cons_ne_nil s rest) hs

theorem proper_globalsLine {v : View} (h : ∀ x ∈ v.globals, Expr.IsName x) :
    ∀ s ∈ globalsLine v, s.Proper := by
  rw [globalsLine]
  split
  · exact fun _ hs => absurd hs List.not_mem_nil
  · rename_i hne
    exact List.forall_mem_singleton.mpr (.simple (.globals (by simpa using hne) h))

theorem proper_assignLines : ∀ {xs : List String} {es : List Expr}, (∀ x ∈ xs, Expr.IsName x) →
    (∀ e ∈ es, e.Proper) → ∀ s ∈ List.zipWith Node.assignLine xs es, s.Proper
  | [], _, _, _ => fun _ hs => absurd hs List.not_mem_nil
  | _ :: _, [], _, _ => fun _ hs => absurd hs List.not_mem_nil
  | _ :: _, _ :: _, hxs, hes =>
      have hx := List.forall_mem_cons.mp hxs
      have he := List.forall_mem_cons.mp hes
      List.forall_mem_cons.mpr ⟨.simple (.assign hx.1 he.1), proper_assignLines hx.2 he.2⟩

/-- **The statements that carry out plans are proper.** -/
theorem Lays.proper {v : View} {plans : List Plan} {ss : List Stmt} (h : Lays v plans ss) :
    ∀ s ∈ ss, s.Proper := by
  induction h with
  | nil v => exact fun _ hs => absurd hs List.not_mem_nil
  | expr h _ ih => exact List.forall_mem_cons.mpr ⟨.simple (.expr h.proper), ih⟩
  | assign _ hx h _ ih => exact List.forall_mem_cons.mpr ⟨.simple (.assign hx h.proper), ih⟩
  | assignItem he hf hg _ ih =>
    exact List.forall_mem_cons.mpr ⟨.simple (.assignItem he.proper hf.proper hg.proper), ih⟩
  | result h _ ih => exact List.forall_mem_cons.mpr ⟨.simple (.result h.proper), ih⟩
  | when h _ _ ihbody ih =>
    exact List.forall_mem_cons.mpr ⟨proper_block (.when h.proper) ihbody, ih⟩
  | orWhen h _ _ ihbody ih =>
    exact List.forall_mem_cons.mpr ⟨proper_block (.orWhen h.proper) ihbody, ih⟩
  | otherwise _ _ ihbody ih =>
    exact List.forall_mem_cons.mpr ⟨proper_block .otherwise ihbody, ih⟩
  | define _ hx hglobals hopens _ _ ihbody ih =>
    have hbody := List.forall_mem_append.mpr ⟨proper_globalsLine hglobals, ihbody⟩
    exact List.forall_mem_cons.mpr ⟨proper_block (.define hx hopens.isName) hbody, ih⟩
  | declare hvalues _ hopens _ _ ihbody ih =>
    have hlines := proper_assignLines hopens.isName (Spells.properAll hvalues)
    exact List.forall_mem_append.mpr ⟨List.forall_mem_append.mpr ⟨hlines, ihbody⟩, ih⟩

/-! ## What stands in front -/

/-- The line of an import. -/
def importOutline (module : String) : Outline := .node ("import " ++ module) []

/-- The outline of a routine that gives back one value, or another if that fails. -/
def routineOutline (header attempt failure fallback : String) : Outline :=
  .node header [.node "try:" [.node attempt []], .node failure [.node fallback []]]

/-- The outline of a support routine. -/
def Helper.outline (h : Helper) : Outline :=
  match h.key with
  | "text_prompt" =>
    routineOutline ("def " ++ h.identifier ++ "(msg):") "return raw_input(msg)"
      "except NameError:" "return input(msg)"
  | "first_index" =>
    routineOutline ("def " ++ h.identifier ++ "(my_list, elem):")
      "return my_list.index(elem) + 1" "except ValueError:" "return 0"
  | _ =>
    routineOutline ("def " ++ h.identifier ++ "(my_list, elem):")
      "return len(my_list) - my_list[::-1].index(elem)" "except ValueError:" "return 0"

/-- A routine whose body is indented by four spaces. -/
theorem hasOutline_routine {header attempt failure fallback body : String}
    (hheader : IsLine true header) (hattempt : IsLine false attempt)
    (hfailure : IsLine true failure) (hfallback : IsLine false fallback)
    (hbody : body = Text.indentLines (spaces 4)
      ("try:" ++ "\n" ++ Text.indentLines (spaces 4) attempt ++ "\n"
        ++ (failure ++ "\n" ++ Text.indentLines (spaces 4) fallback))) :
    HasOutline (header ++ "\n" ++ body) [routineOutline header attempt failure fallback] := by
  have htry : HasOutline ("try:" ++ "\n" ++ Text.indentLines (spaces 4) attempt)
      [.node "try:" [.node attempt []]] :=
    .block (by decide) (by decide) (.line hattempt) (List.cons_ne_nil _ _)
  have hexcept : HasOutline (failure ++ "\n" ++ Text.indentLines (spaces 4) fallback)
      [.node failure [.node fallback []]] :=
    .block (by decide) hfailure (.line hfallback) (List.cons_ne_nil _ _)
  rw [hbody]
  exact .block (by decide) hheader (htry.below hexcept) (List.cons_ne_nil _ _)

/-- The header of a routine with fixed parameters. -/
theorem isLine_routineHeader {x parameters : String} (hx : Expr.IsName x)
    (h : IsLine true parameters) : IsLine true ("def " ++ x ++ parameters) :=
  ((by decide : OpensLine "def ").append (isLine_of_isIdentifier hx.1).unbroken).close h

/-- **A support routine has its outline.** -/
theorem Helper.hasOutline {h : Helper} {define : String → String}
    (hstandard : StandardHelper h.key define) (hsource : h.source = define h.identifier)
    (hx : Expr.IsName h.identifier) : HasOutline h.source [h.outline] := by
  obtain ⟨key, x, source⟩ := h
  dsimp only at hstandard hsource hx
  subst hsource
  -- The three routines differ in their lines only, and those are closed texts.
  cases hstandard
  all_goals
    exact hasOutline_routine (isLine_routineHeader hx (by decide)) (by decide) (by decide)
      (by decide) (by decide)

/-- Texts with one outline each. -/
theorem forall₂_hasOutline {α : Type} {l : List α} {code : α → String} {outline : α → Outline}
    (h : ∀ a ∈ l, HasOutline (code a) [outline a]) :
    List.Forall₂ HasOutline (l.map code) (l.map fun a => [outline a]) :=
  List.forall₂_map_left_iff.mpr (List.forall₂_map_right_iff.mpr (List.forall₂_same.mpr h))

/-- The lines of the imports. -/
theorem hasOutline_imports {modules : List String} (h : ∀ module ∈ modules, module = "random") :
    HasOutline (Text.joinLines (modules.map ("import " ++ ·))) (modules.map importOutline) := by
  have hlines : ∀ module ∈ modules, HasOutline ("import " ++ module) [importOutline module] :=
    fun module hmodule => by
      obtain rfl := h module hmodule
      exact .line (by decide)
  have hjoined := HasOutline.joinWith HasOutline.below (forall₂_hasOutline hlines)
  rwa [← List.flatMap_def, ← List.map_eq_flatMap] at hjoined

/-- **A program has the outlines of its imports, its support routines and its body**, in this
order. -/
theorem hasOutline_assemble {l : Library} {body : String} {os : List Outline} (hl : Standard l)
    (hnames : ∀ h ∈ l.helpers, Expr.IsName h.identifier) (hbody : HasOutline body os) :
    HasOutline (l.assemble body)
      (l.imports.map importOutline ++ l.helpers.map Helper.outline ++ os) := by
  -- A section that is left out has no outline, so every section may count as being there.
  have himports : ∃ oss, List.Forall₂ HasOutline
      (if l.imports.isEmpty then [] else [Text.joinLines (l.imports.map ("import " ++ ·))]) oss ∧
        oss.flatten = l.imports.map importOutline := by
    split
    · rename_i hempty
      rw [List.isEmpty_iff.mp hempty]
      exact ⟨[], .nil, rfl⟩
    · exact ⟨_, .cons (hasOutline_imports hl.imports) .nil, List.flatten_singleton⟩
  have hbodies : ∃ oss, List.Forall₂ HasOutline (if body = "" then [] else [body]) oss ∧
      oss.flatten = os := by
    split
    · rename_i hempty
      rw [hempty] at hbody
      exact ⟨[], .nil, Option.some.inj (HasOutline.empty.read.symm.trans hbody.read)⟩
    · exact ⟨_, .cons hbody .nil, List.flatten_singleton⟩
  have hhelpers := forall₂_hasOutline fun h hh => by
    obtain ⟨define, hstandard, hsource⟩ := hl.helpers h hh
    exact h.hasOutline hstandard hsource (hnames h hh)
  obtain ⟨front, hfront, hfrontflat⟩ := himports
  obtain ⟨back, hback, hbackflat⟩ := hbodies
  have hsections : List.Forall₂ HasOutline (l.sections body)
      (front ++ (l.helpers.map fun h => [h.outline]) ++ back) :=
    List.rel_append (List.rel_append hfront hhelpers) hback
  have hjoined := HasOutline.joinWith HasOutline.apart hsections
  rw [List.flatten_append, List.flatten_append, hfrontflat, hbackflat, ← List.flatMap_def,
    ← List.map_eq_flatMap] at hjoined
  unfold Library.assemble
  split
  · rename_i hnone
    rwa [hnone] at hjoined
  · have hend := hjoined.below HasOutline.empty
    rwa [List.append_nil, String.append_empty] at hend

/-! ## Programs -/

/-- The chains of a forest carry out the plans of its blocks. -/
theorem renders_chains (forest : Forest) :
    Renders (forest.mapM fun b => b.rendering.chain) fun v chains =>
      List.Forall₂ (fun b ss => Lays v (b.plans fitting).chain ss) forest chains :=
  .mapM (fun b => b.realizes_plans.chain) forest

theorem generate_eq_ok {indent program : String} {forest : Forest}
    (h : Forest.generate indent forest = .ok program) :
    Forest.program indent forest {} = .ok program ((Forest.program indent forest).runOn {}).2 := by
  unfold Forest.generate RenderM.runOn at h
  rw [RenderM.runOn]
  cases hrun : Forest.program indent forest {} with
  | ok code q =>
    rw [hrun] at h
    cases h
    rfl
  | error e q =>
    rw [hrun] at h
    cases h

/-- A program comes from a round of declarations and a round of renderings. -/
theorem program_eq_ok {indent program : String} {forest : Forest} {q : Pass}
    (h : Forest.program indent forest {} = .ok program q) :
    ∃ p chains, Forest.declare forest {} = .ok () p ∧
      forest.mapM (fun b => b.rendering.chain) p = .ok chains q ∧
      program = q.library.assemble
        (Stmt.partsCode indent (chains.filter fun part => !part.isEmpty)) := by
  obtain ⟨⟨⟩, p, hdeclare, h⟩ := bind_eq_ok.mp h
  obtain ⟨parts, r, hparts, h⟩ := bind_eq_ok.mp h
  obtain ⟨chains, r', hchains, hfilter⟩ := bind_eq_ok.mp hparts
  cases hfilter
  cases h
  exact ⟨p, chains, hdeclare, hchains, rfl⟩

/-- After its declarations a pass is valid, and its library still empty. -/
theorem valid_of_declare {forest : Forest} {p : Pass} (h : Forest.declare forest {} = .ok () p) :
    Valid p ∧ Standard p.library := by
  cases h.symm.trans (Forest.declare_bindsAll forest {})
  exact ⟨valid_initial.after _, .empty⟩

theorem proper_chains {v : View} {forest : Forest} {chains : List (List Stmt)}
    (h : List.Forall₂ (fun b ss => Lays v (b.plans fitting).chain ss) forest chains) :
    ∀ part ∈ chains, ∀ s ∈ part, s.Proper := by
  induction h with
  | nil => exact fun _ hpart => absurd hpart List.not_mem_nil
  | cons h _ ih => exact List.forall_mem_cons.mpr ⟨h.proper, ih⟩

/-- The text is one line, and neither indenting nor trimming changes what it holds. -/
structure StaysWhole (code : String) : Prop where
  isLine : IsLine false code
  indentLines : ∀ indent, Text.indentLines indent code = indent ++ code
  trim : Text.trim code = code

theorem staysWhole_of_isLine {code : String} (h : IsLine false code) : StaysWhole code :=
  ⟨h, h.indentLines, h.trim⟩

/-- **A program reads back as the statements of its blocks.**  The offside rule finds the imports,
one definition for each support routine and then, chain by chain, the outlines that the blocks call
for; and every rendered expression is one line that stays whole. -/
theorem program_reads_as_blocks {n : Nat} (hn : 1 ≤ n) {forest : Forest} {program : String}
    (h : Forest.generate (spaces n) forest = .ok program) :
    let declared := ((Forest.declare forest).runOn {}).2
    let final := ((Forest.program (spaces n) forest).runOn {}).2
    (∃ outlines,
      List.Forall₂ (fun b os =>
        Outlined (view declared (helperNames final)) (b.plans fitting).chain os) forest outlines ∧
      Outline.read program = some (final.library.imports.map importOutline
        ++ final.library.helpers.map Helper.outline ++ outlines.flatten)) ∧
    ∀ {p}, Reachable p → ∀ {b code level q}, expressionCode b p = .ok (code, level) q →
      ∀ least, StaysWhole (level.wrap least code) := by
  intro declared final
  refine ⟨?_, fun hp _ _ _ _ hcode least => ?_⟩
  · obtain ⟨p, chains, hdeclare, hchains, rfl⟩ := program_eq_ok (generate_eq_ok h)
    obtain ⟨hp, hlibrary⟩ := valid_of_declare hdeclare
    have hcomposed := (renders_chains forest).composed
    have hfinal := (hcomposed.leads hp).1
    have hstandard := hcomposed.standard hp hlibrary
    rw [runOn_of_ok hchains] at hfinal hstandard
    have hlays := (renders_chains forest).outcome hp hchains hfinal.agrees
    have hdeclared : declared = p := congrArg Prod.snd (runOn_of_ok hdeclare)
    refine ⟨chains.map Stmt.outlines, ?_, ?_⟩
    · rw [hdeclared]
      exact List.forall₂_map_right_iff.mpr (hlays.imp fun _ _ h => h.outlined)
    · have hparts : HasOutline (Stmt.partsCode (spaces n) (chains.filter fun ss => !ss.isEmpty))
          (chains.map Stmt.outlines).flatten := by
        rw [← Stmt.outlines_flatten, ← List.flatten_filter_not_isEmpty]
        exact Stmt.hasOutline_partsCode hn fun part hpart =>
          proper_chains hlays part (List.mem_of_mem_filter hpart)
      have hnames : ∀ h ∈ final.library.helpers, Expr.IsName h.identifier := fun h hh =>
        hfinal.isName (hfinal.sound.mem_openIdentifiers_of_globals
          (Frame.mem_identifiers.mpr ⟨_, hfinal.helpers h hh, rfl⟩))
      exact (hasOutline_assemble hstandard hnames hparts).read
  · obtain ⟨e, he, rfl, rfl⟩ := expressionCode_eq_ok.mp hcode
    exact staysWhole_of_isLine (isLine_codeAt (spells_of_value hp he).proper.isLine least)

/-- A block that prints a value. -/
def printBlock (value : Block) : Block := .mk "text_print" "" [] [("TEXT", value)] [] none []

/-- A block that asks for a text. -/
def promptBlock (text : String) : Block := .mk "text_prompt" "" [("TEXT", text)] [] [] none []

/-- A conditional with nothing but its last clause. -/
def elseBlock (otherwise : Block) : Block :=
  .mk "controls_if" "" [] [] [("ELSE", otherwise)] none [("else", "1")]

/-- A procedure without parameters. -/
def procedureBlock (name : String) (body : Block) : Block :=
  .mk "procedures_defnoreturn" "" [("NAME", name)] [] [("STACK", body)] none []

/-- A text with a line end inside a suite, next to an empty suite, a support routine and an
import. -/
def smallWorkspace : Forest :=
  [procedureBlock "ask" (elseBlock (printBlock (promptBlock "name:\n  "))),
    printBlock (.mk "lists_pick_random_item" "" [] [] [] none [])]

/-- The program of this workspace. -/
def smallProgram : String := Text.joinLines
  ["import random", "", "", "def text_prompt(msg):", "    try:", "        return raw_input(msg)",
   "    except NameError:", "        return input(msg)", "", "", "def ask():", "  if False:",
   "    pass", "  else:", "    print(text_prompt(\"name:\\n  \"))", "", "",
   "print(random.choice([]))", ""]

set_option maxRecDepth 4000 in
theorem smallWorkspace_reads :
    Forest.generate (spaces 2) smallWorkspace = .ok smallProgram ∧
      ∃ outlines, List.Forall₂ (fun b os =>
          Outlined (view ((Forest.declare smallWorkspace).runOn {}).2
            (helperNames ((Forest.program (spaces 2) smallWorkspace).runOn {}).2))
            (b.plans fitting).chain os) smallWorkspace outlines ∧
        Outline.read smallProgram = some ([importOutline "random"]
          ++ [routineOutline "def text_prompt(msg):" "return raw_input(msg)" "except NameError:"
            "return input(msg)"] ++ outlines.flatten) := by
  have hprogram : Forest.generate (spaces 2) smallWorkspace = .ok smallProgram := by rfl
  exact ⟨hprogram, (program_reads_as_blocks (by decide) hprogram).1⟩

end Render

end Jigsaw
