import Jigsaw.Command.Run
import Jigsaw.Proofs.Command.Disk

/-!
# Proofs/Command/Run — what a run of the command promises

    arguments → bytes → text → forest → product → destination

Every stage of a run can fail.  All but the last only read (`stages_of_made_error`), and the last
writes to one destination.  `Fails` says for each failure what it takes, without mention of how the
stages are run: `stages_eq_error_iff` ties the two.  From there the exit codes are read off, and
`run_contract` puts the promise together: a success reaches one destination and no other, a failure
is told in one line and reaches none.  The one failure that leaves a trace is that of a file that
was opened and does not take the whole output (`CutShort`).
-/

namespace Jigsaw.Command

/-! ## What stages need and give -/

/-- These bytes are the input that options choose: standard input, or a file that can be read. -/
inductive Supplies (options : Options) (w : World) : ByteArray → Prop
  | stdin (hinput : options.input = none) : Supplies options w w.stdin
  | file {name : String} {bytes : ByteArray} (hinput : options.input = some name)
      (hname : ¬ hasNull name) (hread : w.disk.read? name = some bytes) : Supplies options w bytes

/-- This text is the input that options choose, decoded. -/
def Decodes (options : Options) (w : World) (text : String) : Prop :=
  ∃ bytes, Supplies options w bytes ∧ String.fromUTF8? bytes = some text

/-- This text is what options ask to make of a text. -/
inductive Makes (options : Options) (text : String) : String → Prop
  | dump {forest : Forest} (hread : Forest.read text = .ok forest)
      (hphase : options.phase = .parse) : Makes options text (Forest.dump forest)
  | program {forest : Forest} {program : String} (hread : Forest.read text = .ok forest)
      (hphase : options.phase = .generate) (hindent : options.indent ≤ textLimit)
      (hgenerate : Forest.generate (spaces options.indent) forest = .ok program) :
      Makes options text program

/-- This text is the output that options ask for. -/
def Produces (options : Options) (w : World) (product : String) : Prop :=
  ∃ text, (Decodes options w text ∧ ¬ Text.allBlank text) ∧ Makes options text product

/-- The output file can be opened, but it does not take the whole output. -/
structure CutShort (arguments : List String) (w : World) (name product : String) : Prop where
  output : ∃ options, Options.read arguments = .ok (.run options) ∧ Produces options w product ∧
    options.output = some name
  named : ¬ hasNull name
  opened : ∃ place file, w.disk.opened? name = some (place, file)
  unfit : ¬ w.disk.fits product.toUTF8

/-- **When a run fails, and why.** -/
inductive Fails (arguments : List String) (w : World) : Failure → Prop
  /-- The arguments are refused. -/
  | arguments {error : ArgumentError} (h : Options.read arguments = .error error) :
      Fails arguments w (.arguments error)
  /-- The name of the input file holds the null character. -/
  | nullInput {options : Options} {name : String}
      (h : Options.read arguments = .ok (.run options)) (hinput : options.input = some name)
      (hname : hasNull name) : Fails arguments w .nullInName
  /-- The input file cannot be read. -/
  | unreadable {options : Options} {name : String}
      (h : Options.read arguments = .ok (.run options)) (hinput : options.input = some name)
      (hname : ¬ hasNull name) (hread : w.disk.read? name = none) :
      Fails arguments w (.unreadable name)
  /-- The input is not UTF-8. -/
  | invalidEncoding {options : Options} {bytes : ByteArray}
      (h : Options.read arguments = .ok (.run options)) (hbytes : Supplies options w bytes)
      (hdecode : String.fromUTF8? bytes = none) : Fails arguments w .invalidEncoding
  /-- The input is UTF-8 and blank. -/
  | blankInput {options : Options} {text : String}
      (h : Options.read arguments = .ok (.run options)) (htext : Decodes options w text)
      (hblank : Text.allBlank text) : Fails arguments w .blankInput
  /-- The input is no workspace. -/
  | load {options : Options} {text : String} {error : LoadError}
      (h : Options.read arguments = .ok (.run options)) (htext : Decodes options w text)
      (hblank : ¬ Text.allBlank text) (hread : Forest.read text = .error error) :
      Fails arguments w (.load error)
  /-- The program is asked for, with more spaces than a text can have. -/
  | oversizedIndent {options : Options} {text : String} {forest : Forest}
      (h : Options.read arguments = .ok (.run options)) (htext : Decodes options w text)
      (hblank : ¬ Text.allBlank text) (hread : Forest.read text = .ok forest)
      (hphase : options.phase = .generate) (hindent : ¬ options.indent ≤ textLimit) :
      Fails arguments w .oversizedIndent
  /-- The program is asked for, and the workspace has none. -/
  | render {options : Options} {text : String} {forest : Forest} {error : Render.Error}
      (h : Options.read arguments = .ok (.run options)) (htext : Decodes options w text)
      (hblank : ¬ Text.allBlank text) (hread : Forest.read text = .ok forest)
      (hphase : options.phase = .generate) (hindent : options.indent ≤ textLimit)
      (hgenerate : Forest.generate (spaces options.indent) forest = .error error) :
      Fails arguments w (.render error)
  /-- There is an output, and the name of its file holds the null character. -/
  | nullOutput {options : Options} {product name : String}
      (h : Options.read arguments = .ok (.run options)) (hproduct : Produces options w product)
      (houtput : options.output = some name) (hname : hasNull name) :
      Fails arguments w .nullInName
  /-- There is an output, and its file cannot be opened. -/
  | unopened {options : Options} {product name : String}
      (h : Options.read arguments = .ok (.run options)) (hproduct : Produces options w product)
      (houtput : options.output = some name) (hname : ¬ hasNull name)
      (hopened : w.disk.opened? name = none) : Fails arguments w (.unwritable name)
  /-- There is an output, and its file takes only the beginning of it. -/
  | cutShort {product name : String} (h : CutShort arguments w name product) :
      Fails arguments w (.unwritable name)

/-! ## Stages that only read -/

variable {options : Options} {w after : World} {bytes : ByteArray} {failure : Failure}
  {text product name : String}

/-- What a stage gives in a world, and the world after it. -/
def resultIn {α : Type} (stage : ExceptT Failure (StateM World) α) (w : World) :
    Except Failure α × World := stage.run w

section

variable {α β : Type} {stage : ExceptT Failure (StateM World) α}
  {next : α → ExceptT Failure (StateM World) β}

/-- What follows a stage depends on what the stage gives only. -/
theorem resultIn_bind_congr {other : ExceptT Failure (StateM World) α}
    (h : resultIn stage w = resultIn other w) :
    resultIn (stage >>= next) w = resultIn (other >>= next) w := by
  change ExceptT.bindCont next (resultIn stage w).1 (resultIn stage w).2 = _
  rw [h]
  rfl

/-- An operation of the machine in front of a stage. -/
theorem resultIn_liftM_bind (operation : StateM World α) (w : World) :
    resultIn (liftM operation >>= next) w = resultIn (next (operation w).1) (operation w).2 := rfl

theorem resultIn_liftExcept (e : Except Failure α) (w : World) :
    resultIn (liftExcept e) w = (e, w) := by
  cases e <;> rfl

theorem resultIn_liftExcept_bind {γ : Type} (e : Except Failure γ) (f : γ → Except Failure α)
    (w : World) : resultIn (liftExcept (e >>= f) >>= next) w
      = resultIn (liftExcept e >>= fun c => liftExcept (f c) >>= next) w := by
  cases e <;> rfl

end

/-- The bytes of the input, if they can be read. -/
def inputIn (options : Options) (w : World) : Except Failure ByteArray :=
  match options.input with
  | none => .ok w.stdin
  | some name =>
    if hasNull name then .error .nullInName
    else (w.disk.read? name).elim (.error (.unreadable name)) .ok

theorem resultIn_input (options : Options) (w : World) :
    resultIn (input World.machine options) w = (inputIn options w, w) := by
  unfold input inputIn
  cases options.input with
  | none => rfl
  | some name =>
    by_cases hname : hasNull name
    · simp only [hname, if_true]
      rfl
    · simp only [hname, if_false, resultIn_liftM_bind, World.machine, Bool.false_eq_true]
      cases w.disk.read? name <;> rfl

theorem inputIn_eq_ok_iff : inputIn options w = .ok bytes ↔ Supplies options w bytes := by
  unfold inputIn
  constructor
  · intro h
    split at h
    · cases h
      exact .stdin ‹_›
    · split at h
      · cases h
      · rename_i name hinput hname
        cases hread : w.disk.read? name with
        | none =>
          rw [hread] at h
          cases h
        | some found =>
          rw [hread] at h
          cases h
          exact .file hinput hname hread
  · rintro (hinput | ⟨hinput, hname, hread⟩)
    · simp [hinput]
    · simp [hinput, hname, hread]

theorem inputIn_eq_error_iff : inputIn options w = .error failure ↔
    ∃ name, options.input = some name ∧
      (hasNull name ∧ Failure.nullInName = failure ∨
        ¬ hasNull name ∧ w.disk.read? name = none ∧ Failure.unreadable name = failure) := by
  unfold inputIn
  cases options.input with
  | none => simp
  | some name =>
    by_cases hname : hasNull name
    · simp [hname]
    · cases hread : w.disk.read? name <;> simp [hname, hread]

theorem source_eq_ok_iff : source bytes = .ok text ↔
    String.fromUTF8? bytes = some text ∧ ¬ Text.allBlank text := by
  unfold source
  cases String.fromUTF8? bytes with
  | none => simp
  | some decoded =>
    by_cases hblank : Text.allBlank decoded
    · simp only [hblank, if_true, reduceCtorEq, false_iff, Option.some.injEq]
      rintro ⟨rfl, hnot⟩
      exact hnot hblank
    · simp only [hblank, if_false, Except.ok.injEq, Option.some.injEq, Bool.false_eq_true]
      exact ⟨fun h => ⟨h, h ▸ hblank⟩, fun h => h.1⟩

theorem source_eq_error_iff : source bytes = .error failure ↔
    String.fromUTF8? bytes = none ∧ Failure.invalidEncoding = failure ∨
      ∃ text, String.fromUTF8? bytes = some text ∧ Text.allBlank text ∧
        Failure.blankInput = failure := by
  unfold source
  cases String.fromUTF8? bytes with
  | none => simp
  | some decoded => by_cases hblank : Text.allBlank decoded <;> simp [hblank]

theorem output_eq_ok_iff : output options text = .ok product ↔ Makes options text product := by
  unfold output spaces?
  constructor
  · intro h
    split at h
    · cases h
    · rename_i hread
      split at h
      · rename_i hphase
        cases h
        exact .dump hread hphase
      · rename_i hphase
        by_cases hindent : options.indent ≤ textLimit
        · simp only [hindent, if_true] at h
          split at h
          · rename_i hgenerate
            cases h
            exact .program hread hphase hindent hgenerate
          · cases h
        · simp [hindent] at h
  · rintro (⟨hread, hphase⟩ | ⟨hread, hphase, hindent, hgenerate⟩)
    · simp [hread, hphase]
    · simp [hread, hphase, hindent, hgenerate]

theorem output_eq_error_iff : output options text = .error failure ↔
    (∃ error, Forest.read text = .error error ∧ Failure.load error = failure) ∨
      ∃ forest, Forest.read text = .ok forest ∧ options.phase = .generate ∧
        (¬ options.indent ≤ textLimit ∧ Failure.oversizedIndent = failure ∨
          options.indent ≤ textLimit ∧ ∃ error,
            Forest.generate (spaces options.indent) forest = .error error ∧
              Failure.render error = failure) := by
  unfold output spaces?
  cases Forest.read text with
  | error error => simp
  | ok forest =>
    cases options.phase with
    | parse => simp
    | generate =>
      by_cases hindent : options.indent ≤ textLimit
      · cases hgenerate : Forest.generate (spaces options.indent) forest <;>
          simp [hindent, hgenerate]
      · simp [hindent]

/-! ## Stages in a row -/

theorem bind_eq_error_iff {ε α β : Type} {x : Except ε α} {f : α → Except ε β} {e : ε} :
    (x >>= f) = .error e ↔ x = .error e ∨ ∃ a, x = .ok a ∧ f a = .error e := by
  cases x <;> simp [bind, Except.bind]

theorem bind_eq_ok_iff {ε α β : Type} {x : Except ε α} {f : α → Except ε β} {b : β} :
    (x >>= f) = .ok b ↔ ∃ a, x = .ok a ∧ f a = .ok b := by
  cases x <;> simp [bind, Except.bind]

/-- The output that options ask for, if it can be made. -/
def made (options : Options) (w : World) : Except Failure String :=
  inputIn options w >>= source >>= output options

/-- The text that comes in, if it does. -/
theorem inputText_eq_ok_iff : (inputIn options w >>= source) = .ok text ↔
    Decodes options w text ∧ ¬ Text.allBlank text := by
  simp only [bind_eq_ok_iff, inputIn_eq_ok_iff, source_eq_ok_iff, Decodes, ← and_assoc,
    exists_and_right]

theorem made_eq_ok_iff : made options w = .ok product ↔ Produces options w product := by
  simp only [made, Produces, bind_eq_ok_iff (f := output options), inputText_eq_ok_iff,
    output_eq_ok_iff]

variable {arguments : List String}

/-- **Until there is an output, a run only reads.** -/
theorem stages_of_run (h : Options.read arguments = .ok (.run options)) (w : World) :
    resultIn (stages World.machine arguments) w
      = resultIn (liftExcept (made options w) >>= deliver World.machine options) w := by
  simp only [stages, h]
  rw [made, resultIn_liftExcept_bind, resultIn_liftExcept_bind]
  exact resultIn_bind_congr ((resultIn_input options w).trans (resultIn_liftExcept _ w).symm)

theorem stages_of_made_error (h : Options.read arguments = .ok (.run options))
    (hmade : made options w = .error failure) :
    resultIn (stages World.machine arguments) w = (.error failure, w) := by
  rw [stages_of_run h, hmade]
  rfl

theorem stages_of_made_ok (h : Options.read arguments = .ok (.run options))
    (hmade : made options w = .ok product) :
    resultIn (stages World.machine arguments) w
      = resultIn (deliver World.machine options product) w := by
  rw [stages_of_run h, hmade]
  rfl

/-! ## The stage that writes -/

theorem deliver_of_stdout (h : options.output = none) (w : World) (product : String) :
    resultIn (deliver World.machine options product) w
      = (.ok (), { w with stdout := w.stdout ++ product }) := by
  simp only [deliver, h]
  rfl

theorem deliver_of_null (h : options.output = some name) (hname : hasNull name) (w : World)
    (product : String) :
    resultIn (deliver World.machine options product) w = (.error .nullInName, w) := by
  simp only [deliver, h, hname, if_true]
  rfl

/-- A file that cannot be opened is left alone, -/
theorem deliver_of_unopened (h : options.output = some name) (hname : ¬ hasNull name)
    (hopened : w.disk.opened? name = none) (product : String) :
    resultIn (deliver World.machine options product) w = (.error (.unwritable name), w) := by
  simp only [deliver, h, hname, if_false, resultIn_liftM_bind, World.machine, Bool.false_eq_true,
    Disk.write_of_not_opened hopened]
  rfl

/-- …and one that can be takes the output, or its beginning. -/
theorem deliver_of_opened (h : options.output = some name) (hname : ¬ hasNull name)
    {place : Place} {file : File} (hopened : w.disk.opened? name = some (place, file))
    (product : String) :
    resultIn (deliver World.machine options product) w
      = (if w.disk.fits product.toUTF8 then .ok () else .error (.unwritable name),
        { w with disk := (w.disk.write name product.toUTF8).2 }) := by
  simp only [deliver, h, hname, if_false, resultIn_liftM_bind, World.machine, Bool.false_eq_true,
    (Disk.rewritten_write hopened _).1]
  split <;> rfl

/-- **The output of a run reached one destination and no other.** -/
inductive Delivered (product : String) (w : World) : Option String → World → Prop
  /-- It was written to standard output, and nothing else is different. -/
  | stdout : Delivered product w none { w with stdout := w.stdout ++ product }
  /-- It is what the file holds, and nothing else is different. -/
  | file {name : String} {disk : Disk} (hdisk : w.disk.Rewritten name product.toUTF8 disk) :
      Delivered product w (some name) { w with disk }

/-! ## Failures -/

/-- A file that takes only the beginning of the output holds that afterwards. -/
theorem stages_of_cutShort (h : CutShort arguments w name product) :
    resultIn (stages World.machine arguments) w
      = (.error (.unwritable name), { w with disk := (w.disk.write name product.toUTF8).2 }) := by
  obtain ⟨options, hread, hproduct, houtput⟩ := h.output
  obtain ⟨place, file, hopened⟩ := h.opened
  rw [stages_of_made_ok hread (made_eq_ok_iff.mpr hproduct),
    deliver_of_opened houtput h.named hopened, if_neg h.unfit]

/-- **A failure ends the run, and in all cases but one the world is as before.** -/
theorem stages_of_fails (h : Fails arguments w failure) :
    resultIn (stages World.machine arguments) w = (.error failure, w) ∨
      ∃ name product, CutShort arguments w name product ∧ failure = .unwritable name := by
  -- A failure in front of the last stage is one of making the output.
  have hmade {options : Options} (hread : Options.read arguments = .ok (.run options))
      (hmade : made options w = .error failure) :
      resultIn (stages World.machine arguments) w = (.error failure, w) ∨
        ∃ name product, CutShort arguments w name product ∧ failure = .unwritable name :=
    .inl (stages_of_made_error hread hmade)
  cases h with
  | arguments h =>
    left
    simp only [stages, h]
    rfl
  | nullInput h hinput hname =>
    refine hmade h ?_
    rw [made, inputIn_eq_error_iff.mpr ⟨_, hinput, .inl ⟨hname, rfl⟩⟩]
    rfl
  | unreadable h hinput hname hread =>
    refine hmade h ?_
    rw [made, inputIn_eq_error_iff.mpr ⟨_, hinput, .inr ⟨hname, hread, rfl⟩⟩]
    rfl
  | invalidEncoding h hbytes hdecode =>
    have hsource := source_eq_error_iff.mpr (.inl ⟨hdecode, rfl⟩)
    refine hmade h ?_
    rw [made, bind_eq_error_iff.mpr (.inr ⟨_, inputIn_eq_ok_iff.mpr hbytes, hsource⟩)]
    rfl
  | blankInput h htext hblank =>
    obtain ⟨bytes, hbytes, htext⟩ := htext
    have hsource := source_eq_error_iff.mpr (.inr ⟨_, htext, hblank, rfl⟩)
    refine hmade h ?_
    rw [made, bind_eq_error_iff.mpr (.inr ⟨_, inputIn_eq_ok_iff.mpr hbytes, hsource⟩)]
    rfl
  | load h htext hblank hread =>
    refine hmade h ?_
    rw [made, inputText_eq_ok_iff.mpr ⟨htext, hblank⟩]
    exact output_eq_error_iff.mpr (.inl ⟨_, hread, rfl⟩)
  | oversizedIndent h htext hblank hread hphase hindent =>
    refine hmade h ?_
    rw [made, inputText_eq_ok_iff.mpr ⟨htext, hblank⟩]
    exact output_eq_error_iff.mpr (.inr ⟨_, hread, hphase, .inl ⟨hindent, rfl⟩⟩)
  | render h htext hblank hread hphase hindent hgenerate =>
    refine hmade h ?_
    rw [made, inputText_eq_ok_iff.mpr ⟨htext, hblank⟩]
    exact output_eq_error_iff.mpr (.inr ⟨_, hread, hphase, .inr ⟨hindent, _, hgenerate, rfl⟩⟩)
  | nullOutput h hproduct houtput hname =>
    left
    rw [stages_of_made_ok h (made_eq_ok_iff.mpr hproduct), deliver_of_null houtput hname]
  | unopened h hproduct houtput hname hopened =>
    left
    rw [stages_of_made_ok h (made_eq_ok_iff.mpr hproduct),
      deliver_of_unopened houtput hname hopened]
  | cutShort h => exact .inr ⟨_, _, h, rfl⟩

/-- An output that cannot be made has a reason. -/
theorem fails_of_made_error (hread : Options.read arguments = .ok (.run options))
    (h : made options w = .error failure) : Fails arguments w failure := by
  -- Each stage in turn: it failed, or the run went on with what it gave.
  rcases bind_eq_error_iff.mp h with h | ⟨text, htext, houtput⟩
  · rcases bind_eq_error_iff.mp h with hinput | ⟨bytes, hbytes, hsource⟩
    · obtain ⟨name, hname, ⟨hnull, rfl⟩ | ⟨hnull, hfile, rfl⟩⟩ := inputIn_eq_error_iff.mp hinput
      · exact .nullInput hread hname hnull
      · exact .unreadable hread hname hnull hfile
    · have hbytes := inputIn_eq_ok_iff.mp hbytes
      rcases source_eq_error_iff.mp hsource with ⟨hdecode, rfl⟩ | ⟨text, htext, hblank, rfl⟩
      · exact .invalidEncoding hread hbytes hdecode
      · exact .blankInput hread ⟨bytes, hbytes, htext⟩ hblank
  · obtain ⟨htext, hblank⟩ := inputText_eq_ok_iff.mp htext
    rcases output_eq_error_iff.mp houtput with
      ⟨e, hload, rfl⟩ | ⟨forest, hload, hphase, ⟨hindent, rfl⟩ | ⟨hindent, e, hgenerate, rfl⟩⟩
    · exact .load hread htext hblank hload
    · exact .oversizedIndent hread htext hblank hload hphase hindent
    · exact .render hread htext hblank hload hphase hindent hgenerate

/-- **A run fails for one of the reasons given, or it delivers the output that was asked for.** -/
theorem fails_or_delivers (arguments : List String) (w : World) :
    (∃ failure, Fails arguments w failure) ∨
      ∃ after, resultIn (stages World.machine arguments) w = (.ok (), after) ∧
        after.stderr = w.stderr ∧
        ∀ options, Options.read arguments = .ok (.run options) →
          ∃ product, Produces options w product ∧ Delivered product w options.output after := by
  cases hread : Options.read arguments with
  | error e => exact .inl ⟨_, .arguments hread⟩
  | ok request =>
    cases request with
    | help =>
      refine .inr ⟨{ w with stdout := w.stdout ++ usage }, ?_, rfl, nofun⟩
      simp only [stages, hread]
      rfl
    | run options =>
      cases hmade : made options w with
      | error failure => exact .inl ⟨failure, fails_of_made_error hread hmade⟩
      | ok product =>
        have hproduct := made_eq_ok_iff.mp hmade
        have hstages := stages_of_made_ok hread hmade
        -- What is left is the destination.
        cases houtput : options.output with
        | none =>
          refine .inr ⟨_, hstages.trans (deliver_of_stdout houtput w product), rfl, ?_⟩
          rintro _ ⟨⟩
          exact ⟨product, hproduct, houtput ▸ .stdout⟩
        | some name =>
          by_cases hname : hasNull name
          · exact .inl ⟨_, .nullOutput hread hproduct houtput hname⟩
          cases hopened : w.disk.opened? name with
          | none => exact .inl ⟨_, .unopened hread hproduct houtput hname hopened⟩
          | some target =>
            obtain ⟨place, file⟩ := target
            by_cases hfits : w.disk.fits product.toUTF8
            · have hdeliver := deliver_of_opened houtput hname hopened product
              rw [if_pos hfits] at hdeliver
              refine .inr ⟨_, hstages.trans hdeliver, rfl, ?_⟩
              rintro _ ⟨⟩
              have hwritten := (Disk.rewritten_write hopened product.toUTF8).2
              rw [Disk.taken_of_fits hfits] at hwritten
              exact ⟨product, hproduct, houtput ▸ .file hwritten⟩
            · exact .inl ⟨_, .cutShort ⟨⟨options, hread, hproduct, houtput⟩, hname,
                ⟨place, file, hopened⟩, hfits⟩⟩

/-- **A run fails exactly for the reasons given.** -/
theorem stages_eq_error_iff :
    (resultIn (stages World.machine arguments) w).1 = .error failure ↔
      Fails arguments w failure := by
  have hresult {f : Failure} (h : Fails arguments w f) :
      (resultIn (stages World.machine arguments) w).1 = .error f := by
    rcases stages_of_fails h with hstages | ⟨name, product, hcut, rfl⟩
    · rw [hstages]
    · rw [stages_of_cutShort hcut]
  refine ⟨fun h => ?_, hresult⟩
  rcases fails_or_delivers arguments w with ⟨f, hf⟩ | ⟨after, hok, -⟩
  · cases h.symm.trans (hresult hf)
    exact hf
  · rw [hok] at h
    cases h

/-! ## The run as seen from outside -/

theorem run_eq (arguments : List String) (w : World) :
    run arguments w = conclude World.machine (resultIn (stages World.machine arguments) w).1
      (resultIn (stages World.machine arguments) w).2 := rfl

theorem run_of_ok (h : resultIn (stages World.machine arguments) w = (.ok (), after)) :
    run arguments w = (.exit 0, after) := by
  rw [run_eq, h]
  rfl

theorem run_of_told (hfault : failure.fault? = none)
    (h : resultIn (stages World.machine arguments) w = (.error failure, after)) :
    run arguments w = (.exit failure.exitCode,
      { after with stderr := after.stderr ++ ("error: " ++ failure.message ++ "\n") }) := by
  rw [run_eq, h]
  simp only [conclude, hfault]
  rfl

/-- **A run that breaks off leaves the world as it was.** -/
theorem run_of_fault {fault : Fault} (h : Fails arguments w failure)
    (hfault : failure.fault? = some fault) : run arguments w = (.broken fault, w) := by
  rcases stages_of_fails h with hstages | ⟨name, product, -, rfl⟩
  · rw [run_eq, hstages]
    simp only [conclude, hfault]
    rfl
  · cases hfault

/-! ### Exit codes say why -/

theorem fault?_eq_some_iff {fault : Fault} : failure.fault? = some fault ↔
    failure = .nullInName ∧ fault = .nullInName ∨
      failure = .render .oversizedInteger ∧ fault = .oversizedInteger ∨
      failure = .oversizedIndent ∧ fault = .oversizedIndent := by
  cases failure with
  | render error => cases error <;> simp [Failure.fault?, eq_comm]
  | _ => simp [Failure.fault?, eq_comm]

theorem exitCode_eq_two_iff : failure.exitCode = 2 ↔
    (∃ e, failure = .arguments e) ∨ failure = .blankInput := by
  cases failure <;> simp [Failure.exitCode]

theorem exitCode_eq_one_iff (h : failure.fault? = none) : failure.exitCode = 1 ↔
    (∃ name, failure = .unreadable name) ∨ failure = .invalidEncoding ∨
      (∃ e, failure = .load e) ∨ (∃ e, e ≠ .oversizedInteger ∧ failure = .render e) ∨
      ∃ name, failure = .unwritable name := by
  cases failure with
  | render error => cases error <;> simp_all [Failure.fault?, Failure.exitCode]
  | _ => simp_all [Failure.fault?, Failure.exitCode]

/-- A failure that is told in a line exits with one or two. -/
theorem exitCode_eq (failure : Failure) : failure.exitCode = 1 ∨ failure.exitCode = 2 := by
  cases failure <;> simp [Failure.exitCode]

/-! ### The contract -/

/-- **A run that tells its failure** adds one line to standard error and nothing to standard output,
and the disk is as before unless a file was cut short. -/
theorem run_of_fails (h : Fails arguments w failure) (hfault : failure.fault? = none) :
    ∃ disk, run arguments w = (.exit failure.exitCode,
        { w with disk, stderr := w.stderr ++ ("error: " ++ failure.message ++ "\n") }) ∧
      ((∀ name product, ¬ CutShort arguments w name product) → disk = w.disk) := by
  rcases stages_of_fails h with hstages | ⟨name, product, hcut, rfl⟩
  · exact ⟨w.disk, run_of_told hfault hstages, fun _ => rfl⟩
  · exact ⟨(w.disk.write name product.toUTF8).2, run_of_told hfault (stages_of_cutShort hcut),
      fun hwhole => absurd hcut (hwhole name product)⟩

/-- A file that was cut short holds the beginning of the output. -/
theorem run_of_cutShort (h : CutShort arguments w name product) :
    (run arguments w).1 = .exit 1 ∧ ∃ size < product.toUTF8.size, w.disk.limit = some size ∧
      w.disk.Rewritten name (product.toUTF8.extract 0 size) (run arguments w).2.disk := by
  obtain ⟨place, file, hopened⟩ := h.opened
  obtain ⟨size, hsize, hlimit, htaken⟩ := Disk.taken_of_not_fits h.unfit
  rw [run_of_told rfl (stages_of_cutShort h)]
  exact ⟨rfl, size, hsize, hlimit, htaken ▸ (Disk.rewritten_write hopened _).2⟩

/-- What is produced where a program is asked for is the program. -/
theorem program_of_produces (hphase : options.phase = .generate)
    (h : Produces options w product) : ∃ text forest, Decodes options w text ∧
      Forest.read text = .ok forest ∧ options.indent ≤ textLimit ∧
      Forest.generate (spaces options.indent) forest = .ok product := by
  obtain ⟨text, ⟨htext, -⟩, hmakes⟩ := h
  cases hmakes with
  | dump _ hparse => exact absurd (hphase.symm.trans hparse) (by decide)
  | @program forest _ hread _ hindent hgenerate =>
    exact ⟨text, forest, htext, hread, hindent, hgenerate⟩

/-- **What the command promises**, for all arguments, all input and all files and folders.

A run ends with exit code zero exactly if nothing fails, and then tells nothing on standard error;
if it was asked for a program, the program of the decoded input, indented as asked for, reached one
destination and no other.  A run that ends otherwise has written nothing to standard output and
changed no file, except that a file which was opened for the output and does not take the whole of
it holds its beginning; then, too, nothing else on the disk is different.  The exit code says why:
two for refused arguments and for blank input, one for everything else that is told in a line on
standard error.  A run that breaks off, for a null character in a file name, for an oversized
integer or for an oversized indent, leaves the world as it was. -/
theorem run_contract (arguments : List String) (w : World) :
    let ending := (run arguments w).1
    let after := (run arguments w).2
    let fails := Fails arguments w
    (ending = .exit 0 ↔ ∀ failure, ¬ fails failure) ∧
      (ending = .exit 0 → after.stderr = w.stderr) ∧
      (∀ options, Options.read arguments = .ok (.run options) → options.phase = .generate →
        ending = .exit 0 →
          ∃ text forest program, Decodes options w text ∧ Forest.read text = .ok forest ∧
            options.indent ≤ textLimit ∧
            Forest.generate (spaces options.indent) forest = .ok program ∧
            Delivered program w options.output after) ∧
      (ending ≠ .exit 0 → after.stdout = w.stdout ∧
        ((∀ name product, ¬ CutShort arguments w name product) → after.disk = w.disk)) ∧
      (∀ name product, CutShort arguments w name product → ending = .exit 1 ∧
        ∃ size < product.toUTF8.size, w.disk.limit = some size ∧
          w.disk.Rewritten name (product.toUTF8.extract 0 size) after.disk) ∧
      (∀ code, ending = .exit code → code ≠ 0 → (code = 1 ∨ code = 2) ∧
        ∃ failure, fails failure ∧
          after.stderr = w.stderr ++ ("error: " ++ failure.message ++ "\n")) ∧
      (ending = .exit 2 ↔ (∃ e, fails (.arguments e)) ∨ fails .blankInput) ∧
      (ending = .exit 1 ↔
        (∃ name, fails (.unreadable name)) ∨ fails .invalidEncoding ∨ (∃ e, fails (.load e)) ∨
          (∃ e, e ≠ .oversizedInteger ∧ fails (.render e)) ∨ ∃ name, fails (.unwritable name)) ∧
      (∀ fault, ending = .broken fault → after = w) ∧
      (∀ fault, ending = .broken fault ↔
        fails .nullInName ∧ fault = .nullInName ∨
          fails (.render .oversizedInteger) ∧ fault = .oversizedInteger ∨
          fails .oversizedIndent ∧ fault = .oversizedIndent) := by
  intro ending after fails
  have hcut (name product : String) (h : CutShort arguments w name product) :
      ending = .exit 1 ∧ ∃ size < product.toUTF8.size, w.disk.limit = some size ∧
        w.disk.Rewritten name (product.toUTF8.extract 0 size) after.disk := run_of_cutShort h
  rcases fails_or_delivers arguments w with ⟨failure, hfails⟩ | ⟨world, hok, hstderr, hdelivered⟩
  · have hiff (f : Failure) : fails f ↔ failure = f := by
      refine stages_eq_error_iff.symm.trans ?_
      rw [stages_eq_error_iff.mpr hfails, Except.error.injEq]
    cases hfault : failure.fault? with
    | some fault =>
      have hrun : (ending, after) = (.broken fault, w) := run_of_fault hfails hfault
      obtain ⟨hending, hafter⟩ := Prod.mk.inj hrun
      refine ⟨iff_of_false (by simp [hending]) fun h => h failure hfails, by simp [hending],
        by simp [hending], fun _ => by simp [hafter], hcut, by simp [hending], ?_, ?_,
        fun _ _ => hafter, fun other => ?_⟩
      all_goals
        rcases fault?_eq_some_iff.mp hfault with ⟨rfl, rfl⟩ | ⟨rfl, rfl⟩ | ⟨rfl, rfl⟩ <;>
          simp [hending, hiff, eq_comm]
    | none =>
      obtain ⟨disk, hrun, hwhole⟩ := run_of_fails hfails hfault
      obtain ⟨hending, hafter⟩ : ending = _ ∧ after = _ := Prod.mk.inj hrun
      have hnonzero : failure.exitCode ≠ 0 := by
        rcases exitCode_eq failure with hcode | hcode <;> simp [hcode]
      refine ⟨iff_of_false (by simp [hending, hnonzero]) fun h => h failure hfails,
        by simp [hending, hnonzero], by simp [hending, hnonzero],
        fun _ => ⟨by rw [hafter], fun h => by rw [hafter, hwhole h]⟩, hcut, ?_, ?_, ?_,
        by simp [hending], fun fault => ?_⟩
      · intro code hcode _
        obtain rfl := Ending.exit.inj (hending.symm.trans hcode)
        exact ⟨exitCode_eq failure, failure, hfails, by rw [hafter]⟩
      · simp only [hending, Ending.exit.injEq, hiff]
        exact exitCode_eq_two_iff
      · simp only [hending, Ending.exit.injEq, hiff]
        exact exitCode_eq_one_iff hfault
      · -- What is told is no fault.
        have hnone : ¬ failure.fault? = some fault := by simp [hfault]
        rw [fault?_eq_some_iff] at hnone
        simpa [hending, hiff] using hnone
  · have hrun : (ending, after) = (.exit 0, world) := run_of_ok hok
    obtain ⟨hending, hafter⟩ := Prod.mk.inj hrun
    have hnone (failure : Failure) : ¬ fails failure := fun hf => by
      have herror := stages_eq_error_iff.mpr hf
      rw [hok] at herror
      cases herror
    refine ⟨iff_of_true hending hnone, fun _ => hafter ▸ hstderr, fun options hread hphase _ => ?_,
      absurd hending, hcut, ?_, ?_, ?_, ?_, ?_⟩
    · obtain ⟨product, hproduct, hdestination⟩ := hdelivered options hread
      obtain ⟨text, forest, htext, hforest, hindent, hgenerate⟩ :=
        program_of_produces hphase hproduct
      exact ⟨text, forest, product, htext, hforest, hindent, hgenerate, hafter ▸ hdestination⟩
    all_goals simp [hending, hnone]

/-- The smallest workspace on standard input, and a disk with nothing on it. -/
def emptyWorkspace (limit : Option Nat) : World := { stdin := "<xml/>".toUTF8, disk := { limit } }

theorem decodes_emptyWorkspace (limit : Option Nat) (h : options.input = none) :
    Decodes options (emptyWorkspace limit) "<xml/>" := by
  refine ⟨_, .stdin h, ?_⟩
  rw [emptyWorkspace, String.fromUTF8?, String.toUTF8_eq_toByteArray,
    dif_pos (String.isValidUTF8 "<xml/>")]
  rfl

/-- **Two runs that no stronger promise allows.**  With an indent that is too wide a run breaks off,
although the workspace can be read and has a program.  And a file that takes one byte of the output
is made, although the run tells that it failed. -/
theorem wideIndent_breaks_off_and_cutFile_stays :
    (run ["--indent", "99999999999999999999"] (emptyWorkspace none)).1 = .broken .oversizedIndent ∧
      Forest.read "<xml/>" = .ok [] ∧ (∀ indent, Forest.generate indent [] = .ok "") ∧
      (emptyWorkspace (some 1)).disk.find? ["out"] = none ∧
      ∃ after, run ["--stop-at", "parse", "-o", "out"] (emptyWorkspace (some 1))
          = (.exit 1, after) ∧
        after.stderr = "error: cannot write 'out'\n" ∧
        after.disk.find? ["out"] = some (.file { bytes := "[".toUTF8 }) := by
  have hwide : Fails ["--indent", "99999999999999999999"] (emptyWorkspace none) .oversizedIndent :=
    .oversizedIndent rfl (decodes_emptyWorkspace none rfl) (by decide) rfl rfl (by decide)
  have hread : Forest.read "<xml/>" = .ok [] := rfl
  have hcut : CutShort ["--stop-at", "parse", "-o", "out"] (emptyWorkspace (some 1)) "out" "[]\n" :=
    { output := ⟨_, rfl,
        ⟨_, ⟨decodes_emptyWorkspace (some 1) rfl, by decide⟩, .dump hread rfl⟩, rfl⟩
      named := by decide
      opened := ⟨⟨[], "out"⟩, {}, rfl⟩
      unfit := by decide }
  exact ⟨by rw [run_of_fault hwide rfl], hread, fun _ => rfl, rfl, _,
    run_of_told rfl (stages_of_cutShort hcut), rfl, rfl⟩

end Jigsaw.Command
