import Deduction.CommandLine.Run
import Mathlib.Tactic.Common

/-!
# Scripts and typed lines

A script whose lines are ended by line feeds is read as those lines (`linesOf_joinLines`). A
dialogue writes, for each read, the prompt and what is shown until the next read
(`output_answerLines`); how it goes on and how it stops does not depend on the prompt
(`stop_answerLines`). So a script and the same lines typed at the prompt lead to the same end, and
the outputs differ in the prompts alone.
-/

namespace Deduction

/-! ### The lines of a script -/

namespace Text

/-- The text in which every line is ended by a line feed. -/
def joinLines (lines : List String) : List Char :=
  lines.flatMap fun line => line.toList ++ ['\n']

/-- The line holds no line break and no carriage return. -/
def Unbroken (line : String) : Prop := ∀ c ∈ line.toList, isBreak c = false ∧ c ≠ '\r'

instance (line : String) : Decidable (Unbroken line) :=
  decidable_of_iff (line.toList.all fun c => !isBreak c && c ≠ '\r') (by simp [Unbroken])

theorem unifyBreaks_eq_self {cs : List Char} (h : ∀ c ∈ cs, c ≠ '\r') : unifyBreaks cs = cs := by
  fun_induction unifyBreaks cs with
  | case1 => rfl
  | case2 rest ih => exact absurd rfl (h '\r' List.mem_cons_self)
  | case3 rest _ ih => exact absurd rfl (h '\r' List.mem_cons_self)
  | case4 c rest _ _ ih => rw [ih fun d hd => h d (List.mem_cons_of_mem c hd)]

theorem splitLines_append {c : Char} (hc : isBreak c = true) (rest : List Char) :
    ∀ {line : List Char}, (∀ d ∈ line, isBreak d = false) →
      splitLines (line ++ c :: rest) = line :: splitLines rest
  | [], _ => by rw [List.nil_append, splitLines, if_pos hc]
  | d :: line, h => by
    have ih := splitLines_append hc rest fun e he => h e (List.mem_cons_of_mem d he)
    rw [List.cons_append, splitLines, if_neg (by simp [h d List.mem_cons_self]), ih]

/-- **A script is read as the lines it was joined from.** -/
theorem linesOf_joinLines {lines : List String} (h : ∀ line ∈ lines, Unbroken line) :
    linesOf (joinLines lines) = lines := by
  have hreturns : ∀ c ∈ joinLines lines, c ≠ '\r' := by
    intro c hc
    obtain ⟨line, hline, hc⟩ := List.mem_flatMap.mp hc
    rcases List.mem_append.mp hc with hc | hc
    · exact (h line hline c hc).2
    · rw [List.mem_singleton.mp hc]
      decide
  have hsplit : splitLines (joinLines lines) = lines.map String.toList := by
    clear hreturns
    induction lines with
    | nil => rfl
    | cons line lines ih =>
      rw [joinLines, List.flatMap_cons, List.append_assoc, List.singleton_append,
        splitLines_append (by decide) _ fun c hc => (h line List.mem_cons_self c hc).1,
        List.map_cons]
      exact congrArg _ (ih fun l hl => h l (List.mem_cons_of_mem line hl))
  rw [linesOf, unifyBreaks_eq_self hreturns, hsplit]
  simp [Function.comp_def]

end Text

/-! ### Outputs -/

namespace Output

theorem append_err (a b : Output) : (a ++ b).err = a.err ++ b.err := rfl

theorem ext {a b : Output} (hout : a.out = b.out) (herr : a.err = b.err) : a = b := by
  cases a
  cases b
  simp only at hout herr
  rw [hout, herr]

theorem append_assoc (a b c : Output) : a ++ b ++ c = a ++ (b ++ c) :=
  ext String.append_assoc String.append_assoc

theorem append_empty (a : Output) : a ++ {} = a :=
  ext String.append_empty String.append_empty

theorem empty_append (a : Output) : {} ++ a = a :=
  ext String.empty_append String.empty_append

end Output

/-! ### Dialogues read by read -/

namespace Dialogue

/-- What is shown after each read and before the next: the answer to the line that was read. The
read at which the input ends is the last one, and nothing is shown after it. -/
def shownAfterReads (threshold : Level) : Session → List String → List Output
  | _, [] => [{}]
  | s, line :: rest =>
    match (answer threshold s line).stop with
    | some _ => [(answer threshold s line).output]
    | none =>
      (answer threshold s line).output ::
        shownAfterReads threshold (answer threshold s line).session rest

/-- For each read the prompt, once, and then what is shown after it. -/
def withPrompts (prompt : String) : List Output → Output
  | [] => {}
  | shown :: later => { out := prompt } ++ shown ++ withPrompts prompt later

/-- **A dialogue shows the prompt before each read.** -/
theorem output_answerLines (threshold : Level) (reader : Reader) :
    ∀ (s : Session) (lines : List String), (answerLines threshold reader s lines).output =
      withPrompts reader.prompt (shownAfterReads threshold s lines)
  | s, [] => by
    rw [answerLines, shownAfterReads, withPrompts, withPrompts, Output.append_empty,
      Output.append_empty]
  | s, line :: rest => by
    rw [answerLines, shownAfterReads]
    rcases hstop : (answer threshold s line).stop with _ | stop
    · simp only [withPrompts, output_answerLines threshold reader _ rest]
    · simp only [withPrompts, Output.append_empty]

theorem stop_answerLines (threshold : Level) {reader reader' : Reader}
    (h : reader.ending = reader'.ending) :
    ∀ (s : Session) (lines : List String), (answerLines threshold reader s lines).stop =
      (answerLines threshold reader' s lines).stop
  | s, [] => by rw [answerLines, answerLines, h]
  | s, line :: rest => by
    rw [answerLines, answerLines]
    rcases hstop : (answer threshold s line).stop with _ | stop
    · exact stop_answerLines threshold h _ rest
    · rfl

/-- Prompts do not go to the error output. -/
theorem err_withPrompts (prompt prompt' : String) : ∀ shown : List Output,
    (withPrompts prompt shown).err = (withPrompts prompt' shown).err
  | [] => rfl
  | shown :: later => by
    simp only [withPrompts, Output.append_err, err_withPrompts prompt prompt' later]

end Dialogue

/-! ### Whole runs -/

namespace CommandLine

open Dialogue

/-- What is written before the first read. -/
def openingOutput (options : Options) : Output :=
  Console.writeAll (threshold options) .info welcome

/-- What is written after the last read, for the way in which the dialogue stopped. -/
def closingOutput (options : Options) (stop : Stop) : Output :=
  (if stop = .over then Console.write (threshold options) .info farewell else {}) ++
    writeClosing (threshold options) (closing stop).2

/-- How a dialogue that the options ask for stops, if the input ends after the lines. -/
def stopAfter (options : Options) (lines : List String) : Stop :=
  (answerLines (threshold options) .script (session options) lines).stop

/-- A dialogue about lines that are followed by the end of the input, read by read. -/
theorem converse_eq (options : Options) {reader : Reader} (h : reader.ending = .endOfInput)
    (lines : List String) :
    converse options reader lines =
      ⟨(closing (stopAfter options lines)).1, false,
        openingOutput options ++ withPrompts reader.prompt
            (shownAfterReads (threshold options) (session options) lines) ++
          closingOutput options (stopAfter options lines)⟩ := by
  have hstop : (answerLines (threshold options) reader (session options) lines).stop =
      stopAfter options lines := stop_answerLines _ h _ _
  simp only [converse, Dialogue.run, hstop, output_answerLines, openingOutput, closingOutput,
    Output.append_assoc]

theorem runScript_eq {options : Options} {path : Path} {bytes : List UInt8} {lines : List String}
    (hdebug : options.debug = false) (hlines : scriptLines bytes = .ok lines) :
    runScript options path (.ok bytes) = converse options .script lines := by
  have hstarted : Console.writeEvents (threshold options) [.scriptStarted path.text] = {} := by
    rw [Console.writeEvents, if_neg]
    simp [threshold, Level.ofFlags, hdebug]
  simp only [runScript, Except.bind, hlines, hstarted, Output.empty_append]

/-- The lines of a file that holds lines, not all of them blank. -/
theorem scriptLines_joinLines {bytes : List UInt8} {lines : List String}
    (hbytes : Text.decodeUtf8 bytes = .ok (Text.joinLines lines))
    (hunbroken : ∀ line ∈ lines, Text.Unbroken line)
    (hvisible : ∃ line ∈ lines, Text.isBlankText line = false) :
    scriptLines bytes = .ok lines := by
  have hall : lines.all Text.isBlankText = false := by
    obtain ⟨line, hline, hblank⟩ := hvisible
    exact List.all_eq_false.mpr ⟨line, hline, by simp [hblank]⟩
  simp only [scriptLines, hbytes, Text.linesOf_joinLines hunbroken, hall]
  rfl

/-- **A script run and a typed run agree.** Let a command line name a script, in a file that is
decoded as the given lines, each ended by a line feed, with no other break in them and not all
blank. Let another command line ask for the same without the script, and neither for the journal.
Then the first run and the second, with the lines typed and the input ended after them, have the
same exit code and the same error output. What they write differs in the prompt alone, which the
second run shows once before each read. -/
theorem script_agrees_with_typed {arguments others lines : List String} {options : Options}
    {file : String} {bytes : List UInt8} {directory : Directory}
    (harguments : readArguments arguments = .ok (.start options))
    (hscript : options.script = some file)
    (hothers : readArguments others = .ok (.start { options with script := none }))
    (hdebug : options.debug = false) (hfile : directory.read (Path.ofText file) = .ok bytes)
    (hbytes : Text.decodeUtf8 bytes = .ok (Text.joinLines lines))
    (hunbroken : ∀ line ∈ lines, Text.Unbroken line)
    (hvisible : ∃ line ∈ lines, Text.isBlankText line = false)
    (typed : List String) (ending : Ending) :
    let scripted := run arguments directory typed ending
    let answered := run others directory lines .endOfInput
    let shown := shownAfterReads (threshold options) (session options) lines
    scripted.code = answered.code ∧ scripted.exited = answered.exited ∧
      scripted.output.err = answered.output.err ∧
      ∃ last : Output,
        scripted.output = openingOutput options ++ withPrompts "" shown ++ last ∧
        answered.output = openingOutput options ++ withPrompts "proofer> " shown ++ last := by
  intro scripted answered shown
  have hlines := scriptLines_joinLines hbytes hunbroken hvisible
  have hscripted : scripted = converse options .script lines := by
    have hrun : scripted = runScript options (Path.ofText file)
        (directory.read (Path.ofText file)) := by
      simp only [scripted, run, harguments, hscript]
    rw [hrun, hfile, runScript_eq hdebug hlines]
  have hanswered : answered =
      converse { options with script := none } (.typed .endOfInput) lines := by
    simp only [answered, run, hothers]
  rw [hscripted, hanswered, converse_eq _ rfl, converse_eq _ rfl]
  refine ⟨rfl, rfl, ?_, closingOutput options (stopAfter options lines), rfl, rfl⟩
  simp only [Output.append_err]
  rw [err_withPrompts Reader.script.prompt (Reader.typed .endOfInput).prompt]
  rfl

/-- A script that is cut short by `exit`, with a blank line and a premise that cannot be read. -/
theorem script_agrees_with_typed_exit :
    let bytes : List UInt8 := [112, 10, 10, 126, 10, 101, 120, 105, 116, 10, 113, 10]
    let directory := Directory.ofFiles [("proof.txt", .file bytes)]
    let scripted := run ["-v", "-s", "./proof.txt"] directory [] .interrupted
    let answered := run ["-v"] directory ["p", "", "~", "exit", "q"] .endOfInput
    scripted.code = answered.code ∧ scripted.output.err = answered.output.err ∧
      scripted.output.err = "Expected statement after '~' at position 0\n" ∧
      answered.output.out =
        "Welcome to Proofer - The Logic Engine!\nEnter some premises\n" ++
          "proofer> proofer> proofer> proofer> Good bye!\n" := by
  intro bytes directory scripted answered
  have harguments : readArguments ["-v", "-s", "./proof.txt"] =
      .ok (.start { script := some "./proof.txt", verbose := true }) := by decide +kernel
  have hothers : readArguments ["-v"] = .ok (.start { verbose := true }) := by decide +kernel
  have hfile : directory.read (Path.ofText "./proof.txt") = .ok bytes := by decide +kernel
  have hbytes : Text.decodeUtf8 bytes = .ok (Text.joinLines ["p", "", "~", "exit", "q"]) := by
    decide +kernel
  have hunbroken : ∀ line ∈ ["p", "", "~", "exit", "q"], Text.Unbroken line := by decide
  obtain ⟨hcode, -, herr, -⟩ := script_agrees_with_typed harguments rfl hothers rfl hfile hbytes
    hunbroken ⟨"p", by decide, by decide⟩ [] .interrupted
  exact ⟨hcode, herr, by decide +kernel, by decide +kernel⟩

end CommandLine

end Deduction
