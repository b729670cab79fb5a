import Deduction.Proofs.Calls
import Deduction.Proofs.InPlace

/-!
# Lines that fail

A line fails if its reply carries an error or if it is beyond an answer. A failed line leaves the
session as it was.

For a reply this is read off what a line can do (`Handled.failure`). The one case in which something
is changed before a failure could come, an addition that stops waiting and is then carried out, does
not fail. A line that is beyond an answer has no reply to read anything off. There the session is
the one that is changed in place, step by step (`InPlace.exec_handle`).
-/

namespace Deduction.Session

/-! ### Errors -/

variable {s t : Session} {line : String} {reply : Reply}

theorem runCommand_errors (s : Session) (c : Command) : (s.runCommand c).2.errors = [] := by
  cases c <;> rfl

theorem record_errors (s : Session) (rule : Rule) (results : List Formula) :
    (s.record rule results).2.errors = [] := rfl

/-- What a failed line leaves: at most one error is reported, and with it the session is the same
and there is no message but the prompt of an addition that waits. -/
structure Failure (s t : Session) (reply : Reply) : Prop where
  one : reply.errors.length ≤ 1
  same : reply.errors ≠ [] → t = s
  messages : reply.errors ≠ [] →
    reply.messages = if s.pending.isSome then [additionPrompt] else []

theorem Failure.of_no_errors (h : reply.errors = []) : Failure s t reply :=
  ⟨by simp [h], fun hne => absurd h hne, fun hne => absurd h hne⟩

theorem Failure.of_plain (hp : s.Plain line) (e : String) : Failure s s { errors := [e] } :=
  ⟨Nat.le_refl 1, fun _ => rfl, fun _ => by simp [hp.notPending]⟩

theorem Failure.runBatch (hp : s.Plain line) (b : Batch) :
    Failure s (s.runBatch b).1 (s.runBatch b).2 := by
  rcases hb : b.run with e | results
  · rw [runBatch_error hb]
    exact Failure.of_plain hp e.message
  · rw [runBatch_ok hb]
    exact Failure.of_no_errors (record_errors s b.rule results)

theorem Handled.failure {o : Except Text.NumeralFault (Session × Reply)} (h : Handled s line o) :
    ∀ p, o = .ok p → Failure s p.1 p.2 := by
  intro p hp
  cases h with
  | blank hb => cases hp; exact Failure.of_no_errors rfl
  | @command c hc => cases hp; exact Failure.of_no_errors (runCommand_errors s c)
  | premise hplain hm hf => cases hp; exact Failure.of_no_errors rfl
  | conclusion hplain hm hf => cases hp; exact Failure.of_no_errors rfl
  | @unread e hplain hm he => cases hp; exact Failure.of_plain hplain e.message
  | fault hplain hm he => cases hp
  | @refused e hplain hm he => cases hp; exact Failure.of_plain hplain e.message
  | @batch b hplain hm hb => cases hp; exact Failure.runBatch hplain b
  | wait hplain hm hw => cases hp; exact Failure.of_no_errors rfl
  | noAddend hb hpending he =>
    cases hp
    exact ⟨Nat.le_refl 1, fun _ => rfl, fun _ => by simp [hpending]⟩
  | @addend pending f hb hpending hf =>
    cases hp
    rw [runBatch_ok (pending.run_batch f)]
    exact Failure.of_no_errors (record_errors _ _ _)

/-- A call with a number of too many digits is beyond an answer. -/
theorem handle_tooLong {rule : Rule} {name reference : String} (hm : s.mode = .rule)
    (hp : s.pending = none) (hn : rule.CalledBy name)
    (hdigits : ∀ c ∈ reference.toList, c.isDigit = true)
    (hlen : Text.digitLimit < reference.toList.length) :
    s.handle (RuleCall.text ⟨name, [reference]⟩) = .error (.tooLong reference.toList.length) := by
  have hne : reference.toList ≠ [] := List.ne_nil_of_length_pos (by omega)
  have hargs := Rule.takesArguments_one (RuleCall.isReference_of_digits hne hdigits)
  have hselect : s.selectFor rule reference =
      .error (.numeral (.tooLong reference.toList.length)) := by
    rw [selectFor, FactBase.select_digits _ hne hdigits, Text.readNumeral_tooLong hdigits hlen]
  have hrequest : s.request rule ⟨name, [reference]⟩ =
      .error (.numeral (.tooLong reference.toList.length)) := by
    simp only [request, hselect, bind, Except.bind]
  rw [handle_call hm hp (hn.parse_text hargs), runRule, requestOf_text hn hargs, hrequest]

/-- **A failed line changes nothing.** If a line is beyond an answer, the session, changed in place,
is as it was when the answer breaks off. If the reply carries an error, it carries only one, the
session is as it was, and there is no message except the prompt of an addition, which is there
exactly if an addition waits. -/
theorem failed_line_keeps_session (s : Session) (line : String) :
    (∀ e, s.handle line = .error e → (InPlace.handle line).exec s = (.error (.numeral e), s)) ∧
    ∀ t reply, s.handle line = .ok (t, reply) →
      (InPlace.handle line).exec s = (.ok reply, t) ∧ reply.errors.length ≤ 1 ∧
      (reply.errors ≠ [] →
        t = s ∧ reply.messages = if s.pending.isSome then [additionPrompt] else []) := by
  refine ⟨fun e he => by rw [InPlace.exec_handle, he]; rfl, fun t reply hr => ?_⟩
  have hf : Failure s t reply := (handled s line).failure _ hr
  exact ⟨by rw [InPlace.exec_handle, hr]; rfl, hf.one, fun hne => ⟨hf.same hne, hf.messages hne⟩⟩

/-- A number with too many digits, and a line that would be a command if no addition waited. -/
theorem failed_line_keeps_session_waiting :
    let s := (start false).after ["p", "therefore", "q"]
    let long := RuleCall.text ⟨"DN", [String.ofList (List.replicate 4301 '1')]⟩
    (∃ e, s.handle long = .error e ∧ (InPlace.handle long).exec s = (.error (.numeral e), s)) ∧
    ∃ reply, (s.advance "Add(1)").handle "reset" = .ok (s.advance "Add(1)", reply) ∧
      reply.errors.length = 1 ∧ reply.messages = [additionPrompt] := by
  intro s long
  set reference := String.ofList (List.replicate 4301 '1') with href
  have hdigits : ∀ c ∈ reference.toList, c.isDigit = true := by
    intro c hc
    rw [href, String.toList_ofList] at hc
    rw [List.eq_of_mem_replicate hc]
    decide
  have hlen : Text.digitLimit < reference.toList.length := by
    rw [href, String.toList_ofList, List.length_replicate]
    decide
  have hlong := handle_tooLong (s := s) (by decide +kernel)
    (Option.isNone_iff_eq_none.mp (by decide +kernel))
    (Rule.calledBy_terse (show Rule.isImplemented .dn = true from rfl)) hdigits hlen
  refine ⟨⟨_, hlong, (failed_line_keeps_session s long).1 _ hlong⟩, ?_⟩
  have herrors :
      ((s.advance "Add(1)").handle "reset").toOption.map (·.2.errors.length) = some 1 := by
    decide +kernel
  have hpending : (s.advance "Add(1)").pending.isSome = true := by decide +kernel
  rcases hr : (s.advance "Add(1)").handle "reset" with e | ⟨t, reply⟩
  · rw [hr] at herrors
    cases herrors
  · rw [hr] at herrors
    have hone : reply.errors.length = 1 := by simpa [Except.toOption] using herrors
    obtain ⟨-, -, hkept⟩ := (failed_line_keeps_session (s.advance "Add(1)") "reset").2 t reply hr
    obtain ⟨rfl, hmessages⟩ := hkept (List.ne_nil_of_length_pos (by omega))
    rw [if_pos hpending] at hmessages
    exact ⟨reply, rfl, hone, hmessages⟩

end Deduction.Session
