import Deduction.Proofs.CallFormat
import Deduction.Proofs.Failure
import Deduction.Proofs.Refusals

/-!
# What a line can be taken for

A line can be a command, a statement or a rule call, and each is recognized on its own: a command
after blanks of every kind are stripped and capitals are lowered, a statement with four kinds of
blanks between its tokens, a call with no blanks at all. Still no line is two of them
(`Sense.Fits.unique`), because the characters differ: every command has a letter that no statement
has in either case, every call has a parenthesis, which no command has, and a digit or wildcard,
which no statement has.

Another place where two notions of blanks meet is a text without tokens. Such a text is blank, so a
line that is not ignored is never refused for being empty (`isBlankText_of_parse_empty`).
-/

namespace Deduction

/-! ### Senses -/

/-- What a line can be taken for. -/
inductive Sense where
  | command (c : Command)
  | statement (f : Formula)
  | call (k : RuleCall)

/-- The line can be taken for this in a mode. -/
def Sense.Fits (line : String) (mode : Mode) : Sense → Prop
  | command c => Command.ofLine? line mode = some c
  | statement f => Formula.parse line = .ok f
  | call k => RuleCall.parse line = .ok k

variable {line : String} {mode : Mode} {call : RuleCall} {f : Formula}

/-- A call has a digit or wildcard. -/
theorem RuleCall.exists_referenceChar_of_parse (h : RuleCall.parse line = .ok call) :
    ∃ c ∈ line.toList, c ∈ referenceChars := by
  rcases parse_cases line with ⟨name, arguments, hform, -, -⟩ | ⟨_, _, -, -, herror⟩ | ⟨-, herror⟩
  · obtain ⟨a, ha, hne, hall⟩ := hform.arguments.first
    obtain ⟨c, hc⟩ := List.exists_mem_of_ne_nil a hne
    refine ⟨c, ?_, hall c hc⟩
    have hjoined : c ∈ [','].intercalate arguments := by
      rcases arguments with _ | ⟨b, more⟩
      · cases ha
      · cases ha
        rw [intercalate_cons]
        exact List.mem_append_left _ hc
    have hsqueezed : c ∈ Text.squeezeChars line.toList := by
      rw [hform.text]
      simp [hjoined]
    exact List.mem_of_mem_filter hsqueezed
  · rw [herror] at h
    cases h
  · rw [herror] at h
    cases h

/-- **A line that is read as a statement is no call.** -/
theorem RuleCall.not_parse_of_statement (hf : Formula.parse line = .ok f) :
    RuleCall.parse line ≠ .ok call := by
  intro hcall
  obtain ⟨c, hc, hreference⟩ := exists_referenceChar_of_parse hcall
  have hforeign : referenceChars.all (· ∉ Token.alphabet) = true := by decide
  have hc' := List.all_eq_true.mp hforeign c hreference
  rw [decide_eq_true_eq] at hc'
  exact hc' (Formula.mem_alphabet_of_parse hf c hc)

theorem Command.ofLine?_of_call (h : RuleCall.parse line = .ok call) (mode : Mode) :
    Command.ofLine? line mode = none :=
  ofLine?_eq_none_of_paren (RuleCall.paren_mem_of_parse h) mode

/-- **A line can be taken for one thing only.** -/
theorem Sense.Fits.unique {a b : Sense} (ha : a.Fits line mode) (hb : b.Fits line mode) :
    a = b := by
  cases a with
  | command c =>
    have hc : Command.ofLine? line mode = some c := ha
    cases b with
    | command d => rw [Option.some.inj (hc.symm.trans hb)]
    | statement g => exact absurd (hc.symm.trans (Command.ofLine?_of_parse hb mode)) (by simp)
    | call k => exact absurd (hc.symm.trans (Command.ofLine?_of_call hb mode)) (by simp)
  | statement f =>
    cases b with
    | command d => exact absurd (Eq.trans (Eq.symm hb) (Command.ofLine?_of_parse ha mode)) (by simp)
    | statement g => rw [Except.ok.inj (Eq.trans (Eq.symm ha) hb)]
    | call k => exact absurd hb (RuleCall.not_parse_of_statement ha)
  | call k =>
    cases b with
    | command d => exact absurd (Eq.trans (Eq.symm hb) (Command.ofLine?_of_call ha mode)) (by simp)
    | statement g => exact absurd ha (RuleCall.not_parse_of_statement hb)
    | call l => rw [Except.ok.inj (Eq.trans (Eq.symm ha) hb)]

/-! ### Texts without tokens -/

theorem isBlankText_of_parse_empty (h : Formula.parse line = .error .empty) :
    Text.isBlankText line = true := by
  have hblanks : blanksBetween.all Text.isBlank = true := by decide
  rw [Text.isBlankText, List.all_eq_true]
  intro c hc
  obtain ⟨k, hk⟩ := List.mem_iff_getElem?.mp hc
  cases refusedFor_of_parse h with
  | empty hmarks =>
    have hskipped := hmarks.skipped k c (Nat.zero_le k) hk (by simp)
    exact List.all_eq_true.mp hblanks c hskipped
  | blamed hmarks hblame => cases hblame

theorem Text.head?_append {s : String} {c : Char} (h : s.toList.head? = some c) (t : String) :
    (s ++ t).toList.head? = some c := by
  rw [String.toList_append, List.head?_append, h, Option.some_or]

/-- No other message begins as the one for a text without tokens. -/
theorem ParseError.head?_message {e : ParseError} (he : e ≠ .empty) :
    ∃ c, c ≠ 'I' ∧ e.message.toList.head? = some c := by
  cases e with
  | illegal e => exact ⟨'P', by decide, Text.head?_append rfl _⟩
  | empty => exact absurd rfl he
  | unclosed i => exact ⟨'N', by decide, Text.head?_append rfl _⟩
  | emptyGroup i => exact ⟨'E', by decide, Text.head?_append (Text.head?_append rfl _) _⟩
  | missingOperand i => exact ⟨'E', by decide, Text.head?_append rfl _⟩
  | unexpected t =>
    exact ⟨'U', by decide,
      Text.head?_append (Text.head?_append (Text.head?_append rfl _) _) _⟩
  | missingOperator i => exact ⟨'E', by decide, Text.head?_append rfl _⟩

theorem ParseError.eq_empty_of_message {e : ParseError}
    (h : e.message = "Input formula is empty.") : e = .empty := by
  by_contra he
  obtain ⟨c, hc, hhead⟩ := head?_message he
  rw [h] at hhead
  exact hc (Option.some.inj hhead).symm

theorem RuleError.message_ne (e : RuleError) : e.message ≠ "Input formula is empty." := by
  intro h
  have hhead : ("Error executing " ++ e.subject ++ " - " ++ e.reason).toList.head? = some 'E' :=
    Text.head?_append (Text.head?_append (Text.head?_append rfl _) _) _
  rw [show "Error executing " ++ e.subject ++ " - " ++ e.reason = "Input formula is empty."
    from h] at hhead
  cases hhead

/-! ### Errors of a line -/

namespace Session

variable {s t : Session} {reply : Reply}

theorem errors_runBatch {b : Batch} {m : String} (hm : m ∈ (s.runBatch b).2.errors) :
    ∃ e : RuleError, m = e.message := by
  rcases hb : b.run with e | results
  · rw [runBatch_error hb] at hm
    exact ⟨e, List.mem_singleton.mp hm⟩
  · rw [runBatch_ok hb, record_errors] at hm
    cases hm

/-- **Where errors come from**: a line is no statement, or a rule call is refused. -/
theorem Handled.error_source {o : Except Text.NumeralFault (Session × Reply)}
    (h : Handled s line o) : ∀ t reply, o = .ok (t, reply) → ∀ m ∈ reply.errors,
      (∃ e, Formula.parse line = .error e ∧ m = e.message) ∨ ∃ e : RuleError, m = e.message := by
  intro t reply ho m hm
  cases h with
  | blank hb => cases ho; cases hm
  | @command c hc =>
    have herrors := runCommand_errors s c
    rw [Except.ok.inj ho] at herrors
    rw [herrors] at hm
    cases hm
  | premise hp hmode hf => cases ho; cases hm
  | conclusion hp hmode hf => cases ho; cases hm
  | @unread e hp hmode he =>
    cases ho
    exact Or.inl ⟨e, he, List.mem_singleton.mp hm⟩
  | fault hp hmode he => cases ho
  | @refused e hp hmode he =>
    cases ho
    exact Or.inr ⟨e, List.mem_singleton.mp hm⟩
  | @batch b hp hmode hb =>
    have hrun : (s.runBatch b).2 = reply := congrArg Prod.snd (Except.ok.inj ho)
    rw [← hrun] at hm
    exact Or.inr (errors_runBatch hm)
  | wait hp hmode hw => cases ho; cases hm
  | @noAddend pending e hb hpending he =>
    cases ho
    exact Or.inl ⟨e, he, List.mem_singleton.mp hm⟩
  | @addend pending f hb hpending hf =>
    have hrun : (({ s with pending := none } : Session).runBatch (pending.batch f)).2 = reply :=
      congrArg Prod.snd (Except.ok.inj ho)
    rw [← hrun] at hm
    exact Or.inr (errors_runBatch hm)

theorem not_mem_errors_of_not_blank (hb : Text.isBlankText line = false)
    (h : s.handle line = .ok (t, reply)) : "Input formula is empty." ∉ reply.errors := by
  intro hm
  rcases (handled s line).error_source t reply h _ hm with ⟨e, he, hmessage⟩ | ⟨e, hmessage⟩
  · rw [ParseError.eq_empty_of_message hmessage.symm] at he
    rw [isBlankText_of_parse_empty he] at hb
    cases hb
  · exact e.message_ne hmessage.symm

theorem plain_of_statement (hp : s.pending = none) (hf : Formula.parse line = .ok f) :
    s.Plain line :=
  ⟨Bool.eq_false_iff.mpr fun hb => Formula.parse_blank hb f hf, hp,
    Command.ofLine?_of_parse hf s.mode⟩

end Session

/-- **Lines are never ambiguous.** In every mode, a line can be taken for at most one thing: one
command, one statement or one rule call. So looking for commands first hides nothing: unless an
addition waits, a line that is read as a statement or as a call is taken as the mode says. And a
line that is not blank is never refused for being empty. -/
theorem line_unambiguous (line : String) :
    (∀ mode (a b : Sense), a.Fits line mode → b.Fits line mode → a = b) ∧
    (∀ s : Session, s.pending = none →
      ((∃ f, Formula.parse line = .ok f) ∨ ∃ call, RuleCall.parse line = .ok call) →
      s.handle line = match s.mode with
        | .premise => .ok (s.acceptPremise line)
        | .conclusion => .ok (s.acceptConclusion line)
        | .rule => s.runRule line) ∧
    ∀ s t reply, Text.isBlankText line = false → Session.handle s line = .ok (t, reply) →
      "Input formula is empty." ∉ reply.errors := by
  refine ⟨fun mode a b ha hb => ha.unique hb, fun s hp hread => Session.handle_plain ?_,
    fun s t reply => Session.not_mem_errors_of_not_blank⟩
  rcases hread with ⟨f, hf⟩ | ⟨call, hcall⟩
  · exact Session.plain_of_statement hp hf
  · exact Session.plain_of_call hp hcall

/-- The first letter of a command is a statement, a command is given in capitals after a blank that
statements do not allow, a call has a name that is a statement by itself, and a zero-width space is
no blank. -/
theorem line_unambiguous_letters :
    (∀ a : Sense, a.Fits " t\t" .premise → a = .statement (.atom .t)) ∧
    (∀ a : Sense, a.Fits "\u00a0THEREFORE" .premise → a = .command .therefore) ∧
    (∀ a : Sense, a.Fits "s (\u20031)" .rule → a = .call ⟨"s", ["1"]⟩) ∧
    (Session.start false).handle " t\t" = .ok ((Session.start false).acceptPremise " t\t") ∧
    ∃ t reply, (Session.start false).handle "\u200b" = .ok (t, reply) ∧ reply.errors ≠ [] ∧
      "Input formula is empty." ∉ reply.errors := by
  have hstatement : Formula.parse " t\t" = .ok (.atom .t) := by decide +kernel
  have hcommand : Command.ofLine? "\u00a0THEREFORE" .premise = some .therefore := by decide +kernel
  have hcall : RuleCall.parse "s (\u20031)" = .ok ⟨"s", ["1"]⟩ := by decide +kernel
  refine ⟨fun a ha => (line_unambiguous _).1 .premise a (.statement (.atom .t)) ha hstatement,
    fun a ha => (line_unambiguous _).1 .premise a (.command .therefore) ha hcommand,
    fun a ha => (line_unambiguous _).1 .rule a (.call _) ha hcall,
    (line_unambiguous _).2.1 (Session.start false) rfl (Or.inl ⟨_, hstatement⟩), ?_⟩
  have herrors : ((Session.start false).handle "\u200b").toOption.map (·.2.errors.length) =
      some 1 := by decide +kernel
  rcases hreply : (Session.start false).handle "\u200b" with e | ⟨t, reply⟩
  · rw [hreply] at herrors
    cases herrors
  · rw [hreply] at herrors
    have hone : reply.errors.length = 1 := by simpa [Except.toOption] using herrors
    exact ⟨t, reply, rfl, List.ne_nil_of_length_pos (by omega),
      (line_unambiguous "\u200b").2.2 _ t reply (by decide +kernel) hreply⟩

end Deduction
