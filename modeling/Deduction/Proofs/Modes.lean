import Deduction.Proofs.Alphabet
import Deduction.Proofs.Batch
import Deduction.Proofs.Calls
import Deduction.Proofs.Derivation
import Mathlib.Data.List.Induction

/-!
# The modes of a session

In every session that lines lead to, the conclusion is set exactly in rule mode and an addition
waits only there (`Steady`, `Invariant`). The mode changes along three edges, each taken by one kind
of line (`Shift`). An addition that waits was started by a call somewhere before, and nothing has
changed since (`pending_origin`); only a line that is read as a statement ends it. A reset leads
back to a new session, so from then on the replies are those of a new session
(`transcript_append`).
-/

namespace Deduction

namespace Session

variable {s : Session} {line : String} {verboseRules : Bool}

/-! ### Commands and modes -/

theorem mem_available_of_command? {c : Command} (h : s.command? line = some c) :
    c ∈ Command.available s.mode :=
  List.mem_of_find?_eq_some (command?_eq_some.mp h).2.2

theorem mode_of_therefore (h : s.command? line = some .therefore) : s.mode = .premise := by
  have honly : ∀ m, Command.therefore ∈ Command.available m → m = .premise := by
    intro m
    cases m <;> decide
  exact honly s.mode (mem_available_of_command? h)

theorem mode_of_rule_command {c : Command} (h : s.command? line = some c)
    (hc : c = .done ∨ c = .reset) : s.mode = .rule := by
  have honly : ∀ m, c ∈ Command.available m → m = .rule := by
    intro m
    rcases hc with rfl | rfl <;> cases m <;> decide
  exact honly s.mode (mem_available_of_command? h)

theorem mode_of_reset (h : s.command? line = some .reset) : s.mode = .rule :=
  mode_of_rule_command h (Or.inr rfl)

theorem advance_command {c : Command} (h : s.command? line = some c) :
    s.advance line = (s.runCommand c).1 := by
  rw [advance, handle_command h]

theorem advance_conclusion {f : Formula} (hp : s.Plain line) (hm : s.mode = .conclusion)
    (hf : Formula.parse line = .ok f) :
    s.advance line =
      { s with facts := { s.facts with conclusion := some f }, mode := .rule } := by
  rw [advance, handle_plain hp, hm]
  simp only [acceptConclusion, hf]

/-! ### What stays and what is set together -/

/-- How results are reported is as it was in the beginning, and the conclusion is set exactly in
rule mode. -/
structure Steady (verboseRules : Bool) (s : Session) : Prop where
  verboseRules_eq : s.verboseRules = verboseRules
  conclusion_iff : s.facts.conclusion.isSome = true ↔ s.mode = .rule

theorem Steady.start (verboseRules : Bool) : (start verboseRules).Steady verboseRules :=
  ⟨rfl, by decide +revert⟩

theorem Steady.runBatch (h : s.Steady verboseRules) (b : Batch) :
    (s.runBatch b).1.Steady verboseRules := by
  rcases runBatch_cases s b with hb | ⟨results, -, hb⟩
  · rw [hb]
    exact h
  · rw [hb]
    refine ⟨h.verboseRules_eq, ?_⟩
    show (storeResults s.facts results).1.conclusion.isSome = true ↔ s.mode = .rule
    rw [conclusion_storeResults]
    exact h.conclusion_iff

/-- **A line keeps what is set together.** -/
theorem Steady.advance (h : s.Steady verboseRules) (line : String) :
    (s.advance line).Steady verboseRules := by
  have hh := handled s line
  unfold Session.advance
  generalize s.handle line = outcome at hh ⊢
  cases hh with
  | @command c hc =>
    cases c with
    | therefore =>
      have hnone : ¬ s.facts.conclusion.isSome = true := by
        rw [h.conclusion_iff, mode_of_therefore hc]
        decide
      exact ⟨h.verboseRules_eq, iff_of_false hnone nofun⟩
    | reset => exact ⟨h.verboseRules_eq, iff_of_false nofun nofun⟩
    | _ => exact h
  | @premise f hp hm hf =>
    refine ⟨h.verboseRules_eq, ?_⟩
    show (s.facts.add f).1.conclusion.isSome = true ↔ s.mode = .rule
    rw [show (s.facts.add f).1.conclusion = s.facts.conclusion from
      conclusion_storeResults s.facts [f]]
    exact h.conclusion_iff
  | conclusion hp hm hf => exact ⟨h.verboseRules_eq, iff_of_true rfl rfl⟩
  | batch hp hm hb => exact h.runBatch _
  | wait hp hm hw => exact ⟨h.verboseRules_eq, h.conclusion_iff⟩
  | addend hb hp hf =>
    have h' : ({ s with pending := none } : Session).Steady verboseRules :=
      ⟨h.verboseRules_eq, h.conclusion_iff⟩
    exact h'.runBatch _
  | _ => exact h

theorem Steady.after (lines : List String) :
    ((Session.start verboseRules).after lines).Steady verboseRules :=
  List.foldlRecOn lines Session.advance (Steady.start verboseRules) fun _ h line _ => h.advance line

theorem exists_invariant (verboseRules : Bool) (lines : List String) :
    ∃ premises, Invariant ((start verboseRules).after lines) premises := by
  rw [← History.session_run]
  exact ⟨_, Invariant.run verboseRules lines⟩

/-! ### Changes of the mode -/

/-- The lines that lead to another mode, and the mode. -/
inductive Shift (s : Session) (line : String) : Mode → Prop
  | therefore : s.mode = .premise → s.command? line = some .therefore → Shift s line .conclusion
  | conclude {f : Formula} : s.mode = .conclusion → s.Plain line → Formula.parse line = .ok f →
    Shift s line .rule
  | reset : s.mode = .rule → s.command? line = some .reset → Shift s line .premise

theorem mode_runBatch (s : Session) (b : Batch) : (s.runBatch b).1.mode = s.mode := by
  rcases runBatch_cases s b with hb | ⟨results, -, hb⟩ <;> rw [hb]

theorem shift_of_mode_ne (hne : (s.advance line).mode ≠ s.mode) :
    Shift s line (s.advance line).mode := by
  have hh := handled s line
  unfold advance at hne ⊢
  generalize s.handle line = outcome at hh hne ⊢
  cases hh with
  | @command c hc =>
    cases c with
    | therefore => exact .therefore (mode_of_therefore hc) hc
    | reset => exact .reset (mode_of_reset hc) hc
    | _ => exact absurd rfl hne
  | conclusion hp hm hf => exact .conclude hm hp hf
  | batch hp hm hb => exact absurd (mode_runBatch s _) hne
  | addend hb hp hf => exact absurd (mode_runBatch { s with pending := none } _) hne
  | _ => exact absurd rfl hne

theorem Shift.mode_advance {m : Mode} (h : Shift s line m) : (s.advance line).mode = m := by
  cases h with
  | therefore hm hc => rw [advance_command hc]; rfl
  | conclude hm hp hf => rw [advance_conclusion hp hm hf]
  | reset hm hc => rw [advance_command hc]; rfl

/-- **The mode changes exactly along its edges.** -/
theorem mode_advance_iff {m : Mode} (hne : m ≠ s.mode) :
    (s.advance line).mode = m ↔ Shift s line m := by
  constructor
  · rintro rfl
    exact shift_of_mode_ne hne
  · exact Shift.mode_advance

/-! ### Additions that wait -/

/-- The line calls for an addition to the facts that `reference` stands for, with the statement to
add still to come. -/
structure Starts (s : Session) (line reference : String) (p : Pending) : Prop where
  mode : s.mode = .rule
  idle : s.pending = none
  call : ∃ name, RuleCall.parse line = .ok ⟨name, [reference]⟩ ∧ Rule.lookup? name = some .add
  candidates : s.selectFor .add reference = .ok p.candidates
  silent : p.silent = true ↔ reference = FactBase.wildcard

theorem request_eq_wait {rule : Rule} {call : RuleCall} {p : Pending}
    (h : s.request rule call = .ok (.wait p)) :
    rule = .add ∧ ∃ reference, call.arguments = [reference] ∧
      s.selectFor .add reference = .ok p.candidates ∧
      (p.silent = true ↔ reference = FactBase.wildcard) := by
  unfold request at h
  split at h
  · cases h
  · next reference more hargs =>
    obtain ⟨first, hfirst, h⟩ := bind_eq_ok_iff.mp h
    simp only at h
    split at h
    · split_ifs at h with hadd
      · cases h
        rw [hadd] at hfirst
        exact ⟨hadd, reference, hargs, hfirst, decide_eq_true_iff⟩
      · cases h
    · split_ifs at h
      · obtain ⟨path, -, h⟩ := bind_eq_ok_iff.mp h
        cases h
      · obtain ⟨candidates, -, h⟩ := bind_eq_ok_iff.mp h
        cases h

theorem exists_starts {p : Pending} (hplain : s.Plain line) (hm : s.mode = .rule)
    (h : s.requestOf line = .ok (.wait p)) : ∃ reference, Starts s line reference p := by
  unfold requestOf at h
  split at h
  · cases h
  · next call hcall =>
    split at h
    · cases h
    · next rule hrule =>
      obtain ⟨rfl, reference, hargs, hcandidates, hsilent⟩ := request_eq_wait h
      obtain ⟨name, arguments⟩ := call
      simp only at hargs
      rw [hargs] at hcall
      exact ⟨reference, hm, hplain.notPending, ⟨name, hcall, hrule⟩, hcandidates, hsilent⟩

/-- An addition to nothing was started by the wildcard on an empty store. -/
theorem Starts.of_candidates_nil {reference : String} {p : Pending}
    (h : Starts s line reference p) (hnil : p.candidates = []) :
    reference = FactBase.wildcard ∧ s.facts.entries = [] := by
  have hselect := h.candidates
  rw [hnil] at hselect
  have hwild : reference = FactBase.wildcard := by
    unfold selectFor at hselect
    split at hselect
    · split_ifs at hselect with hw
      exact hw
    · next hne => exact absurd hselect hne
  rw [hwild] at hselect
  refine ⟨hwild, ?_⟩
  rw [selectFor_wildcard] at hselect
  simpa [FactBase.values] using hselect

theorem pending_runBatch (s : Session) (b : Batch) : (s.runBatch b).1.pending = s.pending := by
  rcases runBatch_cases s b with hb | ⟨results, -, hb⟩ <;> rw [hb]

/-- If an addition waits after a line, it waited before and nothing has changed, or the line has
started it. -/
theorem pending_advance {p : Pending} (h : (s.advance line).pending = some p) :
    s.advance line = s ∨
      (∃ reference, Starts s line reference p) ∧ s.advance line = { s with pending := some p } := by
  have hh := handled s line
  unfold advance at h ⊢
  generalize s.handle line = outcome at hh h ⊢
  cases hh with
  | @command c hc =>
    have hidle := (command?_eq_some.mp hc).2.1
    cases c with
    | therefore => exact absurd (hidle.symm.trans h) (by simp)
    | reset => exact absurd (hidle.symm.trans h) (by simp)
    | _ => exact Or.inl rfl
  | premise hp hm hf => exact absurd (hp.notPending.symm.trans h) (by simp)
  | conclusion hp hm hf => exact absurd (hp.notPending.symm.trans h) (by simp)
  | batch hp hm hb =>
    rw [pending_runBatch, hp.notPending] at h
    cases h
  | wait hp hm hw =>
    cases h
    exact Or.inr ⟨exists_starts hp hm hw, rfl⟩
  | addend hb hp hf =>
    rw [pending_runBatch] at h
    cases h
  | _ => exact Or.inl rfl

/-- **Where a waiting addition comes from**: a call somewhere before, with nothing changed since. -/
theorem pending_origin (verboseRules : Bool) (lines : List String) {p : Pending}
    (h : ((start verboseRules).after lines).pending = some p) :
    ∃ before line later reference, lines = before ++ line :: later ∧
      Starts ((start verboseRules).after before) line reference p ∧
      (start verboseRules).after lines =
        { (start verboseRules).after before with pending := some p } := by
  induction lines using List.reverseRecOn with
  | nil => cases h
  | append_singleton lines l ih =>
    rw [after_concat] at h ⊢
    rcases pending_advance h with hsame | ⟨⟨reference, hstarts⟩, hnew⟩
    · rw [hsame] at h ⊢
      obtain ⟨before, line, later, reference, rfl, hstarts, hs⟩ := ih h
      exact ⟨before, line, later ++ [l], reference, by simp, hstarts, hs⟩
    · exact ⟨lines, l, [], reference, rfl, hstarts, hnew⟩

/-- While an addition waits, a line that is no statement is answered with what is missing, or not
at all if it is blank. -/
theorem handle_of_pending_error {p : Pending} {e : ParseError} (hp : s.pending = some p)
    (he : Formula.parse line = .error e) :
    s.handle line = .ok (s, if Text.isBlankText line then {} else
      { errors := [e.message], messages := [additionPrompt] }) := by
  rw [handle, hp]
  simp only [completeAddition, he]
  split_ifs <;> rfl

/-- While an addition waits, a statement is added to every candidate. -/
theorem handle_of_pending_ok {p : Pending} {f : Formula} (hp : s.pending = some p)
    (hf : Formula.parse line = .ok f) :
    s.handle line = .ok (({ s with pending := none } : Session).record .add
      (p.candidates.map fun g => .binary .or g f)) := by
  rw [handle, if_neg (fun hb => Formula.parse_blank hb f hf), hp]
  simp only [completeAddition_ok hf]

/-- Lines that are no statements leave a waiting addition as it is. -/
theorem after_of_pending {p : Pending} (hp : s.pending = some p) :
    ∀ {lines : List String}, (∀ line ∈ lines, ∀ f, Formula.parse line ≠ .ok f) → s.after lines = s
  | [], _ => rfl
  | line :: lines, h => by
    have hadvance : s.advance line = s := by
      rcases hparse : Formula.parse line with e | f
      · rw [advance, handle_of_pending_error hp hparse]
      · exact absurd hparse (h line (by simp) f)
    show (s.advance line).after lines = s
    rw [hadvance]
    exact after_of_pending hp fun l hl => h l (by simp [hl])

/-! ### Starting over -/

/-- The replies to lines; a line that is beyond an answer has its fault in place of a reply. -/
def transcript (s : Session) : List String → List (Except Text.NumeralFault Reply)
  | [] => []
  | line :: lines => (s.handle line).map (·.2) :: (s.advance line).transcript lines

theorem transcript_append (s : Session) : ∀ (xs ys : List String),
    s.transcript (xs ++ ys) = s.transcript xs ++ (s.after xs).transcript ys
  | [], _ => rfl
  | line :: xs, ys => by
    rw [List.cons_append, transcript, transcript, List.cons_append,
      transcript_append (s.advance line) xs ys]
    rfl

/-- **A reset leads to a new session.** -/
theorem Steady.advance_reset (h : s.Steady verboseRules) (hc : s.command? line = some .reset) :
    s.advance line = Session.start verboseRules := by
  rw [advance_command hc, Session.start, ← h.verboseRules_eq]
  show ({ s with facts := .empty, mode := .premise } : Session) = _
  rw [(command?_eq_some.mp hc).2.1]
  rfl

/-! ### All runs -/

/-- What holds of a session after lines. -/
structure Regular (verboseRules : Bool) (lines : List String) (s : Session) : Prop where
  conclusion_iff : s.facts.conclusion.isSome = true ↔ s.mode = .rule
  pending_mode : ∀ p, s.pending = some p → s.mode = .rule
  pending_stored : ∀ p, s.pending = some p → ∀ f ∈ p.candidates, f ∈ s.facts.values
  /-- A waiting addition was started by one of the lines, with nothing changed since. It has no
  candidates only if the line had a wildcard and there were no facts. -/
  pending_started : ∀ p, s.pending = some p → ∃ before line later reference,
    lines = before ++ line :: later ∧
    Starts ((start verboseRules).after before) line reference p ∧
    s = { (start verboseRules).after before with pending := some p } ∧
    (p.candidates = [] → reference = FactBase.wildcard ∧
      ((start verboseRules).after before).facts.entries = [])
  /-- The mode changes only along its edges. -/
  shift_iff : ∀ line m, m ≠ s.mode → ((s.advance line).mode = m ↔ Shift s line m)
  /-- While an addition waits, any line that is no statement is answered as such. -/
  waiting_refuses : ∀ p, s.pending = some p → ∀ line e, Formula.parse line = .error e →
    s.handle line = .ok (s, if Text.isBlankText line then {} else
      { errors := [e.message], messages := [additionPrompt] })
  waiting_stays : ∀ p, s.pending = some p → ∀ later : List String,
    (∀ line ∈ later, ∀ f, Formula.parse line ≠ .ok f) → s.after later = s
  /-- Any statement ends the waiting. -/
  waiting_ends : ∀ p, s.pending = some p → ∀ line f, Formula.parse line = .ok f →
    s.handle line = .ok (({ s with pending := none } : Session).record .add
      (p.candidates.map fun g => .binary .or g f)) ∧
    (s.advance line).pending = none ∧ (s.advance line).mode = .rule
  reset_eq : ∀ line, s.command? line = some .reset → s.advance line = start verboseRules
  /-- The replies after a reset are those of a new session. -/
  reset_replies : ∀ line, s.command? line = some .reset → ∀ later : List String,
    (start verboseRules).transcript (lines ++ line :: later) =
      (start verboseRules).transcript (lines ++ [line]) ++ (start verboseRules).transcript later

theorem Steady.transcript_reset {lines : List String}
    (h : ((Session.start verboseRules).after lines).Steady verboseRules)
    (hc : ((Session.start verboseRules).after lines).command? line = some .reset)
    (later : List String) :
    (Session.start verboseRules).transcript (lines ++ line :: later) =
      (Session.start verboseRules).transcript (lines ++ [line]) ++
        (Session.start verboseRules).transcript later := by
  have hafter : (Session.start verboseRules).after (lines ++ [line]) =
      Session.start verboseRules := by
    rw [after_concat]
    exact h.advance_reset hc
  rw [List.append_cons, transcript_append _ (lines ++ [line]) later, hafter]

/-- **The modes of a session.** After any lines, the conclusion is set exactly in rule mode, and an
addition waits only there, for stored facts. The mode goes from premises to the conclusion on
`therefore`, on to rules with a conclusion that can be read, and back on `reset`, and changes in no
other way. While an addition waits, only a statement changes anything, and it ends the waiting. A
reset leads back to the beginning. -/
theorem runs_regular (verboseRules : Bool) (lines : List String) :
    Regular verboseRules lines ((start verboseRules).after lines) := by
  obtain ⟨premises, hinv⟩ := exists_invariant verboseRules lines
  have hsteady : ((start verboseRules).after lines).Steady verboseRules := Steady.after lines
  exact
    { conclusion_iff := hsteady.conclusion_iff
      pending_mode := fun p hp => (hinv.pending p hp).1
      pending_stored := fun p hp => (hinv.pending p hp).2
      pending_started := fun p hp => by
        obtain ⟨before, line, later, reference, hlines, hstarts, hs⟩ :=
          pending_origin verboseRules lines hp
        exact ⟨before, line, later, reference, hlines, hstarts, hs, hstarts.of_candidates_nil⟩
      shift_iff := fun _ _ => mode_advance_iff
      waiting_refuses := fun _ hp _ _ => handle_of_pending_error hp
      waiting_stays := fun _ hp _ => after_of_pending hp
      waiting_ends := fun p hp line f hf => by
        refine ⟨handle_of_pending_ok hp hf, ?_, ?_⟩
        · rw [advance, handle_of_pending_ok hp hf]
          rfl
        · rw [advance, handle_of_pending_ok hp hf]
          exact (hinv.pending p hp).1
      reset_eq := fun _ => hsteady.advance_reset
      reset_replies := fun _ => hsteady.transcript_reset }

/-- An addition started on an empty store goes through lines that would be commands, and ends with
a statement; then a reset leads to a new session. -/
theorem runs_regular_empty_addition :
    let s := (start true).after ["therefore", "p", "Add(*)"]
    (∃ p, s.pending = some p ∧ p.candidates = []) ∧
      s.after ["exit", " reset", "", "~"] = s ∧ (s.advance "q").pending = none ∧
      (s.after ["q", "Reset"]) = start true := by
  intro s
  have hcandidates : s.pending.map (·.candidates) = some [] := by decide +kernel
  obtain ⟨p, hp, hnil⟩ := Option.map_eq_some_iff.mp hcandidates
  have hunread : ∀ line ∈ ["exit", " reset", "", "~"], (Formula.parse line).toOption = none := by
    decide +kernel
  have hregular := runs_regular true ["therefore", "p", "Add(*)"]
  refine ⟨⟨p, hp, hnil⟩, hregular.waiting_stays p hp _ fun line hline f hf => ?_,
    (hregular.waiting_ends p hp "q" (.atom .q) (by decide +kernel)).2.1,
    (runs_regular true ["therefore", "p", "Add(*)", "q"]).reset_eq "Reset" (by decide +kernel)⟩
  have := hunread line hline
  rw [hf] at this
  cases this

end Session

end Deduction
