import Deduction.Proofs.Inference
import Deduction.Proofs.Store
import Deduction.Session.Basic

/-!
# Runs of a session

A session is fed line by line (`advance`); a line that is beyond an answer is skipped. `Handled`
lists all that a line can do, and `handled` says that nothing else happens: invariants of a run are
proved from it, case by case, and never by opening `handle`. What a rule call is applied to are
always stored statements (`requestOf_drawnFrom`).

`History` runs a session and keeps with it the premises that were entered since the beginning or
the last reset.
-/

namespace Deduction

namespace Session

variable {s : Session} {line : String}

/-- A new session. -/
def start (verboseRules : Bool) : Session := { verboseRules }

/-- The session after a line; a line that is beyond an answer is skipped. -/
def advance (s : Session) (line : String) : Session :=
  match s.handle line with
  | .ok (s', _) => s'
  | .error _ => s

/-- The session after lines. -/
def after (s : Session) (lines : List String) : Session := lines.foldl advance s

/-- A session that lines lead to. -/
def Reachable (s : Session) : Prop := ∃ verboseRules lines, s = (start verboseRules).after lines

/-- The command that a line is taken for. -/
def command? (s : Session) (line : String) : Option Command :=
  if Text.isBlankText line || s.pending.isSome then none else Command.ofLine? line s.mode

/-- The line is neither blank nor a command, and no addition waits for it. -/
structure Plain (s : Session) (line : String) : Prop where
  notBlank : Text.isBlankText line = false
  notPending : s.pending = none
  notCommand : Command.ofLine? line s.mode = none

instance (s : Session) (line : String) : Decidable (s.Plain line) :=
  decidable_of_iff (Text.isBlankText line = false ∧ s.pending.isNone = true ∧
      Command.ofLine? line s.mode = none)
    ⟨fun h => ⟨h.1, Option.isNone_iff_eq_none.mp h.2.1, h.2.2⟩,
      fun h => ⟨h.1, Option.isNone_iff_eq_none.mpr h.2, h.3⟩⟩

/-- The statement that a line enters as a premise. -/
def premise? (s : Session) (line : String) : Option Formula :=
  if s.Plain line ∧ s.mode = .premise then (Formula.parse line).toOption else none

theorem after_concat (s : Session) (lines : List String) (line : String) :
    s.after (lines ++ [line]) = (s.after lines).advance line :=
  List.foldl_concat ..

theorem Plain.command?_eq (hp : s.Plain line) : s.command? line = none := by
  simp [command?, hp.notBlank, hp.notPending, hp.notCommand]

theorem command?_eq_some {c : Command} :
    s.command? line = some c ↔
      Text.isBlankText line = false ∧ s.pending = none ∧ Command.ofLine? line s.mode = some c := by
  unfold command?
  rcases Text.isBlankText line with _ | _
  · rcases s.pending with _ | p <;> simp
  · simp

theorem handle_command {c : Command} (h : s.command? line = some c) :
    s.handle line = .ok (s.runCommand c) := by
  obtain ⟨hb, hp, hc⟩ := command?_eq_some.mp h
  unfold handle
  rw [if_neg (by simp [hb]), hp]
  simp only [hc]

/-- A line that is no command is taken as the mode says. -/
theorem handle_plain (hp : s.Plain line) :
    s.handle line = match s.mode with
      | .premise => .ok (s.acceptPremise line)
      | .conclusion => .ok (s.acceptConclusion line)
      | .rule => s.runRule line := by
  have hcommand := hp.notCommand
  unfold handle
  rw [if_neg (by simp [hp.notBlank]), hp.notPending]
  generalize s.mode = mode at hcommand ⊢
  cases mode <;> simp only [hcommand]

theorem premise?_eq_some {f : Formula} :
    s.premise? line = some f ↔ s.Plain line ∧ s.mode = .premise ∧ Formula.parse line = .ok f := by
  unfold premise?
  split_ifs with h
  · rcases Formula.parse line with e | g <;> simp [Except.toOption, h.1, h.2]
  · constructor
    · intro hc; cases hc
    · rintro ⟨hp, hm, -⟩; exact absurd ⟨hp, hm⟩ h

theorem premise?_eq_none_of_not_plain (h : ¬ s.Plain line) : s.premise? line = none := by
  rw [premise?, if_neg (fun hc => h hc.1)]

theorem premise?_eq_none_of_mode (h : s.mode ≠ .premise) : s.premise? line = none := by
  rw [premise?, if_neg (fun hc => h hc.2)]

/-! ### What a line can do -/

/-- What a line can do to a session, and how it is answered. -/
inductive Handled (s : Session) (line : String) :
    Except Text.NumeralFault (Session × Reply) → Prop
  | blank : Text.isBlankText line = true → Handled s line (.ok (s, {}))
  | command {c : Command} : s.command? line = some c → Handled s line (.ok (s.runCommand c))
  | premise {f : Formula} : s.Plain line → s.mode = .premise → Formula.parse line = .ok f →
    Handled s line (.ok ({ s with facts := (s.facts.add f).1 }, {}))
  | conclusion {f : Formula} : s.Plain line → s.mode = .conclusion → Formula.parse line = .ok f →
    Handled s line (.ok ({ s with facts := { s.facts with conclusion := some f }, mode := .rule },
      { messages := ["Entering rule mode"] }))
  | unread {e : ParseError} : s.Plain line → s.mode ≠ .rule → Formula.parse line = .error e →
    Handled s line (.ok (s, { errors := [e.message] }))
  | fault {e : Text.NumeralFault} : s.Plain line → s.mode = .rule →
    s.requestOf line = .error (.numeral e) → Handled s line (.error e)
  | refused {e : RuleError} : s.Plain line → s.mode = .rule →
    s.requestOf line = .error (.rule e) → Handled s line (.ok (s, { errors := [e.message] }))
  | batch {b : Batch} : s.Plain line → s.mode = .rule → s.requestOf line = .ok (.run b) →
    Handled s line (.ok (s.runBatch b))
  | wait {pending : Pending} : s.Plain line → s.mode = .rule →
    s.requestOf line = .ok (.wait pending) →
    Handled s line (.ok ({ s with pending := some pending }, { messages := [additionPrompt] }))
  | noAddend {pending : Pending} {e : ParseError} : Text.isBlankText line = false →
    s.pending = some pending → Formula.parse line = .error e →
    Handled s line (.ok (s, { errors := [e.message], messages := [additionPrompt] }))
  | addend {pending : Pending} {f : Formula} : Text.isBlankText line = false →
    s.pending = some pending → Formula.parse line = .ok f →
    Handled s line (.ok (({ s with pending := none } : Session).runBatch (pending.batch f)))

theorem handled_runRule (hp : s.Plain line) (hm : s.mode = .rule) :
    Handled s line (s.runRule line) := by
  unfold runRule
  split
  · next e he => exact Handled.fault hp hm he
  · next e he => exact Handled.refused hp hm he
  · next b hb => exact Handled.batch hp hm hb
  · next pending hw => exact Handled.wait hp hm hw

theorem handled_plain (hp : s.Plain line) : Handled s line (s.handle line) := by
  rw [handle_plain hp]
  split
  · next hm =>
    unfold acceptPremise
    split
    · next f hf => exact Handled.premise hp hm hf
    · next e he => exact Handled.unread hp (by simp [hm]) he
  · next hm =>
    unfold acceptConclusion
    split
    · next f hf => exact Handled.conclusion hp hm hf
    · next e he => exact Handled.unread hp (by simp [hm]) he
  · next hm => exact handled_runRule hp hm

/-- **All that a line can do.** -/
theorem handled (s : Session) (line : String) : Handled s line (s.handle line) := by
  by_cases hb : Text.isBlankText line = true
  · unfold handle
    rw [if_pos hb]
    exact Handled.blank hb
  rcases hp : s.pending with _ | pending
  · rcases hc : Command.ofLine? line s.mode with _ | c
    · exact handled_plain ⟨Bool.eq_false_iff.mpr hb, hp, hc⟩
    · have hcommand := command?_eq_some.mpr ⟨Bool.eq_false_iff.mpr hb, hp, hc⟩
      rw [handle_command hcommand]
      exact Handled.command hcommand
  · unfold handle
    rw [if_neg hb, hp]
    simp only
    unfold completeAddition
    split
    · next e he => exact Handled.noAddend (Bool.eq_false_iff.mpr hb) hp he
    · next f hf => exact Handled.addend (Bool.eq_false_iff.mpr hb) hp hf

/-! ### What a rule call is applied to -/

/-- What is asked for is asked of the statements `fs`. -/
def Request.DrawnFrom (fs : List Formula) : Request → Prop
  | .run b => (∀ f ∈ b.first, f ∈ fs) ∧ ∀ gs, b.second = .many gs → ∀ g ∈ gs, g ∈ fs
  | .wait pending => ∀ f ∈ pending.candidates, f ∈ fs

theorem mem_of_select {b : FactBase} {reference : String} {fs : List Formula}
    (h : b.select reference = .ok fs) : ∀ f ∈ fs, f ∈ b.values := by
  simp only [FactBase.select] at h
  split_ifs at h
  · cases h
    exact fun f hf => hf
  · split at h
    · cases h
    · split_ifs at h
      cases h
      intro f hf
      simp only [FactBase.get?, Option.mem_toList, Option.map_eq_some_iff] at hf
      obtain ⟨e, he, rfl⟩ := hf
      exact FactBase.mem_values.mpr ⟨e, List.mem_of_find?_eq_some he, rfl⟩

theorem mem_of_selectFor {rule : Rule} {reference : String} {fs : List Formula}
    (h : s.selectFor rule reference = .ok fs) : ∀ f ∈ fs, f ∈ s.facts.values := by
  unfold selectFor at h
  split at h
  · split_ifs at h
    cases h
    simp
  · exact mem_of_select h

theorem request_drawnFrom {rule : Rule} {call : RuleCall} {r : Request}
    (h : s.request rule call = .ok r) : r.DrawnFrom s.facts.values := by
  unfold request at h
  split at h
  · cases h
  obtain ⟨first, hfirst, h⟩ := bind_eq_ok_iff.mp h
  have hin := mem_of_selectFor hfirst
  simp only at h
  split at h
  · split_ifs at h
    · cases h
      exact hin
    · cases h
      exact ⟨hin, fun gs hgs => by cases hgs⟩
  · split_ifs at h
    · obtain ⟨path, -, h⟩ := bind_eq_ok_iff.mp h
      cases h
      exact ⟨hin, fun gs hgs => by cases hgs⟩
    · obtain ⟨candidates, hc, h⟩ := bind_eq_ok_iff.mp h
      cases h
      exact ⟨hin, fun gs hgs => by cases hgs; exact mem_of_selectFor hc⟩

theorem requestOf_drawnFrom {r : Request} (h : s.requestOf line = .ok r) :
    r.DrawnFrom s.facts.values := by
  unfold requestOf at h
  split at h
  · cases h
  · split at h
    · cases h
    · exact request_drawnFrom h

/-! ### Storing results -/

theorem storeResults_cons (b : FactBase) (f : Formula) (fs : List Formula) :
    (storeResults b (f :: fs)).1 = (storeResults (b.add f).1 fs).1 := rfl

theorem storeResults_induction {P : FactBase → Prop} :
    ∀ {fs : List Formula} {b : FactBase}, P b → (∀ b f, f ∈ fs → P b → P (b.add f).1) →
      P (storeResults b fs).1
  | [], b, hb, _ => hb
  | f :: fs, b, hb, hadd => by
    rw [storeResults_cons]
    exact storeResults_induction (hadd b f (by simp) hb) fun b g hg => hadd b g (by simp [hg])

theorem conclusion_storeResults (b : FactBase) (fs : List Formula) :
    (storeResults b fs).1.conclusion = b.conclusion := by
  refine storeResults_induction (P := fun b' => b'.conclusion = b.conclusion) rfl ?_
  intro b' f _ hb'
  rw [← hb', FactBase.add]
  split_ifs <;> rfl

theorem entries_prefix_storeResults (b : FactBase) (fs : List Formula) :
    b.entries <+: (storeResults b fs).1.entries :=
  storeResults_induction (P := fun c => b.entries <+: c.entries) List.prefix_rfl
    fun c f _ hc => hc.trans (c.entries_prefix_add f)

theorem mem_values_storeResults {f : Formula} : ∀ {fs : List Formula} {b : FactBase},
    f ∈ (storeResults b fs).1.values ↔ f ∈ b.values ∨ f ∈ fs
  | [], b => by simp [storeResults]
  | g :: fs, b => by
    rw [storeResults_cons, mem_values_storeResults, FactBase.mem_values_add, List.mem_cons,
      or_assoc]

theorem nodup_storeResults {b : FactBase} (hb : b.values.Nodup) (fs : List Formula) :
    (storeResults b fs).1.values.Nodup :=
  storeResults_induction (P := fun b => b.values.Nodup) hb fun _ f _ h => FactBase.nodup_add h f

theorem valid_storeResults {b : FactBase} (hb : b.Valid) (fs : List Formula) :
    (storeResults b fs).1.Valid :=
  storeResults_induction (P := FactBase.Valid) hb fun _ f _ h => h.add f

theorem runBatch_cases (s : Session) (b : Batch) :
    (s.runBatch b).1 = s ∨ ∃ results, b.run = .ok results ∧
      (s.runBatch b).1 = { s with facts := (storeResults s.facts results).1 } := by
  unfold runBatch
  split
  · next results hr => exact Or.inr ⟨results, hr, rfl⟩
  · exact Or.inl rfl

end Session

/-! ### Histories -/

/-- A session, with the premises entered since the beginning or the last reset. -/
structure History where
  session : Session
  premises : List Formula

namespace History

/-- The history after a line. -/
def step (h : History) (line : String) : History where
  session := h.session.advance line
  premises :=
    if h.session.command? line = some .reset then []
    else h.premises ++ (h.session.premise? line).toList

/-- The history of a new session that is fed with lines. -/
def run (verboseRules : Bool) (lines : List String) : History :=
  lines.foldl step ⟨Session.start verboseRules, []⟩

variable {h : History} {line : String}

theorem premises_step (hc : h.session.command? line ≠ some .reset)
    (hp : h.session.premise? line = none) : (h.step line).premises = h.premises := by
  rw [step, if_neg hc, hp]
  simp

theorem premises_step_of_plain (hp : h.session.Plain line) (hm : h.session.mode ≠ .premise) :
    (h.step line).premises = h.premises :=
  premises_step (by simp [hp.command?_eq]) (Session.premise?_eq_none_of_mode hm)

theorem premises_step_of_pending {p : Pending} (hp : h.session.pending = some p) :
    (h.step line).premises = h.premises := by
  refine premises_step (by simp [Session.command?, hp]) ?_
  refine Session.premise?_eq_none_of_not_plain fun hplain => ?_
  rw [hplain.notPending] at hp
  cases hp

/-- **Induction along a history.** -/
theorem run_induction {P : History → Prop} {verboseRules : Bool} (lines : List String)
    (hstart : P ⟨Session.start verboseRules, []⟩) (hstep : ∀ h line, P h → P (h.step line)) :
    P (run verboseRules lines) :=
  List.foldlRecOn lines step hstart fun h hh line _ => hstep h line hh

theorem session_run (verboseRules : Bool) (lines : List String) :
    (run verboseRules lines).session = (Session.start verboseRules).after lines :=
  (List.foldl_hom session fun _ _ => rfl).symm

end History

end Deduction
