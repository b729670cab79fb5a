import Deduction.Proofs.Modes
import Mathlib.Data.List.Perm.Basic
import Mathlib.Data.Option.Basic

/-!
# The order of the premises

Two sessions are alike if they hold the same facts, in whatever order and under whatever numbers,
and agree in all else that matters (`Alike`). A line leads from sessions that are alike to sessions
that are alike, unless it calls a rule on a fact by its number (`Alike.advance`): a call with the
wildcard runs a silent batch over the same candidates in another order, and such a batch has the
same results in another order (`Batch.run_permuted`). Premises in another order lead to sessions
that are alike, since the facts are then the statements that the lines are read as
(`after_premises`). So calls with the wildcard prove the same, whatever the order of the premises.
-/

namespace Deduction

/-- Two outcomes correspond: they are the same error, or results that are related. -/
inductive Corresponds {ε α : Type} (R : α → α → Prop) : Except ε α → Except ε α → Prop
  | error (e : ε) : Corresponds R (.error e) (.error e)
  | ok {a b : α} : R a b → Corresponds R (.ok a) (.ok b)

/-! ### Batches in another order -/

namespace Batch

theorem successes_perm {α : Type} {apply : α → Except RuleError Formula} {xs ys : List α}
    (h : xs.Perm ys) : (successes apply xs).Perm (successes apply ys) :=
  h.filterMap _

theorem pairs_perm {xs xs' ys ys' : List Formula} (hx : xs.Perm xs') (hy : ys.Perm ys') :
    (pairs xs ys).Perm (pairs xs' ys') :=
  hx.flatMap fun _ _ => hy.map _

/-- **A silent batch over the same candidates in another order** has the same results in another
order, or is refused for the same reason. -/
theorem run_permuted {b : Batch} {first : List Formula} {second : Argument}
    (hsilent : b.silent = true) (hfirst : b.first.Perm first)
    (hseconds : Corresponds List.Perm b.seconds ({ b with first, second } : Batch).seconds) :
    Corresponds List.Perm b.run ({ b with first, second } : Batch).run := by
  have hcheck : ({ b with first, second } : Batch).checkPath = b.checkPath := rfl
  simp only [run, hcheck]
  rcases b.rule.schema with e | conclude | conclude
  · exact .error e
  · rcases b.checkPath with e | _
    · exact .error e
    · show Corresponds _ (collect b.silent (b.applyOne conclude) b.first)
        (collect b.silent (b.applyOne conclude) first)
      rw [hsilent, collect_silent, collect_silent]
      exact .ok (successes_perm hfirst)
  · rcases b.checkPath with e | _
    · exact .error e
    · simp only [bind, Except.bind]
      generalize b.seconds = seconds at hseconds
      generalize ({ b with first, second } : Batch).seconds = seconds' at hseconds
      cases hseconds with
      | error e => exact .error e
      | @ok gs gs' hgs =>
        show Corresponds _ (collect b.silent (b.applyTwo conclude) (pairs b.first gs))
          (collect b.silent (b.applyTwo conclude) (pairs first gs'))
        rw [hsilent, collect_silent, collect_silent]
        exact .ok (successes_perm (pairs_perm hfirst hgs))

/-- A second argument that is the wildcard: the candidates may stand in another order. -/
theorem seconds_permuted {b : Batch} {fs first gs : List Formula} (h : fs.Perm gs) :
    Corresponds List.Perm ({ b with second := .many fs } : Batch).seconds
      ({ b with first, second := .many gs } : Batch).seconds := by
  simp only [seconds, h.length_eq]
  split_ifs
  · exact .error _
  · exact .ok h

end Batch

/-! ### Calls with the wildcard -/

/-- The arguments by which a call of `rule` refers to facts; of a rule of replacement the second
argument is a path. -/
def RuleCall.references (call : RuleCall) (rule : Rule) : List String :=
  if rule.isReplacement then call.arguments.take 1 else call.arguments

/-- Whether a line refers to facts by the wildcard only, as far as it calls a rule at all. -/
def wildcardOnly (line : String) : Bool :=
  match RuleCall.parse line with
  | .error _ => true
  | .ok call =>
    match Rule.lookup? call.name with
    | none => true
    | some rule => (call.references rule).all (· = FactBase.wildcard)

namespace Session

variable {s t : Session} {line : String}

/-- What is asked for differs at most in the order of candidates and results. -/
inductive Request.Alike : Request → Request → Prop
  | run {b c : Batch} : Corresponds List.Perm b.run c.run → Alike (.run b) (.run c)
  | wait {p q : Pending} : p.candidates.Perm q.candidates → Alike (.wait p) (.wait q)

theorem request_alike {rule : Rule} {call : RuleCall}
    (h : s.facts.values.Perm t.facts.values)
    (hw : ∀ reference ∈ call.references rule, reference = FactBase.wildcard) :
    Corresponds Request.Alike (s.request rule call) (t.request rule call) := by
  obtain ⟨name, arguments⟩ := call
  rcases arguments with _ | ⟨first, more⟩
  · exact .error _
  have hfirst : first = FactBase.wildcard := by
    refine hw first ?_
    unfold RuleCall.references
    split_ifs <;> simp
  subst hfirst
  have hs := selectFor_wildcard s rule
  have ht := selectFor_wildcard t rule
  -- from the third argument on nothing is looked at
  rcases more with _ | ⟨second, more⟩
  · by_cases hadd : rule = .add
    · subst hadd
      rw [request_add hs, request_add ht]
      exact .ok (.wait h)
    · rw [request_one hs hadd, request_one ht hadd]
      exact .ok (.run (Batch.run_permuted rfl h (.error _)))
  · by_cases hr : rule.isReplacement = true
    · simp only [request, hs, ht, hr, bind, Except.bind]
      rcases RuleCall.readPath rule second with e | path
      · exact .error e
      · exact .ok (.run (Batch.run_permuted (by rfl) h (.error _)))
    · have hsecond : second = FactBase.wildcard := by
        refine hw second ?_
        rw [RuleCall.references, if_neg hr]
        simp
      have hsilent : RuleCall.usesWildcard ⟨name, FactBase.wildcard :: second :: more⟩ = true := by
        simp [RuleCall.usesWildcard]
      rw [hsecond] at hsilent ⊢
      simp only [request, hs, ht, hr, hsilent, bind, Except.bind]
      exact .ok (.run (Batch.run_permuted rfl h
        (Batch.seconds_permuted (b := { rule, first := s.facts.values, silent := true }) h)))

theorem requestOf_alike (h : s.facts.values.Perm t.facts.values) (hw : wildcardOnly line = true) :
    Corresponds Request.Alike (s.requestOf line) (t.requestOf line) := by
  unfold wildcardOnly at hw
  unfold requestOf
  rcases hcall : RuleCall.parse line with e | call
  · exact .error _
  simp only [hcall] at hw ⊢
  rcases hrule : Rule.lookup? call.name with _ | rule
  · exact .error _
  simp only [hrule, List.all_eq_true, decide_eq_true_iff] at hw
  exact request_alike h hw

/-! ### Sessions that are alike -/

/-- Two sessions with the same facts, which may stand in another order, as may the candidates of an
addition that waits. -/
structure Alike (s t : Session) : Prop where
  mode : s.mode = t.mode
  conclusion : s.facts.conclusion = t.facts.conclusion
  nodup : s.facts.values.Nodup
  facts : s.facts.values.Perm t.facts.values
  pending : Option.Rel (fun p q => p.candidates.Perm q.candidates) s.pending t.pending

/-- Storing the same statements in another order. -/
theorem Alike.store (h : Alike s t) {fs gs : List Formula} (hfs : fs.Perm gs) :
    Alike { s with facts := (storeResults s.facts fs).1 }
      { t with facts := (storeResults t.facts gs).1 } where
  mode := h.mode
  conclusion := by
    show (storeResults s.facts fs).1.conclusion = (storeResults t.facts gs).1.conclusion
    rw [conclusion_storeResults, conclusion_storeResults, h.conclusion]
  nodup := nodup_storeResults h.nodup fs
  facts := by
    -- new facts are numbered in another order, but neither store holds a statement twice
    have hnodup := nodup_storeResults (h.facts.nodup_iff.mp h.nodup) gs
    refine (List.perm_ext_iff_of_nodup (nodup_storeResults h.nodup fs) hnodup).mpr fun f => ?_
    rw [mem_values_storeResults, mem_values_storeResults, h.facts.mem_iff, hfs.mem_iff]
  pending := h.pending

theorem Alike.runBatch (h : Alike s t) {b c : Batch} (hrun : Corresponds List.Perm b.run c.run) :
    Alike (s.runBatch b).1 (t.runBatch c).1 := by
  unfold Session.runBatch
  generalize b.run = results, c.run = results' at hrun
  cases hrun with
  | error e => exact h
  | ok hperm => exact h.store hperm

theorem Alike.runCommand (h : Alike s t) (c : Command) :
    Alike (s.runCommand c).1 (t.runCommand c).1 := by
  cases c with
  | therefore => exact ⟨rfl, h.conclusion, h.nodup, h.facts, h.pending⟩
  | reset => exact ⟨rfl, rfl, List.nodup_nil, .refl _, h.pending⟩
  | _ => exact h

theorem Alike.runRule (h : Alike s t) (hw : wildcardOnly line = true) :
    Corresponds (fun x y => Alike x.1 y.1) (s.runRule line) (t.runRule line) := by
  have hrequest := requestOf_alike h.facts hw
  unfold Session.runRule
  generalize s.requestOf line = r, t.requestOf line = r' at hrequest
  cases hrequest with
  | error e =>
    cases e with
    | rule e => exact .ok h
    | numeral e => exact .error e
  | ok hasked =>
    cases hasked with
    | run hrun => exact .ok (h.runBatch hrun)
    | wait hcandidates => exact .ok ⟨h.mode, h.conclusion, h.nodup, h.facts, .some hcandidates⟩

theorem Alike.pending_cases (h : Alike s t) :
    (s.pending = none ∧ t.pending = none) ∨
      ∃ p q, s.pending = some p ∧ t.pending = some q ∧ p.candidates.Perm q.candidates := by
  have hpending := h.pending
  generalize s.pending = waiting, t.pending = waiting' at hpending ⊢
  cases hpending with
  | none => exact Or.inl ⟨rfl, rfl⟩
  | some hpq => exact Or.inr ⟨_, _, rfl, rfl, hpq⟩

theorem Alike.idle (h : Alike s t) (hp : s.pending = none) : t.pending = none := by
  rcases h.pending_cases with ⟨-, hq⟩ | ⟨p, q, hp', -, -⟩
  · exact hq
  · rw [hp] at hp'
    cases hp'

theorem Alike.plain (h : Alike s t) (hp : s.Plain line) : t.Plain line :=
  ⟨hp.notBlank, h.idle hp.notPending, h.mode ▸ hp.notCommand⟩

theorem Alike.command? (h : Alike s t) {c : Command} (hc : s.command? line = some c) :
    t.command? line = some c := by
  obtain ⟨hb, hp, hc⟩ := command?_eq_some.mp hc
  exact command?_eq_some.mpr ⟨hb, h.idle hp, h.mode ▸ hc⟩

theorem Alike.handle_plain (h : Alike s t) (hp : s.Plain line)
    (hw : s.mode = .rule → wildcardOnly line = true) :
    Corresponds (fun x y => Alike x.1 y.1) (s.handle line) (t.handle line) := by
  rw [Session.handle_plain hp, Session.handle_plain (h.plain hp), ← h.mode]
  rcases hm : s.mode with _ | _ | _
  · unfold acceptPremise
    rcases Formula.parse line with e | f
    · exact .ok h
    · exact .ok (h.store (.refl [f]))
  · unfold acceptConclusion
    rcases Formula.parse line with e | f
    · exact .ok h
    · exact .ok ⟨rfl, rfl, h.nodup, h.facts, h.pending⟩
  · exact h.runRule (hw hm)

/-- A statement that ends the waiting is added to the same candidates in either session. -/
theorem Alike.handle_waiting (h : Alike s t) {p q : Pending} (hs : s.pending = some p)
    (ht : t.pending = some q) (hpq : p.candidates.Perm q.candidates) :
    Corresponds (fun x y => Alike x.1 y.1) (s.handle line) (t.handle line) := by
  rcases hparse : Formula.parse line with e | f
  · rw [handle_of_pending_error hs hparse, handle_of_pending_error ht hparse]
    exact .ok h
  · rw [handle_of_pending_ok hs hparse, handle_of_pending_ok ht hparse]
    have hidle : Alike { s with pending := none } { t with pending := none } :=
      ⟨h.mode, h.conclusion, h.nodup, h.facts, .none⟩
    exact .ok (hidle.store (hpq.map _))

/-- **A line has the same effect on sessions that are alike**, unless it calls a rule on a fact by
its number. -/
theorem Alike.handle (h : Alike s t) (hw : s.mode = .rule → wildcardOnly line = true) :
    Corresponds (fun x y => Alike x.1 y.1) (s.handle line) (t.handle line) := by
  by_cases hb : Text.isBlankText line = true
  · rw [Session.handle, Session.handle, if_pos hb, if_pos hb]
    exact .ok h
  rcases h.pending_cases with ⟨hp, -⟩ | ⟨p, q, hp, hq, hpq⟩
  · rcases hc : Command.ofLine? line s.mode with _ | c
    · exact h.handle_plain ⟨Bool.eq_false_iff.mpr hb, hp, hc⟩ hw
    · have hcommand := command?_eq_some.mpr ⟨Bool.eq_false_iff.mpr hb, hp, hc⟩
      rw [handle_command hcommand, handle_command (h.command? hcommand)]
      exact .ok (h.runCommand c)
  · exact h.handle_waiting hp hq hpq

theorem Alike.advance (h : Alike s t) (line : String)
    (hw : s.mode = .rule → wildcardOnly line = true) : Alike (s.advance line) (t.advance line) := by
  have hhandle := h.handle hw
  unfold Session.advance
  generalize s.handle line = outcome, t.handle line = outcome' at hhandle
  cases hhandle with
  | error e => exact h
  | ok hnext => exact hnext

/-- **Lines have the same effect on sessions that are alike.** -/
theorem Alike.after {lines : List String} (h : Alike s t)
    (hw : ∀ line ∈ lines, wildcardOnly line = true) : Alike (s.after lines) (t.after lines) := by
  induction lines generalizing s t with
  | nil => exact h
  | cons line lines ih =>
    exact ih (h.advance line fun _ => hw line (by simp)) fun l hl => hw l (by simp [hl])

/-! ### The verdict -/

theorem Alike.isProven (h : Alike s t) : s.facts.isProven = t.facts.isProven := by
  refine Bool.eq_iff_iff.mpr ?_
  simp only [FactBase.isProven_iff, h.conclusion, h.facts.mem_iff]

theorem ofLine?_of_done {m : Mode} (h : Command.ofLine? line .rule = some .done) (hm : m ≠ .rule) :
    Command.ofLine? line m = none := by
  have hword : Command.word .done = Text.lowercase (Text.strip line) := by
    simpa using List.find?_some h
  unfold Command.ofLine?
  rw [← hword]
  revert hm
  cases m <;> decide

/-- In sessions that are alike, `done` is answered alike, also where it is taken for a statement. -/
theorem Alike.reply_done (h : Alike s t) (hd : Command.ofLine? line .rule = some .done) :
    (s.handle line).map (·.2) = (t.handle line).map (·.2) := by
  obtain ⟨e, he⟩ : ∃ e, Formula.parse line = .error e := by
    rcases hparse : Formula.parse line with e | f
    · exact ⟨e, rfl⟩
    · rw [Command.ofLine?_of_parse hparse] at hd
      cases hd
  by_cases hb : Text.isBlankText line = true
  · rw [Session.handle, Session.handle, if_pos hb, if_pos hb]
    rfl
  rcases h.pending_cases with ⟨hp, -⟩ | ⟨p, q, hp, hq, -⟩
  · by_cases hm : s.mode = .rule
    · have hcommand := command?_eq_some.mpr ⟨Bool.eq_false_iff.mpr hb, hp, hm.symm ▸ hd⟩
      rw [handle_command hcommand, handle_command (h.command? hcommand)]
      simp only [Session.runCommand, h.isProven]
      rfl
    · have hplain : s.Plain line := ⟨Bool.eq_false_iff.mpr hb, hp, ofLine?_of_done hd hm⟩
      rw [Session.handle_plain hplain, Session.handle_plain (h.plain hplain), ← h.mode,
        acceptPremise, acceptPremise, acceptConclusion, acceptConclusion, he]
      rcases hmode : s.mode with _ | _ | _
      · rfl
      · rfl
      · exact absurd hmode hm
  · rw [handle_of_pending_error hp he, handle_of_pending_error hq he]
    rfl

/-! ### Premises -/

/-- While premises are entered, a line that is a statement is stored, and any other line but
`therefore` does nothing. -/
theorem advance_premise (hm : s.mode = .premise) (hp : s.pending = none)
    (ht : Command.ofLine? line .premise ≠ some .therefore) :
    (s.advance line).mode = .premise ∧ ∀ f, f ∈ (s.advance line).facts.values ↔
      f ∈ s.facts.values ∨ Formula.parse line = .ok f := by
  have hh := handled s line
  unfold advance
  generalize s.handle line = outcome at hh ⊢
  cases hh with
  | blank hb => exact ⟨hm, fun f => (or_iff_left (Formula.parse_blank hb f)).symm⟩
  | @command c hc =>
    have hline := (command?_eq_some.mp hc).2.2
    have hunread : ∀ f, Formula.parse line ≠ .ok f := by
      intro f hf
      rw [Command.ofLine?_of_parse hf] at hline
      cases hline
    cases c with
    | therefore => exact absurd (hm ▸ hline) ht
    | reset => exact absurd (hm.symm.trans (mode_of_reset hc)) (by decide)
    | _ => exact ⟨hm, fun f => (or_iff_left (hunread f)).symm⟩
  | @premise g _ _ hf =>
    refine ⟨hm, fun f => ?_⟩
    simp only [FactBase.mem_values_add, hf, Except.ok.injEq, eq_comm]
  | unread _ _ he => exact ⟨hm, fun f => (or_iff_left (by simp [he])).symm⟩
  | noAddend _ hq _ => exact absurd (hp.symm.trans hq) (by simp)
  | addend _ hq _ => exact absurd (hp.symm.trans hq) (by simp)
  | conclusion _ hm' _ => exact absurd (hm.symm.trans hm') (by decide)
  | fault _ hm' _ => exact absurd (hm.symm.trans hm') (by decide)
  | refused _ hm' _ => exact absurd (hm.symm.trans hm') (by decide)
  | batch _ hm' _ => exact absurd (hm.symm.trans hm') (by decide)
  | wait _ hm' _ => exact absurd (hm.symm.trans hm') (by decide)

theorem pending_of_premise {verboseRules : Bool} {lines : List String}
    (hm : ((start verboseRules).after lines).mode = .premise) :
    ((start verboseRules).after lines).pending = none := by
  obtain ⟨_, hinv⟩ := exists_invariant verboseRules lines
  refine Option.eq_none_iff_forall_ne_some.mpr fun p hp => ?_
  have hrule := (hinv.pending p hp).1
  rw [hm] at hrule
  cases hrule

theorem conclusion_of_premise {verboseRules : Bool} {lines : List String}
    (hm : ((start verboseRules).after lines).mode = .premise) :
    ((start verboseRules).after lines).facts.conclusion = none := by
  have hsteady : ((start verboseRules).after lines).Steady verboseRules := Steady.after lines
  have hset := hsteady.conclusion_iff
  rw [hm] at hset
  simpa using hset

/-- The facts after lines none of which is `therefore`: the statements that the lines are read
as. -/
theorem after_premises (verboseRules : Bool) {lines : List String}
    (h : ∀ line ∈ lines, Command.ofLine? line .premise ≠ some .therefore) :
    ((start verboseRules).after lines).mode = .premise ∧
      ∀ f, f ∈ ((start verboseRules).after lines).facts.values ↔
        ∃ line ∈ lines, Formula.parse line = .ok f := by
  induction lines using List.reverseRecOn with
  | nil => exact ⟨rfl, fun f => by simp [after, start, FactBase.values]⟩
  | append_singleton lines line ih =>
    obtain ⟨hm, hfacts⟩ := ih fun l hl => h l (by simp [hl])
    rw [after_concat]
    have hline := advance_premise hm (pending_of_premise hm) (h line (by simp))
    refine ⟨hline.1, fun f => ?_⟩
    rw [hline.2, hfacts]
    simp [or_and_right, exists_or]

/-- Premises in another order lead to sessions that are alike. -/
theorem alike_after_premises (verboseRules verboseRules' : Bool) {lines lines' : List String}
    (hperm : lines.Perm lines')
    (h : ∀ line ∈ lines, Command.ofLine? line .premise ≠ some .therefore) :
    Alike ((start verboseRules).after lines) ((start verboseRules').after lines') := by
  obtain ⟨hm, hfacts⟩ := after_premises verboseRules h
  obtain ⟨hm', hfacts'⟩ :=
    after_premises verboseRules' fun line hl => h line (hperm.mem_iff.mpr hl)
  obtain ⟨_, hinv⟩ := exists_invariant verboseRules lines
  obtain ⟨_, hinv'⟩ := exists_invariant verboseRules' lines'
  refine ⟨hm.trans hm'.symm, ?_, hinv.valid.nodup, ?_, ?_⟩
  · rw [conclusion_of_premise hm, conclusion_of_premise hm']
  · refine (List.perm_ext_iff_of_nodup hinv.valid.nodup hinv'.valid.nodup).mpr fun f => ?_
    simp only [hfacts, hfacts', hperm.mem_iff]
  · rw [pending_of_premise hm, pending_of_premise hm']
    exact .none

/-! ### Two runs -/

/-- From premises no line leads to rules at once. -/
theorem mode_advance_ne_rule (hm : s.mode = .premise) : (s.advance line).mode ≠ .rule := by
  intro hrule
  have hne : Mode.rule ≠ s.mode := by rw [hm]; decide
  cases (mode_advance_iff hne).mp hrule with
  | conclude hm' _ _ => exact absurd (hm.symm.trans hm') (by decide)

/-- **The order of the premises does not matter to calls with the wildcard.** Two new sessions are
fed with the same premises in another order, then with `therefore`, a conclusion, and further lines
none of which calls a rule on a fact by its number. In the end they have the same facts and equally
many, the same mode and conclusion, both or neither wait for a statement to add, and `done` is
answered alike. Nothing has to be known of the two lines after the premises, and there may be resets
among the further lines. -/
theorem premise_order_irrelevant {premises premises' calls : List String}
    (therefore conclusion : String) (verboseRules verboseRules' : Bool)
    (hperm : premises.Perm premises')
    (hpremises : ∀ line ∈ premises, Command.ofLine? line .premise ≠ some .therefore)
    (hcalls : ∀ line ∈ calls, wildcardOnly line = true) :
    let s := (start verboseRules).after (premises ++ therefore :: conclusion :: calls)
    let t := (start verboseRules').after (premises' ++ therefore :: conclusion :: calls)
    (∀ f, f ∈ s.facts.values ↔ f ∈ t.facts.values) ∧ s.facts.size = t.facts.size ∧
      s.mode = t.mode ∧ s.facts.conclusion = t.facts.conclusion ∧
      s.pending.isSome = t.pending.isSome ∧
      ∀ line, Command.ofLine? line .rule = some .done →
        (s.handle line).map (·.2) = (t.handle line).map (·.2) := by
  intro s t
  have halike : Alike s t := by
    have hentered := alike_after_premises verboseRules verboseRules' hperm hpremises
    have hm := (after_premises verboseRules hpremises).1
    have hannounced := hentered.advance therefore fun hrule => by
      rw [hm] at hrule
      cases hrule
    have hconcluded := hannounced.advance conclusion fun hrule =>
      absurd hrule (mode_advance_ne_rule hm)
    simp only [s, t, Session.after, List.foldl_append]
    exact hconcluded.after hcalls
  refine ⟨fun f => halike.facts.mem_iff, ?_, halike.mode, halike.conclusion, ?_,
    fun _ => halike.reply_done⟩
  · simpa [FactBase.values, FactBase.size] using halike.facts.length_eq
  · rcases halike.pending_cases with ⟨hp, hq⟩ | ⟨p, q, hp, hq, -⟩
    · rw [hp, hq]
    · rw [hp, hq]
      rfl

/-- Premises, one of them twice and one that cannot be read, in two orders. The facts then stand in
two orders, too, but they are the same. -/
theorem premise_order_irrelevant_detachment :
    let calls := ["MP(*,*)", "DN(*,1)", "MP(", "Add(*)", "done", "s"]
    let s := (start false).after (["p -> q", "p", "r V", "(p)"] ++ "therefore" :: "q" :: calls)
    let t := (start false).after (["(p)", "r V", "p", "p -> q"] ++ "therefore" :: "q" :: calls)
    s.facts.values ≠ t.facts.values ∧ (∀ f, f ∈ s.facts.values ↔ f ∈ t.facts.values) ∧
      s.facts.size = t.facts.size ∧ t.facts.conclusion = some (.atom .q) ∧
      (s.handle "done").map (·.2) = (t.handle "done").map (·.2) := by
  intro calls s t
  have hperm : ["p -> q", "p", "r V", "(p)"].Perm ["(p)", "r V", "p", "p -> q"] :=
    (List.reverse_perm _).symm
  obtain ⟨hfacts, hsize, -, hconclusion, -, hdone⟩ := premise_order_irrelevant "therefore" "q"
    false false hperm (by decide +kernel) (show ∀ line ∈ calls, wildcardOnly line = true by
      decide +kernel)
  have hset : s.facts.conclusion = some (.atom .q) := by decide +kernel
  exact ⟨by decide +kernel, hfacts, hsize, hconclusion.symm.trans hset,
    hdone "done" (by decide +kernel)⟩

end Session

end Deduction
