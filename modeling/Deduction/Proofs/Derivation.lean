import Deduction.Proofs.Run

/-!
# The store is a proof

After any lines, the facts are the premises entered since the last reset, without repetitions,
followed by statements each of which follows from facts before it (`ProofFrom`). This is kept line
by line (`Invariant.step`): a batch and a waiting addition are applied to statements that are
stored already, results are stored one after the other behind them, and a reset empties the store
while no addition waits.

Two consequences: the numbers of the facts order the proof, and every fact is true whenever the
premises are.
-/

namespace Deduction

open Session

/-! ### Proofs -/

/-- A list of statements is a proof from premises: the premises come first, and each further
statement follows from those before it. -/
inductive ProofFrom (premises : List Formula) : List Formula → Prop
  | premises : ProofFrom premises premises
  | step {fs : List Formula} {f : Formula} : ProofFrom premises fs → Follows (· ∈ fs) f →
    ProofFrom premises (fs ++ [f])

namespace ProofFrom

variable {premises fs : List Formula}

theorem isPrefix (h : ProofFrom premises fs) : premises <+: fs := by
  induction h with
  | premises => exact List.prefix_rfl
  | step _ _ ih => exact ih.trans (List.prefix_append _ _)

theorem follows_take (h : ProofFrom premises fs) :
    ∀ k f, premises.length ≤ k → fs[k]? = some f → Follows (· ∈ fs.take k) f := by
  induction h with
  | premises =>
    intro k f hk hf
    rw [List.getElem?_eq_none hk] at hf
    cases hf
  | @step fs g hfs hg ih =>
    intro k f hk hf
    rcases Nat.lt_or_ge k fs.length with hlt | hge
    · rw [List.getElem?_append_left hlt] at hf
      rw [List.take_append_of_le_length (Nat.le_of_lt hlt)]
      exact ih k f hk hf
    · rw [List.getElem?_append_right hge] at hf
      obtain ⟨hlt, -⟩ := List.getElem?_eq_some_iff.mp hf
      obtain rfl : k = fs.length := by
        rw [List.length_singleton] at hlt
        omega
      rw [Nat.sub_self, List.getElem?_cons_zero, Option.some.injEq] at hf
      rw [List.take_left, ← hf]
      exact hg

theorem entails (h : ProofFrom premises fs) : ∀ f ∈ fs, Entails premises f := by
  induction h with
  | premises => exact fun f hf v hv => hv f hf
  | step _ hg ih =>
    intro f hf
    rcases List.mem_append.mp hf with hf | hf
    · exact ih f hf
    · rw [List.mem_singleton.mp hf]
      exact fun v hv => hg.eval v fun f hf => ih f hf v hv

/-- Storing a statement that follows from stored ones keeps a proof. -/
theorem add {b : FactBase} {f : Formula} (h : ProofFrom premises b.values)
    (hf : Follows (· ∈ b.values) f) : ProofFrom premises (b.add f).1.values := by
  rw [FactBase.values_add]
  split_ifs
  · exact h
  · exact h.step hf

end ProofFrom

/-! ### The invariant -/

/-- What holds of a session and the premises entered since the last reset: the store is a proof
from the distinct premises, without anything derived as long as premises are taken, and a waiting
addition holds stored statements. -/
structure Invariant (s : Session) (premises : List Formula) : Prop where
  valid : s.facts.Valid
  proof : ProofFrom premises.eraseDups s.facts.values
  entering : s.mode = .premise → s.facts.values = premises.eraseDups
  pending : ∀ p, s.pending = some p →
    s.mode = .rule ∧ ∀ f ∈ p.candidates, f ∈ s.facts.values

namespace Invariant

variable {s : Session} {premises : List Formula}

theorem start (verboseRules : Bool) : Invariant (Session.start verboseRules) [] where
  valid := FactBase.Valid.empty
  proof := ProofFrom.premises
  entering _ := rfl
  pending p hp := by cases hp

theorem add_premise (h : Invariant s premises) (hm : s.mode = .premise) (f : Formula) :
    Invariant { s with facts := (s.facts.add f).1 } (premises ++ [f]) := by
  have hvalues : (s.facts.add f).1.values = (premises ++ [f]).eraseDups :=
    FactBase.values_add_eq_eraseDups (h.entering hm)
  refine ⟨h.valid.add f, ?_, fun _ => hvalues, fun p hp => ?_⟩
  · show ProofFrom _ (s.facts.add f).1.values
    rw [hvalues]
    exact ProofFrom.premises
  · have hr := (h.pending p hp).1
    rw [hm] at hr
    cases hr

/-- Storing results that follow from stored statements. The statements that were stored before
stay, so that all results follow from what is before them. -/
theorem store (h : Invariant s premises) (hm : s.mode = .rule) (hp : s.pending = none)
    {results : List Formula} (hr : ∀ f ∈ results, Follows (· ∈ s.facts.values) f) :
    Invariant { s with facts := (storeResults s.facts results).1 } premises := by
  have hstore : ProofFrom premises.eraseDups (storeResults s.facts results).1.values ∧
      ∀ f ∈ s.facts.values, f ∈ (storeResults s.facts results).1.values := by
    refine storeResults_induction (P := fun b => ProofFrom premises.eraseDups b.values ∧
      ∀ f ∈ s.facts.values, f ∈ b.values) ⟨h.proof, fun f hf => hf⟩ ?_
    rintro b f hf ⟨hproof, hsub⟩
    exact ⟨hproof.add ((hr f hf).mono hsub),
      fun g hg => FactBase.mem_values_add.mpr (Or.inl (hsub g hg))⟩
  refine ⟨valid_storeResults h.valid results, hstore.1, fun hm' => ?_, fun p hp' => ?_⟩
  · rw [hm] at hm'
    cases hm'
  · rw [hp] at hp'
    cases hp'

theorem runBatch (h : Invariant s premises) (hm : s.mode = .rule) (hp : s.pending = none)
    {b : Batch} (hfirst : ∀ f ∈ b.first, f ∈ s.facts.values)
    (hsecond : ∀ gs, b.second = .many gs → ∀ g ∈ gs, g ∈ s.facts.values) :
    Invariant (s.runBatch b).1 premises := by
  rcases runBatch_cases s b with hb | ⟨results, hr, hb⟩
  · rw [hb]
    exact h
  · rw [hb]
    exact h.store hm hp (Batch.run_follows hr hfirst hsecond)

theorem runCommand (h : Invariant s premises) (hp : s.pending = none) (c : Command) :
    Invariant (s.runCommand c).1 (if c = .reset then [] else premises) := by
  cases c with
  | therefore =>
    refine ⟨h.valid, h.proof, fun hm => (by cases hm), fun p hp' => ?_⟩
    rw [show s.pending = some p from hp'] at hp
    cases hp
  | reset =>
    refine ⟨FactBase.Valid.empty, ProofFrom.premises, fun _ => rfl, fun p hp' => ?_⟩
    rw [show s.pending = some p from hp'] at hp
    cases hp
  | _ => exact h

theorem accept_conclusion (h : Invariant s premises) (hp : s.pending = none) (f : Formula) :
    Invariant { s with facts := { s.facts with conclusion := some f }, mode := .rule }
      premises := by
  refine ⟨⟨h.valid.numbers, h.valid.next, h.valid.nodup⟩, h.proof, fun hm => (by cases hm),
    fun p hp' => ?_⟩
  rw [show s.pending = some p from hp'] at hp
  cases hp

theorem wait (h : Invariant s premises) (hm : s.mode = .rule) {p : Pending}
    (hp : ∀ f ∈ p.candidates, f ∈ s.facts.values) :
    Invariant { s with pending := some p } premises := by
  refine ⟨h.valid, h.proof, h.entering, fun p' hp' => ?_⟩
  cases hp'
  exact ⟨hm, hp⟩

theorem complete (h : Invariant s premises) {p : Pending} (hp : s.pending = some p)
    (addend : Formula) :
    Invariant (({ s with pending := none } : Session).runBatch (p.batch addend)).1 premises := by
  obtain ⟨hm, hcandidates⟩ := h.pending p hp
  have h' : Invariant { s with pending := none } premises :=
    ⟨h.valid, h.proof, h.entering, fun p hp => by cases hp⟩
  exact h'.runBatch hm rfl hcandidates fun gs hgs => by cases hgs

end Invariant

/-- **A line keeps the invariant.** -/
theorem Invariant.step {h : History} (hi : Invariant h.session h.premises) (line : String) :
    Invariant (h.step line).session (h.step line).premises := by
  have hh := handled h.session line
  show Invariant (h.session.advance line) _
  unfold advance
  generalize h.session.handle line = outcome at hh ⊢
  cases hh with
  | blank hb =>
    rw [History.premises_step (by simp [command?, hb])
      (premise?_eq_none_of_not_plain fun hp => by simp [hp.notBlank] at hb)]
    exact hi
  | @command c hc =>
    have hplain : ¬ h.session.Plain line := fun hp => by rw [hp.command?_eq] at hc; cases hc
    have hpremises : (h.step line).premises = if c = .reset then [] else h.premises := by
      simp [History.step, hc, premise?_eq_none_of_not_plain hplain]
    rw [hpremises]
    exact hi.runCommand (command?_eq_some.mp hc).2.1 c
  | @premise f hp hm hf =>
    have hpremises : (h.step line).premises = h.premises ++ [f] := by
      simp [History.step, hp.command?_eq, premise?_eq_some.mpr ⟨hp, hm, hf⟩]
    rw [hpremises]
    exact hi.add_premise hm f
  | @conclusion f hp hm hf =>
    rw [History.premises_step_of_plain hp (by simp [hm])]
    exact hi.accept_conclusion hp.notPending f
  | unread hp hm he =>
    rw [History.premises_step (by simp [hp.command?_eq])]
    · exact hi
    · rw [Option.eq_none_iff_forall_ne_some]
      intro f hf
      rw [(premise?_eq_some.mp hf).2.2] at he
      cases he
  | fault hp hm he =>
    rw [History.premises_step_of_plain hp (by simp [hm])]
    exact hi
  | refused hp hm he =>
    rw [History.premises_step_of_plain hp (by simp [hm])]
    exact hi
  | batch hp hm hb =>
    rw [History.premises_step_of_plain hp (by simp [hm])]
    obtain ⟨hfirst, hsecond⟩ := requestOf_drawnFrom hb
    exact hi.runBatch hm hp.notPending hfirst hsecond
  | wait hp hm hw =>
    rw [History.premises_step_of_plain hp (by simp [hm])]
    exact hi.wait hm (requestOf_drawnFrom hw)
  | noAddend hb hp he =>
    rw [History.premises_step_of_pending hp]
    exact hi
  | @addend p f hb hp hf =>
    rw [History.premises_step_of_pending hp]
    exact hi.complete hp f

theorem Invariant.run (verboseRules : Bool) (lines : List String) :
    Invariant (History.run verboseRules lines).session
      (History.run verboseRules lines).premises :=
  History.run_induction (P := fun h => Invariant h.session h.premises) lines
    (Invariant.start verboseRules) fun _ line hi => hi.step line

/-! ### The order of the facts -/

theorem Invariant.get?_premise {s : Session} {premises : List Formula}
    (h : Invariant s premises) {k : ℕ} (hk : 1 ≤ k) (hle : k ≤ premises.eraseDups.length) :
    s.facts.get? k = premises.eraseDups[k - 1]? := by
  obtain ⟨derived, hd⟩ := h.proof.isPrefix
  rw [h.valid.get?_eq, if_neg (by omega), ← hd, List.getElem?_append_left (by omega)]

theorem Invariant.follows_earlier {s : Session} {premises : List Formula}
    (h : Invariant s premises) {k : ℕ} {f : Formula} (hk : premises.eraseDups.length < k)
    (hf : s.facts.get? k = some f) :
    Follows (fun g => ∃ i : ℕ, i < k ∧ s.facts.get? i = some g) f := by
  obtain ⟨hk1, hf⟩ := h.valid.get?_eq_some.mp hf
  refine (h.proof.follows_take (k - 1) f (by omega) hf).mono fun g hg => ?_
  obtain ⟨i, hi, rfl⟩ := List.getElem_of_mem hg
  rw [List.length_take] at hi
  refine ⟨i + 1, by omega, h.valid.get?_eq_some.mpr ⟨by omega, ?_⟩⟩
  rw [Nat.add_sub_cancel, List.getElem_take, List.getElem?_eq_getElem]

/-- **The store is a well-ordered proof.** After any lines, the facts are numbered from 1 on. The
first ones are the premises entered since the last reset, each once and in the order of their
first entry; every later one follows from facts with smaller numbers. -/
theorem facts_well_ordered (verboseRules : Bool) (lines : List String) :
    (History.run verboseRules lines).session.facts.entries.map (·.1) =
      List.range' 1 (History.run verboseRules lines).session.facts.size ∧
    ∃ m, m = (History.run verboseRules lines).premises.eraseDups.length ∧
      (∀ k : ℕ, 1 ≤ k → k ≤ m → (History.run verboseRules lines).session.facts.get? k =
        (History.run verboseRules lines).premises.eraseDups[k - 1]?) ∧
      ∀ (k : ℕ) (f : Formula), m < k →
        (History.run verboseRules lines).session.facts.get? k = some f →
        Follows (fun g => ∃ i : ℕ, i < k ∧
          (History.run verboseRules lines).session.facts.get? i = some g) f := by
  have hi := Invariant.run verboseRules lines
  exact ⟨hi.valid.numbers, _, rfl, fun k hk hle => hi.get?_premise hk hle,
    fun k f hk hf => hi.follows_earlier hk hf⟩

/-- Two premises, one of them entered twice, and an addition whose statement is given later. -/
theorem facts_well_ordered_addition :
    let h := History.run false
      ["p -> q", "p", "p -> q", "therefore", "q V r", "MP(1,2)", "Add(*)", "~", "r"]
    h.session.facts.get? 2 = some (.atom .p) ∧
      h.session.facts.get? 6 = some (.binary .or (.atom .q) (.atom .r)) ∧
      Follows (fun g => ∃ i : ℕ, i < 6 ∧ h.session.facts.get? i = some g)
        (.binary .or (.atom .q) (.atom .r)) := by
  intro h
  obtain ⟨-, m, hm, hfirst, hlater⟩ := facts_well_ordered false
    ["p -> q", "p", "p -> q", "therefore", "q V r", "MP(1,2)", "Add(*)", "~", "r"]
  have hm2 : m = 2 := by rw [hm]; decide +kernel
  have hsix : h.session.facts.get? (6 : ℕ) = some (.binary .or (.atom .q) (.atom .r)) := by
    decide +kernel
  refine ⟨?_, hsix, hlater 6 _ (by omega) hsix⟩
  exact (hfirst 2 (by omega) (by omega)).trans (by decide +kernel)

/-! ### The truth of the facts -/

theorem Entails.mono {premises others : List Formula} {f : Formula} (h : Entails premises f)
    (hsub : ∀ g ∈ premises, g ∈ others) : Entails others f :=
  fun v hv => h v fun g hg => hv g (hsub g hg)

theorem Invariant.entails {s : Session} {premises : List Formula} (h : Invariant s premises) :
    ∀ f ∈ s.facts.values, Entails premises f :=
  fun f hf => (h.proof.entails f hf).mono fun _ hg => List.mem_eraseDups.mp hg

theorem mem_values_of_isProven {b : FactBase} (h : b.isProven = true) :
    ∃ f, b.conclusion = some f ∧ f ∈ b.values := by
  unfold FactBase.isProven at h
  split at h
  · next f hf => exact ⟨f, hf, FactBase.contains_iff.mp h⟩
  · cases h

/-- **Soundness.** After any lines, every fact and every statement that waits for an addition is
true under each valuation that makes the premises true which were entered since the last reset.
When `done` is answered with success, the conclusion is such a consequence of the premises. -/
theorem facts_entailed (verboseRules : Bool) (lines : List String) :
    (∀ f ∈ (History.run verboseRules lines).session.facts.values,
      Entails (History.run verboseRules lines).premises f) ∧
    (∀ p, (History.run verboseRules lines).session.pending = some p → ∀ f ∈ p.candidates,
      Entails (History.run verboseRules lines).premises f) ∧
    ∀ line, (History.run verboseRules lines).session.command? line = some .done → ∃ reply,
      (History.run verboseRules lines).session.handle line =
        .ok ((History.run verboseRules lines).session, reply) ∧
      ("You've shown the conclusion to be true!" ∈ reply.messages →
        ∃ f, (History.run verboseRules lines).session.facts.conclusion = some f ∧
          Entails (History.run verboseRules lines).premises f) := by
  have hi := Invariant.run verboseRules lines
  refine ⟨hi.entails, fun p hp f hf => hi.entails f ((hi.pending p hp).2 f hf), fun line hl => ?_⟩
  refine ⟨_, handle_command hl, fun hm => ?_⟩
  by_cases hproven : (History.run verboseRules lines).session.facts.isProven = true
  · obtain ⟨f, hf, hmem⟩ := mem_values_of_isProven hproven
    exact ⟨f, hf, hi.entails f hmem⟩
  · rw [if_neg hproven, List.mem_singleton] at hm
    exact absurd hm (by decide)

/-- A proof of `q V r` from `p -> q` and `p`, before and after the statement to add is given. -/
theorem facts_entailed_addition :
    let h := History.run false ["p -> q", "p", "therefore", "q V r", "MP(1,2)", "Add(3)"]
    (∃ p, h.session.pending = some p ∧ p.candidates = [.atom .q]) ∧
      Entails h.premises (.atom .q) ∧
      (h.step "r").session.facts.conclusion = some (.binary .or (.atom .q) (.atom .r)) ∧
      Entails (h.step "r").premises (.binary .or (.atom .q) (.atom .r)) := by
  intro h
  have hp : ∃ p, h.session.pending = some p ∧ p.candidates = [.atom .q] := by
    have hc : h.session.pending.map (·.candidates) = some [.atom .q] := by decide +kernel
    exact Option.map_eq_some_iff.mp hc
  have hconclusion :
      (h.step "r").session.facts.conclusion = some (.binary .or (.atom .q) (.atom .r)) := by
    decide +kernel
  refine ⟨hp, ?_, hconclusion, ?_⟩
  · obtain ⟨p, hp, hc⟩ := hp
    exact (facts_entailed false ["p -> q", "p", "therefore", "q V r", "MP(1,2)", "Add(3)"]).2.1
      p hp _ (by simp [hc])
  · obtain ⟨reply, hr, hdone⟩ := (facts_entailed false
      ["p -> q", "p", "therefore", "q V r", "MP(1,2)", "Add(3)", "r"]).2.2 "done"
      (by decide +kernel)
    have hmessages : ((h.step "r").session.handle "done").toOption.map (·.2.messages) =
        some ["You've shown the conclusion to be true!"] := by decide +kernel
    have hr' : (h.step "r").session.handle "done" = .ok (_, reply) := hr
    rw [hr'] at hmessages
    obtain ⟨f, hf, hentails⟩ := hdone (by simp_all [Except.toOption])
    have hf' : (h.step "r").session.facts.conclusion = some f := hf
    rw [hconclusion] at hf'
    cases hf'
    exact hentails

end Deduction
