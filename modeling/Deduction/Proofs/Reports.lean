import Deduction.Proofs.Appending
import Deduction.Proofs.Wildcard

/-!
# Reports of results

A line that has a batch run, as a rule call or as the statement that an addition waits for (`Asks`),
is answered with the facts that it has stored. The number in a report is the size of the store at
that moment, not the number that the store has given out; that these are the same rests on the
numbering of the store (`storeResults_eq`). So the reports, in their order, show the facts that are
in the store afterwards and were not there before (`Reported`).
-/

namespace Deduction.Session

variable {s t : Session} {line : String} {rule : Rule} {results : List Formula} {reply : Reply}

/-! ### Storing results -/

/-- **Results are stored and reported as far as they are new.** -/
theorem storeResults_eq : ∀ {b : FactBase}, b.Valid → ∀ results : List Formula,
    storeResults b results = (b.appended (b.fresh results),
      FactBase.numberedFrom (b.size + 1) (b.fresh results))
  | b, _, [] => by
    rw [FactBase.fresh_nil, FactBase.appended_nil]
    rfl
  | b, hb, f :: results => by
    by_cases hf : f ∈ b.values
    · simp only [storeResults, FactBase.add_of_mem hf]
      rw [storeResults_eq hb results, FactBase.fresh_cons_of_mem hf]
      rfl
    · have hadd := FactBase.add_eq_appended hf
      have hvalid : (b.appended [f]).Valid := by
        have hvalid := hb.add f
        rwa [hadd] at hvalid
      have hsize : (b.appended [f]).size = b.size + 1 := b.size_appended [f]
      simp only [storeResults, hadd, if_true]
      rw [storeResults_eq hvalid results, FactBase.fresh_cons_of_notMem hf, hsize,
        ← FactBase.appended_cons, FactBase.numberedFrom_cons]

/-- What is stored and reported of the results of a rule. -/
structure Reported (s t : Session) (rule : Rule) (results : List Formula) (reply : Reply) :
    Prop where
  /-- Behind the facts there are now those results that are new, each once. -/
  stored : t.facts.entries =
    s.facts.entries ++ FactBase.numberedFrom (s.facts.size + 1) (s.facts.fresh results)
  /-- A result that was a fact before, or that came earlier in the batch, makes no difference. -/
  repeated : ∀ before f after, results = before ++ f :: after → f ∈ s.facts.values ∨ f ∈ before →
    s.facts.fresh results = s.facts.fresh (before ++ after)
  /-- There are as many reports as new facts. -/
  count : t.facts.size = s.facts.size + reply.messages.length
  /-- The reports show the new facts in the order of their numbers. -/
  message : ∀ i < reply.messages.length, ∃ f,
    t.facts.get? ((s.facts.size + 1 + i : ℕ) : Int) = some f ∧
    reply.messages[i]? = some (toString (s.facts.size + 1 + i) ++ "\t" ++ f.render ++ "  (" ++
      rule.label s.verboseRules ++ ")")

theorem reported_record (hv : s.facts.Valid) (rule : Rule) (results : List Formula) :
    Reported s (s.record rule results).1 rule results (s.record rule results).2 := by
  have hvalid := valid_storeResults hv results
  have hstore := storeResults_eq hv results
  set new := s.facts.fresh results with hnew
  have hfacts : (s.record rule results).1.facts = s.facts.appended new := by
    rw [record, hstore]
  have hmessages : (s.record rule results).2.messages =
      (FactBase.numberedFrom (s.facts.size + 1) new).map fun e =>
        toString e.1 ++ "\t" ++ e.2.render ++ "  (" ++ rule.label s.verboseRules ++ ")" := by
    rw [record, hstore]
  have hlength : (s.record rule results).2.messages.length = new.length := by
    rw [hmessages, List.length_map, FactBase.length_numberedFrom]
  rw [hstore] at hvalid
  refine ⟨?_, ?_, ?_, ?_⟩
  · rw [hfacts, FactBase.appended, hv.next]
  · rintro before f after rfl hf
    exact FactBase.fresh_append_cons hf
  · rw [hfacts, FactBase.size_appended, hlength]
  · intro i hi
    rw [hlength] at hi
    have hlt : (s.facts.values).length = s.facts.size := List.length_map _
    refine ⟨new[i], ?_, ?_⟩
    · rw [hfacts, hvalid.get?_eq_some, FactBase.values_appended]
      refine ⟨by omega, ?_⟩
      rw [List.getElem?_append_right (by omega), hlt,
        show s.facts.size + 1 + i - 1 - s.facts.size = i by omega, List.getElem?_eq_getElem hi]
    · rw [hmessages, FactBase.numberedFrom, List.map_map, List.getElem?_map,
        List.getElem?_zipIdx, List.getElem?_eq_getElem hi]
      rfl

/-! ### Lines that have a batch run -/

/-- The line is taken for a rule call, or for the statement that an addition waits for. -/
def TakenForRule (s : Session) (line : String) : Prop :=
  s.Plain line ∧ s.mode = .rule ∨ Text.isBlankText line = false ∧ s.pending.isSome = true

/-- The batch that a line asks for: that of the rule that is named in a call, or that of the
addition that waits. -/
inductive Asks (s : Session) (line : String) : Batch → Prop
  | call {call : RuleCall} {b : Batch} : s.pending = none → RuleCall.parse line = .ok call →
    Rule.lookup? call.name = some b.rule → s.request b.rule call = .ok (.run b) → Asks s line b
  | addend {pending : Pending} {f : Formula} : s.pending = some pending →
    Formula.parse line = .ok f → Asks s line (pending.batch f)

theorem rule_of_request {call : RuleCall} {b : Batch} (h : s.request rule call = .ok (.run b)) :
    b.rule = rule := by
  unfold request at h
  split at h
  · cases h
  obtain ⟨first, -, h⟩ := bind_eq_ok_iff.mp h
  simp only at h
  split at h
  · split_ifs at h
    · cases h
    · cases h
      rfl
  · split_ifs at h
    · obtain ⟨path, -, h⟩ := bind_eq_ok_iff.mp h
      cases h
      rfl
    · obtain ⟨candidates, -, h⟩ := bind_eq_ok_iff.mp h
      cases h
      rfl

theorem asks_of_requestOf {b : Batch} (hp : s.Plain line)
    (h : s.requestOf line = .ok (.run b)) : s.Asks line b := by
  unfold requestOf at h
  split at h
  · cases h
  · next call hcall =>
    split at h
    · cases h
    · next rule hrule =>
      obtain rfl := rule_of_request h
      exact .call hp.notPending hcall hrule h

/-- A rule call without an error, after which no addition waits, has its batch run and recorded. -/
theorem exists_record_of_call (hp : s.Plain line) (hm : s.mode = .rule)
    (h : s.handle line = .ok (t, reply)) (herrors : reply.errors = [])
    (hprompt : t.pending = none) :
    ∃ b results, s.Asks line b ∧ b.run = .ok results ∧ (t, reply) = s.record b.rule results := by
  rw [handle_plain hp, hm] at h
  simp only [runRule] at h
  split at h
  · cases h
  · cases h
    cases herrors
  · next b hb =>
    rcases hrun : b.run with e | results
    · rw [runBatch_error hrun] at h
      cases h
      cases herrors
    · rw [runBatch_ok hrun] at h
      exact ⟨b, results, asks_of_requestOf hp hb, hrun, (Except.ok.inj h).symm⟩
  · cases h
    cases hprompt

/-- While an addition waits, a line without an error has it carried out and recorded. -/
theorem exists_record_of_addend {pending : Pending} (hb : Text.isBlankText line = false)
    (hp : s.pending = some pending) (h : s.handle line = .ok (t, reply))
    (herrors : reply.errors = []) :
    ∃ b results, s.Asks line b ∧ b.run = .ok results ∧
      (t, reply) = ({ s with pending := none } : Session).record b.rule results := by
  rcases hf : Formula.parse line with e | f
  · rw [handle_of_pending_error hp hf, hb] at h
    cases h
    cases herrors
  · rw [handle_of_pending_ok hp hf] at h
    exact ⟨pending.batch f, _, .addend hp hf, pending.run_batch f, (Except.ok.inj h).symm⟩

/-- **Results are reported truthfully.** In any session that lines lead to, take a line that is a
rule call or the statement that an addition waits for. If it brings no error and no addition waits
after it, its batch has been run. Then each of the reports, in order, shows one of the facts that
the line has stored, with the number under which it stands in the store afterwards and the name of
the rule, and there are no others. A result that was stored already, or that came earlier in the
batch, is neither stored nor reported. -/
theorem results_reported (hs : s.Reachable) (hline : s.TakenForRule line)
    (h : s.handle line = .ok (t, reply)) (herrors : reply.errors = [])
    (hprompt : t.pending = none) :
    ∃ b results, s.Asks line b ∧ b.run = .ok results ∧ Reported s t b.rule results reply := by
  rcases hline with ⟨hp, hm⟩ | ⟨hb, hpending⟩
  · obtain ⟨b, results, hasks, hrun, hrecord⟩ := exists_record_of_call hp hm h herrors hprompt
    have hreported := reported_record hs.valid b.rule results
    rw [← hrecord] at hreported
    exact ⟨b, results, hasks, hrun, hreported⟩
  · obtain ⟨pending, hp⟩ := Option.isSome_iff_exists.mp hpending
    obtain ⟨b, results, hasks, hrun, hrecord⟩ := exists_record_of_addend hb hp h herrors
    have hreported := reported_record (s := { s with pending := none }) hs.valid b.rule results
    rw [← hrecord] at hreported
    -- that the addition has stopped waiting concerns neither the facts nor the reports
    exact ⟨b, results, hasks, hrun, hreported.stored, hreported.repeated, hreported.count,
      hreported.message⟩

/-- After a reset, a simplification of all facts gives one result twice and another that is a fact
already, and an addition reports under the verbose name. -/
theorem results_reported_repetitions :
    let s := (start true).after ["q", "therefore", "q", "reset", "p ^ q", "p ^ r", "r", "(r ^ p)",
      "therefore", "t"]
    (∃ t reply b results, s.handle "Simp(*)" = .ok (t, reply) ∧ s.Asks "Simp(*)" b ∧
      b.run = .ok results ∧ Reported s t b.rule results reply ∧
      reply.messages = ["5\tp  (Simplification)"]) ∧
    ∃ t reply b results, (s.advance "add(3)").handle "~s" = .ok (t, reply) ∧
      (s.advance "add(3)").Asks "~s" b ∧ b.run = .ok results ∧
      Reported (s.advance "add(3)") t b.rule results reply ∧
      reply.messages = ["5\t(r V ~s)  (Addition)"] := by
  intro s
  have hcall : (s.handle "Simp(*)").toOption.map (fun o => (o.2, o.1.pending.isNone)) =
      some ({ messages := ["5\tp  (Simplification)"] }, true) := by
    decide +kernel
  have haddend : ((s.advance "add(3)").handle "~s").toOption.map (fun o =>
      (o.2, o.1.pending.isNone)) = some ({ messages := ["5\t(r V ~s)  (Addition)"] }, true) := by
    decide +kernel
  constructor
  · rcases h : s.handle "Simp(*)" with e | ⟨t, reply⟩ <;> rw [h] at hcall
    · cases hcall
    · obtain ⟨rfl, hprompt⟩ := Prod.mk.inj (Option.some.inj hcall)
      obtain ⟨b, results, hasks, hrun, hreported⟩ := results_reported ⟨true, _, rfl⟩
        (Or.inl (by decide +kernel)) h rfl (Option.isNone_iff_eq_none.mp hprompt)
      exact ⟨t, _, b, results, rfl, hasks, hrun, hreported, rfl⟩
  · rcases h : (s.advance "add(3)").handle "~s" with e | ⟨t, reply⟩ <;> rw [h] at haddend
    · cases haddend
    · obtain ⟨rfl, hprompt⟩ := Prod.mk.inj (Option.some.inj haddend)
      obtain ⟨b, results, hasks, hrun, hreported⟩ := results_reported
        ⟨true, _, (after_concat _ _ _).symm⟩ (Or.inr (by decide +kernel)) h rfl
        (Option.isNone_iff_eq_none.mp hprompt)
      exact ⟨t, _, b, results, rfl, hasks, hrun, hreported, rfl⟩

end Deduction.Session
