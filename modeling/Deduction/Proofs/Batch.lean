import Deduction.Proofs.Run

/-!
# What a batch yields and how it is recorded

A batch runs one application after the other. A silent batch yields the results of those that
succeed (`collect_silent`), a strict one of a single application its result or its error
(`collect_singleton`), and a batch of applications that all succeed yields them all, silent or not
(`collect_of_ok`). So an addition never fails (`Pending.run_batch`).

Results can be recorded one by one (`record_cons`).
-/

namespace Deduction

/-! ### Running applications -/

namespace Batch

variable {α : Type} {apply : α → Except RuleError Formula}

/-- The results of the applications that succeed, in order. -/
def successes (apply : α → Except RuleError Formula) (xs : List α) : List Formula :=
  xs.filterMap fun x => (apply x).toOption

theorem successes_cons_ok {x : α} {f : Formula} (h : apply x = .ok f) (xs : List α) :
    successes apply (x :: xs) = f :: successes apply xs := by
  rw [successes, List.filterMap_cons, h]; rfl

theorem successes_cons_error {x : α} {e : RuleError} (h : apply x = .error e) (xs : List α) :
    successes apply (x :: xs) = successes apply xs := by
  rw [successes, List.filterMap_cons, h]; rfl

theorem collect_silent (apply : α → Except RuleError Formula) :
    ∀ xs : List α, collect true apply xs = .ok (successes apply xs)
  | [] => rfl
  | x :: xs => by
    rw [collect, collect_silent apply xs]
    rcases hx : apply x with e | f
    · rw [successes_cons_error hx]; rfl
    · rw [successes_cons_ok hx]; rfl

theorem collect_singleton (apply : α → Except RuleError Formula) (x : α) :
    collect false apply [x] = (apply x).map fun f => [f] := by
  rcases hx : apply x with e | f <;> simp [collect, hx, Except.map]

theorem collect_of_ok {silent : Bool} {g : α → Formula} :
    ∀ {xs : List α}, (∀ x ∈ xs, apply x = .ok (g x)) → collect silent apply xs = .ok (xs.map g)
  | [], _ => rfl
  | x :: xs, h => by
    have ih : collect silent apply xs = .ok (xs.map g) :=
      collect_of_ok fun y hy => h y (List.mem_cons_of_mem x hy)
    simp only [collect, h x List.mem_cons_self, ih, Except.map, List.map_cons]

theorem collect_map {β : Type} {silent : Bool} (g : β → α) : ∀ ys : List β,
      collect silent apply (ys.map g) = collect silent (fun y => apply (g y)) ys
  | [] => rfl
  | y :: ys => by simp only [List.map_cons, collect, collect_map g ys]

/-! ### Batches of one rule -/

/-- A batch of a rule that takes one statement. Only a rule of replacement takes a path. -/
theorem run_unary {b : Batch} {conclude : Formula → Option Conclusion}
    (hs : b.rule.schema = .ok (.unary conclude))
    (hpath : b.path = [] ∨ b.rule.isReplacement = true) :
    b.run = collect b.silent (fun f =>
      if b.rule.isReplacement then f.modifyAt b.rule (fun g => b.rule.infer [g]) b.path
      else b.rule.infer [f]) b.first := by
  have hcheck : b.checkPath = .ok () := by
    rw [checkPath, if_neg]
    rcases hpath with h | h <;> simp [h]
  have happly : b.applyOne conclude = fun f =>
      if b.rule.isReplacement then f.modifyAt b.rule (fun g => b.rule.infer [g]) b.path
      else b.rule.infer [f] := funext fun f => applyOne_eq hs f
  rw [← happly, run, hs, hcheck]
  rfl

/-- A batch of a rule that takes two statements. -/
theorem run_binary {b : Batch} {conclude : Formula → Formula → Option Conclusion}
    {seconds : List Formula} (hs : b.rule.schema = .ok (.binary conclude)) (hpath : b.path = [])
    (hg : b.seconds = .ok seconds) :
    b.run = collect b.silent (fun p => b.rule.infer [p.1, p.2]) (pairs b.first seconds) := by
  have hcheck : b.checkPath = .ok () := by simp [checkPath, hpath]
  have happly : b.applyTwo conclude = fun p => b.rule.infer [p.1, p.2] :=
    funext fun p => applyTwo_eq hs p.1 p.2
  rw [← happly, run, hs, hcheck]
  simp only [bind, Except.bind, hg]

end Batch

/-- **An addition never fails**: it joins each of its candidates with the statement to add. -/
theorem Pending.run_batch (p : Pending) (addend : Formula) :
    (p.batch addend).run = .ok (p.candidates.map fun f => .binary .or f addend) := by
  have hrun : (p.batch addend).run = Batch.collect p.silent (fun q => Rule.infer .add [q.1, q.2])
      (Batch.pairs p.candidates [addend]) := Batch.run_binary rfl rfl rfl
  have hpairs : Batch.pairs p.candidates [addend] = p.candidates.map fun f => (f, addend) :=
    List.map_eq_flatMap.symm
  rw [hrun, hpairs, Batch.collect_of_ok fun q _ => Rule.infer_add q.1 q.2, List.map_map]
  rfl

/-! ### Recording results -/

namespace Session

variable {s : Session} {rule : Rule}

/-- Recording results is recording the first of them and then the others. -/
theorem record_cons (s : Session) (rule : Rule) (f : Formula) (fs : List Formula) :
    s.record rule (f :: fs) =
      (((s.record rule [f]).1.record rule fs).1,
        { messages := (s.record rule [f]).2.messages ++
            ((s.record rule [f]).1.record rule fs).2.messages }) := by
  simp only [record, storeResults]
  split_ifs <;> rfl

theorem runBatch_ok {b : Batch} {results : List Formula} (h : b.run = .ok results) :
    s.runBatch b = s.record b.rule results := by
  rw [runBatch, h]

theorem runBatch_error {b : Batch} {e : RuleError} (h : b.run = .error e) :
    s.runBatch b = (s, { errors := [e.message] }) := by
  rw [runBatch, h]

theorem completeAddition_ok {p : Pending} {line : String} {f : Formula}
    (h : Formula.parse line = .ok f) :
    s.completeAddition p line = ({ s with pending := none } : Session).record .add
      (p.candidates.map fun g => .binary .or g f) := by
  rw [completeAddition, h]
  exact runBatch_ok (p.run_batch f)

end Session

end Deduction
