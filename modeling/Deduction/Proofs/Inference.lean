import Deduction.Formula.Truth
import Deduction.Proofs.Exactness

/-!
# Inferences and their truth

A rule concludes only what is true with the statements it takes (`Concludes.eval`), addition
whatever statement is added (`eval_infer_add`), and double negation keeps the truth value of the
whole statement wherever it acts (`eval_modifyAt`).

`Follows` says that a statement is the result of one application to earlier ones. Everything a
batch yields follows from its candidates (`Batch.run_follows`), and what follows from true
statements is true (`Follows.eval`).
-/

namespace Deduction

namespace Rule

variable {rule : Rule} {fs : List Formula} {f g h : Formula}

theorem schema_unary {conclude : Formula → Option Conclusion}
    (hs : rule.schema = .ok (.unary conclude)) : (rule = .simp ∨ rule = .abs) ∨ rule = .dn := by
  cases rule <;> simp [schema] at hs ⊢

theorem schema_binary {conclude : Formula → Formula → Option Conclusion}
    (hs : rule.schema = .ok (.binary conclude)) :
    rule ∈ [.mp, .mt, .ds, .hs, .conj, .cd] ∨ rule = .add := by
  cases rule <;> simp [schema] at hs ⊢

/-! ### Truth -/

/-- **What a rule concludes from true statements is true.** -/
theorem Concludes.eval (v : Valuation) (hc : rule.Concludes fs h)
    (hfs : ∀ f ∈ fs, f.eval v = true) : h.eval v = true := by
  cases hc with
  | modusPonens a b =>
    simp only [List.forall_mem_cons, Formula.eval, Connective.eval] at hfs
    obtain ⟨hab, ha, -⟩ := hfs
    simpa [ha] using hab
  | modusTollens a b =>
    simp only [List.forall_mem_cons, Formula.eval, Connective.eval, Bool.not_eq_true'] at hfs
    obtain ⟨hab, hb, -⟩ := hfs
    simpa [Formula.eval, hb] using hab
  | disjunctiveSyllogism a b =>
    simp only [List.forall_mem_cons, Formula.eval, Connective.eval, Bool.not_eq_true'] at hfs
    obtain ⟨hab, ha, -⟩ := hfs
    simpa [ha] using hab
  | hypotheticalSyllogism a b c =>
    simp only [List.forall_mem_cons, Formula.eval, Connective.eval] at hfs ⊢
    obtain ⟨hab, hbc, -⟩ := hfs
    cases hb : b.eval v <;> simp_all
  | simplification a b =>
    simp only [List.forall_mem_cons, Formula.eval, Connective.eval, Bool.and_eq_true] at hfs
    exact hfs.1.1
  | conjunction a b =>
    simp only [List.forall_mem_cons] at hfs
    simp [Formula.eval, Connective.eval, hfs.1, hfs.2.1]
  | constructiveDilemma a b c d =>
    simp only [List.forall_mem_cons, Formula.eval, Connective.eval] at hfs ⊢
    obtain ⟨hboth, hone, -⟩ := hfs
    cases ha : a.eval v <;> simp_all
  | absorption a b =>
    simp only [List.forall_mem_cons, Formula.eval, Connective.eval] at hfs ⊢
    cases ha : a.eval v <;> simp_all
  | addition a b =>
    simp only [List.forall_mem_cons] at hfs
    simp [Formula.eval, Connective.eval, hfs.1]
  | dropSigns a => simpa [Formula.eval] using hfs
  | addSigns a _ => simpa [Formula.eval] using hfs

/-- The statement to add need not be true. -/
theorem eval_infer_add (v : Valuation) (hi : Rule.infer .add [f, g] = .ok h)
    (hf : f.eval v = true) : h.eval v = true := by
  rw [infer_add] at hi
  cases hi
  simp [Formula.eval, Connective.eval, hf]

theorem eval_infer_dn (v : Valuation) (hi : Rule.infer .dn [f] = .ok h) : h.eval v = f.eval v := by
  cases infer_eq_ok_iff.mp hi with
  | dropSigns => simp [Formula.eval]
  | addSigns => simp [Formula.eval]

end Rule

/-! ### Double negation inside a statement -/

theorem Formula.operand?_some {f g : Formula} {i : Int} (h : f.operand? i = some g) :
    (i = 1 ∧ f = neg g) ∨ (i = 1 ∧ ∃ c right, f = binary c g right) ∨
      (i = 2 ∧ ∃ c left, f = binary c left g) := by
  unfold operand? at h
  split_ifs at h with hi
  obtain ⟨k, hk⟩ : ∃ k : ℕ, i = k + 1 := ⟨(i - 1).toNat, by omega⟩
  rw [hk, show ((k : Int) + 1 - 1).toNat = k by omega] at h
  cases f with
  | atom a => simp [operands] at h
  | neg f =>
    rcases k with _ | k
    · simp_all [operands]
    · simp [operands] at h
  | binary c left right =>
    rcases k with _ | _ | k
    · simp_all [operands]
    · simp_all [operands]
    · simp [operands] at h

theorem Formula.eval_replaceOperand {f g h : Formula} {i : Int} (v : Valuation)
    (hg : f.operand? i = some g) (hv : h.eval v = g.eval v) :
    (f.replaceOperand i h).eval v = f.eval v := by
  rcases operand?_some hg with ⟨rfl, rfl⟩ | ⟨rfl, c, right, rfl⟩ | ⟨rfl, c, left, rfl⟩
  · simp [replaceOperand, eval, hv]
  · simp [replaceOperand, eval, hv]
  · simp [replaceOperand, eval, hv]

theorem Formula.eval_modifyAt {rule : Rule} {change : Formula → Except RuleError Formula}
    (v : Valuation) (hc : ∀ g h, change g = .ok h → h.eval v = g.eval v) :
    ∀ {path : List Int} {f h : Formula}, f.modifyAt rule change path = .ok h → h.eval v = f.eval v
  | [], f, h, hm => hc f h hm
  | step :: path, f, h, hm => by
    unfold modifyAt at hm
    split_ifs at hm
    split at hm
    · cases hm
    · next g hg =>
      obtain ⟨k, hk, rfl⟩ := map_eq_ok_iff.mp hm
      exact eval_replaceOperand v hg (eval_modifyAt v hc hk)

/-! ### Following from earlier statements -/

/-- `h` follows from earlier statements by one application of a rule: the rules of inference apply
to whole statements, addition with any statement to add, and double negation at any place. -/
inductive Follows (earlier : Formula → Prop) : Formula → Prop
  | unary {rule : Rule} {f h : Formula} : rule = .simp ∨ rule = .abs → earlier f →
    rule.infer [f] = .ok h → Follows earlier h
  | binary {rule : Rule} {f g h : Formula} : rule ∈ [.mp, .mt, .ds, .hs, .conj, .cd] →
    earlier f → earlier g → rule.infer [f, g] = .ok h → Follows earlier h
  | addition {f h : Formula} (addend : Formula) : earlier f →
    Rule.infer .add [f, addend] = .ok h → Follows earlier h
  | doubleNegation {f h : Formula} (path : List Int) : earlier f →
    f.modifyAt .dn (fun g => Rule.infer .dn [g]) path = .ok h → Follows earlier h

theorem Follows.mono {P Q : Formula → Prop} (hPQ : ∀ f, P f → Q f) {h : Formula}
    (hf : Follows P h) : Follows Q h := by
  cases hf with
  | unary hr hp hi => exact Follows.unary hr (hPQ _ hp) hi
  | binary hr hp hq hi => exact Follows.binary hr (hPQ _ hp) (hPQ _ hq) hi
  | addition b hp hi => exact Follows.addition b (hPQ _ hp) hi
  | doubleNegation path hp hi => exact Follows.doubleNegation path (hPQ _ hp) hi

theorem Follows.eval (v : Valuation) {P : Formula → Prop} {h : Formula}
    (hP : ∀ f, P f → f.eval v = true) (hf : Follows P h) : h.eval v = true := by
  cases hf with
  | unary _ hp hi => exact (Rule.infer_eq_ok_iff.mp hi).eval v (by simpa using hP _ hp)
  | binary _ hp hq hi =>
    exact (Rule.infer_eq_ok_iff.mp hi).eval v (by simpa using ⟨hP _ hp, hP _ hq⟩)
  | addition b hp hi => exact Rule.eval_infer_add v hi (hP _ hp)
  | doubleNegation path hp hi =>
    rw [Formula.eval_modifyAt v (fun _ _ => Rule.eval_infer_dn v) hi]
    exact hP _ hp

/-! ### Batches -/

namespace Batch

theorem collect_mem {α : Type} {silent : Bool} {apply : α → Except RuleError Formula} :
    ∀ {xs : List α} {results : List Formula}, collect silent apply xs = .ok results →
      ∀ h ∈ results, ∃ x ∈ xs, apply x = .ok h
  | [], results, hc => by
    cases hc
    simp
  | x :: xs, results, hc => by
    unfold collect at hc
    split at hc
    · next f hf =>
      obtain ⟨rest, hrest, rfl⟩ := map_eq_ok_iff.mp hc
      intro h hh
      rcases List.mem_cons.mp hh with rfl | hh
      · exact ⟨x, by simp, hf⟩
      · obtain ⟨y, hy, hy'⟩ := collect_mem hrest h hh
        exact ⟨y, by simp [hy], hy'⟩
    · split_ifs at hc
      intro h hh
      obtain ⟨y, hy, hy'⟩ := collect_mem hc h hh
      exact ⟨y, by simp [hy], hy'⟩

theorem mem_pairs {xs ys : List Formula} {p : Formula × Formula} :
    p ∈ pairs xs ys ↔ p.1 ∈ xs ∧ p.2 ∈ ys := by
  obtain ⟨x, y⟩ := p
  simp [pairs]

theorem run_ok {b : Batch} {results : List Formula} (hr : b.run = .ok results) :
    (∃ conclude, b.rule.schema = .ok (.unary conclude) ∧
      collect b.silent (b.applyOne conclude) b.first = .ok results) ∨
    ∃ conclude gs, b.rule.schema = .ok (.binary conclude) ∧ b.seconds = .ok gs ∧
      collect b.silent (b.applyTwo conclude) (pairs b.first gs) = .ok results := by
  unfold run at hr
  obtain ⟨schema, hs, hr⟩ := bind_eq_ok_iff.mp hr
  obtain ⟨-, -, hr⟩ := bind_eq_ok_iff.mp hr
  rcases schema with conclude | conclude
  · exact Or.inl ⟨conclude, hs, hr⟩
  · obtain ⟨gs, hg, hr⟩ := bind_eq_ok_iff.mp hr
    exact Or.inr ⟨conclude, gs, hs, hg, hr⟩

theorem seconds_ok {b : Batch} {gs : List Formula} (h : b.seconds = .ok gs) :
    (∃ g, b.second = .one g ∧ b.rule = .add) ∨ b.second = .many gs := by
  unfold seconds at h
  split at h
  · cases h
  · next g hg =>
    split_ifs at h with hr
    exact Or.inl ⟨g, hg, hr⟩
  · next fs hfs =>
    split_ifs at h
    cases h
    exact Or.inr hfs

theorem applyOne_eq {b : Batch} {conclude : Formula → Option Conclusion}
    (hs : b.rule.schema = .ok (.unary conclude)) (f : Formula) :
    b.applyOne conclude f =
      if b.rule.isReplacement then f.modifyAt b.rule (fun g => b.rule.infer [g]) b.path
      else b.rule.infer [f] := by
  simp only [applyOne, Rule.infer_unary hs]

theorem applyTwo_eq {b : Batch} {conclude : Formula → Formula → Option Conclusion}
    (hs : b.rule.schema = .ok (.binary conclude)) (f g : Formula) :
    b.applyTwo conclude (f, g) = b.rule.infer [f, g] := by
  rw [applyTwo, Rule.infer_binary hs]

/-- **The results of a batch follow from its candidates.** -/
theorem run_follows {b : Batch} {results : List Formula} {P : Formula → Prop}
    (hr : b.run = .ok results) (hfirst : ∀ f ∈ b.first, P f)
    (hsecond : ∀ gs, b.second = .many gs → ∀ g ∈ gs, P g) : ∀ h ∈ results, Follows P h := by
  intro h hh
  rcases run_ok hr with ⟨conclude, hs, hc⟩ | ⟨conclude, gs, hs, hg, hc⟩
  · obtain ⟨f, hf, ha⟩ := collect_mem hc h hh
    rw [applyOne_eq hs] at ha
    rcases Rule.schema_unary hs with hrule | hrule
    · have hnot : ¬ b.rule.isReplacement = true := by
        rcases hrule with hrule | hrule <;> rw [hrule] <;> decide
      rw [if_neg hnot] at ha
      exact Follows.unary hrule (hfirst f hf) ha
    · rw [hrule, if_pos (show Rule.dn.isReplacement = true from rfl)] at ha
      exact Follows.doubleNegation b.path (hfirst f hf) ha
  · obtain ⟨⟨f, g⟩, hp, ha⟩ := collect_mem hc h hh
    obtain ⟨hf, hg'⟩ := mem_pairs.mp hp
    rw [applyTwo_eq hs] at ha
    rcases Rule.schema_binary hs with hrule | hrule
    · have hnot : b.rule ≠ .add := by
        intro hadd
        rw [hadd] at hrule
        simp at hrule
      have hm := (seconds_ok hg).resolve_left fun ⟨_, _, h⟩ => hnot h
      exact Follows.binary hrule (hfirst f hf) (hsecond gs hm g hg') ha
    · rw [hrule] at ha
      exact Follows.addition g (hfirst f hf) ha

end Batch

end Deduction
