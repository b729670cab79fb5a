import Deduction.Proofs.RoundTrip
import Deduction.Rule.Batch

/-!
# The rules apply exactly to their schemas

`Rule.Concludes` lists the rules as they are found in a textbook: the statements that each takes,
letter by letter, and what it concludes from them. The applications compare canonical texts and
read back what they build; still they decide this relation (`infer_eq_ok_iff`), since each schema is
a shape of statements (`modusPonens_eq_some` and the others) and every built statement passes the
check of its text (`outcome_eq`). Where the statements do not have the shape, the one refusal is
that the rule is not applicable (`infer_eq_error`).
-/

namespace Deduction

/-! ### The shapes of the schemas -/

/-- The statement that is concluded. -/
def Conclusion.statement : Conclusion → Formula
  | part f | built f => f

namespace Schema

variable {x y : Formula} {c : Conclusion}

theorem modusPonens_eq_some :
    modusPonens x y = some c ↔ ∃ a b, x = .binary .implies a b ∧ y = a ∧ c = .part b := by
  unfold modusPonens; split <;> grind

theorem modusTollens_eq_some :
    modusTollens x y = some c ↔
      ∃ a b, x = .binary .implies a b ∧ y = .neg b ∧ c = .built (.neg a) := by
  unfold modusTollens; split <;> grind

theorem disjunctiveSyllogism_eq_some :
    disjunctiveSyllogism x y = some c ↔
      ∃ a b, x = .binary .or a b ∧ y = .neg a ∧ c = .part b := by
  unfold disjunctiveSyllogism; split <;> grind

theorem hypotheticalSyllogism_eq_some :
    hypotheticalSyllogism x y = some c ↔
      ∃ a b d, x = .binary .implies a b ∧ y = .binary .implies b d ∧
        c = .built (.binary .implies a d) := by
  unfold hypotheticalSyllogism; split <;> grind

theorem simplification_eq_some :
    simplification x = some c ↔ ∃ a b, x = .binary .and a b ∧ c = .part a := by
  unfold simplification; split <;> grind

theorem constructiveDilemma_eq_some :
    constructiveDilemma x y = some c ↔ ∃ a b d e,
      x = .binary .and (.binary .implies a b) (.binary .implies d e) ∧ y = .binary .or a d ∧
        c = .built (.binary .or b e) := by
  unfold constructiveDilemma; split <;> grind

theorem absorption_eq_some :
    absorption x = some c ↔
      ∃ a b, x = .binary .implies a b ∧ c = .built (.binary .implies a (.binary .and a b)) := by
  unfold absorption; split <;> grind

theorem doubleNegation_eq_some :
    doubleNegation x = some c ↔
      (∃ a, x = .neg (.neg a) ∧ c = .part a) ∨
        (∀ a, x ≠ .neg (.neg a)) ∧ c = .built (.neg (.neg x)) := by
  unfold doubleNegation; split <;> grind

end Schema

/-! ### One application -/

namespace Rule

variable {rule : Rule} {fs : List Formula} {f g h : Formula}

/-- An application has the result that the schema concludes, or is refused as not applicable. -/
theorem outcome_eq (rule : Rule) (c : Option Conclusion) :
    rule.outcome c = match c with
      | none => .error (.notApplicable rule)
      | some d => .ok d.statement := by
  rcases c with _ | ⟨f⟩ | ⟨f⟩
  · rfl
  · rfl
  · exact rule.readBack_eq f

theorem outcome_eq_ok_iff {c : Option Conclusion} :
    rule.outcome c = .ok h ↔ ∃ d, c = some d ∧ d.statement = h := by
  rw [outcome_eq]
  rcases c with _ | d
  · simp
  · simp

theorem infer_unary {conclude : Formula → Option Conclusion}
    (hs : rule.schema = .ok (.unary conclude)) :
    rule.infer [f] = rule.outcome (conclude f) := by
  rw [infer, hs]; rfl

theorem infer_binary {conclude : Formula → Formula → Option Conclusion}
    (hs : rule.schema = .ok (.binary conclude)) :
    rule.infer [f, g] = rule.outcome (conclude f g) := by
  rw [infer, hs]; rfl

theorem infer_unary_eq_ok_iff {conclude : Formula → Option Conclusion}
    (hs : rule.schema = .ok (.unary conclude)) :
    rule.infer [f] = .ok h ↔ ∃ d, conclude f = some d ∧ d.statement = h := by
  rw [infer_unary hs, outcome_eq_ok_iff]

theorem infer_binary_eq_ok_iff {conclude : Formula → Formula → Option Conclusion}
    (hs : rule.schema = .ok (.binary conclude)) :
    rule.infer [f, g] = .ok h ↔ ∃ d, conclude f g = some d ∧ d.statement = h := by
  rw [infer_binary hs, outcome_eq_ok_iff]

theorem infer_add (f g : Formula) : Rule.infer .add [f, g] = .ok (.binary .or f g) :=
  readBack_eq .add _

theorem infer_conj (f g : Formula) : Rule.infer .conj [f, g] = .ok (.binary .and f g) :=
  readBack_eq .conj _

/-! ### What the rules conclude -/

/-- What the rules conclude, and from what. -/
inductive Concludes : Rule → List Formula → Formula → Prop
  | modusPonens (a b : Formula) : Concludes .mp [.binary .implies a b, a] b
  | modusTollens (a b : Formula) : Concludes .mt [.binary .implies a b, .neg b] (.neg a)
  | disjunctiveSyllogism (a b : Formula) : Concludes .ds [.binary .or a b, .neg a] b
  | hypotheticalSyllogism (a b c : Formula) :
    Concludes .hs [.binary .implies a b, .binary .implies b c] (.binary .implies a c)
  | simplification (a b : Formula) : Concludes .simp [.binary .and a b] a
  | conjunction (a b : Formula) : Concludes .conj [a, b] (.binary .and a b)
  | constructiveDilemma (a b c d : Formula) :
    Concludes .cd [.binary .and (.binary .implies a b) (.binary .implies c d), .binary .or a c]
      (.binary .or b d)
  | absorption (a b : Formula) :
    Concludes .abs [.binary .implies a b] (.binary .implies a (.binary .and a b))
  | addition (a b : Formula) : Concludes .add [a, b] (.binary .or a b)
  | dropSigns (a : Formula) : Concludes .dn [.neg (.neg a)] a
  | addSigns (a : Formula) : (∀ b, a ≠ .neg (.neg b)) → Concludes .dn [a] (.neg (.neg a))

/-- **What is listed is inferred.** -/
theorem Concludes.infer_eq (hc : rule.Concludes fs h) : rule.infer fs = .ok h := by
  cases hc with
  | modusPonens =>
    exact (infer_binary_eq_ok_iff rfl).mpr
      ⟨_, Schema.modusPonens_eq_some.mpr ⟨_, _, rfl, rfl, rfl⟩, rfl⟩
  | modusTollens =>
    exact (infer_binary_eq_ok_iff rfl).mpr
      ⟨_, Schema.modusTollens_eq_some.mpr ⟨_, _, rfl, rfl, rfl⟩, rfl⟩
  | disjunctiveSyllogism =>
    exact (infer_binary_eq_ok_iff rfl).mpr
      ⟨_, Schema.disjunctiveSyllogism_eq_some.mpr ⟨_, _, rfl, rfl, rfl⟩, rfl⟩
  | hypotheticalSyllogism =>
    exact (infer_binary_eq_ok_iff rfl).mpr
      ⟨_, Schema.hypotheticalSyllogism_eq_some.mpr ⟨_, _, _, rfl, rfl, rfl⟩, rfl⟩
  | simplification =>
    exact (infer_unary_eq_ok_iff rfl).mpr
      ⟨_, Schema.simplification_eq_some.mpr ⟨_, _, rfl, rfl⟩, rfl⟩
  | conjunction a b => exact infer_conj a b
  | constructiveDilemma =>
    exact (infer_binary_eq_ok_iff rfl).mpr
      ⟨_, Schema.constructiveDilemma_eq_some.mpr ⟨_, _, _, _, rfl, rfl, rfl⟩, rfl⟩
  | absorption =>
    exact (infer_unary_eq_ok_iff rfl).mpr
      ⟨_, Schema.absorption_eq_some.mpr ⟨_, _, rfl, rfl⟩, rfl⟩
  | addition a b => exact infer_add a b
  | dropSigns =>
    exact (infer_unary_eq_ok_iff rfl).mpr
      ⟨_, Schema.doubleNegation_eq_some.mpr (Or.inl ⟨_, rfl, rfl⟩), rfl⟩
  | addSigns a hne =>
    exact (infer_unary_eq_ok_iff rfl).mpr
      ⟨_, Schema.doubleNegation_eq_some.mpr (Or.inr ⟨hne, rfl⟩), rfl⟩

theorem concludes_of_infer_one (hi : rule.infer [f] = .ok h) : rule.Concludes [f] h := by
  cases rule with
  | simp =>
    obtain ⟨d, hd, rfl⟩ := (infer_unary_eq_ok_iff rfl).mp hi
    obtain ⟨a, b, rfl, rfl⟩ := Schema.simplification_eq_some.mp hd
    exact .simplification a b
  | abs =>
    obtain ⟨d, hd, rfl⟩ := (infer_unary_eq_ok_iff rfl).mp hi
    obtain ⟨a, b, rfl, rfl⟩ := Schema.absorption_eq_some.mp hd
    exact .absorption a b
  | dn =>
    obtain ⟨d, hd, rfl⟩ := (infer_unary_eq_ok_iff rfl).mp hi
    rcases Schema.doubleNegation_eq_some.mp hd with ⟨a, rfl, rfl⟩ | ⟨hne, rfl⟩
    · exact .dropSigns a
    · exact .addSigns f hne
  | _ => cases hi

theorem concludes_of_infer_two (hi : rule.infer [f, g] = .ok h) : rule.Concludes [f, g] h := by
  cases rule with
  | mp =>
    obtain ⟨d, hd, rfl⟩ := (infer_binary_eq_ok_iff rfl).mp hi
    obtain ⟨a, b, rfl, rfl, rfl⟩ := Schema.modusPonens_eq_some.mp hd
    exact .modusPonens g b
  | mt =>
    obtain ⟨d, hd, rfl⟩ := (infer_binary_eq_ok_iff rfl).mp hi
    obtain ⟨a, b, rfl, rfl, rfl⟩ := Schema.modusTollens_eq_some.mp hd
    exact .modusTollens a b
  | ds =>
    obtain ⟨d, hd, rfl⟩ := (infer_binary_eq_ok_iff rfl).mp hi
    obtain ⟨a, b, rfl, rfl, rfl⟩ := Schema.disjunctiveSyllogism_eq_some.mp hd
    exact .disjunctiveSyllogism a b
  | hs =>
    obtain ⟨d, hd, rfl⟩ := (infer_binary_eq_ok_iff rfl).mp hi
    obtain ⟨a, b, c, rfl, rfl, rfl⟩ := Schema.hypotheticalSyllogism_eq_some.mp hd
    exact .hypotheticalSyllogism a b c
  | conj =>
    rw [infer_conj] at hi
    cases hi
    exact .conjunction f g
  | cd =>
    obtain ⟨d, hd, rfl⟩ := (infer_binary_eq_ok_iff rfl).mp hi
    obtain ⟨a, b, c, e, rfl, rfl, rfl⟩ := Schema.constructiveDilemma_eq_some.mp hd
    exact .constructiveDilemma a b c e
  | add =>
    rw [infer_add] at hi
    cases hi
    exact .addition f g
  | _ => cases hi

/-- **A rule infers what it concludes by its schema, and nothing else.** -/
theorem infer_eq_ok_iff : rule.infer fs = .ok h ↔ rule.Concludes fs h := by
  refine ⟨fun hi => ?_, Concludes.infer_eq⟩
  match fs, hi with
  | [], hi => cases rule <;> cases hi
  | [f], hi => exact concludes_of_infer_one hi
  | [f, g], hi => exact concludes_of_infer_two hi
  | _ :: _ :: _ :: _, hi => cases rule <;> cases hi

/-! ### Rules by the number of statements they take -/

theorem exists_unary (hi : rule.isImplemented = true) (ha : rule.arity = 1) :
    ∃ conclude, rule.schema = .ok (.unary conclude) := by
  cases rule with
  | simp | abs | dn => exact ⟨_, rfl⟩
  | mp | mt | ds | hs | conj | cd | add => cases ha
  | _ => cases hi

theorem exists_binary (ha : rule.arity = 2) : ∃ conclude, rule.schema = .ok (.binary conclude) := by
  cases rule with
  | mp | mt | ds | hs | conj | cd | add => exact ⟨_, rfl⟩
  | _ => cases ha

theorem isReplacement_of_arity (ha : rule.arity = 2) : rule.isReplacement = false := by
  cases rule with
  | mp | mt | ds | hs | conj | cd | add => rfl
  | _ => cases ha

/-! ### The refusal -/

theorem infer_eq_outcome (hi : rule.isImplemented = true) (hc : fs.length = rule.arity) :
    ∃ c, rule.infer fs = rule.outcome c := by
  match fs, hc with
  | [], hc => cases rule <;> cases hc
  | [f], hc =>
    obtain ⟨conclude, hs⟩ := exists_unary hi hc.symm
    exact ⟨conclude f, infer_unary hs⟩
  | [f, g], hc =>
    obtain ⟨conclude, hs⟩ := exists_binary hc.symm
    exact ⟨conclude f g, infer_binary hs⟩
  | _ :: _ :: _ :: _, hc => cases rule <;> cases hc

/-- **Statements of another shape are refused** as such, and for no other reason. -/
theorem infer_eq_error (hi : rule.isImplemented = true) (hc : fs.length = rule.arity)
    (hnone : ∀ h, ¬ rule.Concludes fs h) : rule.infer fs = .error (.notApplicable rule) := by
  obtain ⟨c, hinfer⟩ := infer_eq_outcome hi hc
  rw [hinfer, outcome_eq]
  rcases c with _ | d
  · rfl
  · rw [outcome_eq] at hinfer
    exact absurd (infer_eq_ok_iff.mp hinfer) (hnone d.statement)

/-- **Exactness of the rules.** A rule infers a statement exactly if the statement is its conclusion
by the schema, with all parts compared as statements. A rule that can be carried out and is given as
many statements as it takes refuses all others for one reason, in its own name. What is built from
parts always reads back. -/
theorem infer_exact (rule : Rule) (fs : List Formula) :
    (∀ h, rule.infer fs = .ok h ↔ rule.Concludes fs h) ∧
      (rule.isImplemented = true → fs.length = rule.arity → (∀ h, ¬ rule.Concludes fs h) →
        ∃ e, rule.infer fs = .error e ∧ e.subject = rule.terse ∧
          e.reason = "Rule could not be applied") ∧
      ∀ f, rule.readBack f = .ok f :=
  ⟨fun _ => infer_eq_ok_iff,
    fun hi hc hnone => ⟨.notApplicable rule, infer_eq_error hi hc hnone, rfl, rfl⟩,
    rule.readBack_eq⟩

/-- A dilemma whose parts are negations, and a negation that is not the one that modus tollens asks
for: `~~q` beside `p -> q`. -/
theorem infer_exact_dilemma :
    let p := Formula.atom .p
    let q := Formula.atom .q
    Rule.infer .cd [.binary .and (.binary .implies (.neg p) q) (.binary .implies q (.neg q)),
        .binary .or (.neg p) q] = .ok (.binary .or q (.neg q)) ∧
      ∃ e, Rule.infer .mt [.binary .implies p q, .neg (.neg q)] = .error e ∧ e.subject = "MT" ∧
        e.reason = "Rule could not be applied" := by
  intro p q
  refine ⟨((infer_exact .cd _).1 _).mpr (.constructiveDilemma (.neg p) q q (.neg q)),
    (infer_exact .mt _).2.1 rfl rfl fun h hc => ?_⟩
  cases hc

end Rule

end Deduction
