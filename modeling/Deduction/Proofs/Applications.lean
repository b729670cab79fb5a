import Deduction.Proofs.Batch
import Mathlib.Data.List.ProdSigma

/-!
# Batches: refusals and applications

A batch is refused as malformed or it runs its applications. Which of the two, and the reason of a
refusal, depends neither on the mode nor on the candidates for the first argument (`refusal?`). The
applications take one candidate each, or each candidate with the one statement to add, or every pair
of candidates (`Applications`). In a silent batch the results are those of the applications that
succeed, and so they are in a strict one if all do; if not, it ends with the error of the first that
fails (`collect_strict`, `collect_strict_error`).

The second argument by itself, not in a list, is for addition: any other rule that takes two
statements refuses it (`Applications` has no case for it).
-/

namespace Deduction

theorem Rule.arity_eq_one_or_two (rule : Rule) : rule.arity = 1 ∨ rule.arity = 2 := by
  cases rule <;> decide

theorem Rule.schema_eq_error {rule : Rule} (h : rule.isImplemented = false) :
    rule.schema = .error (.notImplemented rule) := by
  cases rule with
  | mp | mt | ds | hs | simp | conj | cd | abs | add | dn => cases h
  | _ => rfl

theorem Rule.exists_schema {rule : Rule} (h : rule.isImplemented = true) :
    ∃ schema, rule.schema = .ok schema := by
  rcases rule.arity_eq_one_or_two with ha | ha
  · obtain ⟨conclude, hs⟩ := Rule.exists_unary h ha
    exact ⟨_, hs⟩
  · obtain ⟨conclude, hs⟩ := Rule.exists_binary ha
    exact ⟨_, hs⟩

namespace Argument

def isAbsent : Argument → Bool
  | absent => true
  | _ => false

/-- A list that does not consist of one statement. -/
def isListNotOne : Argument → Bool
  | many gs => gs.length != 1
  | _ => false

end Argument

namespace Batch

variable {rule : Rule} {first : List Formula} {second : Argument} {silent : Bool}
  {path : List Int} {applications : List (List Formula)} {e : RuleError} {g : Formula}

/-! ### Running applications in strict mode -/

section Strict

variable {α : Type} {apply : α → Except RuleError Formula} {xs : List α}

theorem collect_strict (h : ∀ x ∈ xs, ∃ f, apply x = .ok f) :
    collect false apply xs = .ok (successes apply xs) := by
  induction xs with
  | nil => rfl
  | cons x xs ih =>
    obtain ⟨f, hf⟩ := h x List.mem_cons_self
    rw [collect, hf, successes_cons_ok hf, ih fun y hy => h y (List.mem_cons_of_mem x hy)]
    rfl

theorem collect_strict_error {before after : List α} {x : α}
    (hbefore : ∀ y ∈ before, ∃ f, apply y = .ok f) (hx : apply x = .error e) :
    collect false apply (before ++ x :: after) = .error e := by
  induction before with
  | nil =>
    rw [List.nil_append, collect, hx]
    rfl
  | cons y before ih =>
    obtain ⟨f, hf⟩ := hbefore y List.mem_cons_self
    rw [List.cons_append, collect, hf, ih fun z hz => hbefore z (List.mem_cons_of_mem y hz)]
    rfl

end Strict

/-! ### Malformed batches -/

/-- The first reason that there is for refusing a batch before any application. -/
def refusal? (rule : Rule) (second : Argument) (path : List Int) : Option RuleError :=
  if rule.isImplemented = false then some (.notImplemented rule)
  else if path ≠ [] ∧ rule.isReplacement = false then some (.takesNoPath rule)
  else if rule.arity = 2 ∧ second.isAbsent then some (.missingArgument rule)
  else if rule = .add ∧ second.isListNotOne then some (.notOneAddend rule)
  else none

theorem seconds_one : (mk rule first (.one g) silent path).seconds =
    if rule = .add then .ok [g] else .error (.notAList rule g) := rfl

theorem seconds_many {gs : List Formula} : (mk rule first (.many gs) silent path).seconds =
    if rule = .add && gs.length ≠ 1 then .error (.notOneAddend rule) else .ok gs := rfl

/-- What is known of a batch that is not refused as malformed. -/
structure WellFormed (rule : Rule) (second : Argument) (path : List Int) : Prop where
  implemented : rule.isImplemented = true
  takesPath : path = [] ∨ rule.isReplacement = true
  given : rule.arity = 2 → second.isAbsent = false
  oneAddend : rule = .add → second.isListNotOne = false

theorem takesPath_iff :
    ¬ (path ≠ [] ∧ rule.isReplacement = false) ↔ path = [] ∨ rule.isReplacement = true := by
  rw [not_and_or, not_not, Bool.not_eq_false]

theorem wellFormed_of_refusal? (hr : refusal? rule second path = none) :
    WellFormed rule second path := by
  unfold refusal? at hr
  split_ifs at hr with hi hp hgiven hadd
  exact
    { implemented := by simpa using hi
      takesPath := takesPath_iff.mp hp
      given := by simpa using hgiven
      oneAddend := by simpa using hadd }

/-- A rule that takes two statements acts on whole statements. -/
theorem path_eq_nil (ha : rule.arity = 2) (hp : path = [] ∨ rule.isReplacement = true) :
    path = [] :=
  hp.resolve_right (by simp [Rule.isReplacement_of_arity ha])

theorem run_eq_error_of_seconds (ha : rule.arity = 2)
    (hp : path = [] ∨ rule.isReplacement = true)
    (hseconds : (mk rule first second silent path).seconds = .error e) :
    (mk rule first second silent path).run = .error e := by
  obtain ⟨conclude, hs⟩ := Rule.exists_binary ha
  obtain rfl := path_eq_nil ha hp
  have hcheck : (mk rule first second silent []).checkPath = .ok () := rfl
  rw [run, hs, hcheck]
  simp only [bind, Except.bind, hseconds]

/-- **A malformed batch is refused**, whatever the mode and the candidates. -/
theorem run_eq_error_of_refusal? (hr : refusal? rule second path = some e) :
    (mk rule first second silent path).run = .error e := by
  unfold refusal? at hr
  split_ifs at hr with hi hp hgiven hadd
  · cases hr
    rw [run, Rule.schema_eq_error hi]
    rfl
  · cases hr
    obtain ⟨schema, hs⟩ := Rule.exists_schema (by simpa using hi)
    have hcheck : (mk rule first second silent path).checkPath = .error (.takesNoPath rule) := by
      rw [checkPath, if_pos]
      simpa using hp
    rw [run, hs, hcheck]
    rfl
  · cases hr
    refine run_eq_error_of_seconds hgiven.1 (takesPath_iff.mp hp) ?_
    cases second with
    | absent => rfl
    | one | many => exact absurd hgiven.2 (by simp [Argument.isAbsent])
  · cases hr
    refine run_eq_error_of_seconds (by rw [hadd.1]; rfl) (takesPath_iff.mp hp) ?_
    cases second with
    | many gs =>
      have hlength : gs.length ≠ 1 := by simpa [Argument.isListNotOne] using hadd.2
      rw [seconds_many, if_pos (by simpa using ⟨hadd.1, hlength⟩)]
    | absent | one => exact absurd hadd.2 (by simp [Argument.isListNotOne])

/-- A second argument that is not in a list is refused too, unless it is a statement to add. -/
theorem run_eq_error_of_one (hw : WellFormed rule (.one g) path) (ha : rule.arity = 2)
    (hadd : rule ≠ .add) :
    (mk rule first (.one g) silent path).run = .error (.notAList rule g) :=
  run_eq_error_of_seconds ha hw.takesPath (by rw [seconds_one, if_neg hadd])

/-! ### Applications -/

/-- The statements that each application takes, in the order of the applications: the candidates one
by one, each of them with the statement to add, or all pairs, those with the first candidate
first. -/
inductive Applications (rule : Rule) (first : List Formula) :
    Argument → List (List Formula) → Prop
  | unary {second : Argument} : rule.arity = 1 →
    Applications rule first second (first.map fun f => [f])
  | addOne {g : Formula} : rule = .add →
    Applications rule first (.one g) (first.map fun f => [f, g])
  | addMany {g : Formula} : rule = .add →
    Applications rule first (.many [g]) (first.map fun f => [f, g])
  | product {gs : List Formula} : rule.arity = 2 → rule ≠ .add →
    Applications rule first (.many gs) ((first ×ˢ gs).map fun p => [p.1, p.2])

/-- One application: a rule of replacement acts at the path. -/
def application (rule : Rule) (path : List Int) : List Formula → Except RuleError Formula
  | [f] =>
    if rule.isReplacement then f.modifyAt rule (fun g => rule.infer [g]) path else rule.infer [f]
  | fs => rule.infer fs

theorem WellFormed.exists_applications (hw : WellFormed rule second path)
    (hone : ∀ g, second = .one g → rule.arity = 1 ∨ rule = .add) :
    ∃ applications, Applications rule first second applications := by
  rcases rule.arity_eq_one_or_two with ha | ha
  · exact ⟨_, .unary ha⟩
  cases second with
  | absent => exact absurd (hw.given ha) (by simp [Argument.isAbsent])
  | one g => exact ⟨_, .addOne ((hone g rfl).resolve_left (by omega))⟩
  | many gs =>
    by_cases hadd : rule = .add
    · have hlength : gs.length = 1 := by simpa [Argument.isListNotOne] using hw.oneAddend hadd
      obtain ⟨g, rfl⟩ := List.length_eq_one_iff.mp hlength
      exact ⟨_, .addMany hadd⟩
    · exact ⟨_, .product ha hadd⟩

theorem run_eq_collect_pairs {gs : List Formula} (ha : rule.arity = 2)
    (hp : path = [] ∨ rule.isReplacement = true)
    (hseconds : (mk rule first second silent path).seconds = .ok gs) :
    (mk rule first second silent path).run =
      collect silent (application rule path) ((first ×ˢ gs).map fun p => [p.1, p.2]) := by
  obtain ⟨conclude, hs⟩ := Rule.exists_binary ha
  rw [run_binary hs (path_eq_nil ha hp) hseconds, collect_map]
  rfl

theorem map_product_singleton (first : List Formula) (g : Formula) :
    (first ×ˢ [g]).map (fun p => [p.1, p.2]) = first.map fun f => [f, g] := by
  have hpairs : first ×ˢ [g] = first.map fun f => (f, g) := List.map_eq_flatMap.symm
  rw [hpairs, List.map_map]
  rfl

/-- **The run of a batch that is not refused** is the run of its applications. -/
theorem Applications.run_eq (ha : Applications rule first second applications)
    (hw : WellFormed rule second path) :
    (mk rule first second silent path).run =
      collect silent (application rule path) applications := by
  cases ha with
  | unary ha =>
    obtain ⟨conclude, hs⟩ := Rule.exists_unary hw.implemented ha
    rw [run_unary hs hw.takesPath, collect_map]
    rfl
  | addOne hadd =>
    subst hadd
    rw [run_eq_collect_pairs rfl hw.takesPath seconds_one, map_product_singleton]
  | addMany hadd =>
    subst hadd
    rw [run_eq_collect_pairs rfl hw.takesPath seconds_many, map_product_singleton]
  | product ha hadd =>
    exact run_eq_collect_pairs ha hw.takesPath (by rw [seconds_many, if_neg (by simp [hadd])])

/-- **What a batch does.** A malformed batch is refused for the first reason there is, in both modes
and whatever the candidates for the first argument; and so is, with a reason of its own, a second
argument that is not in a list, except by a rule that takes one statement and by addition. Any other
batch runs its applications in order. In silent mode it yields the results of those that succeed; in
strict mode it yields them if all do, and else the error of the first that fails. -/
theorem run_exact (rule : Rule) (second : Argument) (path : List Int) :
    (∀ e, refusal? rule second path = some e →
      ∀ first silent, (mk rule first second silent path).run = .error e) ∧
    (refusal? rule second path = none →
      (∀ g, second = .one g → rule.arity = 2 → rule ≠ .add →
        ∀ first silent, (mk rule first second silent path).run = .error (.notAList rule g)) ∧
      ((∀ g, second = .one g → rule.arity = 1 ∨ rule = .add) →
        ∀ first, ∃ applications, Applications rule first second applications ∧
          (mk rule first second true path).run =
            .ok (successes (application rule path) applications) ∧
          ((∀ fs ∈ applications, ∃ h, application rule path fs = .ok h) →
            (mk rule first second false path).run =
              .ok (successes (application rule path) applications)) ∧
          ∀ before fs after e, applications = before ++ fs :: after →
            (∀ gs ∈ before, ∃ h, application rule path gs = .ok h) →
            application rule path fs = .error e →
            (mk rule first second false path).run = .error e)) := by
  refine ⟨fun e he first silent => run_eq_error_of_refusal? he, fun hr => ?_⟩
  have hw := wellFormed_of_refusal? hr
  constructor
  · rintro g rfl ha hadd first silent
    exact run_eq_error_of_one hw ha hadd
  · intro hone first
    obtain ⟨applications, happ⟩ := hw.exists_applications hone
    refine ⟨applications, happ, ?_, fun hall => ?_, ?_⟩
    · rw [happ.run_eq hw, collect_silent]
    · rw [happ.run_eq hw, collect_strict hall]
    · rintro before fs after e rfl hbefore hfs
      rw [happ.run_eq hw, collect_strict_error hbefore hfs]

/-- With `p -> q`, `r -> s` and `p`, `r`, modus ponens fits the first pair and the last. The silent
batch yields both results, the strict one fails at the second pair. -/
theorem run_exact_detachment :
    let p := Formula.atom .p
    let q := Formula.atom .q
    let r := Formula.atom .r
    let s := Formula.atom .s
    let implications := [Formula.binary .implies p q, .binary .implies r s]
    (∀ silent, (mk .mp [] .absent silent []).run = .error (.missingArgument .mp)) ∧
      (∀ silent, (mk .mp [] (.one p) silent []).run = .error (.notAList .mp p)) ∧
      (mk .mp implications (.many [p, r]) true []).run = .ok [q, s] ∧
      (mk .mp implications (.many [p, r]) false []).run = .error (.notApplicable .mp) := by
  intro p q r s implications
  obtain ⟨applications, happ, hsilent, -, hstrict⟩ :=
    ((run_exact .mp (.many [p, r]) []).2 rfl).2 nofun implications
  cases happ with
  | unary ha => cases ha
  | product =>
    refine ⟨(run_exact .mp .absent []).1 _ rfl [],
      ((run_exact .mp (.one p) []).2 rfl).1 p rfl rfl (by decide) [], ?_, ?_⟩
    · rw [hsilent]
      decide +kernel
    · refine hstrict [[.binary .implies p q, p]] [.binary .implies p q, r]
        [[.binary .implies r s, p], [.binary .implies r s, r]] _ rfl ?_ ?_
      · intro gs hgs
        rw [List.mem_singleton.mp hgs]
        exact ⟨q, (Rule.Concludes.modusPonens p q).infer_eq⟩
      · decide +kernel

/-- **A second argument that is not in a list** is refused by modus ponens in silent mode, although
the batch is not malformed otherwise and there is nothing to apply the rule to. -/
theorem run_second_not_in_list :
    let b : Batch := { rule := .mp, first := [], second := .one (.atom .p), silent := true }
    refusal? b.rule b.second b.path = none ∧ (∀ gs : List Formula, b.first ×ˢ gs = []) ∧
      b.run ≠ .ok [] ∧ b.run = .error (.notAList .mp (.atom .p)) :=
  ⟨rfl, fun _ => rfl, nofun, rfl⟩

end Batch

end Deduction
