import Deduction.Proofs.CallFormat
import Deduction.Proofs.Exactness
import Deduction.Proofs.Place

/-!
# The grounds of a refusal

What can be wrong with a line in rule mode on the way to its batch, and with the batch itself. The
arguments of a call never are of the wrong kind or number for a function they are given to
(`RuleError.isMistyped`), and no digit but an ASCII one gets into a call, so that a text of digits
can only fail to be a number by its length (`LongRun`). Both are said of everything that can be
refused on the way from the line to the batch (`Refusal.Explained`, `explained_requestOf`). A batch
that a line asks for is refused by its rule or not at all (`Batch.isMistyped_run`).
-/

namespace Deduction

/-! ### Refusals by rules -/

/-- The statements given to a function are not of the kind or the number it takes. -/
def RuleError.isMistyped : RuleError → Bool
  | notAList _ _ | wrongCount _ _ => true
  | _ => false

theorem Rule.isMistyped_outcome {rule : Rule} {c : Option Conclusion} {e : RuleError}
    (h : rule.outcome c = .error e) : e.isMistyped = false := by
  rw [outcome_eq] at h
  rcases c with _ | d
  · cases h
    rfl
  · cases h

theorem Formula.isMistyped_modifyAt {rule : Rule} {change : Formula → Except RuleError Formula}
    {f : Formula} {path : List Int} {e : RuleError}
    (hchange : ∀ g e, change g = .error e → e.isMistyped = false)
    (h : f.modifyAt rule change path = .error e) : e.isMistyped = false := by
  rcases modifyAt_eq_error_iff.mp h with hoffence | ⟨g, -, hg⟩
  · cases hoffence <;> rfl
  · exact hchange g e hg

namespace Batch

theorem exists_error_of_collect {α : Type} {silent : Bool} {apply : α → Except RuleError Formula}
    {e : RuleError} : ∀ {xs : List α}, collect silent apply xs = .error e →
      ∃ x ∈ xs, apply x = .error e
  | [], h => by cases h
  | x :: xs, h => by
    rw [collect] at h
    split at h
    · obtain ⟨y, hy, he⟩ := exists_error_of_collect (map_eq_error_iff.mp h)
      exact ⟨y, List.mem_cons_of_mem x hy, he⟩
    · next e' hx =>
      split_ifs at h
      · obtain ⟨y, hy, he⟩ := exists_error_of_collect h
        exact ⟨y, List.mem_cons_of_mem x hy, he⟩
      · cases h
        exact ⟨x, List.mem_cons_self, hx⟩

/-- **A batch with lists of candidates** is refused by its rule or not at all. -/
theorem isMistyped_run {b : Batch} {e : RuleError} (hsecond : ∀ g, b.second ≠ .one g)
    (h : b.run = .error e) : e.isMistyped = false := by
  unfold run at h
  rcases bind_eq_error_iff.mp h with hschema | ⟨schema, -, h⟩
  · generalize b.rule = rule at hschema
    cases rule <;> cases hschema <;> rfl
  rcases bind_eq_error_iff.mp h with hpath | ⟨_, -, h⟩
  · unfold checkPath at hpath
    split_ifs at hpath
    cases hpath
    rfl
  cases schema with
  | unary conclude =>
    obtain ⟨f, -, hf⟩ := exists_error_of_collect h
    unfold applyOne at hf
    simp only at hf
    split_ifs at hf
    · exact Formula.isMistyped_modifyAt (fun g e he => Rule.isMistyped_outcome he) hf
    · exact Rule.isMistyped_outcome hf
  | binary conclude =>
    rcases bind_eq_error_iff.mp h with hseconds | ⟨seconds, -, h⟩
    · unfold Batch.seconds at hseconds
      split at hseconds
      · cases hseconds
        rfl
      · next g hg => exact absurd hg (hsecond g)
      · split_ifs at hseconds
        cases hseconds
        rfl
    · obtain ⟨p, -, hp⟩ := exists_error_of_collect h
      exact Rule.isMistyped_outcome hp

end Batch

/-! ### Numbers in calls -/

/-- More digits in a row than are read as a number, which is the fault. -/
def LongRun (cs : List Char) (e : Text.NumeralFault) : Prop :=
  ∃ run, run <:+: cs ∧ (∀ c ∈ run, c.isDigit = true) ∧ 4300 < run.length ∧ e = .tooLong run.length

theorem LongRun.mono {cs ds : List Char} {e : Text.NumeralFault} (h : LongRun cs e)
    (hcs : cs <:+: ds) : LongRun ds e := by
  obtain ⟨run, hrun, hdigits, hlength, he⟩ := h
  exact ⟨run, hrun.trans hcs, hdigits, hlength, he⟩

/-- Why a line is refused before a batch is run: a rule refuses it, or a number in `cs` is too
long. -/
def Refusal.Explained (cs : List Char) : Refusal → Prop
  | .rule e => e.isMistyped = false
  | .numeral e => LongRun cs e

theorem Refusal.Explained.mono {cs ds : List Char} {r : Refusal} (h : r.Explained cs)
    (hcs : cs <:+: ds) : r.Explained ds := by
  cases r with
  | rule e => exact h
  | numeral e => exact LongRun.mono h hcs

theorem Text.infix_intercalate (separator : Char) {p : List Char} :
    ∀ {pieces : List (List Char)}, p ∈ pieces → p <:+: [separator].intercalate pieces
  | [q], h => by
    rw [List.mem_singleton.mp h, List.intercalate_singleton]
  | q :: r :: pieces, h => by
    rw [List.intercalate_cons_cons]
    rcases List.mem_cons.mp h with rfl | h
    · rw [List.append_assoc]
      exact (List.prefix_append p _).isInfix
    · exact (infix_intercalate separator h).trans (List.suffix_append _ _).isInfix

theorem Text.infix_of_mem_splitChars {separator : Char} {p cs : List Char}
    (h : p ∈ splitChars separator cs) : p <:+: cs := by
  have hjoin : [separator].intercalate (splitChars separator cs) = cs := by
    rw [splitChars_eq_splitOn, List.intercalate_splitOn]
  have hpart := infix_intercalate separator h
  rwa [hjoin] at hpart

namespace RuleCall

variable {cs : List Char} {e : Text.NumeralFault}

/-- The digits among the characters of arguments are ASCII digits. -/
theorem isDigit_of_isArgumentChar {c : Char} (hc : isArgumentChar c = true)
    (hdigit : Text.isDigit c = true) : c.isDigit = true := by
  simp only [isArgumentChar, isReferenceChar, isPathChar, Bool.or_eq_true, decide_eq_true_eq] at hc
  rcases hc with (hc | rfl) | (rfl | rfl) | rfl
  · exact hc
  · exact absurd hdigit (by decide)
  · rfl
  · rfl
  · exact absurd hdigit (by decide)

/-- **In a call, digits fail to be a number only by being too many.** -/
theorem longRun_of_readNumeral (hchars : ∀ c ∈ cs, isArgumentChar c = true)
    (hdigits : Text.isDigits cs = true) (h : Text.readNumeral cs = .error e) : LongRun cs e := by
  rw [Text.isDigits, Bool.and_eq_true, List.all_eq_true] at hdigits
  have hall : ∀ c ∈ cs, c.isDigit = true := fun c hc =>
    isDigit_of_isArgumentChar (hchars c hc) (hdigits.2 c hc)
  have hne : cs ≠ [] := by simpa using hdigits.1
  by_cases hlength : cs.length ≤ Text.digitLimit
  · rw [Text.readNumeral_of_digits hne hall hlength] at h
    cases h
  · have hlong : Text.digitLimit < cs.length := Nat.not_le.mp hlength
    rw [Text.readNumeral_tooLong hall hlong] at h
    cases h
    exact ⟨cs, List.infix_refl cs, hall, hlong, rfl⟩

theorem explained_readPositions {rule : Rule} {r : Refusal} :
    ∀ {parts : List (List Char)}, (∀ p ∈ parts, p <:+: cs) →
      (∀ p ∈ parts, ∀ c ∈ p, isArgumentChar c = true) →
      readPositions rule parts = .error r → r.Explained cs
  | [], _, _, h => by cases h
  | part :: parts, hpart, hchars, h => by
    rw [List.forall_mem_cons] at hpart hchars
    rw [readPositions] at h
    split_ifs at h with hdigits
    · cases h
      rfl
    · have hdigits : Text.isDigits part = true := by simpa using hdigits
      split at h
      · next e he =>
        cases h
        exact (longRun_of_readNumeral hchars.1 hdigits he).mono hpart.1
      · exact explained_readPositions hpart.2 hchars.2 (map_eq_error_iff.mp h)

theorem explained_readPath {rule : Rule} {text : String} {r : Refusal}
    (hchars : ∀ c ∈ text.toList, isArgumentChar c = true) (h : readPath rule text = .error r) :
    r.Explained text.toList := by
  rw [readPath] at h
  split_ifs at h
  refine explained_readPositions (fun p hp => Text.infix_of_mem_splitChars hp)
    (fun p hp c hc => hchars c ?_) (map_eq_error_iff.mp h)
  exact (Text.infix_of_mem_splitChars hp).subset hc

end RuleCall

theorem FactBase.explained_select {b : FactBase} {reference : String} {r : Refusal}
    (hchars : ∀ c ∈ reference.toList, RuleCall.isArgumentChar c = true)
    (h : b.select reference = .error r) : r.Explained reference.toList := by
  have hstrip : Text.strip reference = reference := by
    refine Text.strip_eq_self fun c hc => ?_
    have hvisible := RuleCall.visible_of_isArgumentChar (hchars c hc)
    exact Text.isBlank_of_visible (by omega) (by omega)
  simp only [select, hstrip] at h
  split_ifs at h with hwildcard hdigits
  · cases h
    rfl
  · have hdigits : Text.isDigits reference.toList = true := by simpa using hdigits
    split at h
    · next e he =>
      cases h
      exact RuleCall.longRun_of_readNumeral hchars hdigits he
    · split_ifs at h
      cases h
      rfl

namespace Session

variable {s : Session} {line : String} {rule : Rule} {call : RuleCall} {r : Refusal}

theorem explained_selectFor {reference : String}
    (hchars : ∀ c ∈ reference.toList, RuleCall.isArgumentChar c = true)
    (h : s.selectFor rule reference = .error r) : r.Explained reference.toList := by
  rw [selectFor] at h
  split at h
  · split_ifs at h
    cases h
    rfl
  · exact FactBase.explained_select hchars h

theorem explained_request {cs : List Char}
    (hchars : ∀ a ∈ call.arguments, ∀ c ∈ a.toList, RuleCall.isArgumentChar c = true)
    (hpart : ∀ a ∈ call.arguments, a.toList <:+: cs) (h : s.request rule call = .error r) :
    r.Explained cs := by
  rw [request] at h
  rcases hcall : call.arguments with _ | ⟨first, more⟩ <;> rw [hcall] at h hchars hpart
  · cases h
    rfl
  rw [List.forall_mem_cons] at hchars hpart
  rcases bind_eq_error_iff.mp h with hfirst | ⟨fs, -, h⟩
  · exact (explained_selectFor hchars.1 hfirst).mono hpart.1
  rcases more with _ | ⟨second, rest⟩
  · simp only at h
    split_ifs at h <;> cases h
  have hchars := hchars.2 second List.mem_cons_self
  have hpart := hpart.2 second List.mem_cons_self
  simp only at h
  split_ifs at h
  · rcases bind_eq_error_iff.mp h with hpath | ⟨path, -, h⟩
    · exact (RuleCall.explained_readPath hchars hpath).mono hpart
    · cases h
  · rcases bind_eq_error_iff.mp h with hsecond | ⟨gs, -, h⟩
    · exact (explained_selectFor hchars hsecond).mono hpart
    · cases h

/-- **All that can be wrong with a line in rule mode** before its batch is run. -/
theorem explained_requestOf (h : s.requestOf line = .error r) :
    r.Explained (Text.squeezeChars line.toList) := by
  rw [requestOf] at h
  rcases RuleCall.parse_cases line with
    ⟨name, arguments, hform, -, hparse⟩ | ⟨name, arguments, -, -, hparse⟩ | ⟨-, hparse⟩
  · rw [hparse] at h
    simp only at h
    split at h
    · cases h
      rfl
    · refine explained_request (fun a ha => ?_) (fun a ha => ?_) h
      · obtain ⟨cs, hcs, rfl⟩ := List.mem_map.mp ha
        rw [String.toList_ofList]
        exact RuleCall.mem_arguments hform.shape cs hcs
      · obtain ⟨cs, hcs, rfl⟩ := List.mem_map.mp ha
        rw [String.toList_ofList, hform.text]
        refine (Text.infix_intercalate ',' hcs).trans ⟨name ++ ['('], [')'], ?_⟩
        simp
  · rw [hparse] at h
    cases h
    rfl
  · rw [hparse] at h
    cases h
    rfl

/-- In a line a rule is never given a statement where it takes a list. -/
theorem second_ne_one_of_requestOf {b : Batch} (h : s.requestOf line = .ok (.run b)) (g : Formula) :
    b.second ≠ .one g := by
  rw [requestOf] at h
  split at h
  · cases h
  split at h
  · cases h
  rw [request] at h
  split at h
  · cases h
  obtain ⟨fs, -, h⟩ := bind_eq_ok_iff.mp h
  simp only at h
  split at h
  · split_ifs at h <;> cases h
    exact Argument.noConfusion
  · split_ifs at h
    · obtain ⟨path, -, h⟩ := bind_eq_ok_iff.mp h
      cases h
      exact Argument.noConfusion
    · obtain ⟨gs, -, h⟩ := bind_eq_ok_iff.mp h
      cases h
      exact Argument.noConfusion

end Session

end Deduction
