import Deduction.Proofs.Numeral
import Deduction.Proofs.Run

/-!
# Decoding references and paths

A reference to facts, and each position of a path, is first asked to consist of digits and then
read as a number. The first question is about the wider class of digits, the second about decimal
digits, and about not more of them than the limit. So there are texts that pass for digits and are
not read as numbers (`Text.Unreadable`). Apart from these, a reference is decoded to stored facts or
refused, and so is a path, which is read from the left up to the first position that fails
(`RuleCall.Blocked`).
-/

namespace Deduction

/-! ### Digits and numbers -/

namespace Text

variable {cs : List Char}

/-- Digits that are not read as a number: one is not decimal, or there are too many. -/
def Unreadable (cs : List Char) : Prop :=
  isDigits cs = true ∧ ((∃ c ∈ cs, isDecimal c = false) ∨ digitLimit < cs.length)

theorem IsNumeral.isDigits (h : IsNumeral cs) : isDigits cs = true := by
  rw [Text.isDigits, Bool.and_eq_true, List.all_eq_true]
  refine ⟨by simpa using h.1, fun c hc => ?_⟩
  rw [isDigit, h.2.1 c hc, Bool.true_or]

theorem IsNumeral.not_unreadable (h : IsNumeral cs) : ¬ Unreadable cs := by
  rintro ⟨-, ⟨c, hc, hdecimal⟩ | hlong⟩
  · exact absurd ((h.2.1 c hc).symm.trans hdecimal) (by decide)
  · have := h.2.2
    omega

theorem isNumeral_of_isDigits (hdigits : isDigits cs = true) (h : ¬ Unreadable cs) :
    IsNumeral cs := by
  have hgood := not_or.mp fun hor => h ⟨hdigits, hor⟩
  refine ⟨?_, fun c hc => ?_, Nat.not_lt.mp hgood.2⟩
  · rintro rfl
    exact Bool.false_ne_true hdigits
  · by_contra hdecimal
    exact hgood.1 ⟨c, hc, Bool.eq_false_iff.mpr hdecimal⟩

theorem Unreadable.readNumeral_eq (h : Unreadable cs) : ∃ e, readNumeral cs = .error e := by
  simp only [readNumeral]
  split_ifs with hlong hshort
  · exact ⟨_, rfl⟩
  · exact ⟨_, rfl⟩
  · -- all characters are decimal digits, and there are not too many
    rw [Bool.or_eq_true, not_or, decide_eq_true_eq, Nat.not_lt] at hshort
    have hpart := List.takeWhile_prefix (p := isDecimal) (l := cs)
    have hall := hpart.eq_of_length_le hshort.2
    obtain ⟨-, ⟨c, hc, hdecimal⟩ | htooLong⟩ := h
    · have := List.takeWhile_eq_self_iff.mp hall c hc
      exact absurd (this.symm.trans hdecimal) (by decide)
    · rw [hall] at hlong
      exact absurd htooLong hlong

end Text

/-! ### Outcomes -/

/-- What comes of decoding a text: a fault if it is blocked, and otherwise a result that is as it
should be or the refusal `e`. -/
inductive Decodes {α : Type} (blocked : Prop) (good : α → Prop) (e : RuleError) :
    Except Refusal α → Prop
  | fault {fault : Text.NumeralFault} : blocked → Decodes blocked good e (.error (.numeral fault))
  | result {a : α} : ¬ blocked → good a → Decodes blocked good e (.ok a)
  | refused : ¬ blocked → Decodes blocked good e (.error (.rule e))

section Decodes

variable {α : Type} {blocked : Prop} {good : α → Prop} {e : RuleError} {x : Except Refusal α}

theorem Decodes.answered_iff (h : Decodes blocked good e x) :
    ((∃ a, x = .ok a ∧ good a) ∨ x = .error (.rule e)) ↔ ¬ blocked := by
  cases h with
  | fault hb => simp [hb]
  | result hb hgood => simp [hb, hgood]
  | refused hb => simp [hb]

theorem Decodes.fault_iff (h : Decodes blocked good e x) :
    (∃ fault, x = .error (.numeral fault)) ↔ blocked := by
  cases h with
  | fault hb => simp [hb]
  | result hb hgood => simp [hb]
  | refused hb => simp [hb]

end Decodes

/-! ### References -/

/-- **What a reference is decoded to.** -/
theorem FactBase.decodes_select (b : FactBase) (text : String) :
    Decodes (Text.Unreadable (Text.stripChars text.toList)) (fun fs => ∀ f ∈ fs, f ∈ b.values)
      (.invalidReference (Text.strip text)) (b.select text) := by
  have hstored : ∀ fs, b.select text = .ok fs → ∀ f ∈ fs, f ∈ b.values :=
    fun _ => Session.mem_of_select
  have hkey : (Text.strip text).toList = Text.stripChars text.toList := String.toList_ofList
  rw [← hkey]
  generalize hselect : b.select text = x at hstored ⊢
  simp only [select] at hselect
  split_ifs at hselect with hwildcard hdigits
  · have hstar : ¬ Text.Unreadable (Text.strip text).toList := by
      rw [hwildcard]
      exact fun h => absurd h.1 (by decide)
    subst hselect
    exact .result hstar (hstored _ rfl)
  · subst hselect
    refine .refused fun h => ?_
    rw [h.1] at hdigits
    exact absurd hdigits (by decide)
  · have hdigits : Text.isDigits (Text.strip text).toList = true := by simpa using hdigits
    by_cases hblocked : Text.Unreadable (Text.strip text).toList
    · obtain ⟨fault, hfault⟩ := hblocked.readNumeral_eq
      rw [hfault] at hselect
      subst hselect
      exact .fault hblocked
    · rw [(Text.isNumeral_of_isDigits hdigits hblocked).readNumeral_eq] at hselect
      simp only at hselect
      split_ifs at hselect
      · subst hselect
        exact .refused hblocked
      · subst hselect
        exact .result hblocked (hstored _ rfl)

/-! ### Paths -/

namespace RuleCall

variable {rule : Rule} {part : List Char} {parts : List (List Char)}

/-- The first position that is not read as a number passes for digits. -/
def Blocked (parts : List (List Char)) : Prop :=
  ∃ before part after, parts = before ++ part :: after ∧ (∀ p ∈ before, Text.IsNumeral p) ∧
    Text.Unreadable part

theorem not_blocked_nil : ¬ Blocked [] := by
  rintro ⟨before, part, after, h, -⟩
  cases before <;> cases h

theorem blocked_cons :
    Blocked (part :: parts) ↔ Text.Unreadable part ∨ Text.IsNumeral part ∧ Blocked parts := by
  constructor
  · rintro ⟨_ | ⟨p, before⟩, q, after, h, hbefore, hq⟩
    · cases h
      exact Or.inl hq
    · cases h
      obtain ⟨hp, hbefore⟩ := List.forall_mem_cons.mp hbefore
      exact Or.inr ⟨hp, before, q, after, rfl, hbefore, hq⟩
  · rintro (h | ⟨hpart, before, q, after, rfl, hbefore, hq⟩)
    · exact ⟨[], part, parts, rfl, by simp, h⟩
    · exact ⟨part :: before, q, after, rfl, List.forall_mem_cons.mpr ⟨hpart, hbefore⟩, hq⟩

theorem decodes_readPositions (rule : Rule) : ∀ parts : List (List Char),
    Decodes (Blocked parts) (fun _ => True) (.invalidPath rule) (readPositions rule parts)
  | [] => .result not_blocked_nil trivial
  | part :: parts => by
    rw [blocked_cons, readPositions]
    split_ifs with hdigits
    · have hdigits : Text.isDigits part = false := by simpa using hdigits
      refine .refused ?_
      rintro (h | ⟨h, -⟩)
      · exact absurd (h.1.symm.trans hdigits) (by decide)
      · exact absurd (h.isDigits.symm.trans hdigits) (by decide)
    · have hdigits : Text.isDigits part = true := by simpa using hdigits
      by_cases hpart : Text.Unreadable part
      · obtain ⟨fault, hfault⟩ := hpart.readNumeral_eq
        rw [hfault]
        exact .fault (Or.inl hpart)
      · -- the position is read, and what comes of the path is decided by the others
        have hnumeral := Text.isNumeral_of_isDigits hdigits hpart
        have hrest : (Text.Unreadable part ∨ Text.IsNumeral part ∧ Blocked parts) ↔
            Blocked parts := by
          simp [hpart, hnumeral]
        rw [hnumeral.readNumeral_eq, hrest]
        have ih := decodes_readPositions rule parts
        generalize readPositions rule parts = x at ih ⊢
        cases ih with
        | fault hb => exact .fault hb
        | result hb hgood => exact .result hb trivial
        | refused hb => exact .refused hb

/-- **What a path is decoded to.** -/
theorem decodes_readPath (rule : Rule) (text : String) :
    Decodes (Blocked (Text.splitChars '.' text.toList)) (fun _ => True) (.invalidPath rule)
      (readPath rule text) := by
  rw [readPath]
  split_ifs with hwhole
  · have hzero : Text.IsNumeral ['0'] := by decide
    rw [hwhole]
    refine .result ?_ trivial
    show ¬ Blocked [['0']]
    rw [blocked_cons]
    rintro (h | ⟨-, h⟩)
    · exact hzero.not_unreadable h
    · exact not_blocked_nil h
  · have h := decodes_readPositions rule (Text.splitChars '.' text.toList)
    generalize readPositions rule (Text.splitChars '.' text.toList) = x at h ⊢
    cases h with
    | fault hb => exact .fault hb
    | result hb hgood => exact .result hb trivial
    | refused hb => exact .refused hb

end RuleCall

/-! ### Both kinds of texts -/

/-- **When decoding ends in a fault.** A reference is decoded to stored facts or refused as invalid,
and a path is read or refused as invalid, unless digits stand in it that are not read as a number:
digits that are not decimal, or more of them than the limit. In a path this must be the first
position that is not read. Then decoding ends in a fault that no rule accounts for. -/
theorem decoding_faults (b : FactBase) (rule : Rule) (text : String) :
    ((∃ fs, b.select text = .ok fs ∧ ∀ f ∈ fs, f ∈ b.values) ∨
        b.select text = .error (.rule (.invalidReference (Text.strip text))) ↔
      ¬ Text.Unreadable (Text.stripChars text.toList)) ∧
    ((∃ e, b.select text = .error (.numeral e)) ↔
      Text.Unreadable (Text.stripChars text.toList)) ∧
    ((∃ path, RuleCall.readPath rule text = .ok path) ∨
        RuleCall.readPath rule text = .error (.rule (.invalidPath rule)) ↔
      ¬ RuleCall.Blocked (Text.splitChars '.' text.toList)) ∧
    ((∃ e, RuleCall.readPath rule text = .error (.numeral e)) ↔
      RuleCall.Blocked (Text.splitChars '.' text.toList)) := by
  have hselect := b.decodes_select text
  have hpath := RuleCall.decodes_readPath rule text
  refine ⟨hselect.answered_iff, hselect.fault_iff, ?_, hpath.fault_iff⟩
  rw [← hpath.answered_iff]
  simp only [and_true]

/-- A superscript two passes for a digit, and neither as a reference nor in a path is it decoded or
refused by a rule. -/
theorem superscript_not_decoded :
    ¬ ((∃ fs, FactBase.empty.select "²" = .ok fs ∧ ∀ f ∈ fs, f ∈ FactBase.empty.values) ∨
        ∃ e, FactBase.empty.select "²" = .error (.rule e)) ∧
      ¬ ((∃ path, RuleCall.readPath .dn "1.²" = .ok path) ∨
        ∃ e, RuleCall.readPath .dn "1.²" = .error (.rule e)) := by
  have hselect : FactBase.empty.select "²" = .error (.numeral (.notDecimal "²")) := by
    decide +kernel
  have hpath : RuleCall.readPath .dn "1.²" = .error (.numeral (.notDecimal "²")) := by
    decide +kernel
  rw [hselect, hpath]
  simp

end Deduction
