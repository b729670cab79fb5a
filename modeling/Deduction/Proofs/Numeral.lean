import Deduction.Text.Blank
import Deduction.Text.Numeral
import Mathlib.Data.List.TakeWhile
import Mathlib.Tactic.Common

/-!
# Decimal texts of numbers

A text of decimal digits within the limit is read as the number it stands for (`IsNumeral`); in
particular the decimal text of a number is read back (`readNumeral_toString`), and the text of a
smaller number is not longer (`length_toString_mono`). Digits are no blanks, so such a text stays as
it is when blanks are dropped.
-/

namespace Deduction.Text

variable {c : Char} {cs : List Char}

/-! ### Digits -/

theorem toNat_of_isDigit (h : c.isDigit = true) : 48 ≤ c.toNat ∧ c.toNat ≤ 57 := by
  simp only [Char.isDigit, ge_iff_le, Bool.and_eq_true, decide_eq_true_eq] at h
  exact ⟨UInt32.le_iff_toNat_le.mp h.1, UInt32.le_iff_toNat_le.mp h.2⟩

theorem decimalValue?_of_isDigit (h : c.isDigit = true) :
    decimalValue? c = some (c.toNat - '0'.toNat) := by
  obtain ⟨hlo, hhi⟩ := toNat_of_isDigit h
  have hfirst : zeros.find? (fun z => z ≤ c.toNat && c.toNat ≤ z + 9) = some 48 :=
    List.find?_cons_of_pos (by simp [hlo, hhi])
  rw [decimalValue?, hfirst]
  rfl

theorem isDecimal_of_isDigit (h : c.isDigit = true) : isDecimal c = true := by
  rw [isDecimal, decimalValue?_of_isDigit h, Option.isSome_some]

theorem isDigits_of_digits (hne : cs ≠ []) (h : ∀ c ∈ cs, c.isDigit = true) :
    isDigits cs = true := by
  rw [isDigits, Bool.and_eq_true, List.all_eq_true]
  refine ⟨by simpa using hne, fun c hc => ?_⟩
  rw [isDigit, isDecimal_of_isDigit (h c hc), Bool.true_or]

/-! ### Texts without blanks -/

/-- The visible ASCII characters are no blanks. -/
theorem isBlank_of_visible (hlo : 33 ≤ c.toNat) (hhi : c.toNat ≤ 126) : isBlank c = false := by
  simp only [isBlank, within, blankIntervals, List.any_cons, List.any_nil, Bool.or_false,
    Bool.or_eq_false_iff, Bool.and_eq_false_iff, decide_eq_false_iff_not]
  omega

theorem isBlank_of_isDigit (h : c.isDigit = true) : isBlank c = false := by
  obtain ⟨hlo, hhi⟩ := toNat_of_isDigit h
  exact isBlank_of_visible (by omega) (by omega)

/-- No digit of any script is a blank. -/
theorem isBlank_of_isDigit_any (h : isDigit c = true) : isBlank c = false := by
  have hzeros : ∀ i ∈ blankIntervals, ∀ z ∈ zeros, i.2 < z ∨ z + 9 < i.1 := by decide +kernel
  have hlike : ∀ i ∈ blankIntervals, ∀ j ∈ digitLike, i.2 < j.1 ∨ j.2 < i.1 := by decide +kernel
  by_contra hb
  rw [Bool.not_eq_false, isBlank, within, List.any_eq_true] at hb
  obtain ⟨i, hi, hci⟩ := hb
  rw [Bool.and_eq_true, decide_eq_true_eq, decide_eq_true_eq] at hci
  rw [isDigit, Bool.or_eq_true] at h
  rcases h with h | h
  · rw [isDecimal, decimalValue?, Option.isSome_map, List.find?_isSome] at h
    obtain ⟨z, hz, hcz⟩ := h
    rw [Bool.and_eq_true, decide_eq_true_eq, decide_eq_true_eq] at hcz
    have := hzeros i hi z hz
    omega
  · rw [within, List.any_eq_true] at h
    obtain ⟨j, hj, hcj⟩ := h
    rw [Bool.and_eq_true, decide_eq_true_eq, decide_eq_true_eq] at hcj
    have := hlike i hi j hj
    omega

theorem stripChars_eq_self (h : ∀ c ∈ cs, isBlank c = false) : stripChars cs = cs := by
  have hdrop : ∀ ds : List Char, (∀ c ∈ ds, isBlank c = false) → ds.dropWhile isBlank = ds := by
    intro ds hds
    rw [List.dropWhile_eq_self_iff]
    intro hl
    rw [hds _ (List.getElem_mem hl)]
    exact Bool.false_ne_true
  rw [stripChars, hdrop cs h, hdrop cs.reverse (fun c hc => h c (List.mem_reverse.mp hc)),
    List.reverse_reverse]

theorem strip_eq_self {text : String} (h : ∀ c ∈ text.toList, isBlank c = false) :
    strip text = text := by
  rw [strip, stripChars_eq_self h, String.ofList_toList]

theorem squeezeChars_eq_self (h : ∀ c ∈ cs, isBlank c = false) : squeezeChars cs = cs := by
  rw [squeezeChars, List.filter_eq_self]
  intro c hc
  rw [h c hc, Bool.not_false]

/-! ### Numerals -/

theorem numeralValue_of_digits (h : ∀ c ∈ cs, c.isDigit = true) :
    numeralValue cs = Nat.ofDigitChars 10 cs 0 := by
  have hfold : ∀ (ds : List Char) (n : ℕ), (∀ c ∈ ds, c.isDigit = true) →
      ds.foldl (fun n c => 10 * n + (decimalValue? c).getD 0) n = Nat.ofDigitChars 10 ds n := by
    intro ds
    induction ds with
    | nil => intro n _; rfl
    | cons d ds ih =>
      intro n hds
      rw [List.foldl_cons, Nat.ofDigitChars_cons, decimalValue?_of_isDigit (hds d (by simp)),
        Option.getD_some]
      exact ih _ fun c hc => hds c (List.mem_cons_of_mem d hc)
  exact hfold cs 0 h

/-- Decimal digits, at least one and not more than are read. -/
def IsNumeral (cs : List Char) : Prop :=
  cs ≠ [] ∧ (∀ c ∈ cs, isDecimal c = true) ∧ cs.length ≤ digitLimit

instance (cs : List Char) : Decidable (IsNumeral cs) :=
  decidable_of_iff (cs ≠ [] ∧ cs.all isDecimal = true ∧ cs.length ≤ digitLimit)
    (by rw [IsNumeral, List.all_eq_true])

/-- **A numeral is read as its value.** -/
theorem IsNumeral.readNumeral_eq (h : IsNumeral cs) : readNumeral cs = .ok (numeralValue cs) := by
  obtain ⟨hne, hdecimal, hlen⟩ := h
  have hall : cs.takeWhile isDecimal = cs := List.takeWhile_eq_self_iff.mpr hdecimal
  have hempty : (cs.isEmpty || decide (cs.length < cs.length)) = false := by
    simpa using hne
  simp only [readNumeral, hall]
  rw [if_neg (by omega), if_neg (by rw [hempty]; exact Bool.false_ne_true)]

/-- **A text of digits is read as its value.** -/
theorem readNumeral_of_digits (hne : cs ≠ []) (h : ∀ c ∈ cs, c.isDigit = true)
    (hlen : cs.length ≤ digitLimit) : readNumeral cs = .ok (Nat.ofDigitChars 10 cs 0) := by
  have hnumeral : IsNumeral cs := ⟨hne, fun c hc => isDecimal_of_isDigit (h c hc), hlen⟩
  rw [hnumeral.readNumeral_eq, numeralValue_of_digits h]

/-- A text of too many digits is not read. -/
theorem readNumeral_tooLong (h : ∀ c ∈ cs, c.isDigit = true) (hlen : digitLimit < cs.length) :
    readNumeral cs = .error (.tooLong cs.length) := by
  have hall : cs.takeWhile isDecimal = cs :=
    List.takeWhile_eq_self_iff.mpr fun c hc => isDecimal_of_isDigit (h c hc)
  simp only [readNumeral, hall]
  rw [if_pos hlen]

/-! ### The decimal text of a number -/

theorem toList_toString (k : ℕ) : (toString k).toList = Nat.toDigits 10 k := by
  rw [Nat.toString_eq_ofList_toDigits, String.toList_ofList]

theorem isDigit_of_mem_toString {k : ℕ} (hc : c ∈ (toString k).toList) : c.isDigit = true := by
  rw [toList_toString] at hc
  exact Nat.isDigit_of_mem_toDigits (by omega) (by omega) hc

theorem toString_ne_nil (k : ℕ) : (toString k).toList ≠ [] := by
  rw [toList_toString]
  exact Nat.toDigits_ne_nil

/-- **The decimal text of a number is read back.** -/
theorem readNumeral_toString {k : ℕ} (hlen : (toString k).length ≤ digitLimit) :
    readNumeral (toString k).toList = .ok k := by
  rw [readNumeral_of_digits (toString_ne_nil k) (fun _ hc => isDigit_of_mem_toString hc)
    (by rw [String.length_toList]; exact hlen), toList_toString, Nat.ofDigitChars_ten_toDigits]

theorem length_toString_mono {i n : ℕ} (h : i ≤ n) :
    (toString i).length ≤ (toString n).length := by
  rw [← String.length_toList, ← String.length_toList, toList_toString, toList_toString,
    Nat.length_toDigits_le_iff (by omega) Nat.length_toDigits_pos]
  have hn := (Nat.length_toDigits_le_iff (b := 10) (n := n) (by omega)
    (Nat.length_toDigits_pos (b := 10) (n := n))).mp (Nat.le_refl _)
  omega

end Deduction.Text
