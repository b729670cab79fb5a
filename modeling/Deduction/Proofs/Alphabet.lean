import Deduction.Proofs.Reading
import Deduction.Session.Command

/-!
# What statements are written with

The text of a statement consists of a few characters (`mem_alphabet_of_parse`), at least one of
them no blank. So a line that is read as a statement is not blank (`Formula.parse_blank`), and since
every command has a letter that no statement has, in whatever case, it is no command
(`Command.ofLine?_of_parse`).
-/

namespace Deduction

/-! ### Characters -/

namespace Lexeme

/-- The characters that are lexemes by themselves. -/
def singles : List Char := ['p', 'q', 'r', 's', 't', 'V', '^', '~', '(', ')']

theorem mem_singles_of_ofChar? {c : Char} {x : Lexeme} (h : ofChar? c = some x) :
    c ∈ singles := by
  unfold ofChar? at h
  split_ifs at h with hor hand hnot hopen hclose
  · rw [hor]; decide
  · rw [hand]; decide
  · rw [hnot]; decide
  · rw [hopen]; decide
  · rw [hclose]; decide
  · obtain ⟨a, ha, -⟩ := Option.map_eq_some_iff.mp h
    have hc : a.char = c := by simpa using List.find?_some ha
    rw [← hc]
    cases a <;> decide

end Lexeme

namespace Token

/-- The characters that a statement can be written with. -/
def alphabet : List Char :=
  Lexeme.singles ++ ['<', '-', '>', ' ', '\t', '\r', '\n']

theorem mem_alphabet_of_isSkipped {c : Char} (h : isSkipped c = true) : c ∈ alphabet := by
  simp only [isSkipped, Bool.or_eq_true, decide_eq_true_eq] at h
  rcases h with ((rfl | rfl) | rfl) | rfl <;> decide

theorem mem_alphabet_of_scanFrom {cs : List Char} {index : ℕ}
    (h : (scanFrom index cs).fault = none) : ∀ c ∈ cs, c ∈ alphabet := by
  fun_induction scanFrom index cs with
  | case1 => simp
  | case2 index rest scan ih =>
    intro c hc
    simp only [List.mem_cons] at hc
    rcases hc with rfl | rfl | rfl | hc
    · decide
    · decide
    · decide
    · exact ih h c hc
  | case3 index rest scan ih =>
    intro c hc
    simp only [List.mem_cons] at hc
    rcases hc with rfl | rfl | hc
    · decide
    · decide
    · exact ih h c hc
  | case4 index c rest _ _ hskip ih =>
    intro d hd
    rcases List.mem_cons.mp hd with rfl | hd
    · exact mem_alphabet_of_isSkipped hskip
    · exact ih h d hd
  | case5 index c rest _ _ hskip x hx scan ih =>
    intro d hd
    rcases List.mem_cons.mp hd with rfl | hd
    · exact List.mem_append_left _ (Lexeme.mem_singles_of_ofChar? hx)
    · exact ih h d hd
  | case6 => cases h

theorem scanFrom_blank {cs : List Char} (h : ∀ c ∈ cs, Text.isBlank c = true) (index : ℕ) :
    (scanFrom index cs).tokens = [] := by
  fun_induction scanFrom index cs with
  | case1 => rfl
  | case2 => exact absurd (h '<' (by simp)) (by decide)
  | case3 => exact absurd (h '-' (by simp)) (by decide)
  | case4 index c rest _ _ hskip ih => exact ih fun d hd => h d (by simp [hd])
  | case5 index c rest _ _ hskip x hx =>
    have hvisible : Lexeme.singles.all (fun d => !Text.isBlank d) = true := by decide
    have hc := List.all_eq_true.mp hvisible c (Lexeme.mem_singles_of_ofChar? hx)
    rw [h c (by simp)] at hc
    cases hc
  | case6 => rfl

end Token

namespace Formula

variable {line : String} {f : Formula}

theorem mem_alphabet_of_parse (h : Formula.parse line = .ok f) :
    ∀ c ∈ line.toList, c ∈ Token.alphabet :=
  Token.mem_alphabet_of_scanFrom (Grammar.parse_eq_ok_iff.mp h).1

theorem parse_blank (h : Text.isBlankText line = true) (f : Formula) :
    Formula.parse line ≠ .ok f := by
  intro hf
  obtain ⟨-, houter⟩ := Grammar.parse_eq_ok_iff.mp hf
  have htokens : (Token.scan line).tokens = [] :=
    Token.scanFrom_blank (fun c hc => List.all_eq_true.mp h c hc) 0
  exact houter.readsAll.ne_nil (by rw [htokens]; rfl)

end Formula

/-! ### Words -/

namespace Text

theorem mem_of_mem_stripChars {cs : List Char} {c : Char} (h : c ∈ stripChars cs) : c ∈ cs := by
  rw [stripChars, List.mem_reverse] at h
  have h := (List.dropWhile_sublist _).mem h
  rw [List.mem_reverse] at h
  exact (List.dropWhile_sublist _).mem h

/-- What holds of the lower-case forms of all characters holds in the lower-case form of a text. -/
theorem forall_lowerAfter {P : Char → Prop} :
    ∀ {cs : List Char}, (∀ c ∈ cs, c ≠ 'Σ' ∧ ∀ d ∈ lowerChar c, P d) → ∀ before : List Char,
      ∀ d ∈ lowerAfter before cs, P d
  | [], _, _, d, hd => by cases hd
  | c :: cs, h, before, d, hd => by
    obtain ⟨hsigma, hc⟩ := h c List.mem_cons_self
    rw [lowerAfter, List.mem_append, if_neg hsigma] at hd
    rcases hd with hd | hd
    · exact hc d hd
    · exact forall_lowerAfter (fun e he => h e (List.mem_cons_of_mem c he)) (c :: before) d hd

end Text

/-- **A line that is read as a statement is no command.** -/
theorem Command.ofLine?_of_parse {line : String} {f : Formula} (h : Formula.parse line = .ok f)
    (mode : Mode) : Command.ofLine? line mode = none := by
  have hlower : Token.alphabet.all (fun c => c ≠ 'Σ' &&
      (Text.lowerChar c).all (· ∈ 'v' :: Token.alphabet)) = true := by decide
  simp only [List.all_eq_true, Bool.and_eq_true, decide_eq_true_iff] at hlower
  have hwanted : ∀ d ∈ (Text.lowercase (Text.strip line)).toList, d ∈ 'v' :: Token.alphabet := by
    rw [Text.lowercase, String.toList_ofList, Text.strip, String.toList_ofList]
    refine Text.forall_lowerAfter (fun c hc => hlower c ?_) []
    exact Formula.mem_alphabet_of_parse h c (Text.mem_of_mem_stripChars hc)
  rw [Command.ofLine?, List.find?_eq_none]
  intro command _ hword
  have hword : command.word = Text.lowercase (Text.strip line) := by simpa using hword
  have hforeign : command.word.toList.all (· ∈ 'v' :: Token.alphabet) = false := by
    cases command <;> decide
  rw [hword, List.all_eq_true.mpr fun d hd => decide_eq_true (hwanted d hd)] at hforeign
  cases hforeign

end Deduction
