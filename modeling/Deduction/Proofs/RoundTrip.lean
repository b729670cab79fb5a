import Deduction.Proofs.Reading
import Deduction.Rule.Inference

/-!
# Canonical texts are read back

Scanning the canonical text of a statement gives its lexemes (`Formula.scannedAs_charsThen`), and
the grammar derives the statement from them: inside parentheses as an operand, and outside as a
whole (`outer_lexemes`). There a sign before a variable or before another sign takes all that
follows, which is just its operand, and a sign before a joined pair stands before a group. So the
canonical text is read back as the same statement (`parse_render`), different statements have
different texts (`render_injective`), and comparing texts is comparing statements.
-/

namespace Deduction

open Token Grammar

/-! ### Scanning -/

theorem scanFrom_lexeme (x : Lexeme) (i : ℕ) (rest : List Char) :
    scanFrom i (x.chars ++ rest) =
      ⟨⟨x, i⟩ :: (scanFrom (i + x.chars.length) rest).tokens,
        (scanFrom (i + x.chars.length) rest).fault⟩ := by
  cases x with
  | atom a => cases a <;> rfl
  | connective c => cases c <;> rfl
  | _ => rfl

theorem scanFrom_space (i : ℕ) (rest : List Char) :
    scanFrom i (' ' :: rest) = scanFrom (i + 1) rest := rfl

/-- `cs` is scanned as `xs` and the scan goes on with `rest`. -/
def ScannedAs (cs : List Char) (xs : List Lexeme) (rest : List Char) : Prop :=
  ∀ i, ∃ ts j, ts.map lexeme = xs ∧
    scanFrom i cs = ⟨ts ++ (scanFrom j rest).tokens, (scanFrom j rest).fault⟩

variable {cs rest : List Char} {xs : List Lexeme}

theorem ScannedAs.refl (cs : List Char) : ScannedAs cs [] cs :=
  fun i => ⟨[], i, rfl, rfl⟩

theorem ScannedAs.lexeme (x : Lexeme) (h : ScannedAs cs xs rest) :
    ScannedAs (x.chars ++ cs) (x :: xs) rest := by
  intro i
  obtain ⟨ts, j, rfl, hj⟩ := h (i + x.chars.length)
  refine ⟨⟨x, i⟩ :: ts, j, rfl, ?_⟩
  rw [scanFrom_lexeme, hj]
  rfl

theorem ScannedAs.space (h : ScannedAs cs xs rest) : ScannedAs (' ' :: cs) xs rest := by
  intro i
  rw [scanFrom_space]
  exact h (i + 1)

namespace Formula

/-- The lexemes of the canonical text. -/
def lexemes : Formula → List Lexeme
  | atom a => [.atom a]
  | neg f => .not :: f.lexemes
  | binary c left right =>
    .lparen :: (left.lexemes ++ .connective c :: right.lexemes) ++ [.rparen]

theorem scannedAs_charsThen (f : Formula) {cs : List Char} {xs : List Lexeme} {rest : List Char}
    (h : ScannedAs cs xs rest) : ScannedAs (f.charsThen cs) (f.lexemes ++ xs) rest := by
  induction f generalizing cs xs with
  | atom a => exact h.lexeme (.atom a)
  | neg f ih => exact (ih h).lexeme .not
  | binary c left right ihl ihr =>
    have hright := ihr (h.lexeme .rparen)
    have hleft := ihl ((hright.space.lexeme (.connective c)).space)
    simpa [charsThen, lexemes, Lexeme.chars] using hleft.lexeme .lparen

theorem scan_ofList {cs : List Char} {xs : List Lexeme} (h : ScannedAs cs xs []) :
    (scan (String.ofList cs)).fault = none ∧ (scan (String.ofList cs)).tokens.map lexeme = xs := by
  obtain ⟨ts, j, rfl, hj⟩ := h 0
  rw [scan, String.toList_ofList, hj]
  simp [scanFrom]

/-! ### Deriving -/

theorem innerOperand_lexemes (f : Formula) : InnerOperand f.lexemes f := by
  induction f with
  | atom a => exact InnerOperand.atom a
  | neg f ih => exact InnerOperand.neg ih
  | binary c left right ihl ihr =>
    exact InnerOperand.group (Inner.join c ihl (Inner.operand ihr))

theorem outer_lexemes (f : Formula) : Outer f.lexemes f := by
  induction f with
  | atom a => exact Outer.operand (OuterOperand.atom a)
  | neg f ih =>
    -- a sign before a joined pair stands before a group; any other takes all that follows
    cases f with
    | atom a => exact Outer.neg (by simp [lexemes]) ih
    | neg f => exact Outer.neg (by simp [lexemes]) ih
    | binary c left right =>
      exact Outer.operand (OuterOperand.negGroup
        (Inner.join c left.innerOperand_lexemes (Inner.operand right.innerOperand_lexemes)))
  | binary c left right =>
    exact Outer.operand (OuterOperand.group
      (Inner.join c left.innerOperand_lexemes (Inner.operand right.innerOperand_lexemes)))

/-! ### Reading back -/

/-- **The canonical text is read back as the same statement.** -/
theorem parse_render (f : Formula) : parse f.render = .ok f := by
  have h := scan_ofList (f.scannedAs_charsThen (ScannedAs.refl []))
  rw [List.append_nil] at h
  rw [parse_eq_ok_iff, render, h.2]
  exact ⟨h.1, f.outer_lexemes⟩

theorem parse_renderStandalone (f : Formula) : parse f.renderStandalone = .ok f := by
  cases f with
  | atom a =>
    have hs : ScannedAs ['(', a.char, ')'] [.lparen, .atom a, .rparen] [] :=
      (((ScannedAs.refl []).lexeme .rparen).lexeme (.atom a)).lexeme .lparen
    have ht : (atom a).renderStandalone = String.ofList ['(', a.char, ')'] := by
      cases a <;> rfl
    have h := scan_ofList hs
    rw [ht, parse_eq_ok_iff, h.2]
    exact ⟨h.1, Outer.operand (OuterOperand.group (Inner.operand (InnerOperand.atom a)))⟩
  | neg f => exact parse_render _
  | binary c left right => exact parse_render _

theorem render_injective {f g : Formula} (h : f.render = g.render) : f = g := by
  have hf := parse_render f
  rw [h, parse_render g] at hf
  exact (Except.ok.inj hf).symm

instance : LawfulBEq Formula where
  eq_of_beq h := render_injective (eq_of_beq h)
  rfl := beq_self_eq_true (α := String) _

end Formula

theorem Rule.readBack_eq (rule : Rule) (f : Formula) : rule.readBack f = .ok f := by
  rw [Rule.readBack, Formula.parse_render]
  simp

/-- **Round trip.** Both canonical texts of a statement are read back as the statement itself.
So statements with the same text, and statements that count as the same, are one statement, they
are hashed alike, and a statement that is built by a rule always passes the check of its text. -/
theorem parse_render_round_trip (f : Formula) :
    Formula.parse f.render = .ok f ∧ Formula.parse f.renderStandalone = .ok f ∧
      (∀ g : Formula, (f.render = g.render ↔ f = g) ∧ ((f == g) = true ↔ f = g) ∧
        ((f == g) = true → hash f = hash g)) ∧ hash f = hash f.render ∧
      ∀ rule : Rule, rule.readBack f = .ok f := by
  refine ⟨f.parse_render, f.parse_renderStandalone, fun g => ⟨⟨?_, ?_⟩, beq_iff_eq, ?_⟩, rfl,
    fun rule => rule.readBack_eq f⟩
  · exact Formula.render_injective
  · rintro rfl; rfl
  · intro h
    rw [eq_of_beq h]

/-- Signs before and inside a group: `~~(p ^ ~q)`, also when it is read without blanks. -/
theorem parse_render_round_trip_signs :
    let f : Formula := .neg (.neg (.binary .and (.atom .p) (.neg (.atom .q))))
    let g := (Formula.parse "~~(p^~q)").toOption.getD (.atom .t)
    Formula.parse "~~(p ^ ~q)" = .ok f ∧ Formula.parse "(p)" = .ok (.atom .p) ∧
      (f == g) = true ∧ hash f = hash g := by
  intro f g
  have hfg : (f == g) = true := by decide +kernel
  exact ⟨(parse_render_round_trip f).1, (parse_render_round_trip (.atom .p)).2.1, hfg,
    ((parse_render_round_trip f).2.2.1 g).2.2 hfg⟩

end Deduction
