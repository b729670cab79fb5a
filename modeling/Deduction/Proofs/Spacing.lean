import Deduction.Proofs.Scanning

/-!
# Blanks between tokens

Spaces, tabs and line breaks can be put between tokens and taken away again without changing what a
text says. A text that is scanned without a fault consists, its blanks left out, of the lexemes of
its tokens one after the other (`filter_eq_flatMap_chars`). No two of them can run together: put
next to each other they are scanned as themselves (`scannedAs_flatMap_chars`). So the text without
its blanks settles the lexemes (`scan_closeUp`), and these settle how the text is read.
-/

namespace Deduction

open Token

/-- The text without the characters that may stand between tokens. -/
def closeUp (text : String) : String :=
  String.ofList (text.toList.filter (· ∉ blanksBetween))

/-- The kinds of the tokens of a text with their characters, in order. -/
def spelling (text : String) : List (Kind × List Char) :=
  (scan text).tokens.map fun t => (t.lexeme.kind, t.lexeme.chars)

theorem spelling_eq (text : String) :
    spelling text = (lexemesOf text).map fun x => (x.kind, x.chars) := by
  rw [spelling, lexemesOf, List.map_map]
  rfl

/-! ### Lexemes next to each other -/

theorem Lexeme.filter_chars (x : Lexeme) : x.chars.filter (· ∉ blanksBetween) = x.chars := by
  cases x with
  | atom a => cases a <;> decide
  | connective c => cases c <;> decide
  | _ => decide

/-- Without its blanks, a text that is scanned consists of its lexemes. -/
theorem filter_eq_flatMap_chars {cs : List Char} {i : ℕ} (h : (scanFrom i cs).fault = none) :
    cs.filter (· ∉ blanksBetween) = ((scanFrom i cs).tokens.map lexeme).flatMap Lexeme.chars := by
  revert h
  refine scan_induction
    (P := fun i cs => (scanFrom i cs).fault = none → cs.filter (· ∉ blanksBetween) =
      ((scanFrom i cs).tokens.map lexeme).flatMap Lexeme.chars) ?_ ?_ ?_ ?_ i cs
  · intro i _
    rfl
  · intro i c cs hskip ih h
    have hc : c ∈ blanksBetween := isSkipped_iff.mp hskip
    rw [scanFrom_skipped hskip] at h ⊢
    rw [List.filter_cons_of_neg (by simpa using hc), ih h]
  · intro i x cs ih h
    rw [scanFrom_lexeme] at h ⊢
    rw [List.filter_append, x.filter_chars, ih h, List.map_cons, List.flatMap_cons]
  · intro i c cs hstuck h
    rw [scanFrom_stuck hstuck] at h
    cases h

/-- **Lexemes do not run together.** -/
theorem scannedAs_flatMap_chars (xs : List Lexeme) : ScannedAs (xs.flatMap Lexeme.chars) xs [] := by
  induction xs with
  | nil => exact ScannedAs.refl []
  | cons x xs ih =>
    rw [List.flatMap_cons]
    exact ih.lexeme x

/-- **A text without its blanks** has the lexemes of the text. -/
theorem scan_closeUp {text : String} (h : (scan text).fault = none) :
    (scan (closeUp text)).fault = none ∧ lexemesOf (closeUp text) = lexemesOf text := by
  rw [closeUp, filter_eq_flatMap_chars h]
  exact Formula.scan_ofList (scannedAs_flatMap_chars (lexemesOf text))

theorem lexemesOf_eq_of_closeUp_eq {text other : String} (h : (scan text).fault = none)
    (h' : (scan other).fault = none) (heq : closeUp other = closeUp text) :
    lexemesOf other = lexemesOf text := by
  rw [← (scan_closeUp h').2, heq, (scan_closeUp h).2]

/-! ### Reading -/

namespace Formula

/-- How a text is read depends on its lexemes only. -/
theorem parse_eq_ok_iff_of_lexemes {text other : String} {f : Formula}
    (h : (scan text).fault = none) (h' : (scan other).fault = none)
    (heq : lexemesOf other = lexemesOf text) : parse other = .ok f ↔ parse text = .ok f := by
  rw [Grammar.parse_eq_ok_iff, Grammar.parse_eq_ok_iff]
  show _ ∧ Grammar.Outer (lexemesOf other) f ↔ _ ∧ Grammar.Outer (lexemesOf text) f
  rw [h, h', heq]

theorem scan_render (f : Formula) : (scan f.render).fault = none :=
  (Grammar.parse_eq_ok_iff.mp f.parse_render).1

theorem parse_eq_ok_of_closeUp {text : String} {f : Formula} (h : (scan text).fault = none)
    (heq : closeUp text = closeUp f.render) : parse text = .ok f := by
  have hlexemes := lexemesOf_eq_of_closeUp_eq f.scan_render h heq
  exact (parse_eq_ok_iff_of_lexemes f.scan_render h hlexemes).mpr f.parse_render

end Formula

/-- **Blanks between tokens do not matter.** Of two texts that are scanned without a fault and that
are equal without their blanks, the tokens have the same kinds and characters in the same order, and
both are read as the same statement or both are refused. A text that is scanned stays so when its
blanks are taken away, with the same kinds and characters. So a text that is the canonical text of a
statement but for its blanks is read as that statement, whose canonical text it is but for
blanks. -/
theorem spacing_irrelevant (text : String) (h : (scan text).fault = none) :
    (∀ other, (scan other).fault = none → closeUp other = closeUp text →
      spelling other = spelling text ∧
        ((∃ f, Formula.parse text = .ok f ∧ Formula.parse other = .ok f) ∨
          ∃ e e', Formula.parse text = .error e ∧ Formula.parse other = .error e')) ∧
    ((scan (closeUp text)).fault = none ∧ spelling (closeUp text) = spelling text) ∧
    ∀ f : Formula, closeUp text = closeUp f.render →
      Formula.parse text = .ok f ∧
        (Formula.parse text).map (fun g => closeUp g.render) = .ok (closeUp text) := by
  refine ⟨fun other hother heq => ?_, ?_, fun f heq => ?_⟩
  · have hlexemes := lexemesOf_eq_of_closeUp_eq h hother heq
    refine ⟨by rw [spelling_eq, spelling_eq, hlexemes], ?_⟩
    rcases hread : Formula.parse text with e | f
    · rcases hread' : Formula.parse other with e' | g
      · exact Or.inr ⟨e, e', rfl, rfl⟩
      · have hg := (Formula.parse_eq_ok_iff_of_lexemes h hother hlexemes).mp hread'
        rw [hread] at hg
        cases hg
    · exact Or.inl ⟨f, rfl,
        (Formula.parse_eq_ok_iff_of_lexemes h hother hlexemes).mpr hread⟩
  · obtain ⟨hfault, hlexemes⟩ := scan_closeUp h
    exact ⟨hfault, by rw [spelling_eq, spelling_eq, hlexemes]⟩
  · have hread := Formula.parse_eq_ok_of_closeUp h heq
    refine ⟨hread, ?_⟩
    rw [hread, heq]
    rfl

/-- `~(p <-> ~q)` with tabs and line breaks and without any blank, and a text that is refused with
and without blanks. A blank inside `<->` is no blank between tokens. -/
theorem spacing_irrelevant_signs :
    Formula.parse " ~ (p\t<->\r\n~q )" =
        .ok (.neg (.binary .iff (.atom .p) (.neg (.atom .q)))) ∧
      closeUp " ~ (p\t<->\r\n~q )" = "~(p<->~q)" ∧
      spelling "~(p<->~q)" = spelling " ~ (p\t<->\r\n~q )" ∧
      (∃ e e', Formula.parse "p ^ ^ q" = .error e ∧ Formula.parse "p^^q" = .error e') ∧
      closeUp "p <- > q" = closeUp "p <-> q" ∧ (scan "p <- > q").fault ≠ none := by
  have hspread : (scan " ~ (p\t<->\r\n~q )").fault = none := by decide +kernel
  have hclose : closeUp " ~ (p\t<->\r\n~q )" = "~(p<->~q)" := by decide +kernel
  obtain ⟨-, ⟨-, hspelling⟩, hread⟩ := spacing_irrelevant " ~ (p\t<->\r\n~q )" hspread
  rw [hclose] at hspelling
  refine ⟨(hread _ (by decide +kernel)).1, hclose, hspelling, ?_, by decide +kernel,
    by decide +kernel⟩
  have hrefused : (scan "p ^ ^ q").fault = none := by decide +kernel
  have hsame := (spacing_irrelevant "p ^ ^ q" hrefused).1 "p^^q" (by decide +kernel)
    (by decide +kernel)
  rcases hsame.2 with ⟨f, hf, -⟩ | hnone
  · have herror : (Formula.parse "p ^ ^ q").toOption = none := by decide +kernel
    rw [hf] at herror
    cases herror
  · exact hnone

end Deduction
