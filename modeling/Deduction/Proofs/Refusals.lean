import Deduction.Proofs.Ranges

/-!
# What a refusal points at

A text that is refused is refused for a reason that can be seen in the text (`RefusedFor`). If the
scan stops, the reason is the character where it stops, and with no tokens it is that there are
none. Otherwise the reason is one token, in the region of the text that is read as one statement:
the whole text, or the contents of a pair of parentheses (`Blame`). The parentheses that are read as
a pair are those between which all others match (`findClose_eq_some_iff`).

The reader goes down from a region to the groups in it, and inside a region from one operand to the
next. So what holds at every step is that the tokens still to be read are the end of a region, and
that an operand is due where they begin (`blame_of_read`).
-/

namespace Deduction

open Token Formula Grammar

variable {tokens region us rest : List Token} {t : Token} {x : Lexeme} {xs : List Lexeme}
  {i j k d : ℕ}

/-! ### Which parenthesis closes a group -/

/-- With `d` parentheses open before `xs`, they are all closed at the end of `xs`, and the one
around them stays open. -/
structure Closes (d : ℕ) (xs : List Lexeme) : Prop where
  count_eq : xs.count .rparen = xs.count .lparen + d
  count_le : ∀ ys, ys <+: xs → ys.count .rparen ≤ ys.count .lparen + d

theorem closes_zero_iff : Closes 0 xs ↔ Balanced xs :=
  ⟨fun h => ⟨h.count_eq.symm, h.count_le⟩, fun h => ⟨h.closed.symm, h.count_le⟩⟩

theorem closes_nil_iff : Closes d [] ↔ d = 0 := by
  constructor
  · intro h
    simpa using h.count_eq.symm
  · rintro rfl
    exact closes_zero_iff.mpr Balanced.nil

theorem not_closes_zero_rparen : ¬ Closes 0 (.rparen :: xs) := by
  intro h
  have hle := h.count_le [.rparen] ⟨xs, rfl⟩
  simp at hle

/-- One lexeme takes the number of open parentheses from `d` to `k`. -/
theorem closes_cons_iff (h : [x].count .rparen + k = [x].count .lparen + d) :
    Closes d (x :: xs) ↔ Closes k xs := by
  have hcons : ∀ (y : Lexeme) (ys : List Lexeme), (x :: ys).count y = [x].count y + ys.count y := by
    intro y ys
    rw [← List.count_append, List.singleton_append]
  constructor
  · rintro ⟨heq, hle⟩
    rw [hcons _ xs, hcons _ xs] at heq
    refine ⟨by omega, fun ys hys => ?_⟩
    have hys := hle (x :: ys) (List.cons_prefix_cons.mpr ⟨rfl, hys⟩)
    rw [hcons _ ys, hcons _ ys] at hys
    omega
  · rintro ⟨heq, hle⟩
    refine ⟨by rw [hcons _ xs, hcons _ xs]; omega, fun ys hys => ?_⟩
    rcases List.prefix_cons_iff.mp hys with rfl | ⟨zs, rfl, hzs⟩
    · simp
    · have hzs := hle zs hzs
      rw [hcons _ zs, hcons _ zs]
      omega

/-- **The parenthesis that is found** is one before which all parentheses match but those open from
the beginning. -/
theorem findClose_eq_some_iff {ts : List Token} :
    findClose d ts = some k ↔
      (∃ j, ts[k]? = some ⟨.rparen, j⟩) ∧ Closes d ((ts.take k).map lexeme) := by
  induction ts generalizing d k with
  | nil => simp [findClose]
  | cons t ts ih =>
    obtain ⟨x, i⟩ := t
    rcases k with _ | k
    · -- the first token closes the group only if nothing else is open
      rw [List.take_zero, List.map_nil, closes_nil_iff, List.getElem?_cons_zero]
      cases x with
      | rparen => cases d <;> simp [findClose]
      | _ => simp [findClose]
    rw [List.take_succ_cons, List.map_cons, List.getElem?_cons_succ]
    have hlater : ∀ d', (findClose d' ts).map (· + 1) = some (k + 1) ↔
        (∃ j, ts[k]? = some ⟨.rparen, j⟩) ∧ Closes d' ((ts.take k).map lexeme) := by
      intro d'
      rw [← ih]
      simp
    cases x with
    | lparen =>
      rw [closes_cons_iff (show _ + (d + 1) = _ by simp [Nat.add_comm])]
      exact hlater (d + 1)
    | rparen =>
      cases d with
      | zero => exact iff_of_false (by simp [findClose]) fun h => not_closes_zero_rparen h.2
      | succ d =>
        rw [closes_cons_iff (show _ + d = _ by simp [Nat.add_comm])]
        exact hlater d
    | _ =>
      rw [closes_cons_iff (show _ + d = _ by simp)]
      exact hlater d

theorem findClose_zero_eq_some_iff {ts : List Token} :
    findClose 0 ts = some k ↔ ∃ inside j after, ts = inside ++ ⟨.rparen, j⟩ :: after ∧
      inside.length = k ∧ Balanced (inside.map lexeme) := by
  rw [findClose_eq_some_iff, closes_zero_iff]
  constructor
  · rintro ⟨⟨j, hj⟩, hbalanced⟩
    obtain ⟨hlt, hget⟩ := List.getElem?_eq_some_iff.mp hj
    refine ⟨ts.take k, j, ts.drop (k + 1), ?_, List.length_take_of_le (Nat.le_of_lt hlt), hbalanced⟩
    rw [← hget, List.getElem_cons_drop, List.take_append_drop]
  · rintro ⟨inside, j, after, rfl, rfl, hbalanced⟩
    rw [List.take_left]
    exact ⟨⟨j, by simp⟩, hbalanced⟩

/-! ### Regions -/

/-- Tokens that are read as one statement: all of them, or those between a parenthesis and the one
that closes it. -/
def Region (tokens region : List Token) : Prop :=
  region = tokens ∨ ∃ before i j after,
    tokens = before ++ ⟨.lparen, i⟩ :: (region ++ ⟨.rparen, j⟩ :: after) ∧
      Balanced (region.map lexeme)

/-- The contents of a group in a region are a region. -/
theorem Region.group {inside after : List Token}
    (h : Region tokens (us ++ ⟨.lparen, i⟩ :: (inside ++ ⟨.rparen, j⟩ :: after)))
    (hbalanced : Balanced (inside.map lexeme)) : Region tokens inside := by
  right
  rcases h with rfl | ⟨before, i', j', after', rfl, -⟩
  · exact ⟨us, i, j, after, rfl, hbalanced⟩
  · refine ⟨before ++ ⟨.lparen, i'⟩ :: us, i, j, after ++ ⟨.rparen, j'⟩ :: after', ?_, hbalanced⟩
    simp

/-- After these tokens of a region an operand is due: they are none, or the last one is a connective
or a sign. -/
def OperandDue (us : List Token) : Prop :=
  ∀ t ∈ us.getLast?, t.lexeme = .not ∨ ∃ c, t.lexeme = .connective c

/-- These tokens end in an operand. -/
def EndsInOperand (us : List Token) : Prop :=
  ∃ before operand f, us = before ++ operand ∧ InnerOperand (operand.map lexeme) f

theorem operandDue_nil : OperandDue [] := by
  simp [OperandDue]

theorem operandDue_concat (h : t.lexeme = .not ∨ ∃ c, t.lexeme = .connective c) :
    OperandDue (us ++ [t]) := by
  simpa [OperandDue] using h

/-- An operand after which something is left is one as inside parentheses. -/
theorem innerOperand_of_read {nested : Bool} {ts : List Token} {f : Formula} {n : ℕ}
    (h : readOperand nested ts = .ok (f, n)) (hn : n < ts.length) :
    InnerOperand ((ts.take n).map lexeme) f := by
  cases nested with
  | true => exact (inner_of_read ts).1 f n h
  | false =>
    rcases (outer_of_read ts).1 f n h with hout | ⟨rfl, -⟩
    · exact hout.innerOperand
    · exact absurd hn (Nat.lt_irrefl _)

/-! ### Blame -/

/-- Why tokens are not a statement, and in which words it is said. Each reason names one token. -/
inductive Blame (tokens : List Token) : ParseError → String → Prop
  /-- A parenthesis that nothing after it in its region closes. -/
  | unclosed {us rest : List Token} {i : ℕ}
      (hregion : Region tokens (us ++ ⟨.lparen, i⟩ :: rest))
      (hopen : ∀ inside j after, rest = inside ++ ⟨.rparen, j⟩ :: after →
        ¬ Balanced (inside.map lexeme)) :
      Blame tokens (.unclosed i) ("No matching parenthesis for '(' at position " ++ toString i)
  /-- A parenthesis that is closed at once. -/
  | emptyGroup {us rest : List Token} {i j : ℕ}
      (hregion : Region tokens (us ++ ⟨.lparen, i⟩ :: ⟨.rparen, j⟩ :: rest)) :
      Blame tokens (.emptyGroup i)
        ("Error in parenthesis at position " ++ toString i ++ ", not a statement")
  /-- A sign that is the last of its region. -/
  | missingOperand {us : List Token} {i : ℕ} (hregion : Region tokens (us ++ [⟨.not, i⟩])) :
      Blame tokens (.missingOperand i) ("Expected statement after '~' at position " ++ toString i)
  /-- A closing parenthesis or a connective where an operand is due. -/
  | unexpected {us rest : List Token} {x : Lexeme} {i : ℕ}
      (hregion : Region tokens (us ++ ⟨x, i⟩ :: rest)) (hdue : OperandDue us)
      (hkind : x = .rparen ∨ ∃ c, x = .connective c) :
      Blame tokens (.unexpected ⟨x, i⟩)
        ("Unrecognized token '" ++ String.ofList x.chars ++ "' at position " ++ toString i)
  /-- After an operand, a token that is not a connective or is the last of its region. -/
  | missingOperator {us rest : List Token} {x : Lexeme} {i : ℕ}
      (hregion : Region tokens (us ++ ⟨x, i⟩ :: rest)) (hends : EndsInOperand us)
      (hkind : (∀ c, x ≠ .connective c) ∨ rest = []) :
      Blame tokens (.missingOperator i) ("Expected operator at position " ++ toString i)

/-- If the end `ts` of a region is refused, where an operand is due, then a token is blamed. -/
def Blamed (tokens ts : List Token) (read : Except ParseError (Formula × ℕ)) : Prop :=
  ∀ us e, Region tokens (us ++ ts) → OperandDue us → ts ≠ [] → read = .error e →
    Blame tokens e e.message

theorem blamed_group {nested : Bool}
    (ih : ∀ ts : List Token, ts.length ≤ rest.length → Blamed tokens ts (readAll true ts)) :
    Blamed tokens (⟨.lparen, i⟩ :: rest) (readOperand nested (⟨.lparen, i⟩ :: rest)) := by
  intro us e hregion hdue _ he
  rw [readOperand_lparen] at he
  split at he
  · next hnone =>
    cases he
    refine Blame.unclosed hregion fun inside j after hrest hbalanced => ?_
    have hsome := findClose_zero_eq_some_iff.mpr ⟨inside, j, after, hrest, rfl, hbalanced⟩
    rw [hnone] at hsome
    cases hsome
  · next hzero =>
    obtain ⟨inside, j, after, rfl, hlength, -⟩ := findClose_zero_eq_some_iff.mp hzero
    obtain rfl := List.eq_nil_of_length_eq_zero hlength
    cases he
    exact Blame.emptyGroup hregion
  · next k hk =>
    obtain ⟨inside, j, after, rfl, hlength, hbalanced⟩ := findClose_zero_eq_some_iff.mp hk
    rw [map_eq_error_iff, List.take_left' hlength] at he
    have hne : inside ≠ [] := by
      rintro rfl
      cases hlength
    exact ih inside (by simp) [] e (hregion.group hbalanced) operandDue_nil hne he

theorem blamed_sign {nested : Bool}
    (ih : ∀ ts : List Token, ts.length ≤ rest.length →
      Blamed tokens ts (readOperand nested ts) ∧ Blamed tokens ts (readAll false ts)) :
    Blamed tokens (⟨.not, i⟩ :: rest) (readOperand nested (⟨.not, i⟩ :: rest)) := by
  intro us e hregion hdue _ he
  rcases rest with _ | ⟨next, rest⟩
  · rw [readOperand_not_nil] at he
    cases he
    exact Blame.missingOperand hregion
  rw [readOperand_not, map_eq_error_iff] at he
  obtain ⟨hoperand, hall⟩ := ih (next :: rest) (Nat.le_refl _)
  rw [List.append_cons] at hregion
  have hdue' : OperandDue (us ++ [⟨.not, i⟩]) := operandDue_concat (Or.inl rfl)
  split_ifs at he
  · exact hoperand _ e hregion hdue' (List.cons_ne_nil _ _) he
  · exact hall _ e hregion hdue' (List.cons_ne_nil _ _) he

/-- **Every refusal is blamed** on a token of the region that is read. -/
theorem blame_of_read (tokens ts : List Token) :
    (∀ nested, Blamed tokens ts (readOperand nested ts)) ∧
      ∀ nested, Blamed tokens ts (readAll nested ts) := by
  refine reading_induction (P := fun ts => ∀ nested, Blamed tokens ts (readOperand nested ts))
    (Q := fun ts => ∀ nested, Blamed tokens ts (readAll nested ts)) ?_ ?_ ts
  · intro ts ih nested
    rcases ts with _ | ⟨⟨x, i⟩, rest⟩
    · exact fun _ _ _ _ hne => absurd rfl hne
    cases x with
    | lparen => exact blamed_group fun us hus => (ih us (Nat.lt_succ_of_le hus)).2 true
    | not =>
      exact blamed_sign fun us hus =>
        ⟨(ih us (Nat.lt_succ_of_le hus)).1 nested, (ih us (Nat.lt_succ_of_le hus)).2 false⟩
    | atom a =>
      intro us e _ _ _ he
      rw [readOperand_atom] at he
      cases he
    | connective c =>
      intro us e hregion hdue _ he
      rw [readOperand_connective] at he
      cases he
      exact Blame.unexpected hregion hdue (Or.inr ⟨c, rfl⟩)
    | rparen =>
      intro us e hregion hdue _ he
      rw [readOperand_rparen] at he
      cases he
      exact Blame.unexpected hregion hdue (Or.inl rfl)
  · intro ts hoperand ih nested us e hregion hdue hne he
    rw [readAll_eq] at he
    rcases hread : readOperand nested ts with e' | ⟨first, used⟩
    · rw [hread] at he
      cases he
      exact hoperand nested us e hregion hdue hne hread
    rcases hdrop : ts.drop used with _ | ⟨⟨x, i⟩, rest⟩
    · simp only [hread, hdrop] at he
      cases he
    have hts : ts = ts.take used ++ ⟨x, i⟩ :: rest := by rw [← hdrop, List.take_append_drop]
    have hlength := length_eq_of_take_append hts
    have hends : EndsInOperand (us ++ ts.take used) :=
      ⟨us, ts.take used, first, rfl, innerOperand_of_read hread (by omega)⟩
    rw [hts, ← List.append_assoc] at hregion
    simp only [hread, hdrop] at he
    cases x with
    | connective c =>
      rcases rest with _ | ⟨next, rest⟩
      · cases he
        exact Blame.missingOperator hregion hends (Or.inr rfl)
      · rw [List.append_cons] at hregion
        exact ih (next :: rest) (by omega) nested _ e hregion
          (operandDue_concat (Or.inr ⟨c, rfl⟩)) (List.cons_ne_nil _ _) (map_eq_error_iff.mp he)
    | _ =>
      cases he
      exact Blame.missingOperator hregion hends (Or.inl (by simp))

/-! ### Refusals of texts -/

/-- The scan stops at position `j`, where `c` stands: before it are tokens and skipped characters,
and neither starts there. -/
structure RejectedAt (text : List Char) (c : Char) (j : ℕ) : Prop where
  char : text[j]? = some c
  before : ∃ ps, Marks (text.take j) 0 ps
  stuck : Stuck (text.drop j)

theorem rejectedAt_iff {text : List Char} {c : Char} :
    RejectedAt text c j ↔ (scanFrom 0 text).fault = some ⟨c, j⟩ := by
  rw [fault_scanFrom_eq_some_iff]
  constructor
  · rintro ⟨hchar, ⟨ps, hps⟩, hstuck⟩
    obtain ⟨hlt, hget⟩ := List.getElem?_eq_some_iff.mp hchar
    have hdrop : text.drop j = c :: text.drop (j + 1) := by rw [← hget, List.getElem_cons_drop]
    refine ⟨text.take j, text.drop (j + 1), ?_, ?_, (marks_iff_scan.mp hps).1, hdrop ▸ hstuck⟩
    · rw [← hdrop, List.take_append_drop]
    · rw [List.length_take_of_le (Nat.le_of_lt hlt), Nat.zero_add]
  · rintro ⟨before, after, rfl, hj, hbefore, hstuck⟩
    rw [Nat.zero_add] at hj
    subst hj
    refine ⟨by simp, ?_, ?_⟩
    · rw [List.take_left]
      exact ⟨_, marks_iff_scan.mpr ⟨hbefore, rfl⟩⟩
    · rwa [List.drop_left]

theorem Lexeme.chars_injective : Function.Injective Lexeme.chars := by
  intro x y hxy
  have hx := scanFrom_lexeme x 0 []
  rw [hxy, scanFrom_lexeme] at hx
  simpa using hx.symm

theorem Token.piece_injective : Function.Injective Token.piece := by
  rintro ⟨x, i⟩ ⟨y, j⟩ h
  simp only [piece, Piece.mk.injEq] at h
  obtain ⟨-, hchars, rfl⟩ := h
  rw [Lexeme.chars_injective hchars]

/-- The tokens of a text are the only ones that mark it. -/
theorem marks_map_piece_iff {text : String} :
    Marks text.toList 0 (tokens.map piece) ↔
      (scan text).fault = none ∧ (scan text).tokens = tokens := by
  rw [marks_iff_scan, ← scan, List.map_inj_right Token.piece_injective]

/-- Why a text is refused, and in which words it is said. -/
inductive RefusedFor (text : String) : ParseError → String → Prop
  /-- The scan stops. -/
  | illegal {c : Char} {j : ℕ} (h : RejectedAt text.toList c j) :
      RefusedFor text (.illegal ⟨c, j⟩)
        ("Parse failed: Illegal character '" ++ String.singleton c ++
          "' encountered at position " ++ toString j)
  /-- The text has no tokens. -/
  | empty (h : Marks text.toList 0 []) : RefusedFor text .empty "Input formula is empty."
  /-- One of its tokens is to blame. -/
  | blamed {tokens : List Token} {e : ParseError} {message : String}
      (h : Marks text.toList 0 (tokens.map piece)) (hblame : Blame tokens e message) :
      RefusedFor text e message

theorem refusedFor_of_parse {text : String} {e : ParseError} (h : Formula.parse text = .error e) :
    RefusedFor text e e.message := by
  rw [Formula.parse, map_eq_error_iff, parseCounted] at h
  rcases hfault : (scan text).fault with _ | ⟨c, j⟩
  · have hmarks := marks_map_piece_iff.mpr ⟨hfault, rfl⟩
    simp only [hfault] at h
    rcases hnil : (scan text).tokens with _ | ⟨t, rest⟩
    · rw [hnil, readAll_eq, readOperand_nil] at h
      cases h
      rw [hnil] at hmarks
      exact RefusedFor.empty hmarks
    · have hne : (scan text).tokens ≠ [] := by simp [hnil]
      have hblame := (blame_of_read (scan text).tokens _).2 false [] e (Or.inl rfl) operandDue_nil
        hne h
      exact RefusedFor.blamed hmarks hblame
  · simp only [hfault] at h
    cases h
    exact RefusedFor.illegal (rejectedAt_iff.mpr hfault)

/-- **Refusals are complete and point at their cause.** A text is read as a statement exactly if it
is marked by tokens from which the grammar derives that statement. Every other text is refused, and
what the refusal says is true of the text: it names the position where the scan stops, or that there
are no tokens, or a token that is to blame. The first reason goes before all others, and the second
before the third. Reading by places shows that nothing else goes wrong on the way. -/
theorem parse_error_cause (text : String) :
    (∀ f, Formula.parse text = .ok f ↔
      ∃ tokens : List Token, Marks text.toList 0 (tokens.map piece) ∧
        Outer (tokens.map lexeme) f) ∧
    (∀ e, Formula.parse text = .error e → RefusedFor text e e.message) ∧
    (∀ c j, RejectedAt text.toList c j → Formula.parse text = .error (.illegal ⟨c, j⟩)) ∧
    (Marks text.toList 0 [] → Formula.parse text = .error .empty) ∧
    parseByPlaces text = (Formula.parse text).mapError .refused := by
  refine ⟨fun f => ?_, fun e => refusedFor_of_parse, fun c j hrejected => ?_, fun hmarks => ?_,
    parseByPlaces_eq text⟩
  · rw [parse_eq_ok_iff]
    constructor
    · rintro ⟨hfault, hf⟩
      exact ⟨_, marks_map_piece_iff.mpr ⟨hfault, rfl⟩, hf⟩
    · rintro ⟨tokens, hmarks, hf⟩
      obtain ⟨hfault, rfl⟩ := marks_map_piece_iff.mp hmarks
      exact ⟨hfault, hf⟩
  · have hfault : (scan text).fault = some ⟨c, j⟩ := rejectedAt_iff.mp hrejected
    rw [Formula.parse, parseCounted, hfault]
    rfl
  · obtain ⟨hfault, hnil⟩ := marks_map_piece_iff.mp (show Marks _ 0 (List.map piece []) from hmarks)
    rw [Formula.parse, parseCounted, hfault, hnil]
    simp only [readAll_eq, readOperand_nil]
    rfl

/-- A sign that is the last of a group, an illegal character after a parenthesis that is not closed,
and a blank text. -/
theorem parse_error_cause_sign_in_group :
    Formula.parse "p ^ (q V ~)" = .error (.missingOperand 9) ∧
      RefusedFor "p ^ (q V ~)" (.missingOperand 9) "Expected statement after '~' at position 9" ∧
      RejectedAt "(p $".toList '$' 3 ∧ Formula.parse "(p $" = .error (.illegal ⟨'$', 3⟩) ∧
      Marks " ".toList 0 [] ∧ Formula.parse " " = .error .empty := by
  have hsign : Formula.parse "p ^ (q V ~)" = .error (.missingOperand 9) := by decide +kernel
  have hmessage : (ParseError.missingOperand 9).message =
    "Expected statement after '~' at position 9" := by decide +kernel
  have hrejected : RejectedAt "(p $".toList '$' 3 := rejectedAt_iff.mpr (by decide)
  have hblank : Marks " ".toList 0 [] := marks_iff_scan.mpr (by decide)
  refine ⟨hsign, ?_, hrejected, (parse_error_cause _).2.2.1 _ _ hrejected, hblank,
    (parse_error_cause _).2.2.2.1 hblank⟩
  rw [← hmessage]
  exact (parse_error_cause _).2.1 _ hsign

end Deduction
