import Deduction.Proofs.Alphabet
import Deduction.Proofs.RoundTrip
import Mathlib.Logic.Function.Iterate

/-!
# Parentheses around a whole statement

A text that is read as a statement is also read when it is put into parentheses, but perhaps as
another statement: a negation sign that took all that followed it then takes only the next operand.
The two readings agree unless such a sign has a connective in its reach (`WideSign`). What decides
is which lexemes stand outside all parentheses, so the first thing to know is that the parentheses
of a statement match (`Inner.balanced`); then a sign or connective that stands outside is never one
of a group (`Balanced.outside_group`). The two readings are compared along the reading outside
parentheses (`Outer.eq_inner_iff`).
-/

namespace Deduction

open Token Grammar

/-! ### Scanning a text that goes on -/

theorem Lexeme.chars_of_ofChar? {c : Char} {x : Lexeme} (h : ofChar? c = some x) :
    x.chars = [c] := by
  have hc := mem_singles_of_ofChar? h
  simp only [singles, List.mem_cons, List.not_mem_nil, or_false] at hc
  rcases hc with rfl | rfl | rfl | rfl | rfl | rfl | rfl | rfl | rfl | rfl
  all_goals
    cases h
    rfl

theorem scanFrom_skipped {c : Char} (h : isSkipped c = true) (i : ℕ) (rest : List Char) :
    scanFrom i (c :: rest) = scanFrom (i + 1) rest := by
  simp only [isSkipped, Bool.or_eq_true, decide_eq_true_eq] at h
  rcases h with ((rfl | rfl) | rfl) | rfl <;> rfl

/-- What is scanned without a fault is scanned as the same lexemes whatever follows it. -/
theorem ScannedAs.append {cs ds rest : List Char} {ys : List Lexeme} {i : ℕ}
    (hc : (scanFrom i cs).fault = none) (hd : ScannedAs ds ys rest) :
    ScannedAs (cs ++ ds) ((scanFrom i cs).tokens.map Token.lexeme ++ ys) rest := by
  fun_induction scanFrom i cs with
  | case1 => exact hd
  | case2 i cs scan ih => exact (ih hc).lexeme (.connective .iff)
  | case3 i cs scan ih => exact (ih hc).lexeme (.connective .implies)
  | case4 i c cs _ _ hskip ih =>
    intro j
    rw [List.cons_append, scanFrom_skipped hskip]
    exact ih hc (j + 1)
  | case5 i c cs _ _ hskip x hx scan ih =>
    have hstep := (ih hc).lexeme x
    rw [Lexeme.chars_of_ofChar? hx] at hstep
    exact hstep
  | case6 => cases hc

/-- The lexemes of a text. -/
def lexemesOf (text : String) : List Lexeme := (scan text).tokens.map lexeme

/-- A text inside one more pair of parentheses. -/
def parenthesize (text : String) : String := "(" ++ text ++ ")"

theorem scan_parenthesize {text : String} (h : (scan text).fault = none) :
    (scan (parenthesize text)).fault = none ∧
      lexemesOf (parenthesize text) = .lparen :: lexemesOf text ++ [.rparen] := by
  have hinside : ScannedAs (text.toList ++ [')']) (lexemesOf text ++ [.rparen]) [] :=
    ScannedAs.append h ((ScannedAs.refl []).lexeme .rparen)
  have htext : parenthesize text = String.ofList ('(' :: (text.toList ++ [')'])) := by
    apply String.toList_injective
    simp [parenthesize]
  rw [htext]
  exact Formula.scan_ofList (hinside.lexeme .lparen)

namespace Grammar

variable {xs ys rest before after : List Lexeme} {f g : Formula} {x : Lexeme} {c : Connective}

/-! ### Matching parentheses -/

/-- All parentheses opened in `xs` are closed in `xs`. At the beginning of a statement this says
that what follows `xs` stands outside all parentheses. -/
def Closed (xs : List Lexeme) : Prop := xs.count .lparen = xs.count .rparen

/-- The parentheses in `xs` match. -/
structure Balanced (xs : List Lexeme) : Prop where
  closed : Closed xs
  count_le : ∀ ys, ys <+: xs → ys.count .rparen ≤ ys.count .lparen

theorem Closed.append_iff (hx : Closed xs) : Closed (xs ++ ys) ↔ Closed ys := by
  unfold Closed at hx ⊢
  rw [List.count_append, List.count_append]
  omega

theorem closed_cons_iff (hl : x ≠ .lparen) (hr : x ≠ .rparen) : Closed (x :: xs) ↔ Closed xs := by
  unfold Closed
  rw [List.count_cons_of_ne hl, List.count_cons_of_ne hr]

theorem Balanced.nil : Balanced [] where
  closed := rfl
  count_le ys hys := by rw [List.prefix_nil.mp hys]; simp

theorem Balanced.append (hx : Balanced xs) (hy : Balanced ys) : Balanced (xs ++ ys) where
  closed := hx.closed.append_iff.mpr hy.closed
  count_le zs hzs := by
    obtain ⟨ws, hws⟩ := hzs
    rcases List.append_eq_append_iff.mp hws with ⟨us, hus, -⟩ | ⟨us, rfl, hus⟩
    · exact hx.count_le zs ⟨us, hus.symm⟩
    · have hle := hy.count_le us ⟨ws, hus.symm⟩
      have heq := hx.closed
      unfold Closed at heq
      rw [List.count_append, List.count_append]
      omega

theorem Balanced.cons (hl : x ≠ .lparen) (hr : x ≠ .rparen) (hx : Balanced xs) :
    Balanced (x :: xs) where
  closed := (closed_cons_iff hl hr).mpr hx.closed
  count_le zs hzs := by
    rcases List.prefix_cons_iff.mp hzs with rfl | ⟨us, rfl, hus⟩
    · simp
    · rw [List.count_cons_of_ne hl, List.count_cons_of_ne hr]
      exact hx.count_le us hus

theorem count_group (xs : List Lexeme) :
    List.count .lparen (.lparen :: xs ++ [.rparen]) = xs.count .lparen + 1 ∧
      List.count .rparen (.lparen :: xs ++ [.rparen]) = xs.count .rparen + 1 := by
  simp

theorem Balanced.group (hx : Balanced xs) : Balanced (.lparen :: xs ++ [.rparen]) := by
  obtain ⟨hl, hr⟩ := count_group xs
  have heq := hx.closed
  unfold Closed at heq
  refine ⟨by unfold Closed; omega, fun zs hzs => ?_⟩
  rcases List.prefix_concat_iff.mp hzs with rfl | hzs
  · omega
  rcases List.prefix_cons_iff.mp hzs with rfl | ⟨us, rfl, hus⟩
  · simp
  · have hle := hx.count_le us hus
    rw [List.count_cons_self, List.count_cons_of_ne (by simp)]
    omega

mutual

theorem Inner.balanced : ∀ {xs : List Lexeme} {f : Formula}, Inner xs f → Balanced xs
  | _, _, .operand h => h.balanced
  | _, _, .join _ h h' => h.balanced.append (h'.balanced.cons (by simp) (by simp))

theorem InnerOperand.balanced :
    ∀ {xs : List Lexeme} {f : Formula}, InnerOperand xs f → Balanced xs
  | _, _, .atom _ => Balanced.nil.cons (by simp) (by simp)
  | _, _, .group h => h.balanced.group
  | _, _, .neg h => h.balanced.cons (by simp) (by simp)

end

/-- **Nothing of a group stands outside**, its opening parenthesis apart: a lexeme that stands
outside all parentheses is the first one of the group or comes after the group. -/
theorem Balanced.outside_group (hb : Balanced xs)
    (h : .lparen :: (xs ++ .rparen :: rest) = before ++ x :: after) (hc : Closed before) :
    (before = [] ∧ x = .lparen) ∨
      ∃ more, before = .lparen :: xs ++ [.rparen] ++ more ∧ rest = more ++ x :: after := by
  rcases before with _ | ⟨y, ys⟩
  · cases h
    exact Or.inl ⟨rfl, rfl⟩
  obtain ⟨rfl, htail⟩ := List.cons_eq_cons.mp h
  -- inside the group, fewer parentheses are closed than are open
  have hopen : ¬ ys <+: xs := by
    intro hys
    have hle := hb.count_le ys hys
    unfold Closed at hc
    rw [List.count_cons_self, List.count_cons_of_ne (by simp)] at hc
    omega
  right
  rcases List.append_eq_append_iff.mp htail with ⟨us, rfl, hus⟩ | ⟨us, hus, -⟩
  · rcases us with _ | ⟨z, us⟩
    · exact absurd (by simp) hopen
    · obtain ⟨rfl, hrest⟩ := List.cons_eq_cons.mp hus
      exact ⟨us, by simp, hrest⟩
  · exact absurd ⟨us, hus.symm⟩ hopen

/-! ### Signs and connectives outside all parentheses -/

/-- A connective stands outside all parentheses. -/
def OuterConnective (xs : List Lexeme) : Prop :=
  ∃ before c after, xs = before ++ .connective c :: after ∧ Closed before

/-- A negation sign stands outside all parentheses, not directly before a parenthesis, and
somewhere after it a connective stands outside all parentheses. -/
def WideSign (xs : List Lexeme) : Prop :=
  ∃ before between c after, xs = before ++ .not :: (between ++ .connective c :: after) ∧
    Closed before ∧ between.head? ≠ some .lparen ∧ Closed (before ++ .not :: between)

theorem WideSign.outerConnective (h : WideSign xs) : OuterConnective xs := by
  obtain ⟨before, between, c, after, rfl, -, -, hc⟩ := h
  exact ⟨before ++ .not :: between, c, after, by simp, hc⟩

theorem Closed.wideSign_append (hx : Closed xs) (h : WideSign rest) : WideSign (xs ++ rest) := by
  obtain ⟨before, between, c, after, rfl, hbefore, hhead, hc⟩ := h
  refine ⟨xs ++ before, between, c, after, by simp, hx.append_iff.mpr hbefore, hhead, ?_⟩
  rw [List.append_assoc]
  exact hx.append_iff.mpr hc

theorem not_outerConnective_nil : ¬ OuterConnective [] := by
  rintro ⟨before, c, after, h, -⟩
  simp at h

theorem outerConnective_cons (hl : x ≠ .lparen) (hr : x ≠ .rparen) (hc : ∀ c, x ≠ .connective c) :
    OuterConnective (x :: xs) ↔ OuterConnective xs := by
  constructor
  · rintro ⟨before, c, after, h, hbefore⟩
    rcases before with _ | ⟨y, before⟩
    · cases h
      exact absurd rfl (hc c)
    · obtain ⟨rfl, rfl⟩ := List.cons_eq_cons.mp h
      exact ⟨before, c, after, rfl, (closed_cons_iff hl hr).mp hbefore⟩
  · rintro ⟨before, c, after, rfl, hbefore⟩
    exact ⟨x :: before, c, after, rfl, (closed_cons_iff hl hr).mpr hbefore⟩

/-- Any lexeme but a parenthesis and a sign not before a group can be left off. -/
theorem wideSign_cons (hl : x ≠ .lparen) (hr : x ≠ .rparen)
    (hn : x = .not → xs.head? = some .lparen) : WideSign (x :: xs) ↔ WideSign xs := by
  constructor
  · rintro ⟨before, between, c, after, h, hbefore, hhead, hc⟩
    rcases before with _ | ⟨y, before⟩
    · cases h
      have hlparen := hn rfl
      cases between <;> simp_all
    · obtain ⟨rfl, rfl⟩ := List.cons_eq_cons.mp h
      exact ⟨before, between, c, after, rfl, (closed_cons_iff hl hr).mp hbefore, hhead,
        (closed_cons_iff hl hr).mp hc⟩
  · have hclosed : Closed [x] := (closed_cons_iff hl hr).mpr Balanced.nil.closed
    exact hclosed.wideSign_append

/-- A sign that is not before a group is wide exactly if a connective follows it. -/
theorem wideSign_not_cons (hx : xs.head? ≠ some .lparen) :
    WideSign (.not :: xs) ↔ OuterConnective xs := by
  constructor
  · intro h
    exact (outerConnective_cons (by simp) (by simp) (by simp)).mp h.outerConnective
  · rintro ⟨before, c, after, rfl, hc⟩
    refine ⟨[], before, c, after, rfl, rfl, ?_, (closed_cons_iff (by simp) (by simp)).mpr hc⟩
    cases before <;> simp_all

theorem InnerOperand.not_outerConnective :
    ∀ {xs : List Lexeme} {f : Formula}, InnerOperand xs f → ¬ OuterConnective xs
  | _, _, .atom _ => by
    rw [outerConnective_cons (by simp) (by simp) (by simp)]
    exact not_outerConnective_nil
  | _, _, .group h => by
    rintro ⟨before, c, after, hsplit, hbefore⟩
    rcases h.balanced.outside_group hsplit hbefore with ⟨-, hx⟩ | ⟨more, -, hnil⟩
    · cases hx
    · simp at hnil
  | _, _, .neg h => by
    rw [outerConnective_cons (by simp) (by simp) (by simp)]
    exact h.not_outerConnective

theorem Balanced.wideSign_group (hb : Balanced xs) :
    WideSign (.lparen :: xs ++ [.rparen] ++ rest) ↔ WideSign rest := by
  refine ⟨?_, hb.group.closed.wideSign_append⟩
  rintro ⟨before, between, c, after, hsplit, hbefore, hhead, hc⟩
  rw [List.append_assoc] at hsplit
  rcases hb.outside_group hsplit hbefore with ⟨-, hx⟩ | ⟨more, rfl, rfl⟩
  · cases hx
  · rw [List.append_assoc] at hc
    exact ⟨more, between, c, after, rfl, hb.group.closed.append_iff.mp hbefore, hhead,
      hb.group.closed.append_iff.mp hc⟩

theorem OuterOperand.wideSign_append (h : OuterOperand xs f) :
    WideSign (xs ++ rest) ↔ WideSign rest := by
  cases h with
  | atom a => exact wideSign_cons (by simp) (by simp) (by simp)
  | group h => exact h.balanced.wideSign_group
  | negGroup h =>
    exact (wideSign_cons (by simp) (by simp) (by simp)).trans h.balanced.wideSign_group

/-! ### The two readings -/

theorem OuterOperand.innerOperand (h : OuterOperand xs f) : InnerOperand xs f := by
  cases h with
  | atom a => exact InnerOperand.atom a
  | group h => exact InnerOperand.group h
  | negGroup h => exact InnerOperand.neg (InnerOperand.group h)

theorem Inner.exists_neg (h : Inner xs f) : ∃ g, Inner (.not :: xs) g := by
  cases h with
  | operand h => exact ⟨_, Inner.operand h.neg⟩
  | join c h h' => exact ⟨_, Inner.join c h.neg h'⟩

/-- **What is read outside parentheses is read inside.** -/
theorem Outer.exists_inner (h : Outer xs f) : ∃ g, Inner xs g := by
  induction h with
  | operand h => exact ⟨_, Inner.operand h.innerOperand⟩
  | join c h _ ih =>
    obtain ⟨g, hg⟩ := ih
    exact ⟨_, Inner.join c h.innerOperand hg⟩
  | neg _ _ ih =>
    obtain ⟨g, hg⟩ := ih
    exact hg.exists_neg

theorem Inner.unique (hf : Inner xs f) (hg : Inner xs g) : f = g :=
  hf.readsAll.unique hg.readsAll

/-- **The two readings agree** exactly if no sign is wide. -/
theorem Outer.eq_inner_iff (hf : Outer xs f) (hg : Inner xs g) : g = f ↔ ¬ WideSign xs := by
  induction hf generalizing g with
  | @operand xs f h =>
    have hwide : ¬ WideSign (xs ++ []) := fun hw =>
      not_outerConnective_nil (h.wideSign_append.mp hw).outerConnective
    rw [List.append_nil] at hwide
    exact iff_of_true (hg.unique (Inner.operand h.innerOperand)) hwide
  | @join xs ys f f' c h h' ih =>
    obtain ⟨g', hg'⟩ := h'.exists_inner
    obtain rfl := hg.unique (Inner.join c h.innerOperand hg')
    rw [h.wideSign_append, wideSign_cons (by simp) (by simp) (by simp), ← ih hg']
    simp
  | @neg xs f hx h ih =>
    rw [wideSign_not_cons hx]
    obtain ⟨k, hk⟩ := h.exists_inner
    cases hk with
    | operand hk =>
      -- without a connective to come, the sign takes the same operand in both readings
      obtain rfl := hg.unique (Inner.operand hk.neg)
      have hwide : ¬ WideSign xs := fun hw => hk.not_outerConnective hw.outerConnective
      rw [(ih (Inner.operand hk)).mpr hwide]
      exact iff_of_true rfl hk.not_outerConnective
    | @join us vs _ _ c hk hk' =>
      -- inside parentheses the sign stops before the connective
      obtain rfl := hg.unique (Inner.join c hk.neg hk')
      have hconnective : OuterConnective (us ++ .connective c :: vs) :=
        ⟨us, c, vs, rfl, hk.balanced.closed⟩
      exact iff_of_false (by simp) (not_not.mpr hconnective)

end Grammar

/-! ### Texts in parentheses -/

theorem parse_parenthesize_of_inner {text : String} {g : Formula}
    (hs : (scan text).fault = none) (hg : Inner (lexemesOf text) g) :
    Formula.parse (parenthesize text) = .ok g := by
  obtain ⟨hfault, hlexemes⟩ := scan_parenthesize hs
  refine parse_eq_ok_iff.mpr ⟨hfault, ?_⟩
  show Outer (lexemesOf (parenthesize text)) g
  rw [hlexemes]
  exact Outer.operand (OuterOperand.group hg)

/-- More parentheses change nothing. -/
theorem inner_parenthesize {text : String} {g : Formula} (hs : (scan text).fault = none)
    (hg : Inner (lexemesOf text) g) (k : ℕ) :
    (scan (parenthesize^[k] text)).fault = none ∧ Inner (lexemesOf (parenthesize^[k] text)) g := by
  induction k with
  | zero => exact ⟨hs, hg⟩
  | succ k ih =>
    rw [Function.iterate_succ_apply']
    obtain ⟨hfault, hlexemes⟩ := scan_parenthesize ih.1
    rw [hlexemes]
    exact ⟨hfault, Inner.operand (InnerOperand.group ih.2)⟩

/-- **Parentheses around a statement.** A text that is read as `f` is read as one and the same
statement in whatever number of parentheses, at least one pair; and that statement is `f` exactly if
in the text no negation sign outside all parentheses, other than directly before one, is followed by
a connective outside all parentheses. -/
theorem parse_parenthesized (text : String) (f : Formula) (h : Formula.parse text = .ok f) :
    ∃ g, (∀ k, 1 ≤ k → Formula.parse (parenthesize^[k] text) = .ok g) ∧
      (g = f ↔ ¬ WideSign (lexemesOf text)) := by
  obtain ⟨hs, houter⟩ := parse_eq_ok_iff.mp h
  obtain ⟨g, hg⟩ := houter.exists_inner
  refine ⟨g, fun k hk => ?_, houter.eq_inner_iff hg⟩
  obtain ⟨k, rfl⟩ := Nat.exists_eq_add_of_le' hk
  rw [Function.iterate_succ_apply']
  obtain ⟨hfault, hinner⟩ := inner_parenthesize hs hg k
  exact parse_parenthesize_of_inner hfault hinner

/-- The sign of `~p ^ q` takes both operands, unless there are parentheses around it all; that of
`~(p) ^ q` never does. -/
theorem parse_parenthesized_sign :
    (∃ g, (∀ k, 1 ≤ k → Formula.parse (parenthesize^[k] "~p ^ q") = .ok g) ∧
      g ≠ .neg (.binary .and (.atom .p) (.atom .q))) ∧
    (∀ k, 1 ≤ k → Formula.parse (parenthesize^[k] "~(p) ^ q") =
      .ok (.binary .and (.neg (.atom .p)) (.atom .q))) ∧ ¬ WideSign (lexemesOf "~(p) ^ q") := by
  have hwide : WideSign (lexemesOf "~p ^ q") :=
    ⟨[], [.atom .p], .and, [.atom .q], by decide, rfl, by decide, rfl⟩
  obtain ⟨g, hg, hne⟩ := parse_parenthesized "~p ^ q"
    (.neg (.binary .and (.atom .p) (.atom .q))) (by decide +kernel)
  obtain ⟨g', hg', hiff⟩ := parse_parenthesized "~(p) ^ q"
    (.binary .and (.neg (.atom .p)) (.atom .q)) (by decide +kernel)
  have hone : Formula.parse (parenthesize "~(p) ^ q") =
    .ok (.binary .and (.neg (.atom .p)) (.atom .q)) := by decide +kernel
  have heq : g' = .binary .and (.neg (.atom .p)) (.atom .q) :=
    Except.ok.inj ((hg' 1 Nat.le.refl).symm.trans hone)
  exact ⟨⟨g, hg, fun h => hne.mp h hwide⟩, fun k hk => heq ▸ hg' k hk, hiff.mp heq⟩

end Deduction
