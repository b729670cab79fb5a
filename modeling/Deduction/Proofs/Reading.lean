import Deduction.Formula.Grammar
import Deduction.Formula.Parser
import Mathlib.Data.List.Basic
import Mathlib.Tactic.Common

/-!
# Reading statements: the reader and the grammar

The reader takes tokens by counting, looks for a closing parenthesis before it reads what is
inside, and decides the reach of a negation sign by the next token; the grammar knows none of
this. They agree:

* `readOperand_ok`, `readAll_ok`: what one step of the reader does when it succeeds;
* `read_count`: an operand takes at least one token, a statement takes all of them;
* `inner_of_read`, `outer_of_read`: what is read is derived by the grammar;
* `Outer.readsAll`: what the grammar derives is read. On the way, a search for a closing
  parenthesis passes over everything the grammar derives inside parentheses (`PassedOver`).
-/

namespace Deduction

theorem map_eq_ok_iff {ε α β : Type} {x : Except ε α} {f : α → β} {b : β} :
    x.map f = .ok b ↔ ∃ a, x = .ok a ∧ f a = b := by
  rcases x with e | a <;> simp [Except.map]

theorem map_eq_error_iff {ε α β : Type} {x : Except ε α} {f : α → β} {e : ε} :
    x.map f = .error e ↔ x = .error e := by
  rcases x with e' | a <;> simp [Except.map]

theorem bind_eq_ok_iff {ε α β : Type} {x : Except ε α} {k : α → Except ε β} {b : β} :
    x >>= k = .ok b ↔ ∃ a, x = .ok a ∧ k a = .ok b := by
  rcases x with e | a <;> simp [bind, Except.bind]

theorem bind_eq_error_iff {ε α β : Type} {x : Except ε α} {k : α → Except ε β} {e : ε} :
    x >>= k = .error e ↔ x = .error e ∨ ∃ a, x = .ok a ∧ k a = .error e := by
  rcases x with e' | a <;> simp [bind, Except.bind]

namespace Formula

open Token

variable {nested : Bool} {ts rest : List Token} {f : Formula} {i n : ℕ}

/-! ### Steps of the reader -/

theorem readOperand_nil : readOperand nested [] = .error .empty := by
  rw [readOperand.eq_def]; rfl

theorem readOperand_atom {a : Atom} :
    readOperand nested (⟨.atom a, i⟩ :: rest) = .ok (atom a, 1) := by
  rw [readOperand.eq_def]; rfl

theorem readOperand_connective {c : Connective} :
    readOperand nested (⟨.connective c, i⟩ :: rest) = .error (.unexpected ⟨.connective c, i⟩) := by
  rw [readOperand.eq_def]; rfl

theorem readOperand_rparen :
    readOperand nested (⟨.rparen, i⟩ :: rest) = .error (.unexpected ⟨.rparen, i⟩) := by
  rw [readOperand.eq_def]; rfl

theorem readOperand_lparen :
    readOperand nested (⟨.lparen, i⟩ :: rest) =
      match findClose 0 rest with
      | none => .error (.unclosed i)
      | some 0 => .error (.emptyGroup i)
      | some (k + 1) => (readAll true (rest.take (k + 1))).map fun r => (r.1, k + 3) := by
  rw [readOperand.eq_def]; rfl

theorem readOperand_not_nil : readOperand nested [⟨.not, i⟩] = .error (.missingOperand i) := by
  rw [readOperand.eq_def]; rfl

theorem readOperand_not {next : Token} :
    readOperand nested (⟨.not, i⟩ :: next :: rest) =
      (if nested = true ∨ next.lexeme = .lparen then readOperand nested (next :: rest)
        else readAll false (next :: rest)).map fun r => (neg r.1, r.2 + 1) := by
  rw [readOperand.eq_def]
  simp only [Bool.or_eq_true, decide_eq_true_eq]
  split_ifs <;> rfl

theorem readAll_eq :
    readAll nested ts =
      match readOperand nested ts with
      | .error e => .error e
      | .ok (first, used) =>
        match ts.drop used with
        | [] => .ok (first, used)
        | token :: rest =>
          match token.lexeme, rest with
          | .connective c, _ :: _ =>
            (readAll nested rest).map fun r => (binary c first r.1, used + 1 + r.2)
          | _, _ => .error (.missingOperator token.index) := by
  rw [readAll]
  rcases readOperand nested ts with e | ⟨first, used⟩
  · rfl
  · simp only [bind, Except.bind]
    rcases ts.drop used with _ | ⟨⟨x, i⟩, rest⟩
    · rfl
    · cases x <;> cases rest <;> rfl

/-! ### What a successful step looks like -/

theorem findClose_some : ∀ {ts : List Token} {d k : ℕ}, findClose d ts = some k →
    ∃ before j after, ts = before ++ ⟨.rparen, j⟩ :: after ∧ before.length = k
  | [], _, _, h => by cases h
  | ⟨x, i⟩ :: ts, d, k, h => by
    have later : ∀ {d'}, (findClose d' ts).map (· + 1) = some k →
        ∃ before j after, ⟨x, i⟩ :: ts = before ++ ⟨.rparen, j⟩ :: after ∧ before.length = k := by
      intro d' h'
      obtain ⟨k', hk', rfl⟩ := Option.map_eq_some_iff.mp h'
      obtain ⟨before, j, after, rfl, rfl⟩ := findClose_some hk'
      exact ⟨⟨x, i⟩ :: before, j, after, rfl, rfl⟩
    cases x with
    | rparen =>
      cases d with
      | zero =>
        cases h
        exact ⟨[], i, ts, rfl, rfl⟩
      | succ d => exact later h
    | _ => exact later h

theorem readOperand_lparen_ok (h : readOperand nested (⟨.lparen, i⟩ :: rest) = .ok (f, n)) :
    ∃ before j after m, rest = before ++ ⟨.rparen, j⟩ :: after ∧
      readAll true before = .ok (f, m) ∧ n = before.length + 2 := by
  rw [readOperand_lparen] at h
  split at h
  · cases h
  · cases h
  · next k hk =>
    obtain ⟨⟨g, m⟩, hg, he⟩ := map_eq_ok_iff.mp h
    cases he
    obtain ⟨before, j, after, rfl, hb⟩ := findClose_some hk
    rw [List.take_left' (show before.length = k + 1 from hb)] at hg
    exact ⟨before, j, after, m, rfl, hg, by omega⟩

/-- **An operand that is read** is a variable, a group, a sign before an operand, or, outside all
parentheses, a sign before all that follows. -/
theorem readOperand_ok (h : readOperand nested ts = .ok (f, n)) :
    (∃ a i rest, ts = ⟨.atom a, i⟩ :: rest ∧ f = atom a ∧ n = 1) ∨
    (∃ i before j after m, ts = ⟨.lparen, i⟩ :: (before ++ ⟨.rparen, j⟩ :: after) ∧
      readAll true before = .ok (f, m) ∧ n = before.length + 2) ∨
    (∃ i next rest g m, ts = ⟨.not, i⟩ :: next :: rest ∧ (nested = true ∨ next.lexeme = .lparen) ∧
      readOperand nested (next :: rest) = .ok (g, m) ∧ f = neg g ∧ n = m + 1) ∨
    ∃ i next rest g m, ts = ⟨.not, i⟩ :: next :: rest ∧ nested = false ∧ next.lexeme ≠ .lparen ∧
      readAll false (next :: rest) = .ok (g, m) ∧ f = neg g ∧ n = m + 1 := by
  rcases ts with _ | ⟨⟨x, i⟩, rest⟩
  · rw [readOperand_nil] at h; cases h
  rcases x with a | c | _ | _ | _
  · rw [readOperand_atom] at h
    cases h
    exact Or.inl ⟨a, i, rest, rfl, rfl, rfl⟩
  · rw [readOperand_connective] at h; cases h
  · rcases rest with _ | ⟨next, rest⟩
    · rw [readOperand_not_nil] at h; cases h
    rw [readOperand_not, map_eq_ok_iff] at h
    obtain ⟨⟨g, m⟩, h, he⟩ := h
    cases he
    split_ifs at h with hc
    · exact Or.inr (Or.inr (Or.inl ⟨i, next, rest, g, m, rfl, hc, h, rfl, rfl⟩))
    · rw [not_or, Bool.not_eq_true] at hc
      exact Or.inr (Or.inr (Or.inr ⟨i, next, rest, g, m, rfl, hc.1, hc.2, h, rfl, rfl⟩))
  · obtain ⟨before, j, after, m, rfl, hm, rfl⟩ := readOperand_lparen_ok h
    exact Or.inr (Or.inl ⟨i, before, j, after, m, rfl, hm, rfl⟩)
  · rw [readOperand_rparen] at h; cases h

/-- **A statement that is read** is an operand that takes all tokens, or an operand, a connective
and a statement. -/
theorem readAll_ok (h : readAll nested ts = .ok (f, n)) :
    (readOperand nested ts = .ok (f, n) ∧ ts.drop n = []) ∨
    ∃ g used c i rest k more, readOperand nested ts = .ok (g, used) ∧
      ts = ts.take used ++ ⟨.connective c, i⟩ :: rest ∧ readAll nested rest = .ok (k, more) ∧
      f = binary c g k ∧ n = used + 1 + more := by
  rw [readAll_eq] at h
  rcases ho : readOperand nested ts with e | ⟨g, used⟩
  · rw [ho] at h; cases h
  rw [ho] at h
  rcases hd : ts.drop used with _ | ⟨⟨x, i⟩, rest⟩
  · simp only [hd] at h
    cases h
    exact Or.inl ⟨rfl, hd⟩
  · simp only [hd] at h
    cases x with
    | connective c =>
      rcases rest with _ | ⟨t, rest⟩
      · cases h
      obtain ⟨⟨k, more⟩, hk, he⟩ := map_eq_ok_iff.mp h
      cases he
      refine Or.inr ⟨g, used, c, i, _, k, more, rfl, ?_, hk, rfl, rfl⟩
      rw [← hd, List.take_append_drop]
    | _ => cases h

theorem length_eq_of_take_append {ts rest : List Token} {t : Token} {used : ℕ}
    (h : ts = ts.take used ++ t :: rest) : ts.length = used + 1 + rest.length := by
  have hl := congrArg List.length h
  simp only [List.length_append, List.length_take, List.length_cons] at hl
  omega

/-- **Induction along the reader**: an operand is read from shorter lists, a statement from an
operand of the same list and from shorter statements. -/
theorem reading_induction {P Q : List Token → Prop}
    (operand : ∀ ts, (∀ us : List Token, us.length < ts.length → P us ∧ Q us) → P ts)
    (all : ∀ ts, P ts → (∀ us : List Token, us.length < ts.length → Q us) → Q ts)
    (ts : List Token) : P ts ∧ Q ts := by
  induction hn : ts.length using Nat.strongRecOn generalizing ts with
  | ind n ih =>
    subst hn
    have hop : P ts := operand ts fun us hus => ih _ hus us rfl
    exact ⟨hop, all ts hop fun us hus => (ih _ hus us rfl).2⟩

/-- **The count of tokens**: an operand takes at least one token and no more than there are, and a
statement takes all of them. -/
theorem read_count (ts : List Token) :
    (∀ nested f n, readOperand nested ts = .ok (f, n) → 1 ≤ n ∧ n ≤ ts.length) ∧
      ∀ nested f n, readAll nested ts = .ok (f, n) → n = ts.length := by
  refine reading_induction
    (P := fun ts => ∀ nested f n, readOperand nested ts = .ok (f, n) → 1 ≤ n ∧ n ≤ ts.length)
    (Q := fun ts => ∀ nested f n, readAll nested ts = .ok (f, n) → n = ts.length) ?_ ?_ ts
  · intro ts ih nested f n h
    rcases readOperand_ok h with ⟨a, i, rest, rfl, -, rfl⟩ |
      ⟨i, before, j, after, m, rfl, -, rfl⟩ | ⟨i, next, rest, g, m, rfl, -, hm, -, rfl⟩ |
      ⟨i, next, rest, g, m, rfl, -, -, hm, -, rfl⟩
    · simp
    · simp
    · have := (ih (next :: rest) (by simp)).1 _ g m hm
      simp only [List.length_cons] at this ⊢
      omega
    · have := (ih (next :: rest) (by simp)).2 _ g m hm
      simp only [List.length_cons] at this ⊢
      omega
  · intro ts hop ih nested f n h
    rcases readAll_ok h with ⟨ho, hd⟩ | ⟨g, used, c, i, rest, k, more, ho, hts, hr, -, rfl⟩
    · have := hop _ f n ho
      have := List.drop_eq_nil_iff.mp hd
      omega
    · have := hop _ g used ho
      have hl := length_eq_of_take_append hts
      have := ih rest (by omega) _ k more hr
      omega

end Formula

namespace Grammar

open Token Formula

/-! ### What is read is derived -/

theorem take_group (i j : ℕ) (before after : List Token) :
    (⟨.lparen, i⟩ :: (before ++ ⟨.rparen, j⟩ :: after) : List Token).take (before.length + 2) =
      ⟨.lparen, i⟩ :: before ++ [⟨.rparen, j⟩] := by
  rw [List.take_succ_cons, List.append_cons, List.take_left' (by simp), List.cons_append]

theorem inner_of_read (ts : List Token) :
    (∀ f n, readOperand true ts = .ok (f, n) → InnerOperand ((ts.take n).map lexeme) f) ∧
      ∀ f n, readAll true ts = .ok (f, n) → Inner (ts.map lexeme) f := by
  refine reading_induction
    (P := fun ts => ∀ f n, readOperand true ts = .ok (f, n) →
      InnerOperand ((ts.take n).map lexeme) f)
    (Q := fun ts => ∀ f n, readAll true ts = .ok (f, n) → Inner (ts.map lexeme) f) ?_ ?_ ts
  · intro ts ih f n h
    rcases readOperand_ok h with ⟨a, i, rest, rfl, rfl, rfl⟩ |
      ⟨i, before, j, after, m, rfl, hm, rfl⟩ | ⟨i, next, rest, g, m, rfl, -, hm, rfl, rfl⟩ |
      ⟨-, -, -, -, -, -, hn, -⟩
    · exact InnerOperand.atom a
    · have hshort : before.length < (⟨.lparen, i⟩ :: (before ++ ⟨.rparen, j⟩ :: after)).length := by
        simp only [List.length_cons, List.length_append]
        omega
      have hin := (ih before hshort).2 f m hm
      rw [take_group]
      simpa using InnerOperand.group hin
    · have hin := (ih (next :: rest) (by simp)).1 g m hm
      exact InnerOperand.neg hin
    · cases hn
  · intro ts hop ih f n h
    rcases readAll_ok h with ⟨ho, hd⟩ | ⟨g, used, c, i, rest, k, more, ho, hts, hr, rfl, rfl⟩
    · have hin := hop f n ho
      rw [(read_count ts).2 true f n h, List.take_length] at hin
      exact Inner.operand hin
    · have hl := length_eq_of_take_append hts
      have hin := hop g used ho
      have hin' := ih rest (by omega) k more hr
      rw [hts, List.map_append, List.map_cons]
      exact Inner.join c hin hin'

theorem outer_of_read (ts : List Token) :
    (∀ f n, readOperand false ts = .ok (f, n) →
      OuterOperand ((ts.take n).map lexeme) f ∨ n = ts.length ∧ Outer (ts.map lexeme) f) ∧
      ∀ f n, readAll false ts = .ok (f, n) → Outer (ts.map lexeme) f := by
  refine reading_induction
    (P := fun ts => ∀ f n, readOperand false ts = .ok (f, n) →
      OuterOperand ((ts.take n).map lexeme) f ∨ n = ts.length ∧ Outer (ts.map lexeme) f)
    (Q := fun ts => ∀ f n, readAll false ts = .ok (f, n) → Outer (ts.map lexeme) f) ?_ ?_ ts
  · intro ts ih f n h
    rcases readOperand_ok h with ⟨a, i, rest, rfl, rfl, rfl⟩ |
      ⟨i, before, j, after, m, rfl, hm, rfl⟩ | ⟨i, next, rest, g, m, rfl, hn, hm, rfl, rfl⟩ |
      ⟨i, next, rest, g, m, rfl, -, hn, hm, rfl, rfl⟩
    · exact Or.inl (OuterOperand.atom a)
    · have hin := (inner_of_read before).2 f m hm
      rw [take_group]
      left
      simpa using OuterOperand.group hin
    · -- the sign stands before a group, whose contents are read as inside parentheses
      obtain ⟨x, j⟩ := next
      obtain rfl : x = .lparen := hn.resolve_left Bool.false_ne_true
      obtain ⟨before, j', after, m', rfl, hm', rfl⟩ := readOperand_lparen_ok hm
      have hin := (inner_of_read before).2 g m' hm'
      rw [List.take_succ_cons, take_group]
      left
      simpa using OuterOperand.negGroup hin
    · have hout := (ih (next :: rest) (by simp)).2 g m hm
      have hm' := (read_count (next :: rest)).2 false g m hm
      refine Or.inr ⟨by simp [hm'], ?_⟩
      exact Outer.neg (by simpa using hn) hout
  · intro ts hop ih f n h
    rcases readAll_ok h with ⟨ho, hd⟩ | ⟨g, used, c, i, rest, k, more, ho, hts, hr, rfl, rfl⟩
    · rcases hop f n ho with hout | ⟨-, hout⟩
      · rw [(read_count ts).2 false f n h, List.take_length] at hout
        exact Outer.operand hout
      · exact hout
    · have hl := length_eq_of_take_append hts
      rcases hop g used ho with hout | ⟨hu, -⟩
      · have hout' := ih rest (by omega) k more hr
        rw [hts, List.map_append, List.map_cons]
        exact Outer.join c hout hout'
      · -- a sign that takes all that follows leaves no connective behind
        omega

/-! ### What is derived is read -/

/-- The parentheses in `xs` match, so that a search for a closing parenthesis passes over it. -/
def PassedOver (xs : List Lexeme) : Prop :=
  ∀ (ts rest : List Token) (d : ℕ), ts.map lexeme = xs →
    findClose d (ts ++ rest) = (findClose d rest).map (· + ts.length)

/-- The operand `xs` is read as `f`, whatever follows it. -/
def ReadsOperand (nested : Bool) (xs : List Lexeme) (f : Formula) : Prop :=
  ∀ ts rest : List Token, ts.map lexeme = xs →
    readOperand nested (ts ++ rest) = .ok (f, ts.length)

/-- The statement `xs` is read as `f`. -/
def ReadsAll (nested : Bool) (xs : List Lexeme) (f : Formula) : Prop :=
  ∀ ts : List Token, ts.map lexeme = xs → readAll nested ts = .ok (f, ts.length)

variable {nested : Bool} {xs ys : List Lexeme} {f g : Formula}

theorem PassedOver.nil : PassedOver [] := by
  intro ts rest d hts
  obtain rfl := List.map_eq_nil_iff.mp hts
  simp

theorem PassedOver.append (hx : PassedOver xs) (hy : PassedOver ys) : PassedOver (xs ++ ys) := by
  intro ts rest d hts
  obtain ⟨us, vs, rfl, hus, hvs⟩ := List.map_eq_append_iff.mp hts
  rw [List.append_assoc, hx us _ d hus, hy vs rest d hvs, Option.map_map, List.length_append]
  congr 1
  ext n
  simp only [Function.comp_apply]
  omega

theorem PassedOver.cons {x : Lexeme} (hl : x ≠ .lparen) (hr : x ≠ .rparen) (hx : PassedOver xs) :
    PassedOver (x :: xs) := by
  intro ts rest d hts
  obtain ⟨⟨y, i⟩, us, rfl, rfl, hus⟩ := List.map_eq_cons_iff.mp hts
  have hstep : findClose d (⟨y, i⟩ :: (us ++ rest)) = (findClose d (us ++ rest)).map (· + 1) := by
    cases y with
    | lparen => exact absurd rfl hl
    | rparen => exact absurd rfl hr
    | _ => rfl
  rw [List.cons_append, hstep, hx us rest d hus, Option.map_map]
  rfl

theorem exists_of_map_group {ts : List Token} (hts : ts.map lexeme = .lparen :: xs ++ [.rparen]) :
    ∃ i us j, ts = ⟨.lparen, i⟩ :: us ++ [⟨.rparen, j⟩] ∧ us.map lexeme = xs := by
  obtain ⟨⟨_, i⟩, us, rfl, rfl, hus⟩ := List.map_eq_cons_iff.mp hts
  obtain ⟨vs, ws, rfl, hvs, hws⟩ := List.map_eq_append_iff.mp hus
  obtain ⟨⟨_, j⟩, _, rfl, rfl, hnil⟩ := List.map_eq_cons_iff.mp hws
  obtain rfl := List.map_eq_nil_iff.mp hnil
  exact ⟨i, vs, j, rfl, hvs⟩

theorem PassedOver.group (hx : PassedOver xs) : PassedOver (.lparen :: xs ++ [.rparen]) := by
  intro ts rest d hts
  obtain ⟨i, us, j, rfl, hus⟩ := exists_of_map_group hts
  have hopen : findClose d (⟨.lparen, i⟩ :: (us ++ ⟨.rparen, j⟩ :: rest)) =
    (findClose (d + 1) (us ++ ⟨.rparen, j⟩ :: rest)).map (· + 1) := rfl
  have hclose : findClose (d + 1) (⟨.rparen, j⟩ :: rest) = (findClose d rest).map (· + 1) := rfl
  rw [List.cons_append, List.cons_append, List.append_assoc, List.singleton_append, hopen,
    hx us _ _ hus, hclose, Option.map_map, Option.map_map]
  congr 1
  ext n
  simp only [Function.comp_apply, List.length_cons, List.length_append, List.length_nil]
  omega

mutual

theorem Inner.passedOver : ∀ {xs : List Lexeme} {f : Formula}, Inner xs f → PassedOver xs
  | _, _, .operand h => h.passedOver
  | _, _, .join _ h h' => h.passedOver.append (h'.passedOver.cons (by simp) (by simp))

theorem InnerOperand.passedOver :
    ∀ {xs : List Lexeme} {f : Formula}, InnerOperand xs f → PassedOver xs
  | _, _, .atom _ => PassedOver.nil.cons (by simp) (by simp)
  | _, _, .group h => h.passedOver.group
  | _, _, .neg h => h.passedOver.cons (by simp) (by simp)

end

theorem ReadsOperand.ne_nil (h : ReadsOperand nested xs f) : xs ≠ [] := by
  rintro rfl
  have := h [] [] rfl
  rw [List.append_nil, readOperand_nil] at this
  cases this

theorem ReadsAll.ne_nil (h : ReadsAll nested xs f) : xs ≠ [] := by
  rintro rfl
  have := h [] rfl
  rw [readAll_eq, readOperand_nil] at this
  cases this

theorem ReadsOperand.atom (a : Atom) : ReadsOperand nested [.atom a] (.atom a) := by
  intro ts rest hts
  obtain ⟨⟨_, i⟩, _, rfl, rfl, hnil⟩ := List.map_eq_cons_iff.mp hts
  obtain rfl := List.map_eq_nil_iff.mp hnil
  exact readOperand_atom

theorem ReadsOperand.group (hp : PassedOver xs) (h : ReadsAll true xs f) :
    ReadsOperand nested (.lparen :: xs ++ [.rparen]) f := by
  intro ts rest hts
  obtain ⟨i, us, j, rfl, hus⟩ := exists_of_map_group hts
  obtain ⟨k, hk⟩ : ∃ k, us.length = k + 1 := by
    refine Nat.exists_eq_succ_of_ne_zero fun h0 => h.ne_nil ?_
    rw [← hus, List.eq_nil_of_length_eq_zero h0]
    rfl
  have hclose : findClose 0 (us ++ ⟨.rparen, j⟩ :: rest) = some (k + 1) := by
    rw [hp us _ 0 hus, ← hk]
    simp [findClose]
  rw [List.cons_append, List.cons_append, List.append_assoc, List.singleton_append,
    readOperand_lparen, hclose]
  simp only
  rw [List.take_left' hk, h us hus]
  simp [Except.map, hk]

theorem ReadsOperand.neg (hx : nested = true ∨ xs.head? = some .lparen)
    (h : ReadsOperand nested xs f) : ReadsOperand nested (.not :: xs) (.neg f) := by
  intro ts rest hts
  obtain ⟨⟨_, i⟩, us, rfl, rfl, hus⟩ := List.map_eq_cons_iff.mp hts
  have hop := h us rest hus
  rcases us with _ | ⟨next, us⟩
  · exact absurd hus.symm h.ne_nil
  rw [List.cons_append, List.cons_append, readOperand_not, if_pos, ← List.cons_append, hop]
  · rfl
  · rw [← hus] at hx
    simpa using hx

theorem ReadsOperand.all (h : ReadsOperand nested xs f) : ReadsAll nested xs f := by
  intro ts hts
  have hop := h ts [] hts
  rw [List.append_nil] at hop
  rw [readAll_eq, hop]
  simp

theorem ReadsOperand.join (c : Connective) (hx : ReadsOperand nested xs f)
    (hy : ReadsAll nested ys g) : ReadsAll nested (xs ++ .connective c :: ys) (.binary c f g) := by
  intro ts hts
  obtain ⟨us, vs, rfl, hus, hvs⟩ := List.map_eq_append_iff.mp hts
  obtain ⟨⟨_, i⟩, ws, rfl, rfl, hws⟩ := List.map_eq_cons_iff.mp hvs
  have hright := hy ws hws
  rcases ws with _ | ⟨t, ws⟩
  · exact absurd hws.symm hy.ne_nil
  rw [readAll_eq, hx us _ hus]
  simp only [List.drop_left]
  rw [hright]
  simp only [Except.map, List.length_append, List.length_cons]
  congr 2
  omega

theorem ReadsAll.neg (hx : xs.head? ≠ some .lparen) (h : ReadsAll false xs f) :
    ReadsAll false (.not :: xs) (.neg f) := by
  intro ts hts
  obtain ⟨⟨_, i⟩, us, rfl, rfl, hus⟩ := List.map_eq_cons_iff.mp hts
  have hall := h us hus
  rcases us with _ | ⟨next, us⟩
  · exact absurd hus.symm h.ne_nil
  have hn : ¬ (false = true ∨ next.lexeme = .lparen) := by
    rw [← hus] at hx
    simpa using hx
  rw [readAll_eq, readOperand_not, if_neg hn, hall]
  simp [Except.map]

mutual

theorem Inner.readsAll : ∀ {xs : List Lexeme} {f : Formula}, Inner xs f → ReadsAll true xs f
  | _, _, .operand h => h.readsOperand.all
  | _, _, .join c h h' => h.readsOperand.join c h'.readsAll

theorem InnerOperand.readsOperand :
    ∀ {xs : List Lexeme} {f : Formula}, InnerOperand xs f → ReadsOperand true xs f
  | _, _, .atom a => ReadsOperand.atom a
  | _, _, .group h => ReadsOperand.group h.passedOver h.readsAll
  | _, _, .neg h => h.readsOperand.neg (Or.inl rfl)

end

theorem OuterOperand.readsOperand (h : OuterOperand xs f) : ReadsOperand false xs f := by
  cases h with
  | atom a => exact ReadsOperand.atom a
  | group h => exact ReadsOperand.group h.passedOver h.readsAll
  | negGroup h => exact (ReadsOperand.group h.passedOver h.readsAll).neg (Or.inr rfl)

/-- **What the grammar derives is read.** -/
theorem Outer.readsAll (h : Outer xs f) : ReadsAll false xs f := by
  induction h with
  | operand h => exact h.readsOperand.all
  | join c h _ ih => exact h.readsOperand.join c ih
  | neg hx _ ih => exact ih.neg hx

/-! ### Deciding the grammar -/

theorem ReadsAll.unique (hf : ReadsAll nested xs f) (hg : ReadsAll nested xs g) : f = g := by
  have hts : (xs.map fun x => (⟨x, 0⟩ : Token)).map lexeme = xs := by simp [Function.comp_def]
  have h := (hf _ hts).symm.trans (hg _ hts)
  simpa using h

theorem parse_eq_ok_iff {text : String} {f : Formula} :
    Formula.parse text = .ok f ↔
      (scan text).fault = none ∧ Outer ((scan text).tokens.map lexeme) f := by
  rw [Formula.parse, map_eq_ok_iff, parseCounted]
  rcases (scan text).fault with _ | e
  · constructor
    · rintro ⟨⟨g, n⟩, h, rfl⟩
      exact ⟨rfl, (outer_of_read _).2 g n h⟩
    · rintro ⟨-, h⟩
      exact ⟨_, h.readsAll _ rfl, rfl⟩
  · simp

/-- **Reading decides the grammar.** A text is read as `f` exactly if it has no illegal character
and the grammar derives `f` from its lexemes, and it is refused exactly if the grammar derives
nothing from it. Outside and inside parentheses, a list of lexemes derives at most one statement. -/
theorem parse_decides_grammar (text : String) :
    (∀ f, Formula.parse text = .ok f ↔
      (scan text).fault = none ∧ Outer ((scan text).tokens.map lexeme) f) ∧
    ((∃ e, Formula.parse text = .error e) ↔
      ¬ ∃ f, (scan text).fault = none ∧ Outer ((scan text).tokens.map lexeme) f) ∧
    ∀ xs f g, (Outer xs f → Outer xs g → f = g) ∧ (Inner xs f → Inner xs g → f = g) := by
  refine ⟨fun f => parse_eq_ok_iff, ?_, fun xs f g => ⟨fun hf hg => ?_, fun hf hg => ?_⟩⟩
  · simp only [← parse_eq_ok_iff]
    rcases Formula.parse text with e | f
    · simp
    · simp
  · exact hf.readsAll.unique hg.readsAll
  · exact hf.readsAll.unique hg.readsAll

/-- Outside all parentheses a sign that is not before a group takes all that follows. -/
theorem parse_decides_grammar_wide_sign :
    Formula.parse "~p ^ ~(q V r)" =
        .ok (.neg (.binary .and (.atom .p) (.neg (.binary .or (.atom .q) (.atom .r))))) ∧
      (∃ e, Formula.parse "~p ^ (~)" = .error e) ∧
      ∀ f, Outer [.not, .atom .p] f → f = .neg (.atom .p) := by
  have hp : Outer [.not, .atom .p] (.neg (.atom .p)) :=
    Outer.neg (by simp) (Outer.operand (OuterOperand.atom .p))
  refine ⟨((parse_decides_grammar _).1 _).mpr ⟨by decide, ?_⟩, ?_, fun f hf => ?_⟩
  · have hqr : Inner [.atom .q, .connective .or, .atom .r]
        (.binary .or (.atom .q) (.atom .r)) :=
      Inner.join .or (InnerOperand.atom .q) (Inner.operand (InnerOperand.atom .r))
    exact Outer.neg (by decide)
      (Outer.join .and (OuterOperand.atom .p) (Outer.operand (OuterOperand.negGroup hqr)))
  · refine (parse_decides_grammar "~p ^ (~)").2.1.mpr fun ⟨f, hf⟩ => ?_
    have hread := ((parse_decides_grammar "~p ^ (~)").1 f).mpr hf
    have hrefused : Formula.parse "~p ^ (~)" = .error (.missingOperand 6) := by decide +kernel
    rw [hrefused] at hread
    cases hread
  · exact ((parse_decides_grammar "").2.2 _ _ _).1 hf hp

end Grammar

end Deduction
