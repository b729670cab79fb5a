import Deduction.Journal.Basic
import Deduction.Proofs.Refusals
import Mathlib.Logic.Relation
import Mathlib.Order.Bounds.Defs

/-!
# Accounting for tokens

Every reading step answers with a number of tokens, and the next step goes on where that number
says. So the numbers have to be right at every range of a list of tokens, and the ranges have to
become shorter:

* the parenthesis that is looked for is the first one before which the parentheses of the group
  match (`closingPlace_eq_some_iff`, `isLeast_partner_iff`);
* what a reading does is a `Plan`: it answers, or it calls another reading and goes on with what
  that one built. Whatever the calls give, each of them is on a part of the range that is not empty
  and shorter, apart from the call by which a statement has its first operand read
  (`Calls.inside_or_first`). So a call made while a reading of the same kind is under way is on a
  shorter range (`inside_or_first_of_transGen`), and calls are nested less than twice as deep as
  there are tokens (`length_chain`). The readings are what the plans determine (`eq_run_iff`).

Together with the counts of `read_count` this is `Accounted`.
-/

namespace Deduction

open Token Formula Grammar

/-! ### The parenthesis that closes a group -/

namespace ByPlaces

variable {tokens us : List Token} {start stop i k : ℕ}

/-- The place of the parenthesis that closes the one at `start`, looked for before `stop`. -/
def closingPlace (tokens : List Token) (start stop : ℕ) : Option ℕ :=
  (findClose 0 (between tokens (start + 1) stop)).map (start + 1 + ·)

/-- The place `i` of the range has a closing parenthesis, and the parentheses between `start` and
`i` match. -/
structure Partner (tokens : List Token) (start stop i : ℕ) : Prop where
  after : start < i
  before : i < stop
  closing : ∃ j, tokens[i]? = some ⟨.rparen, j⟩
  balanced : Balanced ((between tokens (start + 1) i).map lexeme)

theorem getElem?_between (h : start + k < stop) :
    (between tokens start stop)[k]? = tokens[start + k]? := by
  rw [between, List.getElem?_drop, List.getElem?_take_of_lt h]

theorem lt_of_getElem?_between {t : Token} (h : (between tokens start stop)[k]? = some t) :
    start + k < stop := by
  obtain ⟨hk, -⟩ := List.getElem?_eq_some_iff.mp h
  rw [between, List.length_drop, List.length_take] at hk
  omega

/-- **The search finds the partner** and nothing else. -/
theorem closingPlace_eq_some_iff :
    closingPlace tokens start stop = some i ↔ Partner tokens start stop i := by
  rw [closingPlace, Option.map_eq_some_iff]
  constructor
  · rintro ⟨k, hk, rfl⟩
    obtain ⟨⟨j, hj⟩, hcloses⟩ := findClose_eq_some_iff.mp hk
    have hlt := lt_of_getElem?_between hj
    rw [getElem?_between hlt] at hj
    rw [take_between tokens (Nat.le_of_lt hlt)] at hcloses
    exact ⟨by omega, hlt, ⟨j, hj⟩, closes_zero_iff.mp hcloses⟩
  · rintro ⟨hafter, hbefore, ⟨j, hj⟩, hbalanced⟩
    obtain ⟨k, rfl⟩ := Nat.exists_eq_add_of_le (Nat.succ_le_of_lt hafter)
    refine ⟨k, findClose_eq_some_iff.mpr ⟨⟨j, ?_⟩, closes_zero_iff.mpr ?_⟩, rfl⟩
    · rwa [getElem?_between hbefore]
    · rwa [take_between tokens (Nat.le_of_lt hbefore)]

/-- There is at most one partner, so the one that is found is the first. -/
theorem isLeast_partner_iff :
    IsLeast {k | Partner tokens start stop k} i ↔ closingPlace tokens start stop = some i := by
  constructor
  · intro h
    exact closingPlace_eq_some_iff.mpr h.1
  · intro h
    refine ⟨closingPlace_eq_some_iff.mp h, fun k hk => ?_⟩
    have hk' := closingPlace_eq_some_iff.mpr hk
    rw [h, Option.some.injEq] at hk'
    exact Nat.le_of_eq hk'

theorem closingPlace_eq_none_iff :
    closingPlace tokens start stop = none ↔ ¬ ∃ i, Partner tokens start stop i := by
  rw [Option.eq_none_iff_forall_ne_some, not_exists]
  exact forall_congr' fun i => not_congr closingPlace_eq_some_iff

/-- A group that has no closing parenthesis in the range is refused at its opening one. -/
theorem readOperand_unclosed {j : ℕ} (hlt : start < stop) (hstop : stop ≤ tokens.length)
    (hopen : tokens[start]? = some ⟨.lparen, j⟩) (h : closingPlace tokens start stop = none)
    (nested : Bool) : readOperand nested (between tokens start stop) = .error (.unclosed j) := by
  obtain ⟨token, htoken, hbetween⟩ := exists_between_cons hlt hstop
  rw [tokenAt, hopen, Except.ok.injEq] at htoken
  rw [closingPlace, Option.map_eq_none_iff] at h
  rw [hbetween, ← htoken, readOperand_lparen, h]

/-- Tokens that stand together in a range are a range. -/
theorem exists_between_of_infix (hstop : stop ≤ tokens.length) (hne : us ≠ [])
    (h : us <:+: between tokens start stop) :
    ∃ start' stop', us = between tokens start' stop' ∧ start ≤ start' ∧ start' < stop' ∧
      stop' ≤ stop := by
  obtain ⟨before, after, hsplit⟩ := h
  have hpos := List.length_pos_iff.mpr hne
  have hlength := congrArg List.length hsplit
  rw [length_between hstop, List.length_append, List.length_append] at hlength
  refine ⟨start + before.length, start + before.length + us.length, ?_, by omega, by omega,
    by omega⟩
  rw [← take_between tokens (show start + before.length + us.length ≤ stop by omega),
    ← drop_between, ← hsplit, List.append_assoc, List.drop_left, List.take_left]

end ByPlaces

/-! ### Readings and what they call -/

/-- A reading, inside or outside parentheses: of all tokens as one statement, or of the operand at
their beginning. -/
structure Reading where
  whole : Bool
  nested : Bool
  tokens : List Token

/-- What a reading does: it answers, or it calls another reading and goes on with what that one
built and the number of tokens it took. A reading whose call is refused is refused for the same
reason. -/
inductive Plan where
  | answer (result : Except ParseError (Formula × ℕ))
  | call (r : Reading) (next : Formula × ℕ → Plan)

namespace Plan

/-- Carries out a plan, with the readings it calls done by `read`. -/
def carryOut (read : Reading → Except ParseError (Formula × ℕ)) :
    Plan → Except ParseError (Formula × ℕ)
  | answer result => result
  | call r next =>
    match read r with
    | .ok built => (next built).carryOut read
    | .error e => .error e

/-- The plan calls `s` at once, or after a call that may have given anything. -/
inductive MayCall : Plan → Reading → Prop
  | now {r : Reading} {next : Formula × ℕ → Plan} : MayCall (call r next) r
  | later {r s : Reading} {next : Formula × ℕ → Plan} {built : Formula × ℕ}
      (h : MayCall (next built) s) : MayCall (call r next) s

variable {r s : Reading} {read : Reading → Except ParseError (Formula × ℕ)}

theorem carryOut_call_answer {g : Formula × ℕ → Formula × ℕ} :
    (call r fun built => answer (.ok (g built))).carryOut read = (read r).map g := by
  rw [carryOut]
  rcases read r with e | built <;> rfl

/-- What a plan comes to depends on the readings it calls only. -/
theorem carryOut_congr {read' : Reading → Except ParseError (Formula × ℕ)} {p : Plan}
    (h : ∀ s, p.MayCall s → read s = read' s) : p.carryOut read = p.carryOut read' := by
  induction p with
  | answer result => rfl
  | call r next ih =>
    rw [carryOut, carryOut, h r MayCall.now]
    rcases read' r with e | built
    · rfl
    · exact ih built fun s hs => h s (MayCall.later hs)

theorem not_mayCall_answer {result : Except ParseError (Formula × ℕ)} :
    ¬ MayCall (answer result) s := by
  rintro ⟨⟩

theorem mayCall_call_iff {next : Formula × ℕ → Plan} :
    MayCall (call r next) s ↔ s = r ∨ ∃ built, MayCall (next built) s := by
  constructor
  · rintro (_ | ⟨h⟩)
    · exact Or.inl rfl
    · exact Or.inr ⟨_, h⟩
  · rintro (rfl | ⟨built, h⟩)
    · exact MayCall.now
    · exact MayCall.later h

theorem mayCall_call_answer_iff {result : Formula × ℕ → Except ParseError (Formula × ℕ)} :
    MayCall (call r fun built => answer (result built)) s ↔ s = r := by
  simp only [mayCall_call_iff, not_mayCall_answer, exists_false, or_false]

end Plan

namespace Reading

variable {r s : Reading} {nested : Bool} {ts : List Token}

/-- Does the reading. -/
def run : Reading → Except ParseError (Formula × ℕ)
  | ⟨true, nested, tokens⟩ => readAll nested tokens
  | ⟨false, nested, tokens⟩ => readOperand nested tokens

/-- After the first operand of a statement: the end, or a connective and the rest. -/
def planRest (nested : Bool) (first : Formula) (used : ℕ) : List Token → Plan
  | [] => .answer (.ok (first, used))
  | token :: rest =>
    match token.lexeme, rest with
    | .connective c, _ :: _ =>
      .call ⟨true, nested, rest⟩ fun second =>
        .answer (.ok (binary c first second.1, used + 1 + second.2))
    | _, _ => .answer (.error (.missingOperator token.index))

/-- After an opening parenthesis, with the place at which its group is closed. -/
def planGroup (index : ℕ) (rest : List Token) : Option ℕ → Plan
  | none => .answer (.error (.unclosed index))
  | some 0 => .answer (.error (.emptyGroup index))
  | some (n + 1) =>
    .call ⟨true, true, rest.take (n + 1)⟩ fun inner => .answer (.ok (inner.1, n + 3))

/-- After a negation sign: the next operand, or outside all parentheses all that follows. -/
def planSign (nested : Bool) (index : ℕ) : List Token → Plan
  | [] => .answer (.error (.missingOperand index))
  | next :: more =>
    .call ⟨!(nested || next.lexeme = .lparen), nested, next :: more⟩ fun operand =>
      .answer (.ok (neg operand.1, operand.2 + 1))

/-- What a reading does. Nothing is read in making the plan. -/
def plan : Reading → Plan
  | ⟨true, nested, tokens⟩ =>
    .call ⟨false, nested, tokens⟩ fun first =>
      planRest nested first.1 first.2 (tokens.drop first.2)
  | ⟨false, _, []⟩ => .answer (.error .empty)
  | ⟨false, nested, token :: rest⟩ =>
    match token.lexeme with
    | .atom a => .answer (.ok (atom a, 1))
    | .lparen => planGroup token.index rest (findClose 0 rest)
    | .not => planSign nested token.index rest
    | _ => .answer (.error (.unexpected token))

theorem carryOut_planRest {first : Formula} {used : ℕ} :
    (planRest nested first used ts).carryOut run =
      match ts with
      | [] => .ok (first, used)
      | token :: rest =>
        match token.lexeme, rest with
        | .connective c, _ :: _ =>
          (readAll nested rest).map fun r => (binary c first r.1, used + 1 + r.2)
        | _, _ => .error (.missingOperator token.index) := by
  rcases ts with _ | ⟨⟨x, i⟩, rest⟩
  · rfl
  · cases x with
    | connective c =>
      rcases rest with _ | ⟨t, rest⟩
      · rfl
      · exact Plan.carryOut_call_answer
    | _ => rfl

theorem carryOut_planGroup {i : ℕ} {rest : List Token} :
    (planGroup i rest (findClose 0 rest)).carryOut run =
      readOperand nested (⟨.lparen, i⟩ :: rest) := by
  rw [readOperand_lparen]
  rcases findClose 0 rest with _ | _ | n
  · rfl
  · rfl
  · exact Plan.carryOut_call_answer

theorem carryOut_planSign {i : ℕ} {rest : List Token} :
    (planSign nested i rest).carryOut run = readOperand nested (⟨.not, i⟩ :: rest) := by
  rcases rest with _ | ⟨next, more⟩
  · rw [readOperand_not_nil]
    rfl
  · rw [readOperand_not, planSign, Plan.carryOut_call_answer]
    congr 1
    split_ifs with hnarrow
    · have hoperand : (nested || decide (next.lexeme = .lparen)) = true := by
        simpa using hnarrow
      rw [hoperand, Bool.not_true, run]
    · have hall : (nested || decide (next.lexeme = .lparen)) = false := by
        simpa using hnarrow
      obtain rfl : nested = false := by simpa using (not_or.mp hnarrow).1
      rw [hall, Bool.not_false, run]

/-- **A reading does what its plan says.** -/
theorem carryOut_plan (r : Reading) : r.plan.carryOut run = r.run := by
  obtain ⟨whole, nested, ts⟩ := r
  cases whole with
  | true =>
    rw [run, readAll_eq, plan, Plan.carryOut, run]
    rcases readOperand nested ts with e | ⟨first, used⟩
    · rfl
    · exact carryOut_planRest
  | false =>
    rw [run]
    rcases ts with _ | ⟨⟨x, i⟩, rest⟩
    · rw [readOperand_nil]
      rfl
    · cases x with
      | atom a =>
        rw [readOperand_atom]
        rfl
      | connective c =>
        rw [readOperand_connective]
        rfl
      | rparen =>
        rw [readOperand_rparen]
        rfl
      | lparen => exact carryOut_planGroup
      | not => exact carryOut_planSign

/-- The reading `r` may call the reading `s`. -/
def Calls (r s : Reading) : Prop := r.plan.MayCall s

/-- The reading `s` is of a part of `ts` that is not empty and shorter than `ts`. -/
structure Inside (s : Reading) (ts : List Token) : Prop where
  part : s.tokens <:+: ts
  ne_nil : s.tokens ≠ []
  shorter : s.tokens.length < ts.length

theorem Inside.mono {us : List Token} (h : s.Inside us) (hus : us <:+: ts) : s.Inside ts where
  part := h.part.trans hus
  ne_nil := h.ne_nil
  shorter := Nat.lt_of_lt_of_le h.shorter hus.length_le

theorem inside_of_planRest {first : Formula} {used : ℕ}
    (h : (planRest nested first used ts).MayCall s) : s.Inside ts := by
  rcases ts with _ | ⟨⟨x, i⟩, rest⟩
  · exact absurd h Plan.not_mayCall_answer
  · cases x with
    | connective c =>
      rcases rest with _ | ⟨t, rest⟩
      · exact absurd h Plan.not_mayCall_answer
      · obtain rfl := Plan.mayCall_call_answer_iff.mp h
        exact ⟨List.infix_cons List.infix_rfl, by simp, by simp⟩
    | _ => exact absurd h Plan.not_mayCall_answer

theorem inside_of_planGroup {index : ℕ} {t : Token} {rest : List Token}
    (h : (planGroup index rest (findClose 0 rest)).MayCall s) : s.Inside (t :: rest) := by
  rcases hclose : findClose 0 rest with _ | _ | n
  · rw [hclose] at h
    exact absurd h Plan.not_mayCall_answer
  · rw [hclose] at h
    exact absurd h Plan.not_mayCall_answer
  · rw [hclose] at h
    obtain rfl := Plan.mayCall_call_answer_iff.mp h
    -- the group is closed in the range, after at least one token
    obtain ⟨before, j, after, rfl, hbefore⟩ := findClose_some hclose
    simp only [List.take_left' hbefore]
    refine ⟨List.infix_cons (List.prefix_append _ _).isInfix, ?_, ?_⟩
    · rintro rfl
      simp at hbefore
    · simp only [List.length_cons, List.length_append]
      omega

theorem inside_of_planSign {index : ℕ} {t : Token} {rest : List Token}
    (h : (planSign nested index rest).MayCall s) : s.Inside (t :: rest) := by
  rcases rest with _ | ⟨next, more⟩
  · exact absurd h Plan.not_mayCall_answer
  · obtain rfl := Plan.mayCall_call_answer_iff.mp h
    exact ⟨List.infix_cons List.infix_rfl, by simp, by simp⟩

/-- **What a reading calls** is inside its range, or it is the reading of the first operand of its
statement. -/
theorem Calls.inside_or_first (h : r.Calls s) :
    s.Inside r.tokens ∨ r.whole = true ∧ s = { r with whole := false } := by
  obtain ⟨whole, nested, ts⟩ := r
  cases whole with
  | true =>
    rcases Plan.mayCall_call_iff.mp h with rfl | ⟨first, h⟩
    · exact Or.inr ⟨rfl, rfl⟩
    · exact Or.inl ((inside_of_planRest h).mono (List.drop_suffix _ _).isInfix)
  | false =>
    left
    rcases ts with _ | ⟨⟨x, i⟩, rest⟩
    · exact absurd h Plan.not_mayCall_answer
    · cases x with
      | lparen => exact inside_of_planGroup h
      | not => exact inside_of_planSign h
      | _ => exact absurd h Plan.not_mayCall_answer

/-- The same for what is called on the way, by the reading or by what it calls. -/
theorem inside_or_first_of_transGen (h : Relation.TransGen Calls r s) :
    s.Inside r.tokens ∨ r.whole = true ∧ s = { r with whole := false } := by
  induction h with
  | single h => exact h.inside_or_first
  | @tail s t _ h ih =>
    rcases ih with hinside | ⟨-, rfl⟩
    · left
      rcases h.inside_or_first with hinside' | ⟨-, rfl⟩
      · exact hinside'.mono hinside.part
      · exact ⟨hinside.part, hinside.ne_nil, hinside.shorter⟩
    · -- the reading of an operand calls only what is inside
      rcases h.inside_or_first with hinside | ⟨hwhole, -⟩
      · exact Or.inl hinside
      · cases hwhole

/-- Bounds how deep calls can be nested. -/
def weight (r : Reading) : ℕ := 2 * r.tokens.length + r.whole.toNat

theorem Calls.weight_lt (h : r.Calls s) : s.weight < r.weight := by
  unfold weight
  rcases h.inside_or_first with hinside | ⟨hwhole, rfl⟩
  · have hshorter := hinside.shorter
    have hs := s.whole.toNat_le
    omega
  · rw [hwhole]
    simp

/-- **The plans determine the readings.** -/
theorem eq_run_iff {read : Reading → Except ParseError (Formula × ℕ)} :
    (∀ r, r.plan.carryOut read = read r) ↔ read = run := by
  constructor
  · intro hplan
    funext r
    induction hn : r.weight using Nat.strongRecOn generalizing r with
    | ind n ih =>
      subst hn
      rw [← hplan, ← carryOut_plan]
      exact Plan.carryOut_congr fun s hs => ih _ (Calls.weight_lt hs) s rfl
  · rintro rfl
    exact carryOut_plan

theorem Calls.ne_nil (h : r.Calls s) (hr : r.tokens ≠ []) : s.tokens ≠ [] := by
  rcases h.inside_or_first with hinside | ⟨-, rfl⟩
  · exact hinside.ne_nil
  · exact hr

/-- **Calls are not nested deeper** than the weight of the reading they start from. The bound falls
by one with each call, and a range that is not empty keeps it at two or more. -/
theorem length_chain {chain : List Reading} (hr : r.tokens ≠ [])
    (h : (r :: chain).IsChain Calls) : chain.length + 2 ≤ r.weight := by
  induction chain generalizing r with
  | nil =>
    have hpos := List.length_pos_iff.mpr hr
    unfold weight
    simp only [List.length_nil]
    omega
  | cons s chain ih =>
    obtain ⟨hcall, hchain⟩ := List.isChain_cons_cons.mp h
    have hlater := ih (hcall.ne_nil hr) hchain
    have hless := hcall.weight_lt
    rw [List.length_cons]
    omega

end Reading

/-! ### The account of a range -/

open ByPlaces

section Range

variable {tokens : List Token} {start stop n : ℕ} {whole nested : Bool} {f : Formula} {s : Reading}

theorem count_readAll (hstop : stop ≤ tokens.length)
    (h : readAll nested (between tokens start stop) = .ok (f, n)) : n = stop - start := by
  rw [(read_count _).2 nested f n h, length_between hstop]

theorem count_readOperand (hstop : stop ≤ tokens.length)
    (h : readOperand nested (between tokens start stop) = .ok (f, n)) :
    1 ≤ n ∧ n ≤ stop - start := by
  have hcount := (read_count _).1 nested f n h
  rwa [length_between hstop] at hcount

namespace Reading

/-- The reading `s` is of a range inside that from `start` to `stop` which has a token and is
shorter. -/
def OfShorterRange (s : Reading) (tokens : List Token) (start stop : ℕ) : Prop :=
  ∃ start' stop', s.tokens = between tokens start' stop' ∧ start ≤ start' ∧ start' < stop' ∧
    stop' ≤ stop ∧ stop' - start' < stop - start

theorem Inside.ofShorterRange (hstop : stop ≤ tokens.length)
    (h : s.Inside (between tokens start stop)) : s.OfShorterRange tokens start stop := by
  obtain ⟨start', stop', hs, hstart', hlt', hstop'⟩ := exists_between_of_infix hstop h.ne_nil h.part
  have hshorter := h.shorter
  rw [hs, length_between (Nat.le_trans hstop' hstop), length_between hstop] at hshorter
  exact ⟨start', stop', hs, hstart', hlt', hstop', hshorter⟩

/-- A call that is made while a reading of the same kind is under way is on a shorter range: a
statement is not its own first operand. -/
theorem ofShorterRange_of_recursive (hstop : stop ≤ tokens.length)
    (h : Relation.TransGen Calls ⟨s.whole, nested, between tokens start stop⟩ s) :
    s.OfShorterRange tokens start stop := by
  rcases inside_or_first_of_transGen h with hinside | ⟨hwhole, hs⟩
  · exact hinside.ofShorterRange hstop
  · have hoperand : s.whole = false := congrArg Reading.whole hs
    rw [show s.whole = true from hwhole] at hoperand
    cases hoperand

theorem length_chain_lt {chain : List Reading} (hlt : start < stop) (hstop : stop ≤ tokens.length)
    (h : (mk whole nested (between tokens start stop) :: chain).IsChain Calls) :
    chain.length < 2 * (stop - start) := by
  have hlength : (between tokens start stop).length = stop - start := length_between hstop
  have hne : between tokens start stop ≠ [] := by
    rw [← List.length_pos_iff, hlength]
    omega
  have hchain := length_chain hne h
  have hwhole := whole.toNat_le
  unfold weight at hchain
  simp only [hlength] at hchain
  omega

end Reading

end Range

/-- What holds of the readings of one range of a list of tokens. -/
structure Accounted (tokens : List Token) (start stop : ℕ) : Prop where
  /-- A statement takes all tokens of the range. -/
  statement : ∀ nested f n, readAll nested (between tokens start stop) = .ok (f, n) →
    n = stop - start
  /-- An operand takes a token at least, and no more than there are. -/
  operand : ∀ nested f n, readOperand nested (between tokens start stop) = .ok (f, n) →
    1 ≤ n ∧ n ≤ stop - start
  /-- Reading by places gives the same statements and counts, or the same refusals. -/
  agree : ∀ nested, Agree nested tokens start stop
  /-- The search for a closing parenthesis finds the first that is a partner. -/
  found : ∀ i, closingPlace tokens start stop = some i ↔
    IsLeast {k | Partner tokens start stop k} i
  /-- It fails exactly if there is none. -/
  missed : closingPlace tokens start stop = none ↔ ¬ ∃ i, Partner tokens start stop i
  /-- Looking by places finds the same. -/
  agree_close : closeFrom tokens stop 0 (start + 1) = .ok (closingPlace tokens start stop)
  /-- If it fails, the opening parenthesis is to blame. -/
  unclosed : ∀ nested j, tokens[start]? = some ⟨.lparen, j⟩ →
    closingPlace tokens start stop = none →
      readOperand nested (between tokens start stop) = .error (.unclosed j)
  /-- A call is on a shorter range, or it is that of the first operand of a statement. -/
  calls : ∀ whole nested s, Reading.Calls ⟨whole, nested, between tokens start stop⟩ s →
    s.OfShorterRange tokens start stop ∨
      whole = true ∧ s = ⟨false, nested, between tokens start stop⟩
  /-- A recursive call, made while a reading of the same kind is under way, is on a shorter
  range. -/
  recursive : ∀ nested s, Relation.TransGen Reading.Calls
      ⟨s.whole, nested, between tokens start stop⟩ s → s.OfShorterRange tokens start stop
  /-- The recursion ends: calls are nested less than twice as deep as there are tokens. -/
  depth : ∀ whole nested chain,
    (Reading.mk whole nested (between tokens start stop) :: chain).IsChain Reading.Calls →
      chain.length < 2 * (stop - start)

/-! ### The count in the journal -/

theorem parsed_mem_ofParse_iff {text : String} {n : ℕ} {f : Formula} :
    Event.parsed n f ∈ Journal.ofParse text ↔ parseCounted text = .ok (f, n) := by
  rw [Journal.ofParse, parseCounted]
  rcases (scan text).fault with _ | e
  · simp only
    rcases readAll false (scan text).tokens with e | ⟨g, m⟩
    · simp
    · simp [and_comm, eq_comm]
  · simp

theorem parseCounted_eq_ok_iff {text : String} {n : ℕ} {f : Formula} :
    parseCounted text = .ok (f, n) ↔
      Formula.parse text = .ok f ∧ n = (scan text).tokens.length := by
  rw [Formula.parse, map_eq_ok_iff]
  have hcount : ∀ g m, parseCounted text = .ok (g, m) → m = (scan text).tokens.length := by
    intro g m h
    unfold parseCounted at h
    rcases hfault : (scan text).fault with _ | e
    · simp only [hfault] at h
      exact (read_count _).2 false g m h
    · simp [hfault] at h
  constructor
  · intro h
    exact ⟨⟨_, h, rfl⟩, hcount f n h⟩
  · rintro ⟨⟨⟨g, m⟩, h, rfl⟩, rfl⟩
    rw [h, hcount g m h]

/-- **Tokens are accounted for.** At every range of a list of tokens that has a token, a statement
takes all of them and an operand one at least and no more than there are; the search for a closing
parenthesis finds the first one before which the parentheses match, and fails exactly if there is
none; recursive calls are on shorter ranges with a token, so that the recursion ends, with the
readings as the only ones that follow their plans. The journal notes a text as read exactly if it is
read, and the count it gives is the number of tokens of the text. -/
theorem tokens_accounted :
    (∀ (tokens : List Token) (start stop : ℕ), start < stop → stop ≤ tokens.length →
      Accounted tokens start stop) ∧
    (∀ read : Reading → Except ParseError (Formula × ℕ),
      (∀ r, r.plan.carryOut read = read r) ↔ read = Reading.run) ∧
    ∀ text n f, Event.parsed n f ∈ Journal.ofParse text ↔
      Formula.parse text = .ok f ∧ n = (scan text).tokens.length := by
  refine ⟨fun tokens start stop hlt hstop => ?_, fun read => Reading.eq_run_iff, fun text n f => ?_⟩
  · exact
      { statement := fun _ _ _ => count_readAll hstop
        operand := fun _ _ _ => count_readOperand hstop
        agree := fun nested => ByPlaces.agree nested hlt hstop
        found := fun _ => isLeast_partner_iff.symm
        missed := closingPlace_eq_none_iff
        agree_close := closeFrom_eq 0 (Nat.succ_le_of_lt hlt) hstop
        unclosed := fun nested _ hopen hnone => readOperand_unclosed hlt hstop hopen hnone nested
        calls := fun _ _ _ h =>
          h.inside_or_first.imp_left (Reading.Inside.ofShorterRange hstop)
        recursive := fun _ _ => Reading.ofShorterRange_of_recursive hstop
        depth := fun _ _ _ => Reading.length_chain_lt hlt hstop }
  · rw [parsed_mem_ofParse_iff, parseCounted_eq_ok_iff]

/-- In `(p ^ (q)) V ~r` the first group ends at the place 6 and holds five tokens, and in a range
that stops there it does not end; the reading of the whole calls that of `~r`, a shorter range. -/
theorem tokens_accounted_groups :
    IsLeast {k | Partner (scan "(p ^ (q)) V ~r").tokens 0 10 k} 6 ∧
      (¬ ∃ i, Partner (scan "(p ^ (q)) V ~r").tokens 0 6 i) ∧
      (∃ f n, readAll true (between (scan "(p ^ (q)) V ~r").tokens 1 6) = .ok (f, n) ∧ n = 6 - 1) ∧
      (∃ s : Reading, Relation.TransGen Reading.Calls
          ⟨s.whole, false, between (scan "(p ^ (q)) V ~r").tokens 0 10⟩ s ∧
        s.OfShorterRange (scan "(p ^ (q)) V ~r").tokens 0 10) ∧
      Event.parsed 10 (.binary .or (.binary .and (.atom .p) (.atom .q)) (.neg (.atom .r))) ∈
        Journal.ofParse "(p ^ (q)) V ~r" := by
  have hlength : (scan "(p ^ (q)) V ~r").tokens.length = 10 := by decide
  obtain ⟨hranges, -, hjournal⟩ := tokens_accounted
  have hall := hranges (scan "(p ^ (q)) V ~r").tokens 0 10 (by omega) (by omega)
  have hcut := hranges (scan "(p ^ (q)) V ~r").tokens 0 6 (by omega) (by omega)
  have hinside := hranges (scan "(p ^ (q)) V ~r").tokens 1 6 (by omega) (by omega)
  have hread : readAll true (between (scan "(p ^ (q)) V ~r").tokens 1 6) =
    .ok (.binary .and (.atom .p) (.atom .q), 5) := by decide +kernel
  have hcall : Reading.Calls ⟨true, false, between (scan "(p ^ (q)) V ~r").tokens 0 10⟩
      ⟨true, false, [⟨.not, 12⟩, ⟨.atom .r, 13⟩]⟩ := by
    refine @Plan.MayCall.later _ _ _ (.binary .and (.atom .p) (.atom .q), 7) ?_
    have hdrop : (between (scan "(p ^ (q)) V ~r").tokens 0 10).drop 7 =
      [⟨.connective .or, 10⟩, ⟨.not, 12⟩, ⟨.atom .r, 13⟩] := by decide
    rw [hdrop]
    exact Plan.MayCall.now
  refine ⟨(hall.found 6).mp (by decide), hcut.missed.mp (by decide),
    ⟨_, _, hread, hinside.statement _ _ _ hread⟩,
    ⟨⟨true, false, _⟩, .single hcall, hall.recursive false ⟨true, false, _⟩ (.single hcall)⟩,
    (hjournal _ _ _).mpr ⟨by decide +kernel, hlength.symm⟩⟩

end Deduction
