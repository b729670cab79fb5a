import Deduction.Proofs.Scanning

/-!
# Reading by places

A statement can also be read without cutting up the list of tokens: the reader then keeps the whole
list and the two places between which it reads. There more can go wrong than a refusal: a place may
have no token, a token that is taken for a connective may have no operator of its name, and what is
put together may be no statement. None of this happens (`parseByPlaces_eq`). The reason is the same
at every depth: the places between which is read always enclose at least one token of the list, and
the tokens between them are those that the reader of lists has before it (`ByPlaces.agree`).
-/

namespace Deduction

open Token Formula

/-! ### The reader -/

/-- What can go wrong in reading by places: a refusal, or a failure of the reader itself. -/
inductive ReadFailure where
  | refused (e : ParseError)
  /-- There is no token at a place. -/
  | noToken (place : ℕ)
  /-- No operator has the name of a kind of tokens. -/
  | noOperator (name : String)
  /-- The parts do not make up a statement. -/
  | noStatement (e : BuildError)
  deriving DecidableEq

/-- The name of a kind; kinds of operators are named as the operators are. -/
def Kind.name : Kind → String
  | atom => "ATOM"
  | operator o => o.name
  | lparen => "LPAREN"
  | rparen => "RPAREN"

/-- The names of the kinds that are connectives. -/
def connectiveNames : List String := Connective.all.map fun c => (Operator.binary c).name

namespace ByPlaces

def tokenAt (tokens : List Token) (place : ℕ) : Except ReadFailure Token :=
  match tokens[place]? with
  | some token => .ok token
  | none => .error (.noToken place)

def operatorNamed (name : String) : Except ReadFailure Operator :=
  match Operator.all.find? (·.name = name) with
  | some o => .ok o
  | none => .error (.noOperator name)

/-- The place of the parenthesis that closes a group, looked for from a place on. Inside the group,
`depth` more parentheses are open. -/
def closeFrom (tokens : List Token) (stop depth place : ℕ) : Except ReadFailure (Option ℕ) :=
  if place < stop then
    match tokenAt tokens place with
    | .error e => .error e
    | .ok token =>
      match token.lexeme.kind with
      | .lparen => closeFrom tokens stop (depth + 1) (place + 1)
      | .rparen =>
        match depth with
        | 0 => .ok (some place)
        | outer + 1 => closeFrom tokens stop outer (place + 1)
      | _ => closeFrom tokens stop depth (place + 1)
  else .ok none
termination_by stop - place

theorem closeFrom_bounds {tokens : List Token} {stop depth place close : ℕ}
    (h : closeFrom tokens stop depth place = .ok (some close)) : place ≤ close ∧ close < stop := by
  fun_induction closeFrom tokens stop depth place with
  | case1 => cases h
  | case2 depth place hlt token htoken hkind ih =>
    have := ih h
    omega
  | case3 =>
    cases h
    omega
  | case4 place hlt token htoken hkind outer ih =>
    have := ih h
    omega
  | case5 depth place hlt token htoken hopen hclose ih =>
    have := ih h
    omega
  | case6 => cases h

mutual

/-- Reads all tokens between two places as one statement. -/
def statementIn (nested : Bool) (tokens : List Token) (start stop : ℕ) :
    Except ReadFailure (Formula × ℕ) := do
  let (first, used) ← operandIn nested tokens start stop
  let place := start + used
  if place = stop then return (first, used)
  let token ← tokenAt tokens place
  if _h : token.lexeme.kind.name ∉ connectiveNames ∨ stop ≤ place + 1 then
    throw (.refused (.missingOperator token.index))
  else
    let o ← operatorNamed token.lexeme.kind.name
    let (second, more) ← statementIn nested tokens (place + 1) stop
    let f ← (Formula.join o first second).mapError .noStatement
    return (f, used + 1 + more)
termination_by 2 * (stop - start) + 1
decreasing_by
  all_goals omega

/-- Reads the operand at the first of two places. -/
def operandIn (nested : Bool) (tokens : List Token) (start stop : ℕ) :
    Except ReadFailure (Formula × ℕ) := do
  let token ← tokenAt tokens start
  match token.lexeme.kind with
  | .atom =>
    let f ← (Formula.ofVariable token.lexeme.text).mapError .noStatement
    return (f, 1)
  | .lparen =>
    match _h : closeFrom tokens stop 0 (start + 1) with
    | .error e => throw e
    | .ok none => throw (.refused (.unclosed token.index))
    | .ok (some close) =>
      if close = start + 1 then throw (.refused (.emptyGroup token.index))
      let (inner, _) ← statementIn true tokens (start + 1) close
      return (inner, close + 1 - start)
  | .operator .not =>
    if _h : stop ≤ start + 1 then throw (.refused (.missingOperand token.index))
    else
      let narrow ← if nested then pure true else do
        let next ← tokenAt tokens (start + 1)
        pure (next.lexeme.kind = .lparen)
      let (operand, used) ←
        if narrow then operandIn nested tokens (start + 1) stop
        else statementIn false tokens (start + 1) stop
      return (neg operand, used + 1)
  | _ => throw (.refused (.unexpected token))
termination_by 2 * (stop - start)
decreasing_by
  · have := closeFrom_bounds _h
    omega
  · omega
  · omega

end

/-! ### Tokens between two places -/

/-- The tokens from the place `start` on and before the place `stop`. -/
def between (tokens : List Token) (start stop : ℕ) : List Token := (tokens.take stop).drop start

variable {nested : Bool} {tokens : List Token} {start stop place i k : ℕ}

theorem between_eq_nil (h : stop ≤ start) : between tokens start stop = [] := by
  rw [between, List.drop_eq_nil_iff, List.length_take]
  omega

theorem length_between (hstop : stop ≤ tokens.length) :
    (between tokens start stop).length = stop - start := by
  rw [between, List.length_drop, List.length_take]
  omega

theorem drop_between (k : ℕ) :
    (between tokens start stop).drop k = between tokens (start + k) stop := by
  rw [between, between, List.drop_drop]

theorem take_between (tokens : List Token) (h : start + k ≤ stop) :
    (between tokens start stop).take k = between tokens start (start + k) := by
  rw [between, between, List.take_drop, List.take_take, Nat.min_eq_left h]

/-- **Every place between has its token.** -/
theorem exists_between_cons (h : start < stop) (hstop : stop ≤ tokens.length) :
    ∃ token, tokenAt tokens start = .ok token ∧
      between tokens start stop = token :: between tokens (start + 1) stop := by
  have hlt : start < tokens.length := by omega
  refine ⟨tokens[start], ?_, ?_⟩
  · rw [tokenAt, List.getElem?_eq_getElem hlt]
  · have hlt' : start < (tokens.take stop).length := by
      rw [List.length_take]
      omega
    rw [between, List.drop_eq_getElem_cons hlt', List.getElem_take]
    rfl

/-! ### The two readers agree -/

/-- **Looking for the closing parenthesis** never leaves the list. -/
theorem closeFrom_eq (depth : ℕ) (hplace : place ≤ stop) (hstop : stop ≤ tokens.length) :
    closeFrom tokens stop depth place =
      .ok ((findClose depth (between tokens place stop)).map (place + ·)) := by
  induction hn : stop - place generalizing depth place with
  | zero =>
    rw [closeFrom.eq_def, if_neg (by omega), between_eq_nil (by omega)]
    rfl
  | succ n ih =>
    have hlater : ∀ depth, closeFrom tokens stop depth (place + 1) =
        .ok (((findClose depth (between tokens (place + 1) stop)).map (· + 1)).map
          (place + ·)) := by
      intro depth
      rw [ih depth (by omega) (by omega), Option.map_map]
      congr 2
      ext m
      simp only [Function.comp_apply]
      omega
    obtain ⟨⟨x, i⟩, htoken, hbetween⟩ := exists_between_cons (show place < stop by omega) hstop
    rw [closeFrom.eq_def, if_pos (by omega), htoken, hbetween]
    cases x with
    | lparen => exact hlater (depth + 1)
    | rparen =>
      cases depth with
      | zero => rfl
      | succ outer => exact hlater outer
    | atom a => exact hlater depth
    | connective c => exact hlater depth
    | not => exact hlater depth

/-- Between the two places both readers do the same, and no place, operator or statement is
missing. -/
structure Agree (nested : Bool) (tokens : List Token) (start stop : ℕ) : Prop where
  operand : operandIn nested tokens start stop =
    (readOperand nested (between tokens start stop)).mapError .refused
  statement : statementIn nested tokens start stop =
    (readAll nested (between tokens start stop)).mapError .refused

/-- The readers agree on all shorter ranges. -/
def AgreeBelow (tokens : List Token) (start stop : ℕ) : Prop :=
  ∀ start' stop', stop' - start' < stop - start → start' < stop' → stop' ≤ tokens.length →
    ∀ nested, Agree nested tokens start' stop'

theorem ofVariable_text (a : Atom) : Formula.ofVariable (Lexeme.atom a).text = .ok (.atom a) := by
  cases a <;> decide

theorem operatorNamed_name (c : Connective) :
    operatorNamed (Lexeme.connective c).kind.name = .ok (.binary c) := by
  cases c <;> decide

theorem kind_eq_lparen {x : Lexeme} : x.kind = .lparen ↔ x = .lparen := by
  cases x <;> simp [Lexeme.kind]

theorem name_mem_connectiveNames {x : Lexeme} :
    x.kind.name ∈ connectiveNames ↔ ∃ c, x = .connective c := by
  cases x with
  | connective c => exact iff_of_true (by cases c <;> decide) ⟨c, rfl⟩
  | atom a => exact iff_of_false (show "ATOM" ∉ connectiveNames by decide) (by simp)
  | not => exact iff_of_false (show "NOT" ∉ connectiveNames by decide) (by simp)
  | lparen => exact iff_of_false (show "LPAREN" ∉ connectiveNames by decide) (by simp)
  | rparen => exact iff_of_false (show "RPAREN" ∉ connectiveNames by decide) (by simp)

/-- A group: the parenthesis that closes it is found in the range, so what it holds is a shorter
range. -/
theorem operandIn_group (hlt : start < stop) (hstop : stop ≤ tokens.length)
    (hbelow : AgreeBelow tokens start stop) (htoken : tokenAt tokens start = .ok ⟨.lparen, i⟩) :
    operandIn nested tokens start stop =
      (readOperand nested (⟨.lparen, i⟩ :: between tokens (start + 1) stop)).mapError .refused := by
  have hclose := closeFrom_eq 0 (Nat.succ_le_of_lt hlt) hstop
  rw [operandIn, htoken, readOperand_lparen]
  simp only [bind, Except.bind, Lexeme.kind]
  split
  · next e he =>
    rw [hclose] at he
    cases he
  · next he =>
    rw [hclose, Except.ok.injEq, Option.map_eq_none_iff] at he
    rw [he]
    rfl
  · next close he =>
    obtain ⟨-, hlt'⟩ := closeFrom_bounds he
    rw [hclose, Except.ok.injEq, Option.map_eq_some_iff] at he
    obtain ⟨n, hn, rfl⟩ := he
    rw [hn]
    rcases n with _ | n
    · rw [if_pos rfl]
      rfl
    · have hinside := (hbelow (start + 1) (start + 1 + (n + 1)) (by omega) (by omega) (by omega)
        true).statement
      have htake := take_between tokens (Nat.le_of_lt hlt')
      simp only
      rw [if_neg (by omega), hinside, htake, show start.succ + (n + 1) + 1 - start = n + 3 by omega]
      rcases readAll true (between tokens (start + 1) (start + 1 + (n + 1))) with e | r <;> rfl

/-- A sign: what it takes is a shorter range, as an operand or as a whole. -/
theorem operandIn_sign (hstop : stop ≤ tokens.length) (hbelow : AgreeBelow tokens start stop)
    (htoken : tokenAt tokens start = .ok ⟨.not, i⟩) :
    operandIn nested tokens start stop =
      (readOperand nested (⟨.not, i⟩ :: between tokens (start + 1) stop)).mapError .refused := by
  rw [operandIn, htoken]
  by_cases hlast : stop ≤ start + 1
  · rw [between_eq_nil hlast, readOperand_not_nil]
    exact dif_pos hlast
  obtain ⟨next, hnext, hmore⟩ := exists_between_cons (show start + 1 < stop by omega) hstop
  have hafter := hbelow (start + 1) stop (by omega) (by omega) hstop
  rw [hmore, readOperand_not, ← hmore]
  refine (dif_neg hlast).trans ?_
  rw [hnext, (hafter nested).operand, (hafter false).statement]
  cases nested with
  | true =>
    rw [if_pos (Or.inl rfl)]
    rcases readOperand true (between tokens (start + 1) stop) with e | r <;> rfl
  | false =>
    simp only [bind, Except.bind, pure, Except.pure, kind_eq_lparen, Bool.false_eq_true, if_false,
      false_or]
    by_cases hnarrow : next.lexeme = .lparen
    · simp only [hnarrow]
      rcases readOperand false (between tokens (start + 1) stop) with e | r <;> rfl
    · simp only [hnarrow]
      rcases readAll false (between tokens (start + 1) stop) with e | r <;> rfl

theorem operandIn_eq (nested : Bool) (hlt : start < stop) (hstop : stop ≤ tokens.length)
    (hbelow : AgreeBelow tokens start stop) :
    operandIn nested tokens start stop =
      (readOperand nested (between tokens start stop)).mapError .refused := by
  obtain ⟨⟨x, i⟩, htoken, hbetween⟩ := exists_between_cons hlt hstop
  rw [hbetween]
  cases x with
  | atom a =>
    rw [operandIn, htoken, readOperand_atom]
    simp only [bind, Except.bind, Lexeme.kind, ofVariable_text]
    rfl
  | connective c =>
    rw [operandIn, htoken, readOperand_connective]
    rfl
  | rparen =>
    rw [operandIn, htoken, readOperand_rparen]
    rfl
  | lparen => exact operandIn_group hlt hstop hbelow htoken
  | not => exact operandIn_sign hstop hbelow htoken

theorem statementIn_eq (hstop : stop ≤ tokens.length) (hbelow : AgreeBelow tokens start stop)
    (hoperand : operandIn nested tokens start stop =
      (readOperand nested (between tokens start stop)).mapError .refused) :
    statementIn nested tokens start stop =
      (readAll nested (between tokens start stop)).mapError .refused := by
  rw [statementIn, hoperand, readAll_eq]
  rcases hread : readOperand nested (between tokens start stop) with e | ⟨first, used⟩
  · rfl
  -- the operand takes at least one token and no more than there are between the two places
  obtain ⟨hone, hused⟩ := (read_count _).1 _ _ _ hread
  rw [length_between hstop] at hused
  simp only [Except.mapError, bind, Except.bind, drop_between]
  by_cases hend : start + used = stop
  · rw [if_pos hend, between_eq_nil (by omega)]
    rfl
  obtain ⟨⟨x, i⟩, htoken, hbetween⟩ := exists_between_cons (show start + used < stop by omega) hstop
  rw [if_neg hend, htoken, hbetween]
  by_cases hx : x.kind.name ∈ connectiveNames
  · obtain ⟨c, rfl⟩ := name_mem_connectiveNames.mp hx
    by_cases hlast : stop ≤ start + used + 1
    · rw [between_eq_nil hlast]
      exact dif_pos (Or.inr hlast)
    · obtain ⟨next, -, hmore⟩ := exists_between_cons (show start + used + 1 < stop by omega) hstop
      have hafter := (hbelow (start + used + 1) stop (by omega) (by omega) hstop nested).statement
      refine (dif_neg (not_or.mpr ⟨not_not.mpr hx, hlast⟩)).trans ?_
      rw [hafter, operatorNamed_name, hmore]
      simp only
      rcases readAll nested (next :: between tokens (start + used + 1 + 1) stop) with e | r <;> rfl
  · refine (dif_pos (Or.inl hx)).trans ?_
    cases x with
    | connective c => exact absurd (name_mem_connectiveNames.mpr ⟨c, rfl⟩) hx
    | _ => rfl

/-- **The two readers agree** on every range of the list that has a token. -/
theorem agree (nested : Bool) (hlt : start < stop) (hstop : stop ≤ tokens.length) :
    Agree nested tokens start stop := by
  induction hn : stop - start using Nat.strongRecOn generalizing nested start stop with
  | ind n ih =>
    subst hn
    have hbelow : AgreeBelow tokens start stop :=
      fun _ _ hless hlt' hstop' nested' => ih _ hless nested' hlt' hstop' rfl
    have hoperand := operandIn_eq nested hlt hstop hbelow
    exact ⟨hoperand, statementIn_eq hstop hbelow hoperand⟩

end ByPlaces

/-- Reads a text as a statement by the places of its tokens. -/
def parseByPlaces (text : String) : Except ReadFailure Formula :=
  match (scan text).fault with
  | some e => .error (.refused (.illegal e))
  | none =>
    if (scan text).tokens = [] then .error (.refused .empty)
    else (ByPlaces.statementIn false (scan text).tokens 0 (scan text).tokens.length).map (·.1)

/-- **Reading by places** is reading, and nothing can go wrong in it but a refusal. -/
theorem parseByPlaces_eq (text : String) :
    parseByPlaces text = (Formula.parse text).mapError .refused := by
  rw [parseByPlaces, Formula.parse, parseCounted]
  rcases (scan text).fault with _ | e
  · simp only
    split_ifs with hnil
    · rw [hnil, readAll_eq, readOperand_nil]
      rfl
    · have hagree :=
        (ByPlaces.agree false (List.length_pos_iff.mpr hnil) (Nat.le_refl _)).statement
      rw [hagree, ByPlaces.between, List.take_length, List.drop_zero]
      rcases readAll false (scan text).tokens with e | r <;> rfl
  · rfl

end Deduction
