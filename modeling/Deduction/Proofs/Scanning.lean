import Deduction.Proofs.Parentheses

/-!
# Scanning finds the tokens of a text and no others

A text is marked when pieces of it, in order and without overlap, are tokens and all other
characters are skipped ones (`Marks`). This is said by positions in the text and knows nothing of
how the text is scanned. Scanning finds such pieces whenever there are any, and then there are no
others (`marks_iff_scan`). When there are none it stops at the first position where it is stuck:
what is before is marked, and neither a lexeme nor a skipped character starts there
(`fault_scanFrom_eq_some_iff`).

At any position exactly one of four things happens, and each of them is one step of the scan; the
proofs follow these steps (`scan_induction`).
-/

namespace Deduction

open Token

/-! ### Kinds and pieces -/

/-- The kinds of tokens. -/
inductive Kind where
  | atom
  | operator (o : Operator)
  | lparen
  | rparen
  deriving DecidableEq

/-- The texts that are tokens of a kind. -/
def Kind.spellings : Kind → List (List Char)
  | atom => [['p'], ['q'], ['r'], ['s'], ['t']]
  | operator (.binary .iff) => [['<', '-', '>']]
  | operator (.binary .implies) => [['-', '>']]
  | operator (.binary .or) => [['V']]
  | operator (.binary .and) => [['^']]
  | operator .not => [['~']]
  | lparen => [['(']]
  | rparen => [[')']]

/-- The characters that may stand between tokens: space, tab, carriage return and line feed. -/
def blanksBetween : List Char := [' ', '\t', '\r', '\n']

def Lexeme.kind : Lexeme → Kind
  | atom _ => .atom
  | connective c => .operator (.binary c)
  | not => .operator .not
  | lparen => .lparen
  | rparen => .rparen

/-- A piece of a text that is taken for a token: its kind, its characters and where it begins. -/
structure Piece where
  kind : Kind
  value : List Char
  index : ℕ
  deriving DecidableEq

/-- The position is one of the piece. -/
def Piece.Covers (p : Piece) (position : ℕ) : Prop :=
  p.index ≤ position ∧ position < p.index + p.value.length

/-- A token as a piece of its text. -/
def Token.piece (t : Token) : Piece := ⟨t.lexeme.kind, t.lexeme.chars, t.index⟩

theorem Lexeme.chars_ne_nil (x : Lexeme) : x.chars ≠ [] := by
  cases x with
  | connective c => cases c <;> simp [chars, Connective.chars]
  | _ => simp [chars]

theorem Lexeme.chars_mem_spellings (x : Lexeme) : x.chars ∈ x.kind.spellings := by
  cases x with
  | atom a => cases a <;> decide
  | connective c => cases c <;> decide
  | _ => exact List.mem_singleton_self _

theorem Kind.exists_lexeme {kind : Kind} {value : List Char} (h : value ∈ kind.spellings) :
    ∃ x : Lexeme, x.kind = kind ∧ x.chars = value := by
  cases kind with
  | atom =>
    have hatoms : Kind.atom.spellings = Atom.all.map fun a => [a.char] := rfl
    rw [hatoms] at h
    obtain ⟨a, -, rfl⟩ := List.mem_map.mp h
    exact ⟨.atom a, rfl, rfl⟩
  | operator o =>
    have ho : (Kind.operator o).spellings = [o.chars] := by
      rcases o with c | _
      · cases c <;> rfl
      · rfl
    rw [ho] at h
    rw [List.mem_singleton.mp h]
    cases o with
    | binary c => exact ⟨.connective c, rfl, rfl⟩
    | not => exact ⟨.not, rfl, rfl⟩
  | lparen => exact ⟨.lparen, rfl, (List.mem_singleton.mp h).symm⟩
  | rparen => exact ⟨.rparen, rfl, (List.mem_singleton.mp h).symm⟩

theorem isSkipped_iff {c : Char} : isSkipped c = true ↔ c ∈ blanksBetween := by
  simp [isSkipped, blanksBetween, or_assoc]

/-! ### Steps of the scan -/

variable {cs ds text : List Char} {c : Char} {i j : ℕ} {p : Piece} {ps : List Piece}

/-- Neither a skipped character nor a token starts here. -/
structure Stuck (cs : List Char) : Prop where
  notBlank : ∀ c ∈ cs.head?, c ∉ blanksBetween
  noToken : ∀ kind : Kind, ∀ value ∈ kind.spellings, ¬ value <+: cs

theorem Stuck.not_prefix (h : Stuck cs) (x : Lexeme) : ¬ x.chars <+: cs :=
  h.noToken x.kind x.chars x.chars_mem_spellings

theorem scanFrom_stuck (h : Stuck (c :: cs)) (i : ℕ) :
    scanFrom i (c :: cs) = ⟨[], some ⟨c, i⟩⟩ := by
  rw [scanFrom.eq_def]
  split
  · next heq => cases heq
  · next rest heq =>
    refine absurd ?_ (h.not_prefix (.connective .iff))
    rw [heq]
    exact ⟨rest, rfl⟩
  · next rest heq =>
    refine absurd ?_ (h.not_prefix (.connective .implies))
    rw [heq]
    exact ⟨rest, rfl⟩
  · next d rest _ _ heq =>
    obtain ⟨rfl, rfl⟩ := List.cons_eq_cons.mp heq
    rw [if_neg fun hskip => h.notBlank c rfl (isSkipped_iff.mp hskip)]
    split
    · next x hx =>
      refine absurd ?_ (h.not_prefix x)
      rw [Lexeme.chars_of_ofChar? hx]
      exact ⟨cs, rfl⟩
    · rfl

/-- **Induction along the scan**: nothing is left, a character is skipped, a token is found, or
the scan is stuck. -/
theorem scan_induction {P : ℕ → List Char → Prop} (nil : ∀ i, P i [])
    (skip : ∀ i c cs, isSkipped c = true → P (i + 1) cs → P i (c :: cs))
    (token : ∀ i (x : Lexeme) cs, P (i + x.chars.length) cs → P i (x.chars ++ cs))
    (stuck : ∀ i c cs, Stuck (c :: cs) → P i (c :: cs)) (i : ℕ) (cs : List Char) : P i cs := by
  induction hn : cs.length using Nat.strongRecOn generalizing i cs with
  | ind n ih =>
    subst hn
    rcases cs with _ | ⟨c, cs⟩
    · exact nil i
    by_cases hskip : isSkipped c = true
    · exact skip i c cs hskip (ih _ (by simp) _ _ rfl)
    by_cases htoken : ∃ x : Lexeme, x.chars <+: c :: cs
    · obtain ⟨x, rest, hx⟩ := htoken
      have hpos := List.length_pos_iff.mpr x.chars_ne_nil
      have hlen := congrArg List.length hx
      rw [List.length_append] at hlen
      rw [← hx]
      exact token i x rest (ih _ (by omega) _ _ rfl)
    · refine stuck i c cs ⟨?_, ?_⟩
      · intro d hd
        obtain rfl : c = d := Option.some.inj hd
        exact fun hblank => hskip (isSkipped_iff.mpr hblank)
      · intro kind value hvalue hprefixed
        obtain ⟨x, -, rfl⟩ := Kind.exists_lexeme hvalue
        exact htoken ⟨x, hprefixed⟩

/-- A scan without a fault goes on with what follows the text. -/
theorem scanFrom_append (h : (scanFrom i cs).fault = none) (ds : List Char) :
    scanFrom i (cs ++ ds) =
      ⟨(scanFrom i cs).tokens ++ (scanFrom (i + cs.length) ds).tokens,
        (scanFrom (i + cs.length) ds).fault⟩ := by
  revert h
  refine scan_induction
    (P := fun i cs => (scanFrom i cs).fault = none → scanFrom i (cs ++ ds) =
      ⟨(scanFrom i cs).tokens ++ (scanFrom (i + cs.length) ds).tokens,
        (scanFrom (i + cs.length) ds).fault⟩) ?_ ?_ ?_ ?_ i cs
  · intro i _
    rfl
  · intro i c cs hskip ih h
    rw [scanFrom_skipped hskip] at h ⊢
    rw [List.cons_append, scanFrom_skipped hskip, ih h, List.length_cons,
      show i + 1 + cs.length = i + (cs.length + 1) by omega]
  · intro i x cs ih h
    rw [scanFrom_lexeme] at h ⊢
    rw [List.append_assoc, scanFrom_lexeme, ih h, List.length_append, Nat.add_assoc]
    rfl
  · intro i c cs hstuck h
    rw [scanFrom_stuck hstuck] at h
    cases h

/-- **Where a scan stops**: what is before is scanned without a fault, and then it is stuck. -/
theorem fault_scanFrom_eq_some_iff :
    (scanFrom i cs).fault = some ⟨c, j⟩ ↔
      ∃ before after, cs = before ++ c :: after ∧ j = i + before.length ∧
        (scanFrom i before).fault = none ∧ Stuck (c :: after) := by
  constructor
  · refine scan_induction (P := fun i cs => (scanFrom i cs).fault = some ⟨c, j⟩ →
      ∃ before after, cs = before ++ c :: after ∧ j = i + before.length ∧
        (scanFrom i before).fault = none ∧ Stuck (c :: after)) ?_ ?_ ?_ ?_ i cs
    · intro i h
      cases h
    · intro i d cs hskip ih h
      rw [scanFrom_skipped hskip] at h
      obtain ⟨before, after, rfl, rfl, hbefore, hstuck⟩ := ih h
      refine ⟨d :: before, after, rfl, by rw [List.length_cons]; omega, ?_, hstuck⟩
      rw [scanFrom_skipped hskip, hbefore]
    · intro i x cs ih h
      rw [scanFrom_lexeme] at h
      obtain ⟨before, after, rfl, rfl, hbefore, hstuck⟩ := ih h
      refine ⟨x.chars ++ before, after, (List.append_assoc ..).symm, ?_, ?_, hstuck⟩
      · rw [List.length_append]
        omega
      · rw [scanFrom_lexeme, hbefore]
    · intro i d cs hstuck h
      rw [scanFrom_stuck hstuck] at h
      cases h
      exact ⟨[], cs, rfl, rfl, rfl, hstuck⟩
  · rintro ⟨before, after, rfl, rfl, hbefore, hstuck⟩
    rw [scanFrom_append hbefore, scanFrom_stuck hstuck]

/-! ### Marked texts -/

/-- The pieces mark the text from the position `start` on: they stand in order and do not overlap,
each has the characters that stand there in the text and that its kind allows, and every character
that none of them covers is a skipped one. -/
structure Marks (text : List Char) (start : ℕ) (ps : List Piece) : Prop where
  ordered : ps.Pairwise fun p q => p.index < q.index ∧ p.index + p.value.length ≤ q.index
  later : ∀ p ∈ ps, start ≤ p.index
  spelled : ∀ p ∈ ps, p.value ∈ p.kind.spellings
  placed : ∀ p ∈ ps, p.value <+: text.drop p.index
  skipped : ∀ k c, start ≤ k → text[k]? = some c → (∀ p ∈ ps, ¬ p.Covers k) → c ∈ blanksBetween

theorem Marks.nil (h : text.length ≤ i) : Marks text i [] where
  ordered := List.Pairwise.nil
  later := by simp
  spelled := by simp
  placed := by simp
  skipped k c hk hc := by
    rw [List.getElem?_eq_none (by omega)] at hc
    cases hc

theorem Marks.skip (h : Marks text (i + 1) ps) (hc : text[i]? = some c)
    (hskip : isSkipped c = true) : Marks text i ps where
  ordered := h.ordered
  later p hp := by
    have := h.later p hp
    omega
  spelled := h.spelled
  placed := h.placed
  skipped k d hk hd hnone := by
    rcases Nat.eq_or_lt_of_le hk with rfl | hk
    · rw [hc] at hd
      cases hd
      exact isSkipped_iff.mp hskip
    · exact h.skipped k d hk hd hnone

theorem Marks.token {x : Lexeme} (h : Marks text (i + x.chars.length) ps)
    (hx : x.chars <+: text.drop i) : Marks text i (Token.piece ⟨x, i⟩ :: ps) where
  ordered := by
    refine List.pairwise_cons.mpr ⟨fun q hq => ?_, h.ordered⟩
    have hlater := h.later q hq
    have hpos := List.length_pos_iff.mpr x.chars_ne_nil
    exact ⟨show i < q.index by omega, hlater⟩
  later := by
    refine List.forall_mem_cons.mpr ⟨Nat.le_refl i, fun q hq => ?_⟩
    have := h.later q hq
    omega
  spelled := List.forall_mem_cons.mpr ⟨x.chars_mem_spellings, h.spelled⟩
  placed := List.forall_mem_cons.mpr ⟨hx, h.placed⟩
  skipped k c hk hc hnone := by
    obtain ⟨hfirst, hnone⟩ := List.forall_mem_cons.mp hnone
    refine h.skipped k c ?_ hc hnone
    by_contra hlt
    exact hfirst ⟨hk, Nat.not_le.mp hlt⟩

theorem Marks.index_lt (h : Marks text i ps) (hp : p ∈ ps) : p.index < text.length := by
  obtain ⟨x, -, hx⟩ := Kind.exists_lexeme (h.spelled p hp)
  have hpos := List.length_pos_iff.mpr x.chars_ne_nil
  have hle := (h.placed p hp).length_le
  rw [List.length_drop, ← hx] at hle
  omega

/-- Where no piece begins, a character is skipped. -/
theorem Marks.of_skip (h : Marks text i ps) (hc : text[i]? = some c)
    (hlate : ∀ p ∈ ps, i < p.index) :
    isSkipped c = true ∧ Marks text (i + 1) ps := by
  refine ⟨isSkipped_iff.mpr (h.skipped i c (Nat.le_refl i) hc fun p hp hcovers => ?_),
    ⟨h.ordered, hlate, h.spelled, h.placed, fun k d hk => h.skipped k d (by omega)⟩⟩
  have := hlate p hp
  have := hcovers.1
  omega

/-- Where a piece begins, the marks go on after it. -/
theorem Marks.of_token (h : Marks text p.index (p :: ps)) :
    Marks text (p.index + p.value.length) ps := by
  obtain ⟨hfirst, hordered⟩ := List.pairwise_cons.mp h.ordered
  refine ⟨hordered, fun q hq => (hfirst q hq).2,
    fun q hq => h.spelled q (List.mem_cons_of_mem p hq),
    fun q hq => h.placed q (List.mem_cons_of_mem p hq), fun k c hk hc hnone => ?_⟩
  refine h.skipped k c (by omega) hc (List.forall_mem_cons.mpr ⟨fun hcovers => ?_, hnone⟩)
  have := hcovers.2
  omega

/-! ### Scanning marks -/

theorem marks_scanFrom (hfault : (scanFrom i cs).fault = none) (hcs : text.drop i = cs) :
    Marks text i ((scanFrom i cs).tokens.map piece) := by
  revert hfault hcs
  refine scan_induction (P := fun i cs => (scanFrom i cs).fault = none → text.drop i = cs →
    Marks text i ((scanFrom i cs).tokens.map piece)) ?_ ?_ ?_ ?_ i cs
  · intro i _ hcs
    exact Marks.nil (List.drop_eq_nil_iff.mp hcs)
  · intro i c cs hskip ih hfault hcs
    have hc : text[i]? = some c := by rw [← List.head?_drop, hcs]; rfl
    have hrest : text.drop (i + 1) = cs := by rw [← List.tail_drop, hcs]; rfl
    rw [scanFrom_skipped hskip] at hfault ⊢
    exact (ih hfault hrest).skip hc hskip
  · intro i x cs ih hfault hcs
    have hrest : text.drop (i + x.chars.length) = cs := by
      rw [← List.drop_drop, hcs, List.drop_left]
    rw [scanFrom_lexeme] at hfault ⊢
    exact (ih hfault hrest).token ⟨cs, hcs.symm⟩
  · intro i c cs hstuck hfault
    rw [scanFrom_stuck hstuck] at hfault
    cases hfault

/-- What is marked is scanned. -/
theorem Marks.scanFrom_drop (h : Marks text i ps) :
    (scanFrom i (text.drop i)).fault = none ∧
      (scanFrom i (text.drop i)).tokens.map piece = ps := by
  induction hn : text.length - i using Nat.strongRecOn generalizing i ps with
  | ind n ih =>
    subst hn
    rcases hcs : text.drop i with _ | ⟨c, cs⟩
    · -- at the end of the text no piece is left
      have hend := List.drop_eq_nil_iff.mp hcs
      rcases ps with _ | ⟨p, ps⟩
      · exact ⟨rfl, rfl⟩
      · have hlt := h.index_lt (List.mem_cons_self (a := p))
        have hle := h.later p List.mem_cons_self
        omega
    have hc : text[i]? = some c := by rw [← List.head?_drop, hcs]; rfl
    have hrest : text.drop (i + 1) = cs := by rw [← List.tail_drop, hcs]; rfl
    obtain ⟨hlt, -⟩ := List.getElem?_eq_some_iff.mp hc
    by_cases hlate : ∀ p ∈ ps, i < p.index
    · obtain ⟨hskip, hmarks⟩ := h.of_skip hc hlate
      have hscan := ih _ (by omega) hmarks rfl
      rw [hrest] at hscan
      rwa [scanFrom_skipped hskip]
    · -- some piece begins here, and since they stand in order it is the first
      rcases ps with _ | ⟨p, ps⟩
      · exact absurd (by simp) hlate
      have hfirst : p.index = i := by
        refine Nat.le_antisymm (Nat.not_lt.mp fun hp => hlate ?_) (h.later p List.mem_cons_self)
        refine List.forall_mem_cons.mpr ⟨hp, fun q hq => ?_⟩
        have := ((List.pairwise_cons.mp h.ordered).1 q hq).1
        omega
      subst hfirst
      obtain ⟨x, hkind, hchars⟩ := Kind.exists_lexeme (h.spelled p List.mem_cons_self)
      obtain ⟨rest, hx⟩ := h.placed p List.mem_cons_self
      have hpos := List.length_pos_iff.mpr x.chars_ne_nil
      have hdrop : text.drop (p.index + p.value.length) = rest := by
        rw [← List.drop_drop, ← hx, List.drop_left]
      rw [hchars] at hpos
      have hscan := ih _ (by omega) h.of_token rfl
      rw [hdrop] at hscan
      rw [← hcs, ← hx, ← hchars, scanFrom_lexeme, hchars]
      refine ⟨hscan.1, ?_⟩
      rw [List.map_cons, hscan.2, Token.piece, hkind, hchars]

/-- **Marking a text is scanning it.** -/
theorem marks_iff_scan :
    Marks text 0 ps ↔ (scanFrom 0 text).fault = none ∧ (scanFrom 0 text).tokens.map piece = ps := by
  constructor
  · exact fun h => h.scanFrom_drop
  · rintro ⟨hfault, rfl⟩
    exact marks_scanFrom hfault rfl

/-- **Scanning is exact.** The tokens of a text that is scanned without a fault mark it, and nothing
else marks it. A scan has a fault exactly if nothing marks the text. Then the tokens found so far
mark the text before the position of the fault, the character reported is the one that stands there,
and neither a token nor a skipped character starts there. -/
theorem scan_exact (text : String) :
    (∀ ps, Marks text.toList 0 ps ↔
      (scan text).fault = none ∧ (scan text).tokens.map piece = ps) ∧
    ((∃ e, (scan text).fault = some e) ↔ ¬ ∃ ps, Marks text.toList 0 ps) ∧
    ∀ c j, (scan text).fault = some ⟨c, j⟩ →
      Marks (text.toList.take j) 0 ((scan text).tokens.map piece) ∧ text.toList[j]? = some c ∧
        Stuck (text.toList.drop j) := by
  refine ⟨fun ps => marks_iff_scan, ⟨?_, fun hnone => ?_⟩, fun c j hfault => ?_⟩
  · rintro ⟨e, he⟩ ⟨ps, hps⟩
    have hnone := (marks_iff_scan.mp hps).1
    rw [scan] at he
    rw [hnone] at he
    cases he
  · rcases he : (scan text).fault with _ | e
    · exact absurd ⟨_, marks_iff_scan.mpr ⟨he, rfl⟩⟩ hnone
    · exact ⟨e, rfl⟩
  · obtain ⟨before, after, htext, hj, hbefore, hstuck⟩ := fault_scanFrom_eq_some_iff.mp hfault
    rw [Nat.zero_add] at hj
    have htokens : (scan text).tokens = (scanFrom 0 before).tokens := by
      rw [scan, htext, scanFrom_append hbefore, scanFrom_stuck hstuck, List.append_nil]
    rw [htokens, htext, hj, List.take_left, List.drop_left]
    exact ⟨marks_iff_scan.mpr ⟨hbefore, rfl⟩, by simp, hstuck⟩

/-- A connective cut by a blank: `p <- >q` is scanned up to the `<`, and `<->p` is not `->p` after a
stray character. -/
theorem scan_exact_broken_connective :
    (∃ ps, Marks "p ".toList 0 ps ∧ ps = [⟨.atom, ['p'], 0⟩]) ∧ Stuck "<- >q".toList ∧
      (¬ ∃ ps, Marks "p <- >q".toList 0 ps) ∧
      ∀ ps, Marks "<->p".toList 0 ps →
        ps = [⟨.operator (.binary .iff), ['<', '-', '>'], 0⟩, ⟨.atom, ['p'], 3⟩] := by
  have hfault : (scan "p <- >q").fault = some ⟨'<', 2⟩ := by decide
  obtain ⟨hmarks, -, hstuck⟩ := (scan_exact "p <- >q").2.2 '<' 2 hfault
  refine ⟨⟨_, hmarks, by decide⟩, hstuck, (scan_exact "p <- >q").2.1.mp ⟨_, hfault⟩, ?_⟩
  intro ps hps
  rw [← (((scan_exact "<->p").1 ps).mp hps).2]
  decide

end Deduction
