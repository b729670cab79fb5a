import Deduction.Proofs.Place

/-!
# Several changes in one statement

Changes at places compose. A change below a change is one change at the longer path
(`modifyAt_append`). A second change at the place of a first one meets what the first one left
there, so the two are one change (`PartAt.modifyAt_replaceAt`). Changes at two places of which
neither lies inside the other do not meet at all: each finds its part as it was
(`PartAt.replaceAt_beside`), and the replacements can be made in either order
(`PartAt.replaceAt_comm`). That is an induction down to the point where the two paths part, where it
is a fact about the two operands of a joined pair (`replaceOperand_comm`).
-/

namespace Deduction.Formula

variable {rule : Rule} {change : Formula → Except RuleError Formula}
variable {f g h : Formula} {path other : List Int} {step position : Int}

/-! ### At the same place -/

/-- **A second change** at a place meets the part that was put there. -/
theorem PartAt.modifyAt_replaceAt (hp : PartAt f path g) (k : Formula) :
    (f.replaceAt path k).modifyAt rule change path = (change k).map (f.replaceAt path) := by
  have hreplace : (f.replaceAt path k).replaceAt path = f.replaceAt path :=
    funext fun m => hp.replaceAt_replaceAt k m
  rw [(hp.replaceAt k).modifyAt_eq, hreplace]

/-! ### At places beside each other -/

theorem replaceOperand_comm (hg : f.operand? step = some g) (hh : f.operand? position = some h)
    (hne : position ≠ step) (k l : Formula) :
    (f.replaceOperand step k).replaceOperand position l =
      (f.replaceOperand position l).replaceOperand step k := by
  rcases operand?_some hg with ⟨rfl, rfl⟩ | ⟨rfl, c, m, rfl⟩ | ⟨rfl, c, m, rfl⟩
  · -- a negation has no second operand
    rcases operand?_some hh with ⟨rfl, -⟩ | ⟨rfl, -⟩ | ⟨-, c, m, hneg⟩
    · exact absurd rfl hne
    · exact absurd rfl hne
    · cases hneg
  · rcases operand?_some hh with ⟨rfl, -⟩ | ⟨rfl, -⟩ | ⟨rfl, -⟩
    · exact absurd rfl hne
    · exact absurd rfl hne
    · rfl
  · rcases operand?_some hh with ⟨rfl, -⟩ | ⟨rfl, -⟩ | ⟨rfl, -⟩
    · rfl
    · rfl
    · exact absurd rfl hne

/-- **Replacements beside each other** can be made in either order. -/
theorem PartAt.replaceAt_comm (hp : PartAt f path g) (hq : PartAt f other h)
    (habove : ¬ other <+: path) (hbelow : ¬ path <+: other) (k l : Formula) :
    (f.replaceAt path k).replaceAt other l = (f.replaceAt other l).replaceAt path k := by
  induction path generalizing f other with
  | nil => exact absurd List.nil_prefix hbelow
  | cons step path ih =>
    rcases other with _ | ⟨position, other⟩
    · exact absurd List.nil_prefix habove
    obtain ⟨m, hm, hp⟩ := partAt_cons_iff.mp hp
    obtain ⟨n, hn, hq⟩ := partAt_cons_iff.mp hq
    rw [replaceAt_cons hm, replaceAt_cons hn]
    by_cases hstep : position = step
    · -- the paths go on together, into the same operand
      subst hstep
      obtain rfl : n = m := Option.some.inj (hn.symm.trans hm)
      have hsame := ih hp hq (fun h => habove (List.cons_prefix_cons.mpr ⟨rfl, h⟩))
        fun h => hbelow (List.cons_prefix_cons.mpr ⟨rfl, h⟩)
      rw [replaceAt_cons (operand?_replaceOperand hm _),
        replaceAt_cons (operand?_replaceOperand hm _), replaceOperand_replaceOperand,
        replaceOperand_replaceOperand, hsame]
    · -- the paths part here
      have hn' : (f.replaceOperand step (m.replaceAt path k)).operand? position = some n := by
        rw [operand?_replaceOperand_of_ne hm _ hstep, hn]
      have hm' : (f.replaceOperand position (n.replaceAt other l)).operand? step = some m := by
        rw [operand?_replaceOperand_of_ne hn _ (Ne.symm hstep), hm]
      rw [replaceAt_cons hn', replaceAt_cons hm', replaceOperand_comm hm hn hstep]

/-- A change beside a replacement finds its part as it was. -/
theorem PartAt.modifyAt_beside (hp : PartAt f path g) (hq : PartAt f other h)
    (habove : ¬ other <+: path) (hbelow : ¬ path <+: other) (k : Formula) :
    (f.replaceAt path k).modifyAt rule change other =
      (change h).map ((f.replaceAt path k).replaceAt other) :=
  ((hp.replaceAt_beside k habove hbelow).mpr hq).modifyAt_eq

/-! ### Changes compose -/

/-- **The algebra of changes.** A change at a path that is put together is the change at its second
part made at its first part, refusals included. Where a change has succeeded, another one at the
same path has the outcome of both made at once. Two changes that succeed at places of which neither
lies inside the other lead to the same statement in either order. -/
theorem modifyAt_algebra (rule rule' : Rule) (f : Formula) (p q : List Int)
    (change change' : Formula → Except RuleError Formula) :
    f.modifyAt rule change (p ++ q) =
        f.modifyAt rule (fun g => g.modifyAt rule change q) p ∧
      (∀ h, f.modifyAt rule change p = .ok h →
        h.modifyAt rule' change' p = f.modifyAt rule' (fun g => change g >>= change') p) ∧
      ∀ g h k l, PartAt f p g → PartAt f q h → ¬ p <+: q → ¬ q <+: p →
        change g = .ok k → change' h = .ok l →
        ∃ m, (f.modifyAt rule change p >>= fun n => n.modifyAt rule' change' q) = .ok m ∧
          (f.modifyAt rule' change' q >>= fun n => n.modifyAt rule change p) = .ok m := by
  refine ⟨modifyAt_append f p q, fun h hm => ?_, fun g h k l hg hh hpq hqp hk hl => ?_⟩
  · obtain ⟨g, k, hg, hk, rfl⟩ := modifyAt_eq_ok_iff.mp hm
    rw [hg.modifyAt_replaceAt, hg.modifyAt_eq, hk]
    rfl
  · refine ⟨(f.replaceAt p k).replaceAt q l, ?_, ?_⟩
    · rw [hg.modifyAt_eq, hk]
      show (f.replaceAt p k).modifyAt rule' change' q = _
      rw [hg.modifyAt_beside hh hqp hpq, hl]
      rfl
    · rw [hh.modifyAt_eq, hl]
      show (f.replaceAt q l).modifyAt rule change p = _
      rw [hh.modifyAt_beside hg hpq hqp, hk, hg.replaceAt_comm hh hqp hpq]
      rfl

/-- In `~p -> (~~q ^ ~p)`, double negation of both operands of the conjunction, in either order; and
twice at the second of them, where a change that keeps to simplification is then refused. -/
theorem modifyAt_algebra_two_operands :
    let f := binary .implies (neg (atom .p)) (binary .and (neg (neg (atom .q))) (neg (atom .p)))
    let change := fun g => Rule.infer .dn [g]
    let simplify := fun g => Rule.infer .simp [g]
    (∃ m, (f.modifyAt .dn change [2, 1] >>= fun n => n.modifyAt .dn change [2, 2]) = .ok m ∧
      (f.modifyAt .dn change [2, 2] >>= fun n => n.modifyAt .dn change [2, 1]) = .ok m) ∧
    (∃ h, f.modifyAt .dn change [2, 2] = .ok h ∧
      h.modifyAt .simp simplify [2, 2] = .error (.notApplicable .simp)) ∧
    f.modifyAt .dn change ([2] ++ [3]) = .error (.stepOutOfRange .dn) := by
  intro f change simplify
  have hq : PartAt f [2, 1] (neg (neg (atom .q))) := by decide
  have hp : PartAt f [2, 2] (neg (atom .p)) := by decide
  have hdrop : change (neg (neg (atom .q))) = .ok (atom .q) :=
    (Rule.Concludes.dropSigns _).infer_eq
  have hadd : change (neg (atom .p)) = .ok (neg (neg (neg (atom .p)))) :=
    (Rule.Concludes.addSigns _ (by simp)).infer_eq
  refine ⟨(modifyAt_algebra .dn .dn f [2, 1] [2, 2] change change).2.2 _ _ _ _ hq hp (by decide)
    (by decide) hdrop hadd, ⟨f.replaceAt [2, 2] (neg (neg (neg (atom .p)))), ?_, ?_⟩, ?_⟩
  · rw [hp.modifyAt_eq, hadd]
    rfl
  · rw [(modifyAt_algebra .dn .simp f [2, 2] [] change simplify).2.1 _
      (by rw [hp.modifyAt_eq, hadd]; rfl), hp.modifyAt_eq, hadd]
    rfl
  · rw [(modifyAt_algebra .dn .dn f [2] [3] change change).1]
    decide +kernel

end Deduction.Formula
