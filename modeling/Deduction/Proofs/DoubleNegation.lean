import Deduction.Proofs.Batch
import Deduction.Proofs.Place

/-!
# Double negation at a place

Double negation takes two signs off a statement that has them and puts two on any other
(`Rule.infer_dn`). Applied at a place it changes the part there in this way
(`PartAt.run_doubleNegation`), which keeps the meaning of the whole. A second application at the
same place takes back the first (`toggleSigns_toggleSigns`), except where four signs stood: there
both applications take signs off.
-/

namespace Deduction

namespace Formula

variable {g : Formula}

/-! ### Signs in front -/

/-- Two signs are taken off, or put on where there are none to take off. -/
def toggleSigns : Formula → Formula
  | neg (neg a) => a
  | a => neg (neg a)

theorem toggleSigns_of_ne (hne : ∀ a, g ≠ neg (neg a)) : g.toggleSigns = neg (neg g) := by
  unfold toggleSigns
  split
  · next a => exact absurd rfl (hne a)
  · rfl

theorem four_signs_ne (h : Formula) : h ≠ neg (neg (neg (neg h))) := by
  intro heq
  have hsize := congrArg sizeOf heq
  simp only [neg.sizeOf_spec] at hsize
  omega

/-- **Taking off and putting on** undo each other, but taking off twice is undone by neither. -/
theorem toggleSigns_toggleSigns :
    g.toggleSigns.toggleSigns = g ↔ ∀ h, g ≠ neg (neg (neg (neg h))) := by
  by_cases hg : ∃ a, g = neg (neg a)
  · obtain ⟨a, rfl⟩ := hg
    by_cases ha : ∃ b, a = neg (neg b)
    · obtain ⟨b, rfl⟩ := ha
      exact iff_of_false (four_signs_ne b) fun h => h b rfl
    · rw [not_exists] at ha
      refine iff_of_true (toggleSigns_of_ne ha) fun h heq => ha h ?_
      simpa using heq
  · rw [not_exists] at hg
    rw [toggleSigns_of_ne hg]
    exact iff_of_true rfl fun h => hg _

end Formula

open Formula

theorem Rule.infer_dn (g : Formula) : Rule.infer .dn [g] = .ok g.toggleSigns := by
  by_cases hg : ∃ a, g = neg (neg a)
  · obtain ⟨a, rfl⟩ := hg
    exact (Rule.Concludes.dropSigns a).infer_eq
  · rw [not_exists] at hg
    rw [toggleSigns_of_ne hg]
    exact (Rule.Concludes.addSigns g hg).infer_eq

namespace Formula

variable {f g : Formula} {path : List Int}

/-! ### At a place -/

theorem PartAt.modifyAt_dn (hp : PartAt f path g) :
    f.modifyAt .dn (fun g => Rule.infer .dn [g]) path = .ok (f.replaceAt path g.toggleSigns) := by
  rw [hp.modifyAt_eq, Rule.infer_dn]
  rfl

/-- A batch of double negation that has one candidate, at a place in it. -/
theorem PartAt.run_doubleNegation (hp : PartAt f path g) (silent : Bool) :
    ({ rule := .dn, first := [f], silent := silent, path := path } : Batch).run =
      .ok [f.replaceAt path g.toggleSigns] := by
  have hone : ∀ x ∈ [f], x.modifyAt .dn (fun g => Rule.infer .dn [g]) path =
      .ok (f.replaceAt path g.toggleSigns) := by
    simpa using hp.modifyAt_dn
  rw [Batch.run_unary rfl (Or.inr rfl)]
  exact Batch.collect_of_ok hone

theorem PartAt.replaceAt_eq_iff {k : Formula} (hp : PartAt f path g) :
    f.replaceAt path k = f ↔ k = g := by
  constructor
  · intro h
    have hk := hp.replaceAt k
    rw [h] at hk
    exact hk.unique hp
  · rintro rfl
    exact hp.replaceAt_self

end Formula

/-- **Double negation at a place.** Applied to a statement at a place where a part `g` stands, it
yields one statement, which is equivalent to the given one. Applied there once more, it yields the
given statement exactly if `g` does not begin with four signs. -/
theorem doubleNegation_at_place (f g : Formula) (path : List Int) (hp : PartAt f path g)
    (silent : Bool) :
    ∃ once twice,
      ({ rule := .dn, first := [f], silent := silent, path := path } : Batch).run = .ok [once] ∧
      once.Equivalent f ∧
      ({ rule := .dn, first := [once], silent := silent, path := path } : Batch).run =
        .ok [twice] ∧
      (twice = f ↔ ∀ h, g ≠ .neg (.neg (.neg (.neg h)))) := by
  have hagain := hp.replaceAt g.toggleSigns
  refine ⟨_, _, hp.run_doubleNegation silent, fun v => ?_, hagain.run_doubleNegation silent, ?_⟩
  · exact eval_modifyAt v (fun _ _ => Rule.eval_infer_dn v) hp.modifyAt_dn
  · rw [hp.replaceAt_replaceAt, hp.replaceAt_eq_iff, toggleSigns_toggleSigns]

/-- In `p -> ~~~~q` four signs are not restored, in `p -> ~~~q` three are. -/
theorem doubleNegation_at_place_four_signs :
    let signs := fun h : Formula => Formula.binary .implies (.atom .p) (.neg (.neg (.neg h)))
    (∃ once twice,
      ({ rule := .dn, first := [signs (.neg (.atom .q))], path := [2] } : Batch).run =
        .ok [once] ∧
      ({ rule := .dn, first := [once], path := [2] } : Batch).run = .ok [twice] ∧
      twice ≠ signs (.neg (.atom .q))) ∧
    ∃ once, ({ rule := .dn, first := [signs (.atom .q)], path := [2] } : Batch).run = .ok [once] ∧
      ({ rule := .dn, first := [once], path := [2] } : Batch).run = .ok [signs (.atom .q)] := by
  intro signs
  obtain ⟨once, twice, honce, -, htwice, hiff⟩ := doubleNegation_at_place (signs (.neg (.atom .q)))
    (.neg (.neg (.neg (.neg (.atom .q))))) [2] (by decide) false
  obtain ⟨once', twice', honce', -, htwice', hiff'⟩ := doubleNegation_at_place (signs (.atom .q))
    (.neg (.neg (.neg (.atom .q)))) [2] (by decide) false
  refine ⟨⟨once, twice, honce, htwice, fun h => hiff.mp h _ rfl⟩, once', honce', ?_⟩
  rw [htwice', hiff'.mpr (by simp)]

end Deduction
