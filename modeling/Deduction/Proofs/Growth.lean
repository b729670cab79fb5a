import Deduction.Proofs.Modes

/-!
# What lasts until the next reset

As long as no line is carried out as a reset (`NoReset`), the store only grows at its end, so that a
number once given out keeps its statement, and in rule mode the conclusion stays (`Lasts`). A line
keeps this (`lasts_advance`), and so do lines one after the other (`lasts_after`). A conclusion that
has been reached is then reached for good.
-/

namespace Deduction

namespace FactBase

variable {b c : FactBase}

/-- A conclusion that has been reached stays reached. -/
theorem isProven_of_prefix (h : b.entries <+: c.entries) (hc : c.conclusion = b.conclusion)
    (hb : b.isProven = true) : c.isProven = true := by
  obtain ⟨f, hf, hmem⟩ := isProven_iff.mp hb
  exact isProven_iff.mpr ⟨f, hc.trans hf, (prefix_values h).subset hmem⟩

end FactBase

namespace Session

variable {s t u : Session} {line : String}

/-! ### One line -/

/-- The facts of `s` are in `t` under their numbers, before all others, and once rules are being
applied, the conclusion of `s` is that of `t`. -/
structure Lasts (s t : Session) : Prop where
  entries : s.facts.entries <+: t.facts.entries
  mode : s.mode = .rule → t.mode = .rule
  conclusion : s.mode = .rule → t.facts.conclusion = s.facts.conclusion

theorem Lasts.refl (s : Session) : Lasts s s :=
  ⟨List.prefix_rfl, fun h => h, fun _ => rfl⟩

theorem Lasts.trans (h : Lasts s t) (h' : Lasts t u) : Lasts s u where
  entries := h.entries.trans h'.entries
  mode hm := h'.mode (h.mode hm)
  conclusion hm := (h'.conclusion (h.mode hm)).trans (h.conclusion hm)

theorem lasts_runBatch (s : Session) (b : Batch) : Lasts s (s.runBatch b).1 := by
  rcases runBatch_cases s b with hb | ⟨results, -, hb⟩
  · rw [hb]
    exact Lasts.refl s
  · rw [hb]
    exact ⟨entries_prefix_storeResults _ _, fun h => h, fun _ => conclusion_storeResults _ _⟩

/-- **A line that is no reset loses nothing.** -/
theorem lasts_advance (h : s.command? line ≠ some .reset) : Lasts s (s.advance line) := by
  have hh := handled s line
  unfold advance
  generalize s.handle line = outcome at hh ⊢
  cases hh with
  | @command c hc =>
    cases c with
    | therefore =>
      -- in rule mode the word is no command
      have hm : ¬ s.mode = .rule := by
        rw [mode_of_therefore hc]
        decide
      exact ⟨List.prefix_rfl, fun hr => absurd hr hm, fun _ => rfl⟩
    | reset => exact absurd hc h
    | _ => exact Lasts.refl s
  | @premise f hp hm hf =>
    exact ⟨s.facts.entries_prefix_add f, fun hr => hr, fun _ => conclusion_storeResults s.facts [f]⟩
  | conclusion hp hm hf =>
    have hm' : ¬ s.mode = .rule := by
      rw [hm]
      decide
    exact ⟨List.prefix_rfl, fun _ => rfl, fun hr => absurd hr hm'⟩
  | batch hp hm hb => exact lasts_runBatch s _
  | wait hp hm hw => exact ⟨List.prefix_rfl, fun hr => hr, fun _ => rfl⟩
  | @addend pending f hb hp hf =>
    have hbatch := lasts_runBatch { s with pending := none } (pending.batch f)
    exact ⟨hbatch.entries, hbatch.mode, hbatch.conclusion⟩
  | _ => exact Lasts.refl s

/-! ### Lines without a reset -/

/-- None of the lines is carried out as a reset. A line that gives the word while an addition waits
is not. -/
def NoReset (s : Session) : List String → Prop
  | [] => True
  | line :: lines => s.command? line ≠ some .reset ∧ (s.advance line).NoReset lines

instance decidableNoReset : ∀ (s : Session) (lines : List String), Decidable (s.NoReset lines)
  | _, [] => .isTrue trivial
  | s, line :: lines =>
    have := decidableNoReset (s.advance line) lines
    inferInstanceAs (Decidable (s.command? line ≠ some .reset ∧ (s.advance line).NoReset lines))

/-- **Nothing is lost without a reset.** -/
theorem lasts_after : ∀ {lines : List String} {s : Session}, s.NoReset lines →
    Lasts s (s.after lines)
  | [], s, _ => Lasts.refl s
  | _ :: _, _, h => (lasts_advance h.1).trans (lasts_after h.2)

/-! ### The verdict -/

/-- The reply to `done` when the conclusion has been reached. -/
def shown : Reply := { messages := ["You've shown the conclusion to be true!"] }

theorem handle_done (h : s.command? line = some .done) :
    s.handle line = .ok (s, shown) ↔ s.facts.isProven = true := by
  rw [handle_command h, runCommand]
  by_cases hp : s.facts.isProven = true
  · simp [hp, shown]
  · simp [hp, shown]

theorem Lasts.handle_done {later : String} (h : Lasts s t) (hc : s.command? line = some .done)
    (hshown : s.handle line = .ok (s, shown)) (hlater : t.command? later = some .done) :
    t.handle later = .ok (t, shown) := by
  have hm : s.mode = .rule := mode_of_rule_command hc (Or.inl rfl)
  have hproven := (Session.handle_done hc).mp hshown
  exact (Session.handle_done hlater).mpr
    (FactBase.isProven_of_prefix h.entries (h.conclusion hm) hproven)

/-! ### Two states of a run -/

/-- **What lasts until the next reset.** Between two states of a run without a reset in between, the
facts of the earlier one stay under their numbers, before all later ones. Once rules are being
applied, the conclusion is the same statement, and once `done` has been answered with success, it is
answered so whenever it is carried out. -/
theorem lasts_until_reset (verboseRules : Bool) (before between : List String)
    (h : ((start verboseRules).after before).NoReset between) :
    let s := (start verboseRules).after before
    let t := (start verboseRules).after (before ++ between)
    s.facts.entries <+: t.facts.entries ∧
      (∀ (i : Int) (f : Formula), s.facts.get? i = some f → t.facts.get? i = some f) ∧
      (s.mode = .rule → t.mode = .rule ∧
        ∃ f, s.facts.conclusion = some f ∧ t.facts.conclusion = some f) ∧
      ∀ line later : String, s.command? line = some .done → s.handle line = .ok (s, shown) →
        t.command? later = some .done → t.handle later = .ok (t, shown) := by
  intro s t
  have hlasts : Lasts s t := by
    have ht : t = s.after between := List.foldl_append
    rw [ht]
    exact lasts_after h
  refine ⟨hlasts.entries, fun _ _ => FactBase.get?_of_prefix hlasts.entries, fun hm => ?_,
    fun _ _ => hlasts.handle_done⟩
  have hsome : s.facts.conclusion.isSome = true := (Steady.after before).conclusion_iff.mpr hm
  obtain ⟨f, hf⟩ := Option.isSome_iff_exists.mp hsome
  exact ⟨hlasts.mode hm, f, hf, (hlasts.conclusion hm).trans hf⟩

/-- After a verdict: an addition that takes the word `reset` for a statement that it cannot read, a
call for a fact that is not there, and more facts. -/
theorem lasts_until_reset_addition :
    let s := (start false).after ["p -> q", "p", "therefore", "q", "MP(1,2)"]
    let t := (start false).after (["p -> q", "p", "therefore", "q", "MP(1,2)"] ++
      ["done", "Add(3)", "reset", "r", "MP(9,1)", "", "DN(1)"])
    s.facts.get? 3 = some (.atom .q) ∧ t.facts.get? 3 = some (.atom .q) ∧
      s.facts.size < t.facts.size ∧ t.facts.conclusion = some (.atom .q) ∧
      t.handle " DONE" = .ok (t, shown) := by
  intro s t
  obtain ⟨-, hnumber, hconclusion, hdone⟩ := lasts_until_reset false
    ["p -> q", "p", "therefore", "q", "MP(1,2)"]
    ["done", "Add(3)", "reset", "r", "MP(9,1)", "", "DN(1)"] (by decide +kernel)
  have hthird : s.facts.get? 3 = some (.atom .q) := by decide +kernel
  have hcommand : s.command? "done" = some .done := by decide +kernel
  have hshown : s.handle "done" = .ok (s, shown) := (handle_done hcommand).mpr (by decide +kernel)
  refine ⟨hthird, hnumber 3 _ hthird, by decide +kernel, ?_,
    hdone "done" " DONE" hcommand hshown (by decide +kernel)⟩
  obtain ⟨-, f, hf, hf'⟩ := hconclusion (by decide +kernel)
  exact hf'.trans (hf.symm.trans (by decide +kernel))

end Session

end Deduction
