import Deduction.Proofs.Numbering

/-!
# Storing statements in a row

When statements are stored one after the other, the store grows at its end by those that are new:
neither stored before nor a repetition of an earlier one among them (`fresh`). They get the numbers
that follow those in use (`addAll_eq`). The loop does not stop at a statement that is not new, so
the induction is on the statements with the store left free: a statement that is stored on the way
counts as stored for all that come after it (`fresh_cons_of_notMem`).
-/

namespace Deduction.FactBase

variable {b : FactBase} {f : Formula} {fs : List Formula}

/-! ### New statements -/

/-- Of some statements those that are not stored, each of them where it comes first. -/
def fresh (b : FactBase) (fs : List Formula) : List Formula :=
  (fs.filter (· ∉ b.values)).eraseDups

/-- Statements under numbers in a row. -/
def numberedFrom (start : ℕ) (fs : List Formula) : List (ℕ × Formula) :=
  (fs.zipIdx start).map Prod.swap

/-- The store with statements behind the others, under the next numbers. -/
def appended (b : FactBase) (fs : List Formula) : FactBase :=
  { b with entries := b.entries ++ numberedFrom b.next fs, next := b.next + fs.length }

@[simp]
theorem length_numberedFrom (start : ℕ) (fs : List Formula) :
    (numberedFrom start fs).length = fs.length := by
  simp [numberedFrom]

theorem map_snd_numberedFrom (start : ℕ) (fs : List Formula) :
    (numberedFrom start fs).map (·.2) = fs := by
  rw [numberedFrom, List.map_map]
  exact List.zipIdx_map_fst start fs

theorem numberedFrom_cons (start : ℕ) (f : Formula) (fs : List Formula) :
    numberedFrom start (f :: fs) = (start, f) :: numberedFrom (start + 1) fs := rfl

theorem appended_nil (b : FactBase) : b.appended [] = b := by
  obtain ⟨entries, next, conclusion⟩ := b
  simp [appended, numberedFrom]

theorem appended_cons (b : FactBase) (f : Formula) (fs : List Formula) :
    b.appended (f :: fs) = (b.appended [f]).appended fs := by
  have hnext : b.next + (f :: fs).length = b.next + [f].length + fs.length := by
    rw [List.length_cons, List.length_singleton]
    omega
  have hentries : b.entries ++ numberedFrom b.next (f :: fs) =
      b.entries ++ numberedFrom b.next [f] ++ numberedFrom (b.next + [f].length) fs := by
    rw [numberedFrom_cons, numberedFrom_cons, List.append_assoc]
    rfl
  rw [appended, hentries, hnext]
  rfl

theorem values_appended (b : FactBase) (fs : List Formula) :
    (b.appended fs).values = b.values ++ fs := by
  rw [values, appended, List.map_append, map_snd_numberedFrom]
  rfl

theorem size_appended (b : FactBase) (fs : List Formula) :
    (b.appended fs).size = b.size + fs.length := by
  rw [size, appended, List.length_append, length_numberedFrom]
  rfl

theorem add_eq_appended (h : f ∉ b.values) : b.add f = (b.appended [f], true) :=
  add_of_notMem h

/-! ### One statement after the other -/

theorem fresh_nil (b : FactBase) : b.fresh [] = [] := rfl

theorem fresh_cons_of_mem (h : f ∈ b.values) (fs : List Formula) :
    b.fresh (f :: fs) = b.fresh fs := by
  rw [fresh, List.filter_cons_of_neg (by simpa using h), fresh]

/-- A new statement comes first, and for those after it, it is stored. -/
theorem fresh_cons_of_notMem (h : f ∉ b.values) (fs : List Formula) :
    b.fresh (f :: fs) = f :: (b.appended [f]).fresh fs := by
  rw [fresh, List.filter_cons_of_pos (by simpa using h), List.eraseDups_cons, List.filter_filter,
    fresh, values_appended]
  congr 3
  funext g
  by_cases hg : g = f <;> simp [hg]

theorem mem_fresh : f ∈ b.fresh fs ↔ f ∈ fs ∧ f ∉ b.values := by
  rw [fresh, List.mem_eraseDups, List.mem_filter, decide_eq_true_eq]

/-- A statement that is stored, or that came before, makes no difference. -/
theorem fresh_append_cons {before after : List Formula} (h : f ∈ b.values ∨ f ∈ before) :
    b.fresh (before ++ f :: after) = b.fresh (before ++ after) := by
  by_cases hf : f ∈ b.values
  · rw [fresh, fresh, List.filter_append, List.filter_append,
      List.filter_cons_of_neg (by simpa using hf)]
  · have hbefore : f ∈ before.filter (· ∉ b.values) :=
      List.mem_filter.mpr ⟨h.resolve_left hf, by simpa using hf⟩
    rw [fresh, fresh, List.filter_append, List.filter_append,
      List.filter_cons_of_pos (by simpa using hf), List.eraseDups_append, List.eraseDups_append]
    congr 2
    exact List.filter_cons_of_neg (by simpa using hbefore)

/-- **Statements stored one after the other** are appended as far as they are new. -/
theorem addAll_eq : ∀ (b : FactBase) (fs : List Formula),
    b.addAll fs = (b.appended (b.fresh fs), decide (fs.Nodup ∧ ∀ f ∈ fs, f ∉ b.values))
  | b, [] => by
    rw [fresh_nil, appended_nil]
    simp [addAll]
  | b, f :: fs => by
    by_cases hf : f ∈ b.values
    · have hnot : ¬ ((f :: fs).Nodup ∧ ∀ g ∈ f :: fs, g ∉ b.values) := fun h =>
        h.2 f List.mem_cons_self hf
      simp only [addAll, add_of_mem hf]
      rw [addAll_eq b fs, fresh_cons_of_mem hf, decide_eq_false hnot, Bool.false_and]
    · have hnew : (fs.Nodup ∧ ∀ g ∈ fs, g ∉ (b.appended [f]).values) ↔
          (f :: fs).Nodup ∧ ∀ g ∈ f :: fs, g ∉ b.values := by
        simp only [values_appended, List.mem_append, List.mem_singleton, List.nodup_cons,
          List.forall_mem_cons]
        constructor
        · rintro ⟨hnodup, hfs⟩
          exact ⟨⟨fun hmem => hfs f hmem (Or.inr rfl), hnodup⟩, hf,
            fun g hg hstored => hfs g hg (Or.inl hstored)⟩
        · rintro ⟨⟨hmem, hnodup⟩, -, hfs⟩
          refine ⟨hnodup, fun g hg hor => ?_⟩
          rcases hor with hstored | rfl
          · exact hfs g hg hstored
          · exact hmem hg
      simp only [addAll, add_eq_appended hf]
      rw [addAll_eq (b.appended [f]) fs, fresh_cons_of_notMem hf, ← appended_cons,
        decide_eq_decide.mpr hnew, Bool.true_and]

/-- **What has been stored is not stored again.** -/
theorem addAll_addAll (b : FactBase) (fs : List Formula) :
    (b.addAll fs).1.addAll fs = ((b.addAll fs).1, fs.isEmpty) := by
  have hstored : ∀ f ∈ fs, f ∈ (b.appended (b.fresh fs)).values := by
    intro f hf
    rw [values_appended, List.mem_append]
    by_cases h : f ∈ b.values
    · exact Or.inl h
    · exact Or.inr (mem_fresh.mpr ⟨hf, h⟩)
  have hfresh : (b.appended (b.fresh fs)).fresh fs = [] := by
    rw [List.eq_nil_iff_forall_not_mem]
    intro f hf
    obtain ⟨hmem, hnot⟩ := mem_fresh.mp hf
    exact hnot (hstored f hmem)
  rw [addAll_eq b fs, addAll_eq, hfresh, appended_nil]
  rcases fs with _ | ⟨f, fs⟩
  · rfl
  · have hnot : ¬ ((f :: fs).Nodup ∧ ∀ g ∈ f :: fs, g ∉ (b.appended (b.fresh (f :: fs))).values) :=
      fun h => h.2 f List.mem_cons_self (hstored f List.mem_cons_self)
    rw [decide_eq_false hnot]
    rfl

/-- **Storing statements in a row.** In a store that any operations have led to, the facts keep
their numbers, and behind them come those of the statements that were not stored before and do not
repeat an earlier one, in this order and under the numbers in a row. That all were new is told
exactly if no two are the same and none was stored. The conclusion stays. Storing the same
statements again changes nothing, and then all were new only if there are none. -/
theorem addAll_appends_fresh (os : List Operation) (fs : List Formula) :
    let b := os.foldl perform .empty
    (b.addAll fs).1.entries = b.entries ++ numberedFrom (b.size + 1) (b.fresh fs) ∧
      ((b.addAll fs).2 = true ↔ fs.Nodup ∧ ∀ f ∈ fs, f ∉ b.values) ∧
      (b.addAll fs).1.conclusion = b.conclusion ∧
      ((b.addAll fs).1.addAll fs).1 = (b.addAll fs).1 ∧
      (((b.addAll fs).1.addAll fs).2 = true ↔ fs = []) := by
  intro b
  have hb : b.Valid := Valid.foldl_perform os
  rw [addAll_addAll, addAll_eq, ← hb.next]
  exact ⟨rfl, decide_eq_true_iff, rfl, rfl, List.isEmpty_iff⟩

/-- Statements of which one is stored, one comes twice and two are new, in a store that was cleared
before. -/
theorem addAll_appends_fresh_repetitions :
    let b := [Operation.add (.atom .r), .clear, .addAll [.atom .q, .atom .p],
      .conclude (some (.atom .s))].foldl perform .empty
    let fs : List Formula := [.atom .r, .atom .p, .neg (.atom .q), .atom .r]
    (b.addAll fs).1.entries =
        [(1, .atom .q), (2, .atom .p), (3, .atom .r), (4, .neg (.atom .q))] ∧
      (b.addAll fs).2 = false ∧ (b.addAll [.atom .t]).2 = true ∧
      (b.addAll fs).1.conclusion = some (.atom .s) := by
  intro b fs
  obtain ⟨hentries, hnew, hconclusion, -⟩ := addAll_appends_fresh _ fs
  refine ⟨hentries.trans (by decide +kernel), ?_, ?_, hconclusion.trans (by decide +kernel)⟩
  · rw [Bool.eq_false_iff, Ne, hnew]
    exact fun h => absurd h.1 (by decide +kernel)
  · exact (addAll_appends_fresh _ [.atom .t]).2.1.mpr (by decide +kernel)

end Deduction.FactBase
