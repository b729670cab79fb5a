import Deduction.FactBase
import Deduction.Proofs.RoundTrip

/-!
# The store as a list

A store is its list of statements: the numbers are the positions counted from 1, and no statement
stands twice (`Valid`). Storing a statement appends it unless it is there (`values_add`), and the
statement with a number is the one at its position (`Valid.get?_eq`). The same list arises if
repetitions are erased from all that was entered (`values_add_eq_eraseDups`). Entries are only ever
added behind the others (`entries_prefix_add`), so that a number keeps its statement.
-/

namespace Deduction.FactBase

variable {b : FactBase} {f : Formula}

/-! ### Storing -/

theorem mem_values : f ∈ b.values ↔ ∃ e ∈ b.entries, e.2 = f := by simp [values]

theorem contains_iff : b.contains f = true ↔ f ∈ b.values := by
  simp only [contains, List.any_eq_true, beq_iff_eq, mem_values]
  constructor
  · rintro ⟨e, he, h⟩; exact ⟨e, he, Formula.render_injective h⟩
  · rintro ⟨e, he, rfl⟩; exact ⟨e, he, rfl⟩

theorem add_of_mem (h : f ∈ b.values) : b.add f = (b, false) := by
  rw [add, if_pos (contains_iff.mpr h)]

theorem add_of_notMem (h : f ∉ b.values) :
    b.add f = ({ b with entries := b.entries ++ [(b.next, f)], next := b.next + 1 }, true) := by
  rw [add, if_neg (fun hc => h (contains_iff.mp hc))]

theorem values_add (b : FactBase) (f : Formula) :
    (b.add f).1.values = if f ∈ b.values then b.values else b.values ++ [f] := by
  split_ifs with h
  · rw [add_of_mem h]
  · rw [add_of_notMem h]
    simp [values]

theorem mem_values_add {g : Formula} : g ∈ (b.add f).1.values ↔ g ∈ b.values ∨ g = f := by
  rw [values_add]
  split_ifs with h
  · exact ⟨Or.inl, fun hg => hg.elim id fun hgf => hgf ▸ h⟩
  · simp

theorem nodup_add (hb : b.values.Nodup) (f : Formula) : (b.add f).1.values.Nodup := by
  rw [values_add]
  split_ifs with h
  · exact hb
  · refine List.nodup_append.mpr ⟨hb, by simp, fun g hg g' hg' => ?_⟩
    rw [List.mem_singleton.mp hg']
    rintro rfl
    exact h hg

theorem values_add_eq_eraseDups {fs : List Formula} (h : b.values = fs.eraseDups) :
    (b.add f).1.values = (fs ++ [f]).eraseDups := by
  rw [values_add, List.eraseDups_append, h]
  by_cases hf : f ∈ fs
  · rw [if_pos (List.mem_eraseDups.mpr hf)]
    simp [List.removeAll, hf]
  · rw [if_neg (fun hc => hf (List.mem_eraseDups.mp hc))]
    simp [List.removeAll, hf, List.eraseDups_cons]

/-! ### Numbers -/

/-- The numbers count the statements from 1, and no statement stands twice. -/
structure Valid (b : FactBase) : Prop where
  numbers : b.entries.map (·.1) = List.range' 1 b.size
  next : b.next = b.size + 1
  nodup : b.values.Nodup

theorem Valid.empty : Valid FactBase.empty := ⟨rfl, rfl, List.nodup_nil⟩

theorem Valid.add (hb : b.Valid) (f : Formula) : (b.add f).1.Valid := by
  by_cases h : f ∈ b.values
  · rw [add_of_mem h]
    exact hb
  · have hnodup := nodup_add hb.nodup f
    rw [add_of_notMem h] at hnodup ⊢
    refine ⟨?_, ?_, hnodup⟩
    · have hsize : size { b with entries := b.entries ++ [(b.next, f)], next := b.next + 1 } =
          b.size + 1 := by simp [size]
      rw [hsize, List.range'_concat, List.map_append, hb.numbers, hb.next, Nat.add_comm b.size 1]
      simp
    · simp [size, hb.next]

/-- Looking for a number among entries numbered from `start` on. -/
theorem find?_number : ∀ {entries : List (ℕ × Formula)} {start : ℕ},
    entries.map (·.1) = List.range' start entries.length → ∀ k : ℕ,
      (entries.find? fun e => ((e.1 : ℕ) : Int) = (k : Int)).map (·.2) =
        if k < start then none else (entries.map (·.2))[k - start]?
  | [], _, _, k => by simp
  | (i, f) :: entries, start, h, k => by
    rw [List.length_cons, List.range'_succ, List.map_cons, List.cons.injEq] at h
    obtain ⟨rfl, h⟩ := h
    have ih := find?_number h k
    by_cases hk : i = k
    · subst hk
      simp
    · have hne : ¬ ((i : Int) = (k : Int)) := by omega
      rw [List.find?_cons_of_neg (by simpa using hne), ih]
      by_cases hlt : k < i
      · rw [if_pos hlt, if_pos (by omega)]
      · rw [if_neg hlt, if_neg (by omega), List.map_cons, show k - i = k - (i + 1) + 1 by omega,
          List.getElem?_cons_succ]

/-- **The statement with a number** is the one at its position. -/
theorem Valid.get?_eq (hb : b.Valid) (k : ℕ) :
    b.get? (k : Int) = if k < 1 then none else b.values[k - 1]? :=
  find?_number hb.numbers k

theorem Valid.get?_eq_some (hb : b.Valid) {k : ℕ} :
    b.get? (k : Int) = some f ↔ 1 ≤ k ∧ b.values[k - 1]? = some f := by
  rw [hb.get?_eq]
  split_ifs with hk
  · simp; omega
  · simp; omega

/-! ### Growing at the end -/

theorem entries_prefix_add (b : FactBase) (f : Formula) : b.entries <+: (b.add f).1.entries := by
  unfold add
  split_ifs
  · exact List.prefix_rfl
  · exact List.prefix_append _ _

/-- A number keeps its statement while entries are added behind. -/
theorem get?_of_prefix {c : FactBase} (h : b.entries <+: c.entries) {i : Int}
    (hf : b.get? i = some f) : c.get? i = some f := by
  obtain ⟨added, hadded⟩ := h
  obtain ⟨e, he, rfl⟩ := Option.map_eq_some_iff.mp hf
  rw [get?, ← hadded, List.find?_append, he]
  rfl

theorem prefix_values {c : FactBase} (h : b.entries <+: c.entries) : b.values <+: c.values :=
  h.map Prod.snd

end Deduction.FactBase
