import Deduction.Proofs.Numeral
import Deduction.Proofs.Store
import Mathlib.Data.List.Nodup

/-!
# Reading the store

However a store has come about from the empty one, its facts are numbered from 1 without a gap and
no fact stands twice (`Valid.foldl_perform`). All ways to read it then agree: looking up a number,
going through the entries, taking the list of statements, and resolving the decimal text of a number
(`select_toString`). A stored statement has exactly one number, and sorting the facts by the
operator at the top loses none and repeats none.
-/

namespace Deduction.FactBase

variable {b : FactBase} {f : Formula} {k : ℕ}

/-! ### Operations -/

/-- The operations on a store. -/
inductive Operation where
  | add (f : Formula)
  | addAll (fs : List Formula)
  | clear
  | conclude (f : Option Formula)
  /-- Reading of any kind, which leaves the store as it is. -/
  | read

/-- The store after an operation. -/
def perform (b : FactBase) : Operation → FactBase
  | .add f => (b.add f).1
  | .addAll fs => (b.addAll fs).1
  | .clear => .empty
  | .conclude f => { b with conclusion := f }
  | .read => b

theorem addAll_cons (b : FactBase) (f : Formula) (fs : List Formula) :
    (b.addAll (f :: fs)).1 = ((b.add f).1.addAll fs).1 := rfl

theorem Valid.addAll : ∀ {b : FactBase}, b.Valid → ∀ fs : List Formula, (b.addAll fs).1.Valid
  | _, hb, [] => hb
  | b, hb, f :: fs => by
    rw [addAll_cons]
    exact (hb.add f).addAll fs

theorem Valid.perform (hb : b.Valid) (o : Operation) : (b.perform o).Valid := by
  cases o with
  | add f => exact hb.add f
  | addAll fs => exact hb.addAll fs
  | clear => exact Valid.empty
  | conclude f => exact ⟨hb.numbers, hb.next, hb.nodup⟩
  | read => exact hb

theorem Valid.foldl_perform (os : List Operation) : (os.foldl FactBase.perform .empty).Valid :=
  List.foldlRecOn os FactBase.perform Valid.empty fun _ hb o _ => hb.perform o

/-! ### Numbers -/

/-- A number that is not in use. -/
structure UnusedNumber where
  number : Int
  deriving DecidableEq

/-- The statement with a number, which has to be in use. -/
def item (b : FactBase) (number : Int) : Except UnusedNumber Formula :=
  match b.get? number with
  | some f => .ok f
  | none => .error ⟨number⟩

theorem get?_of_neg {i : Int} (h : i < 0) : b.get? i = none := by
  rw [get?, Option.map_eq_none_iff, List.find?_eq_none]
  intro e _ he
  have : (e.1 : Int) = i := by simpa using he
  omega

theorem Valid.get?_isSome_iff (hb : b.Valid) (i : Int) :
    (b.get? i).isSome = true ↔ 1 ≤ i ∧ i ≤ b.size := by
  have hlen : b.values.length = b.size := by simp [values, size]
  rcases Int.lt_or_le i 0 with hneg | hpos
  · rw [get?_of_neg hneg]
    simp only [Option.isSome_none, Bool.false_eq_true, false_iff]
    omega
  · obtain ⟨k, rfl⟩ := Int.eq_ofNat_of_zero_le hpos
    rw [hb.get?_eq]
    split_ifs with hk
    · simp only [Option.isSome_none, Bool.false_eq_true, false_iff]
      omega
    · rw [Option.isSome_iff_ne_none, ne_eq, List.getElem?_eq_none_iff, hlen]
      omega

theorem Valid.get?_eq_some_iff_entries (hb : b.Valid) :
    b.get? (k : Int) = some f ↔ 1 ≤ k ∧ b.entries[k - 1]? = some (k, f) := by
  rw [hb.get?_eq_some]
  refine and_congr_right fun hk => ?_
  rw [values, List.getElem?_map, Option.map_eq_some_iff]
  constructor
  · rintro ⟨⟨i, g⟩, he, rfl⟩
    -- the number beside the statement is the position, since the numbers count from 1
    have hi : (b.entries.map (·.1))[k - 1]? = some i := by rw [List.getElem?_map, he]; rfl
    obtain ⟨hlt, -⟩ := List.getElem?_eq_some_iff.mp he
    rw [hb.numbers, List.getElem?_range' (by exact hlt), Option.some.injEq] at hi
    rw [he, show i = k by omega]
  · intro he
    exact ⟨(k, f), he, rfl⟩

theorem Valid.get?_of_mem_entries (hb : b.Valid) {e : ℕ × Formula} (he : e ∈ b.entries) :
    1 ≤ e.1 ∧ e.1 ≤ b.size ∧ b.get? (e.1 : Int) = some e.2 := by
  obtain ⟨n, hn, rfl⟩ := List.getElem_of_mem he
  have hnumber : (b.entries.map (·.1))[n]? = some b.entries[n].1 := by
    rw [List.getElem?_map, List.getElem?_eq_getElem hn, Option.map_some]
  have hsize : n < b.size := hn
  rw [hb.numbers, List.getElem?_range' hsize, Option.some.injEq] at hnumber
  refine ⟨by omega, by omega, hb.get?_eq_some_iff_entries.mpr ⟨by omega, ?_⟩⟩
  rw [show b.entries[n].1 - 1 = n by omega, List.getElem?_eq_getElem hn]

theorem Valid.number_unique (hb : b.Valid) {i j : Int} (hi : b.get? i = some f)
    (hj : b.get? j = some f) : i = j := by
  obtain ⟨hi1, -⟩ := (hb.get?_isSome_iff i).mp (by rw [hi]; rfl)
  obtain ⟨hj1, -⟩ := (hb.get?_isSome_iff j).mp (by rw [hj]; rfl)
  obtain ⟨m, rfl⟩ := Int.eq_ofNat_of_zero_le (show 0 ≤ i by omega)
  obtain ⟨n, rfl⟩ := Int.eq_ofNat_of_zero_le (show 0 ≤ j by omega)
  obtain ⟨hm, hmf⟩ := hb.get?_eq_some.mp hi
  obtain ⟨hn, hnf⟩ := hb.get?_eq_some.mp hj
  obtain ⟨hlt, -⟩ := List.getElem?_eq_some_iff.mp hmf
  have := (List.getElem?_inj hlt hb.nodup).mp (hmf.trans hnf.symm)
  omega

theorem Valid.contains_iff_existsUnique (hb : b.Valid) :
    b.contains f = true ↔ ∃! i : Int, b.get? i = some f := by
  rw [contains_iff]
  constructor
  · intro hf
    obtain ⟨i, hi, rfl⟩ := List.getElem_of_mem hf
    have hget : b.get? ((i + 1 : ℕ) : Int) = some b.values[i] :=
      hb.get?_eq_some.mpr ⟨by omega, by rw [Nat.add_sub_cancel, List.getElem?_eq_getElem]⟩
    exact ⟨_, hget, fun j hj => hb.number_unique hj hget⟩
  · rintro ⟨i, hi, -⟩
    rw [get?, Option.map_eq_some_iff] at hi
    obtain ⟨e, he, rfl⟩ := hi
    exact mem_values.mpr ⟨e, List.mem_of_find?_eq_some he, rfl⟩

/-! ### References -/

theorem select_wildcard (b : FactBase) : b.select wildcard = .ok b.values := by
  rw [select, show Text.strip wildcard = wildcard by decide]
  exact if_pos rfl

theorem ne_wildcard_of_digits {reference : String}
    (h : ∀ c ∈ reference.toList, c.isDigit = true) : reference ≠ wildcard := by
  rintro rfl
  exact absurd (h '*' (by decide)) (by decide)

theorem toString_ne_wildcard (k : ℕ) : toString k ≠ wildcard :=
  ne_wildcard_of_digits fun _ hc => Text.isDigit_of_mem_toString hc

/-- A reference of digits is read as a number. -/
theorem select_digits (b : FactBase) {reference : String} (hne : reference.toList ≠ [])
    (h : ∀ c ∈ reference.toList, c.isDigit = true) :
    b.select reference = match Text.readNumeral reference.toList with
      | .error e => .error (.numeral e)
      | .ok number =>
        if number < 1 then .error (.rule (.invalidReference reference))
        else .ok (b.get? number).toList := by
  have hstrip : Text.strip reference = reference :=
    Text.strip_eq_self fun c hc => Text.isBlank_of_isDigit (h c hc)
  have hdigits : Text.isDigits reference.toList = true := Text.isDigits_of_digits hne h
  rcases hread : Text.readNumeral reference.toList with e | number <;>
    simp only [select, hstrip, if_neg (ne_wildcard_of_digits h), hdigits, hread, Bool.not_true,
      Bool.false_eq_true, if_false]

/-- **The decimal text of a number** refers to the fact with that number, if there is one. -/
theorem select_toString (b : FactBase) (hk : 1 ≤ k)
    (hlen : (toString k).length ≤ Text.digitLimit) :
    b.select (toString k) = .ok (b.get? k).toList := by
  rw [select_digits b (Text.toString_ne_nil k) fun _ hc => Text.isDigit_of_mem_toString hc,
    Text.readNumeral_toString hlen]
  exact if_neg (by omega)

/-! ### Operators -/

/-- What can stand at the top of a statement: nothing, for a variable, or one of the operators. -/
def tops : List (Option Operator) := none :: Operator.all.map some

theorem operator?_mem_tops (f : Formula) : f.operator? ∈ tops := by
  cases f with
  | atom a => exact List.mem_cons_self
  | neg f => exact show some .not ∈ tops by decide
  | binary c left right => exact show some (.binary c) ∈ tops by cases c <;> decide

theorem nodup_tops : tops.Nodup := by decide

theorem mem_byOperator {o : Option Operator} :
    f ∈ b.byOperator o ↔ f ∈ b.values ∧ f.operator? = o := by
  rw [byOperator, List.mem_filter, decide_eq_true_eq]

theorem Valid.flatMap_byOperator_perm (hb : b.Valid) :
    (tops.flatMap b.byOperator).Perm b.values := by
  have hnodup : (tops.flatMap b.byOperator).Nodup := by
    refine List.nodup_flatMap.mpr ⟨fun o _ => hb.nodup.filter _, ?_⟩
    refine nodup_tops.imp fun hne => ?_
    intro f hf hf'
    exact hne ((mem_byOperator.mp hf).2.symm.trans (mem_byOperator.mp hf').2)
  refine (List.perm_ext_iff_of_nodup hnodup hb.nodup).mpr fun f => ?_
  rw [List.mem_flatMap]
  constructor
  · rintro ⟨o, -, hf⟩
    exact (mem_byOperator.mp hf).1
  · intro hf
    exact ⟨f.operator?, operator?_mem_tops f, mem_byOperator.mpr ⟨hf, rfl⟩⟩

theorem isProven_iff : b.isProven = true ↔ ∃ f, b.conclusion = some f ∧ f ∈ b.values := by
  rcases hc : b.conclusion with _ | f
  · simp [isProven, hc]
  · simp only [isProven, hc, Option.some.injEq, exists_eq_left']
    exact contains_iff

/-! ### All readings agree -/

/-- What holds of the readings of a store. -/
structure Coherent (b : FactBase) : Prop where
  numbers : b.entries.map (·.1) = List.range' 1 b.size
  next : b.next = b.size + 1
  nodup : b.values.Nodup
  /-- No two stored statements count as the same. -/
  distinct : b.values.Pairwise fun f g => (f == g) = false
  get?_isSome : ∀ i : Int, (b.get? i).isSome = true ↔ 1 ≤ i ∧ i ≤ b.size
  item_ok : ∀ (i : Int) (f : Formula), b.item i = .ok f ↔ b.get? i = some f
  item_error : ∀ i : Int, b.item i = .error ⟨i⟩ ↔ ¬ (1 ≤ i ∧ i ≤ b.size)
  get?_entries : ∀ (k : ℕ) (f : Formula),
    b.get? k = some f ↔ 1 ≤ k ∧ b.entries[k - 1]? = some (k, f)
  get?_values : ∀ (k : ℕ) (f : Formula), b.get? k = some f ↔ 1 ≤ k ∧ b.values[k - 1]? = some f
  select_number : ∀ k : ℕ, 1 ≤ k → (toString k).length ≤ Text.digitLimit →
    b.select (toString k) = .ok (b.get? k).toList
  contains_unique : ∀ f : Formula, b.contains f = true ↔ ∃! i : Int, b.get? i = some f
  /-- The facts with one operator at the top stand in the order of the store. -/
  byOperator_sublist : ∀ o : Option Operator, (b.byOperator o).Sublist b.values
  byOperator_top : ∀ (o : Option Operator) (f : Formula), f ∈ b.byOperator o → f.operator? = o
  /-- Taken for every operator and for the variables, they are all facts, each once. -/
  byOperator_perm : (tops.flatMap b.byOperator).Perm b.values
  proven : b.isProven = true ↔ ∃ f, b.conclusion = some f ∧ f ∈ b.values

theorem item_eq_ok_iff {i : Int} : b.item i = .ok f ↔ b.get? i = some f := by
  rw [item]
  cases b.get? i <;> simp

theorem Valid.item_eq_error_iff (hb : b.Valid) (i : Int) :
    b.item i = .error ⟨i⟩ ↔ ¬ (1 ≤ i ∧ i ≤ b.size) := by
  rw [← hb.get?_isSome_iff, item]
  cases b.get? i <;> simp

/-- **The store stays coherent.** After any operations on the empty store, the numbers of the facts
are 1, 2, … in the order of entry, the next number follows them, no fact stands twice, and all
ways of reading agree. -/
theorem operations_coherent (os : List Operation) : (os.foldl perform .empty).Coherent := by
  have hb := Valid.foldl_perform os
  exact
    { numbers := hb.numbers
      next := hb.next
      nodup := hb.nodup
      distinct := hb.nodup.imp fun hne => beq_false_of_ne hne
      get?_isSome := hb.get?_isSome_iff
      item_ok := fun _ _ => item_eq_ok_iff
      item_error := hb.item_eq_error_iff
      get?_entries := fun _ _ => hb.get?_eq_some_iff_entries
      get?_values := fun _ _ => hb.get?_eq_some
      select_number := fun _ => select_toString _
      contains_unique := fun _ => hb.contains_iff_existsUnique
      byOperator_sublist := fun _ => List.filter_sublist
      byOperator_top := fun _ _ hf => (mem_byOperator.mp hf).2
      byOperator_perm := hb.flatMap_byOperator_perm
      proven := isProven_iff }

/-- Statements entered again after a clearing, one of them twice, are numbered from 1 on. -/
theorem operations_coherent_clear :
    let b := [Operation.add (.atom .p), .conclude (some (.atom .q)), .clear, .read,
      .addAll [.atom .q, .atom .p, .atom .q], .add (.neg (.atom .p))].foldl perform .empty
    b.size = 3 ∧ b.conclusion = none ∧ b.select "2" = .ok [.atom .p] := by
  intro b
  have hcoherent : b.Coherent := operations_coherent _
  refine ⟨by decide +kernel, by decide +kernel, ?_⟩
  exact (hcoherent.select_number 2 (by decide) (by decide)).trans (by decide +kernel)

end Deduction.FactBase
