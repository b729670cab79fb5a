import Deduction.Proofs.Inference

/-!
# Changing one part of a statement

`PartAt f path g` says which part stands at a path, and `replaceAt` puts another statement in its
place. A change at a path is this replacement, with the changed part (`PartAt.modifyAt_eq`). So
nothing but the addressed part is changed: its replacement stands at the path (`PartAt.replaceAt`),
what is above keeps its operator (`PartAt.operator?_replaceAt`), and what is beside stays as it is
(`PartAt.replaceAt_beside`). Each of these is first a fact about a single operand and then, by
induction on the path, about a part at any depth.

A path that leads nowhere has a first step that cannot be taken (`exists_part_or_offence`), and it
is this step that is reported (`Offence.modifyAt_eq`).
-/

namespace Deduction.Formula

variable {rule : Rule} {change : Formula → Except RuleError Formula}
variable {f g h k : Formula} {path before after other : List Int} {step position : Int}

/-! ### Single operands -/

theorem operand?_replaceOperand (hg : f.operand? step = some g) (k : Formula) :
    (f.replaceOperand step k).operand? step = some k := by
  rcases operand?_some hg with ⟨rfl, rfl⟩ | ⟨rfl, c, r, rfl⟩ | ⟨rfl, c, l, rfl⟩ <;> rfl

theorem operand?_replaceOperand_of_ne (hg : f.operand? step = some g) (k : Formula)
    (hne : position ≠ step) :
    (f.replaceOperand step k).operand? position = f.operand? position := by
  unfold operand?
  split_ifs with hlow
  · rfl
  -- a position other than 1 is an operand only of a joined pair, and then the other one
  obtain ⟨n, rfl⟩ : ∃ n : ℕ, position = n + 1 := ⟨(position - 1).toNat, by omega⟩
  rw [show ((n : Int) + 1 - 1).toNat = n by omega]
  rcases operand?_some hg with ⟨rfl, rfl⟩ | ⟨rfl, c, r, rfl⟩ | ⟨rfl, c, l, rfl⟩
  · rcases n with _ | n
    · exact absurd rfl hne
    · rfl
  · rcases n with _ | n
    · exact absurd rfl hne
    · rfl
  · rcases n with _ | _ | n
    · rfl
    · exact absurd rfl hne
    · rfl

theorem replaceOperand_replaceOperand (f : Formula) (step : Int) (h k : Formula) :
    (f.replaceOperand step h).replaceOperand step k = f.replaceOperand step k := by
  cases f with
  | atom a => rfl
  | neg f => rfl
  | binary c l r =>
    unfold replaceOperand
    split_ifs <;> rfl

theorem replaceOperand_self (hg : f.operand? step = some g) : f.replaceOperand step g = f := by
  rcases operand?_some hg with ⟨rfl, rfl⟩ | ⟨rfl, c, r, rfl⟩ | ⟨rfl, c, l, rfl⟩ <;> rfl

theorem operator?_replaceOperand (f : Formula) (step : Int) (k : Formula) :
    (f.replaceOperand step k).operator? = f.operator? := by
  cases f with
  | atom a => rfl
  | neg f => rfl
  | binary c l r =>
    unfold replaceOperand
    split_ifs <;> rfl

/-- A step from `f`: it is 1 or 2, and `f` has that many operands. -/
def CanStep (f : Formula) (step : Int) : Prop :=
  (step = 1 ∨ step = 2) ∧ step ≤ f.operands.length

theorem canStep_iff : f.CanStep step ↔ ∃ k, f.operand? step = some k := by
  constructor
  · rintro ⟨hrange, hle⟩
    unfold operand?
    rw [if_neg (by omega)]
    exact ⟨_, List.getElem?_eq_getElem (show (step - 1).toNat < f.operands.length by omega)⟩
  · rintro ⟨k, hk⟩
    rcases operand?_some hk with ⟨rfl, rfl⟩ | ⟨rfl, c, r, rfl⟩ | ⟨rfl, c, l, rfl⟩ <;>
      simp [CanStep, operands]

/-! ### Parts -/

/-- `g` is the part of `f` at `path`: the only operand of a negation is at 1, the operands of a
joined pair are at 1 and 2. -/
inductive PartAt : Formula → List Int → Formula → Prop
  | whole (f : Formula) : PartAt f [] f
  | negated {f g : Formula} {path : List Int} : PartAt f path g → PartAt (neg f) (1 :: path) g
  | left {c : Connective} {l r g : Formula} {path : List Int} : PartAt l path g →
    PartAt (binary c l r) (1 :: path) g
  | right {c : Connective} {l r g : Formula} {path : List Int} : PartAt r path g →
    PartAt (binary c l r) (2 :: path) g

theorem partAt_nil_iff : PartAt f [] g ↔ g = f := by
  constructor
  · intro h
    cases h
    rfl
  · rintro rfl
    exact .whole g

theorem partAt_cons_iff :
    PartAt f (step :: path) g ↔ ∃ k, f.operand? step = some k ∧ PartAt k path g := by
  constructor
  · intro h
    cases h with
    | negated h => exact ⟨_, rfl, h⟩
    | left h => exact ⟨_, rfl, h⟩
    | right h => exact ⟨_, rfl, h⟩
  · rintro ⟨k, hk, h⟩
    rcases operand?_some hk with ⟨rfl, rfl⟩ | ⟨rfl, c, r, rfl⟩ | ⟨rfl, c, l, rfl⟩
    · exact .negated h
    · exact .left h
    · exact .right h

/-- A part can be looked up. -/
theorem at?_eq_some_iff : f.at? path = some g ↔ PartAt f path g := by
  induction path generalizing f with
  | nil => rw [partAt_nil_iff, at?, Option.some.injEq, eq_comm]
  | cons step path ih => simp only [at?, partAt_cons_iff, Option.bind_eq_some_iff, ih]

instance : Decidable (PartAt f path g) := decidable_of_iff _ at?_eq_some_iff

theorem PartAt.unique (hg : PartAt f path g) (hh : PartAt f path h) : g = h :=
  Option.some.inj ((at?_eq_some_iff.mpr hg).symm.trans (at?_eq_some_iff.mpr hh))

/-- A path can be followed up to any point on it. -/
theorem PartAt.exists_of_append (h : PartAt f (before ++ after) g) :
    ∃ k, PartAt f before k ∧ PartAt k after g := by
  induction before generalizing f with
  | nil => exact ⟨f, .whole f, h⟩
  | cons step before ih =>
    obtain ⟨m, hm, h⟩ := partAt_cons_iff.mp h
    obtain ⟨k, hk, hg⟩ := ih h
    exact ⟨k, partAt_cons_iff.mpr ⟨m, hm, hk⟩, hg⟩

/-! ### Replacing a part -/

/-- `f` with the part at a path replaced; a path that leads nowhere changes nothing. -/
def replaceAt : Formula → List Int → Formula → Formula
  | _, [], k => k
  | f, step :: path, k =>
    match f.operand? step with
    | none => f
    | some g => f.replaceOperand step (g.replaceAt path k)

theorem replaceAt_cons (hg : f.operand? step = some g) :
    f.replaceAt (step :: path) k = f.replaceOperand step (g.replaceAt path k) := by
  rw [Formula.replaceAt, hg]

theorem PartAt.replaceAt (hp : PartAt f path g) (k : Formula) :
    PartAt (f.replaceAt path k) path k := by
  induction path generalizing f with
  | nil => exact .whole k
  | cons step path ih =>
    obtain ⟨m, hm, hp⟩ := partAt_cons_iff.mp hp
    rw [replaceAt_cons hm]
    exact partAt_cons_iff.mpr ⟨_, operand?_replaceOperand hm _, ih hp⟩

theorem PartAt.replaceAt_self (hp : PartAt f path g) : f.replaceAt path g = f := by
  induction path generalizing f with
  | nil => exact partAt_nil_iff.mp hp
  | cons step path ih =>
    obtain ⟨m, hm, hp⟩ := partAt_cons_iff.mp hp
    rw [replaceAt_cons hm, ih hp, replaceOperand_self hm]

theorem PartAt.replaceAt_replaceAt (hp : PartAt f path g) (h k : Formula) :
    (f.replaceAt path h).replaceAt path k = f.replaceAt path k := by
  induction path generalizing f with
  | nil => rfl
  | cons step path ih =>
    obtain ⟨m, hm, hp⟩ := partAt_cons_iff.mp hp
    rw [replaceAt_cons hm, replaceAt_cons hm, replaceAt_cons (operand?_replaceOperand hm _), ih hp,
      replaceOperand_replaceOperand]

/-- **Above the part** every operator stays. -/
theorem PartAt.operator?_replaceAt (hp : PartAt f path g) (k : Formula)
    (hpre : before <+: path) (hne : before ≠ path) :
    ∃ m n, PartAt f before m ∧ PartAt (f.replaceAt path k) before n ∧
      n.operator? = m.operator? := by
  induction path generalizing f before with
  | nil => exact absurd (List.prefix_nil.mp hpre) hne
  | cons step path ih =>
    obtain ⟨l, hl, hp⟩ := partAt_cons_iff.mp hp
    rw [replaceAt_cons hl]
    rcases List.prefix_cons_iff.mp hpre with rfl | ⟨before, rfl, hbefore⟩
    · exact ⟨f, _, .whole f, .whole _, operator?_replaceOperand f step _⟩
    · obtain ⟨m, n, hm, hn, hop⟩ := ih hp hbefore fun h => hne (by rw [h])
      exact ⟨m, n, partAt_cons_iff.mpr ⟨l, hl, hm⟩,
        partAt_cons_iff.mpr ⟨_, operand?_replaceOperand hl _, hn⟩, hop⟩

/-- **Beside the part** everything stays. -/
theorem PartAt.replaceAt_beside (hp : PartAt f path g) (k : Formula)
    (habove : ¬ other <+: path) (hbelow : ¬ path <+: other) :
    PartAt (f.replaceAt path k) other h ↔ PartAt f other h := by
  induction path generalizing f other with
  | nil => exact absurd List.nil_prefix hbelow
  | cons step path ih =>
    rcases other with _ | ⟨position, other⟩
    · exact absurd List.nil_prefix habove
    obtain ⟨l, hl, hpart⟩ := partAt_cons_iff.mp hp
    rw [replaceAt_cons hl, partAt_cons_iff, partAt_cons_iff]
    by_cases hstep : position = step
    · subst hstep
      have hsame := ih hpart (fun h => habove (List.cons_prefix_cons.mpr ⟨rfl, h⟩))
        fun h => hbelow (List.cons_prefix_cons.mpr ⟨rfl, h⟩)
      rw [operand?_replaceOperand hl, hl]
      simpa using hsame
    · rw [operand?_replaceOperand_of_ne hl _ hstep]

/-! ### Changing a part -/

theorem modifyAt_cons (hg : f.operand? step = some g) :
    f.modifyAt rule change (step :: path) =
      (g.modifyAt rule change path).map (f.replaceOperand step) := by
  obtain ⟨hrange, -⟩ := canStep_iff.mpr ⟨g, hg⟩
  rw [modifyAt, if_neg, hg]
  simp only [Bool.or_eq_true, decide_eq_true_eq]
  omega

/-- **A change at a path** is the replacement of the part there, if it can be changed. -/
theorem PartAt.modifyAt_eq (hp : PartAt f path g) :
    f.modifyAt rule change path = (change g).map (f.replaceAt path) := by
  induction path generalizing f with
  | nil =>
    rw [partAt_nil_iff.mp hp, modifyAt]
    rcases change f with e | k <;> rfl
  | cons step path ih =>
    obtain ⟨m, hm, hp⟩ := partAt_cons_iff.mp hp
    have hreplace : f.replaceAt (step :: path) = f.replaceOperand step ∘ m.replaceAt path :=
      funext fun k => replaceAt_cons hm
    rw [modifyAt_cons hm, ih hp, hreplace]
    rcases change g with e | k <;> rfl

/-- A path can be taken in two parts. -/
theorem modifyAt_append (f : Formula) (before after : List Int) :
    f.modifyAt rule change (before ++ after) =
      f.modifyAt rule (fun g => g.modifyAt rule change after) before := by
  induction before generalizing f with
  | nil => rfl
  | cons step before ih =>
    rw [List.cons_append, modifyAt, modifyAt]
    simp only [ih]

/-! ### Steps that cannot be taken -/

/-- The reason for which a path is refused: its first step that is neither 1 nor 2, or that leads to
an operand which the part reached so far does not have. -/
inductive Offence (rule : Rule) (f : Formula) (path : List Int) : RuleError → Prop
  | outOfRange {before after : List Int} {step : Int} {node : Formula} :
    path = before ++ step :: after → PartAt f before node → step ≠ 1 → step ≠ 2 →
    Offence rule f path (.stepOutOfRange rule)
  | noOperand {before after : List Int} {step : Int} {node : Formula} :
    path = before ++ step :: after → PartAt f before node → step = 1 ∨ step = 2 →
    node.operands.length < step → Offence rule f path (.noSuchOperand rule)

theorem Offence.modifyAt_eq {e : RuleError} (ho : Offence rule f path e) :
    f.modifyAt rule change path = .error e := by
  cases ho with
  | @outOfRange before after step node hpath hnode hone htwo =>
    have hstep : node.modifyAt rule change (step :: after) = .error (.stepOutOfRange rule) := by
      rw [modifyAt, if_pos]
      simp only [Bool.or_eq_true, decide_eq_true_eq]
      omega
    rw [hpath, modifyAt_append, hnode.modifyAt_eq, hstep]
    rfl
  | @noOperand before after step node hpath hnode hrange hlength =>
    have hnone : node.operand? step = none := by
      rw [Option.eq_none_iff_forall_ne_some]
      intro k hk
      have hle := (canStep_iff.mpr ⟨k, hk⟩).2
      omega
    have hstep : node.modifyAt rule change (step :: after) = .error (.noSuchOperand rule) := by
      rw [modifyAt, if_neg, hnone]
      simp only [Bool.or_eq_true, decide_eq_true_eq]
      omega
    rw [hpath, modifyAt_append, hnode.modifyAt_eq, hstep]
    rfl

theorem Offence.cons {e : RuleError} (hk : f.operand? step = some k)
    (ho : Offence rule k path e) : Offence rule f (step :: path) e := by
  cases ho with
  | outOfRange hpath hnode hone htwo =>
    exact .outOfRange (by rw [hpath, List.cons_append]) (partAt_cons_iff.mpr ⟨k, hk, hnode⟩)
      hone htwo
  | noOperand hpath hnode hrange hlength =>
    exact .noOperand (by rw [hpath, List.cons_append]) (partAt_cons_iff.mpr ⟨k, hk, hnode⟩)
      hrange hlength

/-- **A path that leads nowhere** has a first step that cannot be taken. -/
theorem exists_part_or_offence (rule : Rule) (f : Formula) (path : List Int) :
    (∃ g, PartAt f path g) ∨ ∃ e, Offence rule f path e := by
  induction path generalizing f with
  | nil => exact Or.inl ⟨f, .whole f⟩
  | cons step path ih =>
    by_cases hrange : step = 1 ∨ step = 2
    · by_cases hle : step ≤ f.operands.length
      · obtain ⟨k, hk⟩ := canStep_iff.mp ⟨hrange, hle⟩
        rcases ih k with ⟨g, hg⟩ | ⟨e, he⟩
        · exact Or.inl ⟨g, partAt_cons_iff.mpr ⟨k, hk, hg⟩⟩
        · exact Or.inr ⟨e, he.cons hk⟩
      · exact Or.inr ⟨_, .noOperand rfl (.whole f) hrange (by omega)⟩
    · rw [not_or] at hrange
      exact Or.inr ⟨_, .outOfRange rfl (.whole f) hrange.1 hrange.2⟩

/-- Every step of `path` can be taken from the part that the steps before it lead to. -/
def CanFollow (f : Formula) (path : List Int) : Prop :=
  ∀ before step after, path = before ++ step :: after → ∃ node, PartAt f before node ∧
    node.CanStep step

theorem Offence.not_canFollow {e : RuleError} (ho : Offence rule f path e) :
    ¬ f.CanFollow path := by
  intro hfollow
  cases ho with
  | outOfRange hpath hnode hone htwo =>
    obtain ⟨node, -, hrange, -⟩ := hfollow _ _ _ hpath
    exact hrange.elim hone htwo
  | noOperand hpath hnode hrange hlength =>
    obtain ⟨node, hnode', -, hle⟩ := hfollow _ _ _ hpath
    rw [hnode'.unique hnode] at hle
    omega

theorem canFollow_iff : f.CanFollow path ↔ ∃ g, PartAt f path g := by
  constructor
  · intro hfollow
    rcases exists_part_or_offence .dn f path with hpart | ⟨e, he⟩
    · exact hpart
    · exact absurd hfollow he.not_canFollow
  · rintro ⟨g, hg⟩ before step after rfl
    obtain ⟨node, hnode, hrest⟩ := hg.exists_of_append
    obtain ⟨k, hk, -⟩ := partAt_cons_iff.mp hrest
    exact ⟨node, hnode, canStep_iff.mpr ⟨k, hk⟩⟩

/-! ### What a change does -/

theorem modifyAt_eq_ok_iff :
    f.modifyAt rule change path = .ok h ↔
      ∃ g k, PartAt f path g ∧ change g = .ok k ∧ h = f.replaceAt path k := by
  constructor
  · intro hm
    rcases exists_part_or_offence rule f path with ⟨g, hg⟩ | ⟨e, he⟩
    · rw [hg.modifyAt_eq, map_eq_ok_iff] at hm
      obtain ⟨k, hk, rfl⟩ := hm
      exact ⟨g, k, hg, hk, rfl⟩
    · rw [he.modifyAt_eq] at hm
      cases hm
  · rintro ⟨g, k, hg, hk, rfl⟩
    rw [hg.modifyAt_eq, hk]
    rfl

theorem modifyAt_eq_error_iff {e : RuleError} :
    f.modifyAt rule change path = .error e ↔
      Offence rule f path e ∨ ∃ g, PartAt f path g ∧ change g = .error e := by
  constructor
  · intro hm
    rcases exists_part_or_offence rule f path with ⟨g, hg⟩ | ⟨e', he⟩
    · right
      rw [hg.modifyAt_eq] at hm
      rcases hc : change g with e' | k
      · rw [hc] at hm
        exact ⟨g, hg, by rw [hc]; exact hm⟩
      · rw [hc] at hm
        cases hm
    · left
      rw [he.modifyAt_eq] at hm
      cases hm
      exact he
  · rintro (he | ⟨g, hg, hc⟩)
    · exact he.modifyAt_eq
    · rw [hg.modifyAt_eq, hc]
      rfl

/-- **A change at a path is a change of the part there and of nothing else.** It succeeds exactly
if every step of the path can be taken and the part that is reached can be changed. Then the changed
part stands at the path, every operator above it is kept, and every part beside it too. Otherwise
the change is refused, in the name of the rule, for the first step that cannot be taken; where all
can, the refusal is that of the part. -/
theorem modifyAt_exact (rule : Rule) (f : Formula) (path : List Int)
    (change : Formula → Except RuleError Formula) :
    ((∃ h, f.modifyAt rule change path = .ok h) ↔
      f.CanFollow path ∧ ∀ g, PartAt f path g → ∃ k, change g = .ok k) ∧
    (∀ h, f.modifyAt rule change path = .ok h →
      (∃ g k, PartAt f path g ∧ change g = .ok k ∧ PartAt h path k) ∧
      (∀ above, above <+: path → above ≠ path →
        ∃ m n, PartAt f above m ∧ PartAt h above n ∧ n.operator? = m.operator?) ∧
      ∀ beside, ¬ beside <+: path → ¬ path <+: beside →
        ∀ g, PartAt h beside g ↔ PartAt f beside g) ∧
    (∀ e, f.modifyAt rule change path = .error e ↔
      Offence rule f path e ∨ ∃ g, PartAt f path g ∧ change g = .error e) ∧
    ((RuleError.stepOutOfRange rule).subject = rule.terse ∧
      (RuleError.stepOutOfRange rule).reason = "Location too large or small") ∧
    (RuleError.noSuchOperand rule).subject = rule.terse ∧
      (RuleError.noSuchOperand rule).reason = "Invalid location" := by
  refine ⟨⟨?_, ?_⟩, ?_, fun e => modifyAt_eq_error_iff, ⟨rfl, rfl⟩, rfl, rfl⟩
  · rintro ⟨h, hm⟩
    obtain ⟨g, k, hg, hk, -⟩ := modifyAt_eq_ok_iff.mp hm
    refine ⟨canFollow_iff.mpr ⟨g, hg⟩, fun g' hg' => ⟨k, ?_⟩⟩
    rw [hg'.unique hg, hk]
  · rintro ⟨hfollow, hchange⟩
    obtain ⟨g, hg⟩ := canFollow_iff.mp hfollow
    obtain ⟨k, hk⟩ := hchange g hg
    exact ⟨_, modifyAt_eq_ok_iff.mpr ⟨g, k, hg, hk, rfl⟩⟩
  · intro h hm
    obtain ⟨g, k, hg, hk, rfl⟩ := modifyAt_eq_ok_iff.mp hm
    exact ⟨⟨g, k, hg, hk, hg.replaceAt k⟩, fun _ => hg.operator?_replaceAt k,
      fun _ habove hbelow _ => hg.replaceAt_beside k habove hbelow⟩

/-- Double negation of `r` inside `p ^ ~(q V r)` leaves `p` and `q` where they are. The negation has
no second operand, and no statement has a third one. -/
theorem modifyAt_exact_right_operand :
    let f := binary .and (atom .p) (neg (binary .or (atom .q) (atom .r)))
    let change := fun g => Rule.infer .dn [g]
    (∃ h, f.modifyAt .dn change [2, 1, 2] = .ok h ∧ PartAt h [2, 1, 2] (neg (neg (atom .r))) ∧
      PartAt h [2, 1, 1] (atom .q) ∧ PartAt h [1] (atom .p)) ∧
    f.modifyAt .dn change [2, 2, 7] = .error (.noSuchOperand .dn) ∧
    f.modifyAt .dn change [2, 1, 3, 1] = .error (.stepOutOfRange .dn) := by
  intro f change
  have hr : PartAt f [2, 1, 2] (atom .r) := by decide
  have hchange : change (atom .r) = .ok (neg (neg (atom .r))) :=
    (Rule.Concludes.addSigns _ (by simp)).infer_eq
  obtain ⟨h, hm⟩ := (modifyAt_exact .dn f [2, 1, 2] change).1.mpr
    ⟨canFollow_iff.mpr ⟨_, hr⟩, fun g hg => ⟨_, hg.unique hr ▸ hchange⟩⟩
  obtain ⟨⟨g, k, hg, hk, hpart⟩, -, hbeside⟩ :=
    (modifyAt_exact .dn f [2, 1, 2] change).2.1 h hm
  rw [hg.unique hr, hchange] at hk
  cases hk
  have hneg : PartAt f [2] (neg (binary .or (atom .q) (atom .r))) := by decide
  have hor : PartAt f [2, 1] (binary .or (atom .q) (atom .r)) := by decide
  refine ⟨⟨h, hm, hpart, (hbeside [2, 1, 1] (by decide) (by decide) _).mpr (by decide),
    (hbeside [1] (by decide) (by decide) _).mpr (by decide)⟩, ?_, ?_⟩
  · exact ((modifyAt_exact .dn f [2, 2, 7] change).2.2.1 _).mpr
      (Or.inl (.noOperand rfl hneg (Or.inr rfl) (by decide)))
  · exact ((modifyAt_exact .dn f [2, 1, 3, 1] change).2.2.1 _).mpr
      (Or.inl (.outOfRange rfl hor (by decide) (by decide)))

end Deduction.Formula
