import Deduction.Proofs.DoubleNegation
import Deduction.Proofs.Wildcard

/-!
# Calls by number

A rule call with the numbers of facts applies the rule to these facts and does nothing else
(`Session.applies_by_number`). The call may be written in many ways: the name in any letter case
(`Rule.lookup?_of_spelledAs`), a number with zeros before it (`Session.Names.selectFor`), and
blanks anywhere, since they are taken out before the call is read (`Session.handle_writtenIn`). A
path of positions 1 and 2 always has the shape that a call asks for, and it is read as these
positions (`RuleCall.readPath_pathText`).

What the line is answered with then depends on the outcome of the application alone (`Answered`).
-/

namespace Deduction

/-! ### Letter case -/

namespace Text

theorem lowerAfter_of_ascii : ∀ {cs : List Char} (before : List Char),
    (∀ c ∈ cs, c.toNat < 128) → lowerAfter before cs = cs.map Char.toLower
  | [], _, _ => rfl
  | c :: cs, before, h => by
    have hc := h c List.mem_cons_self
    have hsigma : c ≠ 'Σ' := by
      rintro rfl
      exact absurd hc (by decide)
    rw [lowerAfter, if_neg hsigma, lowerChar, if_pos hc,
      lowerAfter_of_ascii (c :: before) fun d hd => h d (List.mem_cons_of_mem c hd)]
    rfl

theorem lowercase_strip_of_letters {word : String} (h : ∀ c ∈ word.toList, c.isAlpha = true) :
    lowercase (strip word) = String.ofList (word.toList.map Char.toLower) := by
  have hblank : ∀ c ∈ word.toList, isBlank c = false := by
    intro c hc
    obtain ⟨hlo, hhi⟩ := RuleCall.visible_of_isAlpha (h c hc)
    exact isBlank_of_visible (by omega) (by omega)
  have hascii : ∀ c ∈ word.toList, c.toNat < 128 := by
    intro c hc
    obtain ⟨-, hhi⟩ := RuleCall.visible_of_isAlpha (h c hc)
    omega
  rw [strip_eq_self hblank, lowercase, lowerAfter_of_ascii [] hascii]

/-- The same letters, each in upper or lower case. -/
def SpelledAs (name word : String) : Prop :=
  name.toList.map Char.toLower = word.toList.map Char.toLower

instance (name word : String) : Decidable (SpelledAs name word) :=
  inferInstanceAs (Decidable (_ = _))

theorem isAlpha_of_toLower {c : Char} (h : c.toLower.isAlpha = true) : c.isAlpha = true := by
  unfold Char.toLower at h
  split at h
  · next hupper =>
    have hupper : c.isUpper = true := decide_eq_true hupper
    exact show (c.isUpper || c.isLower) = true by rw [hupper, Bool.true_or]
  · exact h

/-! ### Leading zeros -/

theorem isDigit_of_mem_padded {zeros k : ℕ} {c : Char}
    (hc : c ∈ List.replicate zeros '0' ++ (toString k).toList) : c.isDigit = true := by
  rcases List.mem_append.mp hc with hc | hc
  · rw [List.eq_of_mem_replicate hc]
    rfl
  · exact isDigit_of_mem_toString hc

/-- **Zeros before a number** do not change it. -/
theorem readNumeral_leading_zeros {zeros k : ℕ} (hlen : zeros + (toString k).length ≤ digitLimit) :
    readNumeral (List.replicate zeros '0' ++ (toString k).toList) = .ok k := by
  have hvalue : ∀ n, Nat.ofDigitChars 10 (List.replicate n '0' ++ (toString k).toList) 0 = k := by
    intro n
    induction n with
    | zero =>
      rw [List.replicate_zero, List.nil_append, toList_toString, Nat.ofDigitChars_ten_toDigits]
    | succ n ih =>
      rw [List.replicate_succ, List.cons_append, Nat.ofDigitChars_cons]
      exact ih
  have hlength : (List.replicate zeros '0' ++ (toString k).toList).length ≤ digitLimit := by
    rw [List.length_append, List.length_replicate, String.length_toList]
    exact hlen
  rw [readNumeral_of_digits (by simp) (fun _ hc => isDigit_of_mem_padded hc) hlength, hvalue]

end Text

namespace Rule

variable {rule : Rule} {name : String}

theorem isAlpha_of_spelledAs (h : Text.SpelledAs name rule.terse) :
    ∀ c ∈ name.toList, c.isAlpha = true := by
  intro c hc
  have hmem : c.toLower ∈ rule.terse.toList.map Char.toLower := h ▸ List.mem_map_of_mem hc
  have hlower : ∀ d ∈ rule.terse.toList.map Char.toLower, d.isAlpha = true :=
    List.all_eq_true.mp (by cases rule <;> decide)
  exact Text.isAlpha_of_toLower (hlower _ hmem)

theorem length_of_spelledAs (h : Text.SpelledAs name rule.terse) :
    name.toList.length = rule.terse.toList.length := by
  simpa using congrArg List.length h

/-- **A rule is found by its terse name in any letter case.** -/
theorem lookup?_of_spelledAs (h : Text.SpelledAs name rule.terse) : lookup? name = some rule := by
  have hfound : lookup? rule.terse = some rule := by cases rule <;> decide +kernel
  rw [lookup?, Text.lowercase_strip_of_letters (isAlpha_of_spelledAs rfl)] at hfound
  rw [lookup?, Text.lowercase_strip_of_letters (isAlpha_of_spelledAs h), h]
  exact hfound

/-- A rule with a short name can be called by it in any letter case. -/
theorem calledBy_of_short (hshort : rule.terse.toList.length ≤ 4)
    (h : Text.SpelledAs name rule.terse) : rule.CalledBy name := by
  have hpos : 1 ≤ rule.terse.toList.length := by cases rule <;> decide
  have hlength := length_of_spelledAs h
  exact ⟨isAlpha_of_spelledAs h, by omega, lookup?_of_spelledAs h⟩

theorem calledBy_of_spelledAs (hi : rule.isImplemented = true)
    (h : Text.SpelledAs name rule.terse) : rule.CalledBy name :=
  calledBy_of_short (calledBy_terse hi).short.2 h

end Rule

/-! ### Paths -/

namespace RuleCall

variable {steps : List ℕ}

/-- The text of a path: its positions with dots between them. -/
def pathText (steps : List ℕ) : String :=
  String.ofList (['.'].intercalate (steps.map fun step => (toString step).toList))

/-- Every position is 1 or 2. -/
def IsTwoWay (steps : List ℕ) : Prop := ∀ step ∈ steps, step = 1 ∨ step = 2

instance : Decidable (IsTwoWay steps) := inferInstanceAs (Decidable (∀ step ∈ steps, _))

theorem toList_pathText_singleton (step : ℕ) :
    (pathText [step]).toList = (toString step).toList := by
  rw [pathText, String.toList_ofList, List.map_singleton, List.intercalate_singleton]

theorem toList_pathText_cons_cons (step next : ℕ) (steps : List ℕ) :
    (pathText (step :: next :: steps)).toList =
      (toString step).toList ++ '.' :: (pathText (next :: steps)).toList := by
  rw [pathText, String.toList_ofList, List.map_cons, List.map_cons, List.intercalate_cons_cons,
    pathText, String.toList_ofList, List.map_cons, List.append_assoc, List.singleton_append]

theorem IsTwoWay.isPathChar (h : IsTwoWay steps) :
    ∀ c ∈ (pathText steps).toList, isPathChar c = true := by
  intro c hc
  rw [pathText, String.toList_ofList] at hc
  rcases Text.mem_intercalate hc with rfl | ⟨part, hpart, hc⟩
  · rfl
  · obtain ⟨step, hstep, rfl⟩ := List.mem_map.mp hpart
    have hdigit : ∀ k, k = 1 ∨ k = 2 → (toString k).toList.all RuleCall.isPathChar = true := by
      rintro k (rfl | rfl) <;> decide
    exact List.all_eq_true.mp (hdigit step (h step hstep)) c hc

/-- A path ends in a digit. -/
theorem exists_getLast?_pathText (step : ℕ) (steps : List ℕ) :
    ∃ c, (pathText (step :: steps)).toList.getLast? = some c ∧ c.isDigit = true := by
  induction steps generalizing step with
  | nil =>
    rw [toList_pathText_singleton]
    refine ⟨_, List.getLast?_eq_some_getLast (Text.toString_ne_nil step), ?_⟩
    exact Text.isDigit_of_mem_toString (List.getLast_mem _)
  | cons next steps ih =>
    obtain ⟨c, hc, hdigit⟩ := ih next
    refine ⟨c, ?_, hdigit⟩
    rw [toList_pathText_cons_cons, List.append_cons, List.getLast?_append, hc, Option.some_or]

theorem IsTwoWay.shape (h : IsTwoWay steps) (hne : steps ≠ []) :
    isReference (pathText steps).toList = true ∨ isPath (pathText steps).toList = true := by
  rcases steps with _ | ⟨step, _ | ⟨next, steps⟩⟩
  · exact absurd rfl hne
  · left
    rw [toList_pathText_singleton]
    exact isReference_toString step
  · right
    obtain ⟨c, hlast, hdigit⟩ := exists_getLast?_pathText step (next :: steps)
    have hc : c ≠ '.' := by
      rintro rfl
      exact absurd hdigit (by decide)
    have hlength : 2 ≤ (pathText (step :: next :: steps)).toList.length := by
      have hpos := List.length_pos_iff.mpr (Text.toString_ne_nil step)
      rw [toList_pathText_cons_cons, List.length_append, List.length_cons]
      omega
    rw [isPath, hlast, List.all_eq_true.mpr h.isPathChar, decide_eq_true hlength, Bool.and_self,
      Bool.true_and, bne_iff_ne, Ne, Option.some.injEq]
    exact hc

theorem readPositions_toString {rule : Rule} (h : IsTwoWay steps) :
    readPositions rule (steps.map fun step => (toString step).toList) = .ok steps := by
  induction steps with
  | nil => rfl
  | cons step steps ih =>
    obtain ⟨hstep, hsteps⟩ := List.forall_mem_cons.mp h
    have hlen : (toString step).length ≤ Text.digitLimit := by
      rcases hstep with rfl | rfl <;> decide
    have hdigits := Text.isDigits_of_digits (Text.toString_ne_nil step)
      fun _ hc => Text.isDigit_of_mem_toString hc
    rw [List.map_cons, readPositions, hdigits, Text.readNumeral_toString hlen, ih hsteps]
    rfl

/-- **A path of positions 1 and 2 is read as these.** -/
theorem readPath_pathText {rule : Rule} (h : IsTwoWay steps) (hne : steps ≠ []) :
    readPath rule (pathText steps) = .ok (some steps) := by
  have hwhole : pathText steps ≠ wholePath := by
    intro heq
    have hzero := h.isPathChar '0' (by rw [heq]; decide)
    exact absurd hzero (by decide)
  have hdots : ∀ part ∈ steps.map (fun step => (toString step).toList), '.' ∉ part := by
    intro part hpart hdot
    obtain ⟨step, -, rfl⟩ := List.mem_map.mp hpart
    exact absurd (Text.isDigit_of_mem_toString hdot) (by decide)
  rw [readPath, if_neg hwhole, pathText, String.toList_ofList,
    Text.splitChars_intercalate (by simpa using hne) hdots, readPositions_toString h]
  rfl

/-! ### Blanks -/

/-- The line is the text of the call with blanks in any places. -/
def WrittenIn (call : RuleCall) (line : String) : Prop :=
  Text.squeezeChars line.toList = call.text.toList

instance (call : RuleCall) (line : String) : Decidable (call.WrittenIn line) :=
  inferInstanceAs (Decidable (_ = _))

theorem WrittenIn.parse_eq {call : RuleCall} {line : String} (h : call.WrittenIn line) :
    parse line = parse call.text := by
  have hsqueeze : Text.squeezeChars call.text.toList = Text.squeezeChars line.toList := by
    rw [← h, Text.squeezeChars, Text.squeezeChars, List.filter_filter]
    simp only [Bool.and_self]
  rw [parse, parse, hsqueeze]

end RuleCall

/-- The store with one more fact, under the number after those of the others. -/
def FactBase.withNext (b : FactBase) (f : Formula) : FactBase :=
  { b with entries := b.entries ++ [(b.size + 1, f)], next := b.size + 2 }

namespace Session

variable {s : Session} {rule : Rule} {name first second line : String} {f g : Formula}

/-- **Blanks do not change what a call does.** -/
theorem handle_writtenIn {arguments : List String} (hm : s.mode = .rule) (hp : s.pending = none)
    (hn : rule.CalledBy name) (ha : Rule.TakesArguments arguments)
    (h : RuleCall.WrittenIn ⟨name, arguments⟩ line) :
    s.handle line = s.handle (RuleCall.text ⟨name, arguments⟩) := by
  have hcall := hn.parse_text ha
  rw [handle_call hm hp hcall, handle_call hm hp (h.parse_eq.trans hcall), runRule, runRule,
    requestOf, requestOf, h.parse_eq]

/-! ### Numbers of facts -/

/-- The text is the number of the fact `f`, in decimal, perhaps with zeros before it, and with no
more digits than are read. -/
def Names (s : Session) (text : String) (f : Formula) : Prop :=
  ∃ zeros i, text.toList = List.replicate zeros '0' ++ (toString i).toList ∧
    text.length ≤ Text.digitLimit ∧ (i, f) ∈ s.facts.entries

theorem Names.isDigit (h : s.Names first f) : ∀ c ∈ first.toList, c.isDigit = true := by
  obtain ⟨zeros, i, htext, -, -⟩ := h
  rw [htext]
  exact fun _ hc => Text.isDigit_of_mem_padded hc

theorem Names.ne_nil (h : s.Names first f) : first.toList ≠ [] := by
  obtain ⟨zeros, i, htext, -, -⟩ := h
  rw [htext]
  exact List.append_ne_nil_of_right_ne_nil _ (Text.toString_ne_nil i)

theorem Names.isReference (h : s.Names first f) : RuleCall.isReference first.toList = true :=
  RuleCall.isReference_of_digits h.ne_nil h.isDigit

theorem Names.ne_wildcard (h : s.Names first f) : first ≠ FactBase.wildcard :=
  FactBase.ne_wildcard_of_digits h.isDigit

theorem Names.selectFor (h : s.Names first f) (hv : s.facts.Valid) :
    s.selectFor rule first = .ok [f] := by
  have hdigits := h.isDigit
  have hne := h.ne_nil
  obtain ⟨zeros, i, htext, hlen, hmem⟩ := h
  obtain ⟨hpos, -, hget⟩ := hv.get?_of_mem_entries hmem
  rw [← String.length_toList, htext, List.length_append, List.length_replicate,
    String.length_toList] at hlen
  rw [Session.selectFor, FactBase.select_digits _ hne hdigits, htext,
    Text.readNumeral_leading_zeros hlen]
  simp only
  rw [if_neg (by omega), hget]
  rfl

/-! ### Answers -/

/-- What a line is answered with that applies `rule` once, by the outcome of the application: one
error that names the rule, or nothing if the result is stored already, or the result under the next
number. Nothing else changes. -/
inductive Answered (s : Session) (line : String) (rule : Rule) : Except RuleError Formula → Prop
  | refused {e : RuleError} :
    s.handle line = .ok (s, { errors := ["Error executing " ++ rule.terse ++ " - " ++ e.reason] }) →
    Answered s line rule (.error e)
  | repeated {f : Formula} : f ∈ s.facts.values → s.handle line = .ok (s, {}) →
    Answered s line rule (.ok f)
  | new {f : Formula} : f ∉ s.facts.values →
    s.handle line = .ok ({ s with facts := s.facts.withNext f },
      { messages := [toString (s.facts.size + 1) ++ "\t" ++ f.render ++ "  (" ++
          rule.label s.verboseRules ++ ")"] }) →
    Answered s line rule (.ok f)

theorem Answered.of_error {e : RuleError} (hsubject : e.subject = rule.terse)
    (h : s.handle line = .ok (s, { errors := [e.message] })) :
    s.Answered line rule (.error e) := by
  have hmessage : e.message = "Error executing " ++ rule.terse ++ " - " ++ e.reason := by
    rw [← hsubject]
    rfl
  exact Answered.refused (hmessage ▸ h)

theorem storeResults_of_mem {b : FactBase} (h : f ∈ b.values) : storeResults b [f] = (b, []) := by
  rw [storeResults, FactBase.add_of_mem h]
  rfl

theorem storeResults_of_notMem {b : FactBase} (hv : b.Valid) (h : f ∉ b.values) :
    storeResults b [f] = (b.withNext f, [(b.size + 1, f)]) := by
  have hadd : b.add f = (b.withNext f, true) := by
    rw [FactBase.add_of_notMem h, FactBase.withNext, hv.next]
  have hsize : (b.withNext f).size = b.size + 1 := List.length_append
  simp only [storeResults, hadd, hsize, if_true]

theorem Runs.answered {α : Type} {apply : α → Except RuleError Formula} {x : α}
    {outcome : Except RuleError Formula} (h : s.Runs line rule false apply [x])
    (hv : s.facts.Valid) (hx : apply x = outcome)
    (hsubject : ∀ e, outcome = .error e → e.subject = rule.terse) :
    s.Answered line rule outcome := by
  rcases outcome with e | f
  · exact Answered.of_error (hsubject e rfl) (h.handle_error hx)
  · have hhandle := h.handle_ok hx
    by_cases hf : f ∈ s.facts.values
    · refine Answered.repeated hf ?_
      rw [hhandle, record, storeResults_of_mem hf]
      rfl
    · refine Answered.new hf ?_
      rw [hhandle, record, storeResults_of_notMem hv hf]
      rfl

/-! ### All calls by number -/

/-- A call with the numbers of facts applies its rule to these facts. -/
structure AppliesByNumber (s : Session) : Prop where
  one : ∀ (rule : Rule) (name first line : String) f, rule.isImplemented = true → rule.arity = 1 →
    Text.SpelledAs name rule.terse → s.Names first f → RuleCall.WrittenIn ⟨name, [first]⟩ line →
    s.Answered line rule (rule.infer [f])
  /-- With two facts; addition is included. -/
  two : ∀ (rule : Rule) (name first second line : String) f g, rule.isImplemented = true →
    rule.arity = 2 → Text.SpelledAs name rule.terse → s.Names first f → s.Names second g →
    RuleCall.WrittenIn ⟨name, [first, second]⟩ line → s.Answered line rule (rule.infer [f, g])
  /-- Double negation changes the part at the path, if there is one. -/
  atPath : ∀ (name first line : String) f steps, Text.SpelledAs name (Rule.terse .dn) →
    s.Names first f → steps ≠ [] → RuleCall.IsTwoWay steps →
    RuleCall.WrittenIn ⟨name, [first, RuleCall.pathText steps]⟩ line →
    (∀ g, Formula.PartAt f (steps.map Int.ofNat) g →
      s.Answered line .dn (.ok (f.replaceAt (steps.map Int.ofNat) g.toggleSigns))) ∧
    ((∀ g, ¬ Formula.PartAt f (steps.map Int.ofNat) g) →
      s.Answered line .dn (.error (.noSuchOperand .dn)))
  /-- The path `0` is the whole statement. -/
  whole : ∀ (name name' first first' line line' : String) f,
    Text.SpelledAs name (Rule.terse .dn) → Text.SpelledAs name' (Rule.terse .dn) →
    s.Names first f → s.Names first' f → RuleCall.WrittenIn ⟨name, [first, "0"]⟩ line →
    RuleCall.WrittenIn ⟨name', [first']⟩ line' → s.handle line = s.handle line'

theorem Runs.of_handle_eq {α : Type} {silent : Bool} {apply : α → Except RuleError Formula}
    {xs : List α} {line' : String} (h : s.Runs line rule silent apply xs)
    (heq : s.handle line' = s.handle line) : s.Runs line' rule silent apply xs := by
  obtain ⟨b, hhandle, hrule, hrun⟩ := h
  exact ⟨b, heq.trans hhandle, hrule, hrun⟩

theorem subject_of_infer {fs : List Formula} (hi : rule.isImplemented = true)
    (hc : fs.length = rule.arity) : ∀ e, rule.infer fs = .error e → e.subject = rule.terse := by
  intro e he
  by_cases hsome : ∃ h, rule.Concludes fs h
  · obtain ⟨h, hh⟩ := hsome
    rw [hh.infer_eq] at he
    cases he
  · rw [not_exists] at hsome
    rw [Rule.infer_eq_error hi hc hsome] at he
    cases he
    rfl

section Calls

variable (hm : s.mode = .rule) (hp : s.pending = none) (hv : s.facts.Valid)
include hm hp hv

theorem runs_named_one (hi : rule.isImplemented = true) (ha : rule.arity = 1)
    (hname : Text.SpelledAs name rule.terse) (hf : s.Names first f)
    (hline : RuleCall.WrittenIn ⟨name, [first]⟩ line) :
    s.Runs line rule false (fun f => rule.infer [f]) [f] := by
  have hn := Rule.calledBy_of_spelledAs hi hname
  have hruns := runs_one hm hp hn hi ha hf.isReference (hf.selectFor hv)
  rw [decide_eq_false hf.ne_wildcard] at hruns
  exact hruns.of_handle_eq
    (handle_writtenIn hm hp hn (Rule.takesArguments_one hf.isReference) hline)

theorem runs_named_two (hi : rule.isImplemented = true) (ha : rule.arity = 2)
    (hname : Text.SpelledAs name rule.terse) (hf : s.Names first f) (hg : s.Names second g)
    (hline : RuleCall.WrittenIn ⟨name, [first, second]⟩ line) :
    s.Runs line rule false (fun p => rule.infer [p.1, p.2]) [(f, g)] := by
  have hn := Rule.calledBy_of_spelledAs hi hname
  have hruns := runs_two hm hp hn ha hf.isReference hg.isReference (hf.selectFor hv)
    (hg.selectFor hv) fun _ => rfl
  rw [decide_eq_false (not_or.mpr ⟨hf.ne_wildcard, hg.ne_wildcard⟩)] at hruns
  exact hruns.of_handle_eq (handle_writtenIn hm hp hn
    (Rule.takesArguments_two hf.isReference (Or.inl hg.isReference)) hline)

theorem runs_named_path {path : Option (List ℕ)} (hname : Text.SpelledAs name (Rule.terse .dn))
    (hf : s.Names first f)
    (hshape : RuleCall.isReference second.toList = true ∨ RuleCall.isPath second.toList = true)
    (hpath : RuleCall.readPath .dn second = .ok path)
    (hline : RuleCall.WrittenIn ⟨name, [first, second]⟩ line) :
    s.Runs line .dn false
      (fun f => f.modifyAt .dn (fun g => Rule.infer .dn [g]) ((path.getD []).map Int.ofNat))
      [f] := by
  have hn := Rule.calledBy_of_spelledAs rfl hname
  have hruns := runs_path hm hp hn hf.isReference hshape (hf.selectFor hv) hpath
  rw [decide_eq_false hf.ne_wildcard] at hruns
  exact hruns.of_handle_eq
    (handle_writtenIn hm hp hn (Rule.takesArguments_two hf.isReference hshape) hline)

end Calls

/-- Where no part stands at a path of positions 1 and 2, an operand is missing. -/
theorem modifyAt_noSuchOperand {steps : List ℕ} {change : Formula → Except RuleError Formula}
    (hsteps : RuleCall.IsTwoWay steps)
    (hnone : ∀ g, ¬ Formula.PartAt f (steps.map Int.ofNat) g) :
    f.modifyAt rule change (steps.map Int.ofNat) = .error (.noSuchOperand rule) := by
  rcases Formula.exists_part_or_offence rule f (steps.map Int.ofNat) with ⟨g, hg⟩ | ⟨e, he⟩
  · exact absurd hg (hnone g)
  cases he with
  | @outOfRange before after step node hpath hnode hone htwo =>
    have hmem : step ∈ steps.map Int.ofNat := hpath ▸ by simp
    obtain ⟨k, hk, rfl⟩ := List.mem_map.mp hmem
    rcases hsteps k hk with rfl | rfl
    · exact absurd rfl hone
    · exact absurd rfl htwo
  | noOperand hpath hnode hrange hlength =>
    exact (Formula.Offence.noOperand hpath hnode hrange hlength).modifyAt_eq

/-- **Calls by number.** Where rule calls are taken, a call with the numbers of facts, in any letter
case, with zeros before the numbers and with blanks anywhere, applies the rule to these facts. If it
does not fit, one error names the rule and nothing changes; otherwise the result is stored and
reported under its number, unless it is stored already. Double negation takes every path of
positions 1 and 2 and changes the part that stands there. -/
theorem applies_by_number {s : Session} (hs : s.Reachable) (hm : s.mode = .rule)
    (hp : s.pending = none) : s.AppliesByNumber := by
  have hv := hs.valid
  refine ⟨?_, ?_, ?_, ?_⟩
  · intro rule name first line f hi ha hname hf hline
    have hruns := runs_named_one hm hp hv hi ha hname hf hline
    exact hruns.answered hv rfl (subject_of_infer hi ha.symm)
  · intro rule name first second line f g hi ha hname hf hg hline
    have hruns := runs_named_two hm hp hv hi ha hname hf hg hline
    exact hruns.answered hv rfl (subject_of_infer hi ha.symm)
  · intro name first line f steps hname hf hne hsteps hline
    have hruns := runs_named_path hm hp hv hname hf (hsteps.shape hne)
      (RuleCall.readPath_pathText hsteps hne) hline
    refine ⟨fun g hg => hruns.answered hv hg.modifyAt_dn (by simp), fun hnone => ?_⟩
    refine hruns.answered hv (modifyAt_noSuchOperand hsteps hnone) fun e he => ?_
    cases he
    rfl
  · intro name name' first first' line line' f hname hname' hf hf' hline hline'
    have hruns := runs_named_path hm hp hv hname hf (Or.inl rfl)
      (show RuleCall.readPath .dn "0" = .ok none from rfl) hline
    have hruns' := runs_named_one hm hp hv rfl rfl hname' hf' hline'
    -- at the empty path the whole statement is changed
    rw [hruns.handle_ok (Rule.infer_dn f), hruns'.handle_ok (Rule.infer_dn f)]

/-- Modus ponens with zeros and blanks, a statement that is no conjunction, and double negation
inside a negation and of a whole statement. -/
theorem applies_by_number_spellings :
    let s := (start false).after ["(~~p -> q)", "~~p", "therefore", "q"]
    s.Answered "m P ( 0 01,\t2)" .mp (.ok (.atom .q)) ∧
      s.Answered "SIMP(02)" .simp (.error (.notApplicable .simp)) ∧
      s.Answered "dN(1, 1. 1)" .dn
        (.ok (.binary .implies (.neg (.neg (.neg (.neg (.atom .p))))) (.atom .q))) ∧
      s.handle "DN(2,0)" = s.handle "dn(0002)" := by
  intro s
  have hcalls : s.AppliesByNumber := applies_by_number ⟨false, _, rfl⟩ (by decide +kernel)
    (Option.isNone_iff_eq_none.mp (by decide +kernel))
  have hentries : s.facts.entries =
    [(1, .binary .implies (.neg (.neg (.atom .p))) (.atom .q)), (2, .neg (.neg (.atom .p)))] := by
    decide +kernel
  have hone : (1, .binary .implies (.neg (.neg (.atom .p))) (.atom .q)) ∈ s.facts.entries := by
    simp [hentries]
  have htwo : (2, .neg (.neg (.atom .p))) ∈ s.facts.entries := by simp [hentries]
  refine ⟨?_, ?_, ?_, ?_⟩
  · have hanswer := hcalls.two .mp "mP" "001" "2" "m P ( 0 01,\t2)" _ _ rfl rfl (by decide)
      ⟨2, 1, by decide, by decide, hone⟩ ⟨0, 2, by decide, by decide, htwo⟩ (by decide +kernel)
    rwa [(Rule.Concludes.modusPonens _ _).infer_eq] at hanswer
  · have hanswer := hcalls.one .simp "SIMP" "02" "SIMP(02)" _ rfl rfl (by decide)
      ⟨1, 2, by decide, by decide, htwo⟩ (by decide +kernel)
    rwa [Rule.infer_eq_error rfl rfl (fun _ h => by cases h)] at hanswer
  · exact (hcalls.atPath "dN" "1" "dN(1, 1. 1)" _ [1, 1] (by decide)
      ⟨0, 1, by decide, by decide, hone⟩ (by decide) (by decide) (by decide +kernel)).1
      (.neg (.atom .p)) (by decide)
  · exact hcalls.whole "DN" "dn" "2" "0002" _ _ _ (by decide) (by decide)
      ⟨0, 2, by decide, by decide, htwo⟩ ⟨3, 2, by decide, by decide, htwo⟩ (by decide +kernel)
      (by decide +kernel)

end Session

end Deduction
