import Deduction.Proofs.Applications
import Deduction.Proofs.CallFormat
import Deduction.Proofs.NumberedCalls

/-!
# Names in calls

Two descriptions of names meet in a rule call. A rule is found by its terse name in any letter case
(`Rule.lookup?_eq_some_iff`), but a call takes a name of at most four letters. Three terse names
are longer (`Rule.mem_longNamed`), so a text with one of them before its parentheses is no call
(`RuleCall.parse_of_long`), and no text at all is a call of these rules
(`Rule.notMem_longNamed_of_parse`).

All other rules are reached with the number of one fact (`Session.reaches_of_short`): addition asks
for the statement to add, the other rules of two statements miss their second one, the rules that
are not carried out say so, and the others are applied (`Reaches`).
-/

namespace Deduction

/-! ### Long names -/

namespace Rule

variable {rule : Rule} {name : String}

/-- The rules whose terse names do not fit into a call. -/
def longNamed : List Rule := [assoc, trans, equiv]

theorem mem_longNamed : rule ∈ longNamed ↔ 4 < rule.terse.toList.length := by
  cases rule <;> decide

/-- Among the words of letters, the spellings of its terse name are those a rule is found by. -/
theorem lookup?_eq_some_iff (hletters : ∀ c ∈ name.toList, c.isAlpha = true) :
    lookup? name = some rule ↔ Text.SpelledAs name rule.terse := by
  refine ⟨fun h => ?_, lookup?_of_spelledAs⟩
  have hterse : Text.lowercase rule.terse = String.ofList (rule.terse.toList.map Char.toLower) := by
    cases rule <;> decide +kernel
  have hfound : Text.lowercase rule.terse = Text.lowercase (Text.strip name) := by
    simpa using List.find?_some h
  rw [hterse, Text.lowercase_strip_of_letters hletters] at hfound
  exact (String.ofList_injective hfound).symm

/-- **No text is a call of a rule with a long name.** -/
theorem notMem_longNamed_of_parse {text : String} {call : RuleCall}
    (hcall : RuleCall.parse text = .ok call) (hfound : lookup? call.name = some rule) :
    rule ∉ longNamed := by
  obtain ⟨hform, -⟩ := RuleCall.parse_eq_ok_iff_callForm.mp hcall
  have hlength := length_of_spelledAs ((lookup?_eq_some_iff hform.isAlpha).mp hfound)
  have hshort := hform.short.2
  rw [mem_longNamed]
  omega

end Rule

/-- **A text with a long name is no call**, whatever its arguments. -/
theorem RuleCall.parse_of_long {name line : String} {arguments : List String}
    (hletters : ∀ c ∈ name.toList, c.isAlpha = true) (hlong : 4 < name.toList.length)
    (h : WrittenIn ⟨name, arguments⟩ line) : parse line = .error .invalidCall := by
  refine parse_of_not_callForm ?_
  rintro ⟨name', arguments', hform⟩
  -- both names end at the first parenthesis
  have hname : name' = name.toList := by
    rw [← hform.cut.1, h, text, String.toList_ofList, takeWhile_name hletters]
  have hshort := hform.short.2
  rw [hname] at hshort
  omega

theorem RuleCall.WrittenIn.paren_mem {call : RuleCall} {line : String} (h : call.WrittenIn line) :
    '(' ∈ line.toList := by
  have hmem : '(' ∈ Text.squeezeChars line.toList := by
    rw [h, text, String.toList_ofList]
    exact List.mem_append_right _ List.mem_cons_self
  exact List.mem_of_mem_filter hmem

namespace Session

variable {s : Session} {rule : Rule} {name first line : String} {f : Formula}

theorem handle_long {arguments : List String} (hm : s.mode = .rule) (hp : s.pending = none)
    (hlong : rule ∈ Rule.longNamed) (hname : Text.SpelledAs name rule.terse)
    (hline : RuleCall.WrittenIn ⟨name, arguments⟩ line) :
    s.handle line = .ok (s, { errors := [RuleError.invalidCall.message] }) := by
  have hlength : 4 < name.toList.length := by
    rw [Rule.length_of_spelledAs hname]
    exact Rule.mem_longNamed.mp hlong
  have hparse := RuleCall.parse_of_long (Rule.isAlpha_of_spelledAs hname) hlength hline
  rw [handle_plain (plain_of_paren hp hline.paren_mem), hm]
  simp only [runRule, requestOf, hparse]

/-! ### Calls with one fact -/

/-- The line is answered by `rule`, called with the fact `f` alone. -/
inductive Reaches (s : Session) (line : String) (rule : Rule) (f : Formula) : Prop
  /-- Addition asks for the statement to add. -/
  | prompt : rule = .add →
    s.handle line =
      .ok ({ s with pending := some ⟨[f], false⟩ }, { messages := [additionPrompt] }) →
    Reaches s line rule f
  /-- The other rules of two statements miss their second one. -/
  | incomplete : rule.arity = 2 → rule ≠ .add →
    s.Answered line rule (.error (.missingArgument rule)) → Reaches s line rule f
  | unsupported : rule.isImplemented = false →
    s.Answered line rule (.error (.notImplemented rule)) → Reaches s line rule f
  | applied : rule.isImplemented = true → rule.arity = 1 →
    s.Answered line rule (rule.infer [f]) → Reaches s line rule f

section Calls

variable (hm : s.mode = .rule) (hp : s.pending = none) (hv : s.facts.Valid)
include hm hp hv

/-- A call with one fact that is malformed for the rule is refused. -/
theorem answered_of_refusal? {e : RuleError} (hn : rule.CalledBy name) (hadd : rule ≠ .add)
    (hf : s.Names first f) (hline : RuleCall.WrittenIn ⟨name, [first]⟩ line)
    (hsubject : e.subject = rule.terse) (hr : Batch.refusal? rule .absent [] = some e) :
    s.Answered line rule (.error e) := by
  have hargs := Rule.takesArguments_one hf.isReference
  have hrun := handle_run hm hp hn hargs (request_one (hf.selectFor hv) hadd)
  refine Answered.of_error hsubject ?_
  rw [handle_writtenIn hm hp hn hargs hline, hrun,
    runBatch_error (Batch.run_eq_error_of_refusal? hr)]

/-- **A rule with a short name is reached by it.** -/
theorem reaches_of_short (hshort : rule ∉ Rule.longNamed)
    (hname : Text.SpelledAs name rule.terse) (hf : s.Names first f)
    (hline : RuleCall.WrittenIn ⟨name, [first]⟩ line) : s.Reaches line rule f := by
  rw [Rule.mem_longNamed, Nat.not_lt] at hshort
  have hn := Rule.calledBy_of_short hshort hname
  by_cases hadd : rule = .add
  · subst hadd
    have hargs := Rule.takesArguments_one hf.isReference
    have hwait := handle_wait hm hp hn hargs (request_add (hf.selectFor hv))
    rw [decide_eq_false hf.ne_wildcard] at hwait
    exact Reaches.prompt rfl ((handle_writtenIn hm hp hn hargs hline).trans hwait)
  by_cases hi : rule.isImplemented = true
  · rcases rule.arity_eq_one_or_two with ha | ha
    · have hruns := runs_named_one hm hp hv hi ha hname hf hline
      exact Reaches.applied hi ha (hruns.answered hv rfl (subject_of_infer hi ha.symm))
    · have hr : Batch.refusal? rule .absent [] = some (.missingArgument rule) := by
        simp [Batch.refusal?, hi, ha, Argument.isAbsent]
      exact Reaches.incomplete ha hadd
        (answered_of_refusal? hm hp hv hn hadd hf hline rfl hr)
  · have hi : rule.isImplemented = false := Bool.eq_false_iff.mpr hi
    have hr : Batch.refusal? rule .absent [] = some (.notImplemented rule) := by
      rw [Batch.refusal?, if_pos hi]
    exact Reaches.unsupported hi (answered_of_refusal? hm hp hv hn hadd hf hline rfl hr)

end Calls

/-- A rule with a long name is not reached by a line that is refused as no call: it would answer
that it is not carried out. -/
theorem not_reaches_of_long (hlong : rule ∈ Rule.longNamed)
    (h : s.handle line = .ok (s, { errors := [RuleError.invalidCall.message] })) :
    ¬ s.Reaches line rule f := by
  have hreplaces : rule.isImplemented = false ∧ rule.arity = 1 := by
    revert hlong
    cases rule <;> decide
  intro hreaches
  cases hreaches with
  | prompt hadd =>
    subst hadd
    exact absurd hlong (by decide)
  | incomplete ha =>
    rw [hreplaces.2] at ha
    cases ha
  | unsupported _ hanswer =>
    cases hanswer with
    | refused hhandle =>
      have hne : RuleError.invalidCall.message ≠
          "Error executing " ++ rule.terse ++ " - " ++ (RuleError.notImplemented rule).reason := by
        cases rule <;> decide
      have hpair := Except.ok.inj (h.symm.trans hhandle)
      exact hne (List.cons.inj (congrArg (fun p => p.2.errors) hpair)).1
  | applied hi =>
    rw [hreplaces.1] at hi
    cases hi

/-- **Rules by their names.** Where rule calls are taken, the terse name of a rule, in any letter
case, with the number of a fact after it calls the rule on this fact, unless the name has more than
four letters. Association, transposition and equivalence have such names: the line is then refused
as no call, nothing changes, and no other text is a call of these rules either. -/
theorem called_by_short_names {s : Session} (hs : s.Reachable) (hm : s.mode = .rule)
    (hp : s.pending = none) (rule : Rule) (name first line : String) (f : Formula)
    (hname : Text.SpelledAs name rule.terse) (hf : s.Names first f)
    (hline : RuleCall.WrittenIn ⟨name, [first]⟩ line) :
    (s.Reaches line rule f ↔ rule ∉ [.assoc, .trans, .equiv]) ∧
      (rule ∈ [.assoc, .trans, .equiv] →
        s.handle line =
          .ok (s, { errors := ["Error executing rule - Rule format must be name(arg0[,arg1])"] }) ∧
        ∀ text call, RuleCall.parse text = .ok call → Rule.lookup? call.name ≠ some rule) := by
  refine ⟨⟨fun hreaches hlong => ?_, fun hshort => ?_⟩, fun hlong => ⟨?_, ?_⟩⟩
  · exact not_reaches_of_long hlong (handle_long hm hp hlong hname hline) hreaches
  · exact reaches_of_short hm hp hs.valid hshort hname hf hline
  · exact handle_long hm hp hlong hname hline
  · intro text call hcall hfound
    exact Rule.notMem_longNamed_of_parse hcall hfound hlong

/-- Addition, a rule that misses a statement, one that is not carried out, one that is applied, and
one with a long name. -/
theorem called_by_short_names_spellings :
    let s := (start false).after ["(p -> q)", "~~p", "therefore", "q"]
    s.Reaches "aDD( 02 )" .add (.neg (.neg (.atom .p))) ∧
      s.Reaches "mp(1)" .mp (.binary .implies (.atom .p) (.atom .q)) ∧
      s.Reaches "d IST(001)" .dist (.binary .implies (.atom .p) (.atom .q)) ∧
      s.Reaches "Dn(2)" .dn (.neg (.neg (.atom .p))) ∧
      s.handle "eQUIV(2)" = .ok (s,
        { errors := ["Error executing rule - Rule format must be name(arg0[,arg1])"] }) := by
  intro s
  have hs : s.Reachable := ⟨false, _, rfl⟩
  have hm : s.mode = .rule := by decide +kernel
  have hp : s.pending = none := Option.isNone_iff_eq_none.mp (by decide +kernel)
  have hentries : s.facts.entries =
      [(1, .binary .implies (.atom .p) (.atom .q)), (2, .neg (.neg (.atom .p)))] := by
    decide +kernel
  have hone : (1, .binary .implies (.atom .p) (.atom .q)) ∈ s.facts.entries := by simp [hentries]
  have htwo : (2, .neg (.neg (.atom .p))) ∈ s.facts.entries := by simp [hentries]
  have hcalls := called_by_short_names hs hm hp
  refine ⟨?_, ?_, ?_, ?_, ?_⟩
  · exact (hcalls .add "aDD" "02" _ _ (by decide) ⟨1, 2, by decide, by decide, htwo⟩
      (by decide +kernel)).1.mpr (by decide)
  · exact (hcalls .mp "mp" "1" _ _ (by decide) ⟨0, 1, by decide, by decide, hone⟩
      (by decide +kernel)).1.mpr (by decide)
  · exact (hcalls .dist "dIST" "001" _ _ (by decide) ⟨2, 1, by decide, by decide, hone⟩
      (by decide +kernel)).1.mpr (by decide)
  · exact (hcalls .dn "Dn" "2" _ _ (by decide) ⟨0, 2, by decide, by decide, htwo⟩
      (by decide +kernel)).1.mpr (by decide)
  · exact ((hcalls .equiv "eQUIV" "2" _ _ (by decide) ⟨0, 2, by decide, by decide, htwo⟩
      (by decide +kernel)).2 (by decide)).1

/-- Association is one of the rules, but it cannot be called by its name: the answer is not that it
is not carried out. -/
theorem association_not_called :
    let s := (start false).after ["p", "therefore", "q"]
    s.Reachable ∧ s.mode = .rule ∧ s.pending = none ∧ s.Names "1" (.atom .p) ∧
      RuleCall.WrittenIn ⟨Rule.terse .assoc, ["1"]⟩ "Assoc(1)" ∧
      ¬ s.Reaches "Assoc(1)" .assoc (.atom .p) := by
  intro s
  have hm : s.mode = .rule := by decide +kernel
  have hp : s.pending = none := Option.isNone_iff_eq_none.mp (by decide +kernel)
  have hentries : s.facts.entries = [(1, .atom .p)] := by decide +kernel
  have hone : (1, .atom .p) ∈ s.facts.entries := by simp [hentries]
  have hline : RuleCall.WrittenIn ⟨Rule.terse .assoc, ["1"]⟩ "Assoc(1)" := by decide +kernel
  have hhandle := handle_long hm hp (by decide) rfl hline
  exact ⟨⟨false, _, rfl⟩, hm, hp, ⟨0, 1, by decide, by decide, hone⟩, hline,
    not_reaches_of_long (by decide) hhandle⟩

end Session

end Deduction
