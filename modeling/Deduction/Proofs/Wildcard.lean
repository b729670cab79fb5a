import Deduction.Proofs.Modes

/-!
# Wildcard calls

A call with the wildcard does what the calls with the numbers of the facts do one after the other.
The two take different ways: the wildcard runs one silent batch over the facts as they are, and the
numbered calls are strict and find a store that has grown in between.

They meet since a numbered call finds the same statement as long as the store only grows
(`Continues.selectFor`), a call that does not fit changes nothing, and recording results one by one
is recording them together. The induction over the calls is `exists_callByCall`; what it needs to
know of a line is which applications it runs (`Runs`).
-/

namespace Deduction

namespace Session

variable {s t : Session} {rule : Rule} {name line : String}

/-! ### What is compared -/

/-- Lines handled one after the other, each with the application it stands for: if that succeeds,
no error is reported, and if it fails, its error is reported and nothing changes. -/
inductive CallByCall :
    Session → List (String × Except RuleError Formula) → List Reply → Session → Prop
  | nil (s : Session) : CallByCall s [] [] s
  | fits {s t u : Session} {line : String} {f : Formula} {reply : Reply}
    {parts : List (String × Except RuleError Formula)} {replies : List Reply} :
    s.handle line = .ok (t, reply) → reply.errors = [] → CallByCall t parts replies u →
    CallByCall s ((line, .ok f) :: parts) (reply :: replies) u
  | fails {s u : Session} {line : String} {e : RuleError}
    {parts : List (String × Except RuleError Formula)} {replies : List Reply} :
    s.handle line = .ok (s, { errors := [e.message] }) → CallByCall s parts replies u →
    CallByCall s ((line, .error e) :: parts) ({ errors := [e.message] } :: replies) u

/-- The line, which reports no error, leads to the same session as the parts one after the other,
with the same messages. -/
def Distributes (s : Session) (line : String)
    (parts : List (String × Except RuleError Formula)) : Prop :=
  ∃ t reply replies, s.handle line = .ok (t, reply) ∧ reply.errors = [] ∧
    CallByCall s parts replies t ∧ replies.flatMap (·.messages) = reply.messages

/-- The calls of a rule with the numbers of two facts, in the order of the first and then of the
second, and what the rule infers. -/
def numberedCalls (name : String) (rule : Rule) (es ds : List (ℕ × Formula)) :
    List (String × Except RuleError Formula) :=
  es.flatMap fun e => ds.map fun d =>
    (RuleCall.text ⟨name, [toString e.1, toString d.1]⟩, rule.infer [e.2, d.2])

/-- An addition to all facts, with the statement on the next line, leads to the same session as
the additions to the facts by their numbers, with the same messages to the statements. -/
def AdditionDistributes (s : Session) (name line : String) : Prop :=
  ∃ (reply : Reply) (replies : List Reply),
    s.after [RuleCall.text ⟨name, [FactBase.wildcard]⟩, line] =
      s.after (s.facts.entries.flatMap fun e => [RuleCall.text ⟨name, [toString e.1]⟩, line]) ∧
    s.transcript [RuleCall.text ⟨name, [FactBase.wildcard]⟩, line] =
      [.ok { messages := [additionPrompt] }, .ok reply] ∧ reply.errors = [] ∧
    s.transcript (s.facts.entries.flatMap fun e => [RuleCall.text ⟨name, [toString e.1]⟩, line]) =
      replies.flatMap (fun r => [.ok { messages := [additionPrompt] }, .ok r]) ∧
    (∀ r ∈ replies, r.errors = []) ∧ replies.flatMap (·.messages) = reply.messages

/-! ### Sessions that grow -/

/-- Rule calls are taken, and the numbers of the facts can be read. -/
structure Ready (s : Session) : Prop where
  mode : s.mode = .rule
  idle : s.pending = none
  valid : s.facts.Valid
  digits : (toString s.facts.size).length ≤ Text.digitLimit

/-- Rule calls are taken, and the facts of `s` are there under their numbers. -/
structure Continues (s t : Session) : Prop where
  mode : t.mode = .rule
  idle : t.pending = none
  valid : t.facts.Valid
  kept : s.facts.values <+: t.facts.values

theorem Ready.continues (hs : s.Ready) : Continues s s :=
  ⟨hs.mode, hs.idle, hs.valid, List.prefix_rfl⟩

theorem Continues.record (h : Continues s t) (rule : Rule) (results : List Formula) :
    Continues s (t.record rule results).1 :=
  ⟨h.mode, h.idle, valid_storeResults h.valid results,
    h.kept.trans (FactBase.prefix_values (entries_prefix_storeResults t.facts results))⟩

theorem Continues.get? (h : Continues s t) (hv : s.facts.Valid) {k : ℕ} {f : Formula}
    (hf : s.facts.get? k = some f) : t.facts.get? k = some f := by
  obtain ⟨hk, hf⟩ := hv.get?_eq_some.mp hf
  obtain ⟨grown, hgrown⟩ := h.kept
  obtain ⟨hlt, -⟩ := List.getElem?_eq_some_iff.mp hf
  refine h.valid.get?_eq_some.mpr ⟨hk, ?_⟩
  rw [← hgrown, List.getElem?_append_left hlt]
  exact hf

/-- **A number keeps its meaning** while the store grows. -/
theorem Continues.selectFor (h : Continues s t) (hs : s.Ready) {e : ℕ × Formula}
    (he : e ∈ s.facts.entries) : t.selectFor rule (toString e.1) = .ok [e.2] := by
  obtain ⟨hpos, hle, hget⟩ := hs.valid.get?_of_mem_entries he
  exact selectFor_toString hpos (le_trans (Text.length_toString_mono hle) hs.digits)
    (h.get? hs.valid hget)

/-! ### The applications that a line runs -/

section Runs

variable {α : Type} {apply : α → Except RuleError Formula} {xs : List α}

/-- The line is handled by running a batch of the given applications. -/
def Runs (s : Session) (line : String) (rule : Rule) (silent : Bool)
    (apply : α → Except RuleError Formula) (xs : List α) : Prop :=
  ∃ b : Batch, s.handle line = .ok (s.runBatch b) ∧ b.rule = rule ∧
    b.run = Batch.collect silent apply xs

theorem Runs.handle_silent (h : s.Runs line rule true apply xs) :
    s.handle line = .ok (s.record rule (Batch.successes apply xs)) := by
  obtain ⟨b, hhandle, rfl, hrun⟩ := h
  rw [Batch.collect_silent] at hrun
  rw [hhandle, runBatch_ok hrun]

theorem Runs.handle_ok {x : α} {f : Formula} (h : s.Runs line rule false apply [x])
    (hx : apply x = .ok f) : s.handle line = .ok (s.record rule [f]) := by
  obtain ⟨b, hhandle, rfl, hrun⟩ := h
  rw [Batch.collect_singleton, hx] at hrun
  rw [hhandle, runBatch_ok hrun]

theorem Runs.handle_error {x : α} {e : RuleError} (h : s.Runs line rule false apply [x])
    (hx : apply x = .error e) : s.handle line = .ok (s, { errors := [e.message] }) := by
  obtain ⟨b, hhandle, -, hrun⟩ := h
  rw [Batch.collect_singleton, hx] at hrun
  rw [hhandle, runBatch_error hrun]

/-- **Call by call.** Strict lines of one application each, in a session that grows, record what
all the applications together yield. -/
theorem exists_callByCall {lineOf : α → String} :
    ∀ {xs : List α} {t : Session}, Continues s t →
      (∀ x ∈ xs, ∀ u, Continues s u → u.Runs (lineOf x) rule false apply [x]) →
      ∃ replies,
        CallByCall t (xs.map fun x => (lineOf x, apply x)) replies
          (t.record rule (Batch.successes apply xs)).1 ∧
        replies.flatMap (·.messages) = (t.record rule (Batch.successes apply xs)).2.messages
  | [], t, _, _ => ⟨[], CallByCall.nil t, rfl⟩
  | x :: xs, t, ht, h => by
    have hx := h x List.mem_cons_self t ht
    have hxs := fun y hy => h y (List.mem_cons_of_mem x hy)
    rcases hresult : apply x with e | f
    · obtain ⟨replies, hcalls, hmessages⟩ := exists_callByCall ht hxs
      rw [Batch.successes_cons_error hresult]
      refine ⟨{ errors := [e.message] } :: replies, ?_, hmessages⟩
      rw [List.map_cons, hresult]
      exact .fails (hx.handle_error hresult) hcalls
    · obtain ⟨replies, hcalls, hmessages⟩ := exists_callByCall (ht.record rule [f]) hxs
      rw [Batch.successes_cons_ok hresult, record_cons]
      refine ⟨(t.record rule [f]).2 :: replies, ?_, ?_⟩
      · rw [List.map_cons, hresult]
        exact .fits (hx.handle_ok hresult) rfl hcalls
      · rw [List.flatMap_cons, hmessages]

/-- A line that runs applications silently distributes over lines that run them strictly. -/
theorem distributes_of_runs {lineOf : α → String} (hs : s.Ready)
    (hwhole : s.Runs line rule true apply xs)
    (hparts : ∀ x ∈ xs, ∀ t, Continues s t → t.Runs (lineOf x) rule false apply [x]) :
    Distributes s line (xs.map fun x => (lineOf x, apply x)) := by
  obtain ⟨replies, hcalls, hmessages⟩ := exists_callByCall hs.continues hparts
  exact ⟨_, _, replies, hwhole.handle_silent, rfl, hcalls, hmessages⟩

theorem Runs.map {β : Type} {silent : Bool} (g : β → α) (ys : List β)
    (h : s.Runs line rule silent apply (ys.map g)) :
    s.Runs line rule silent (fun y => apply (g y)) ys := by
  obtain ⟨b, hhandle, hrule, hrun⟩ := h
  exact ⟨b, hhandle, hrule, by rw [hrun, Batch.collect_map]⟩

end Runs

/-! ### Lines that call rules -/

section Calls

variable {first second : String} {fs gs : List Formula}

theorem runs_one (hm : s.mode = .rule) (hp : s.pending = none) (hn : rule.CalledBy name)
    (hi : rule.isImplemented = true) (ha : rule.arity = 1)
    (hfirst : RuleCall.isReference first.toList = true)
    (hf : s.selectFor rule first = .ok fs) :
    s.Runs (RuleCall.text ⟨name, [first]⟩) rule (first = FactBase.wildcard)
      (fun f => rule.infer [f]) fs := by
  obtain ⟨conclude, hschema⟩ := Rule.exists_unary hi ha
  have hadd : rule ≠ .add := by rintro rfl; cases ha
  have hargs := Rule.takesArguments_one hfirst
  have hhandle := handle_run hm hp hn hargs (request_one hf hadd)
  refine ⟨_, hhandle, rfl, ?_⟩
  rw [Batch.run_unary hschema (Or.inl rfl)]
  -- at the empty path a rule of replacement acts on the whole statement
  simp only [Formula.modifyAt, ite_self]

theorem runs_path {path : Option (List ℕ)} (hm : s.mode = .rule) (hp : s.pending = none)
    (hn : Rule.CalledBy .dn name) (hfirst : RuleCall.isReference first.toList = true)
    (hsecond : RuleCall.isReference second.toList = true ∨ RuleCall.isPath second.toList = true)
    (hf : s.selectFor .dn first = .ok fs) (hpath : RuleCall.readPath .dn second = .ok path) :
    s.Runs (RuleCall.text ⟨name, [first, second]⟩) .dn (first = FactBase.wildcard)
      (fun f => f.modifyAt .dn (fun g => Rule.infer .dn [g]) ((path.getD []).map Int.ofNat))
      fs := by
  have hargs := Rule.takesArguments_two hfirst hsecond
  have hhandle := handle_run hm hp hn hargs (request_path rfl hf hpath)
  exact ⟨_, hhandle, rfl, Batch.run_unary rfl (Or.inr rfl)⟩

theorem runs_two (hm : s.mode = .rule) (hp : s.pending = none) (hn : rule.CalledBy name)
    (ha : rule.arity = 2) (hfirst : RuleCall.isReference first.toList = true)
    (hsecond : RuleCall.isReference second.toList = true)
    (hf : s.selectFor rule first = .ok fs) (hg : s.selectFor rule second = .ok gs)
    (hadd : rule = .add → gs.length = 1) :
    s.Runs (RuleCall.text ⟨name, [first, second]⟩) rule
      (first = FactBase.wildcard ∨ second = FactBase.wildcard)
      (fun p => rule.infer [p.1, p.2]) (Batch.pairs fs gs) := by
  obtain ⟨conclude, hschema⟩ := Rule.exists_binary ha
  have hargs := Rule.takesArguments_two hfirst (Or.inl hsecond)
  have hhandle :=
    handle_run hm hp hn hargs (request_two (Rule.isReplacement_of_arity ha) hf hg)
  refine ⟨_, hhandle, rfl, Batch.run_binary hschema rfl ?_⟩
  -- an addition takes one statement to add
  simp only [Batch.seconds]
  rw [if_neg]
  simpa using hadd

end Calls

/-! ### References -/

/-- The facts that a reference stands for. -/
inductive Refers (s : Session) : String → List (ℕ × Formula) → Prop
  | all : Refers s FactBase.wildcard s.facts.entries
  | one {e : ℕ × Formula} : e ∈ s.facts.entries → Refers s (toString e.1) [e]

section Refers

variable {first second : String} {es ds : List (ℕ × Formula)}

theorem Refers.mem (h : s.Refers first es) : ∀ e ∈ es, e ∈ s.facts.entries := by
  cases h with
  | all => exact fun e he => he
  | one he => exact fun e' he' => List.mem_singleton.mp he' ▸ he

theorem Refers.isReference (h : s.Refers first es) :
    RuleCall.isReference first.toList = true := by
  cases h with
  | all => decide
  | one he => exact RuleCall.isReference_toString _

theorem Refers.selectFor (h : s.Refers first es) (hs : s.Ready) :
    s.selectFor rule first = .ok (es.map (·.2)) := by
  cases h with
  | all => exact selectFor_wildcard s rule
  | one he => exact hs.continues.selectFor hs he

/-- **Two arguments**, at least one of them a wildcard. -/
theorem Ready.distributes_two (hs : s.Ready) (hn : rule.CalledBy name) (ha : rule.arity = 2)
    (hfirst : s.Refers first es) (hsecond : s.Refers second ds)
    (hwild : first = FactBase.wildcard ∨ second = FactBase.wildcard)
    (hadd : rule = .add → ds.length = 1) :
    Distributes s (RuleCall.text ⟨name, [first, second]⟩) (numberedCalls name rule es ds) := by
  -- the pairs of facts, with their numbers
  set ps := es.flatMap fun e => ds.map fun d => (e, d) with hps
  have hpairs : Batch.pairs (es.map (·.2)) (ds.map (·.2)) = ps.map fun p => (p.1.2, p.2.2) := by
    simp only [Batch.pairs, hps, List.flatMap_map, List.map_flatMap, List.map_map]
    rfl
  have hcalls : numberedCalls name rule es ds = ps.map fun p =>
      (RuleCall.text ⟨name, [toString p.1.1, toString p.2.1]⟩, rule.infer [p.1.2, p.2.2]) := by
    simp only [numberedCalls, hps, List.map_flatMap, List.map_map]
    rfl
  have hwhole := runs_two hs.mode hs.idle hn ha hfirst.isReference hsecond.isReference
    (hfirst.selectFor hs) (hsecond.selectFor hs) (by simpa using hadd)
  rw [hpairs, decide_eq_true hwild] at hwhole
  rw [hcalls]
  refine distributes_of_runs hs (hwhole.map _ _) fun p hp t ht => ?_
  simp only [hps, List.mem_flatMap, List.mem_map] at hp
  obtain ⟨e, he, d, hd, rfl⟩ := hp
  have hpart := runs_two ht.mode ht.idle hn ha (RuleCall.isReference_toString e.1)
    (RuleCall.isReference_toString d.1) (ht.selectFor hs (hfirst.mem e he))
    (ht.selectFor hs (hsecond.mem d hd)) (fun _ => rfl)
  rw [decide_eq_false (not_or.mpr ⟨FactBase.toString_ne_wildcard e.1,
    FactBase.toString_ne_wildcard d.1⟩)] at hpart
  exact hpart.map (fun p => (p.1.2, p.2.2)) [(e, d)]

end Refers

/-- **One argument.** -/
theorem Ready.distributes_one (hs : s.Ready) (hn : rule.CalledBy name)
    (hi : rule.isImplemented = true) (ha : rule.arity = 1) :
    Distributes s (RuleCall.text ⟨name, [FactBase.wildcard]⟩) (s.facts.entries.map fun e =>
      (RuleCall.text ⟨name, [toString e.1]⟩, rule.infer [e.2])) := by
  have hwhole := runs_one hs.mode hs.idle hn hi ha (Refers.isReference (.all (s := s)))
    (Refers.selectFor .all hs)
  rw [decide_eq_true rfl] at hwhole
  refine distributes_of_runs hs (hwhole.map _ _) fun e he t ht => ?_
  have hpart := runs_one ht.mode ht.idle hn hi ha (RuleCall.isReference_toString e.1)
    (ht.selectFor hs he)
  rw [decide_eq_false (FactBase.toString_ne_wildcard e.1)] at hpart
  exact hpart.map (fun e => e.2) [e]

/-- **One argument and a path.** -/
theorem Ready.distributes_path {text : String} {path : Option (List ℕ)} {call : RuleCall}
    (hs : s.Ready) (hn : Rule.CalledBy .dn name) (hpath : RuleCall.readPath .dn text = .ok path)
    (hcall : RuleCall.parse (RuleCall.text ⟨name, [FactBase.wildcard, text]⟩) = .ok call) :
    Distributes s (RuleCall.text ⟨name, [FactBase.wildcard, text]⟩) (s.facts.entries.map fun e =>
      (RuleCall.text ⟨name, [toString e.1, text]⟩,
        e.2.modifyAt .dn (fun g => Rule.infer .dn [g]) ((path.getD []).map Int.ofNat))) := by
  have htext := RuleCall.isReference_or_isPath_of_parse hn hpath hcall
  have hwhole := runs_path hs.mode hs.idle hn (Refers.isReference (.all (s := s))) htext
    (Refers.selectFor .all hs) hpath
  rw [decide_eq_true rfl] at hwhole
  refine distributes_of_runs hs (hwhole.map _ _) fun e he t ht => ?_
  have hpart := runs_path ht.mode ht.idle hn (RuleCall.isReference_toString e.1) htext
    (ht.selectFor hs he) hpath
  rw [decide_eq_false (FactBase.toString_ne_wildcard e.1)] at hpart
  exact hpart.map (fun e => e.2) [e]

/-! ### Additions -/

section Addition

variable {first : String} {f : Formula} {fs : List Formula}

/-- A call for an addition, and the statement to add on the next line. -/
theorem addition_two_lines (hm : s.mode = .rule) (hp : s.pending = none)
    (hn : Rule.CalledBy .add name) (hfirst : RuleCall.isReference first.toList = true)
    (hfs : s.selectFor .add first = .ok fs) (hf : Formula.parse line = .ok f) :
    s.after [RuleCall.text ⟨name, [first]⟩, line] =
        (s.record .add (fs.map fun g => .binary .or g f)).1 ∧
      s.transcript [RuleCall.text ⟨name, [first]⟩, line] =
        [.ok { messages := [additionPrompt] },
          .ok (s.record .add (fs.map fun g => .binary .or g f)).2] := by
  have hargs := Rule.takesArguments_one hfirst
  have hwait := handle_wait hm hp hn hargs (request_add hfs)
  set p : Pending := ⟨fs, first = FactBase.wildcard⟩ with hpdef
  have hidle : ({ s with pending := none } : Session) = s := by rw [← hp]
  have hadd : ({ s with pending := some p } : Session).handle line =
      .ok (s.record .add (fs.map fun g => .binary .or g f)) := by
    rw [handle_of_pending_ok rfl hf]
    exact congrArg (fun u : Session => Except.ok (u.record .add _)) hidle
  constructor
  · simp only [after, List.foldl_cons, List.foldl_nil, advance, hwait, hadd]
  · simp only [transcript, advance, hwait, hadd]
    rfl

/-- Additions to facts by their numbers record what they yield together. -/
theorem additions_in_turn (hs : s.Ready) (hn : Rule.CalledBy .add name)
    (hf : Formula.parse line = .ok f) :
    ∀ {es : List (ℕ × Formula)} {t : Session}, Continues s t → (∀ e ∈ es, e ∈ s.facts.entries) →
      ∃ replies : List Reply,
        t.after (es.flatMap fun e => [RuleCall.text ⟨name, [toString e.1]⟩, line]) =
          (t.record .add (es.map fun e => .binary .or e.2 f)).1 ∧
        t.transcript (es.flatMap fun e => [RuleCall.text ⟨name, [toString e.1]⟩, line]) =
          replies.flatMap (fun r => [.ok { messages := [additionPrompt] }, .ok r]) ∧
        (∀ r ∈ replies, r.errors = []) ∧
        replies.flatMap (·.messages) =
          (t.record .add (es.map fun e => .binary .or e.2 f)).2.messages
  | [], t, _, _ => ⟨[], rfl, rfl, by simp, rfl⟩
  | e :: es, t, ht, hes => by
    obtain ⟨hafter, htranscript⟩ := addition_two_lines ht.mode ht.idle hn
      (RuleCall.isReference_toString e.1) (ht.selectFor hs (hes e List.mem_cons_self)) hf
    obtain ⟨replies, hafters, htranscripts, herrors, hmessages⟩ :=
      additions_in_turn hs hn hf (ht.record .add [.binary .or e.2 f])
        fun d hd => hes d (List.mem_cons_of_mem e hd)
    simp only [List.map_cons, List.map_nil] at hafter htranscript
    refine ⟨(t.record .add [.binary .or e.2 f]).2 :: replies, ?_, ?_, ?_, ?_⟩
    · rw [List.flatMap_cons, after, List.foldl_append, List.map_cons, record_cons, ← hafters,
        ← hafter]
      rfl
    · rw [List.flatMap_cons, transcript_append, hafter, htranscript, htranscripts,
        List.flatMap_cons]
    · intro r hr
      rcases List.mem_cons.mp hr with rfl | hr
      · rfl
      · exact herrors r hr
    · rw [List.map_cons, record_cons _ _ _ (es.map _), List.flatMap_cons, hmessages]

theorem Ready.additionDistributes (hs : s.Ready) (hn : Rule.CalledBy .add name)
    (hf : Formula.parse line = .ok f) : AdditionDistributes s name line := by
  have hreference := Refers.isReference (.all (s := s))
  obtain ⟨hafter, htranscript⟩ :=
    addition_two_lines hs.mode hs.idle hn hreference (Refers.selectFor .all hs) hf
  obtain ⟨replies, hafters, htranscripts, herrors, hmessages⟩ :=
    additions_in_turn hs hn hf hs.continues fun e he => he
  rw [List.map_map] at hafter htranscript
  exact ⟨_, replies, hafter.trans hafters.symm, htranscript, rfl, htranscripts, herrors, hmessages⟩

end Addition

/-! ### All wildcard calls -/

theorem Reachable.valid (hs : s.Reachable) : s.facts.Valid := by
  obtain ⟨verboseRules, lines, rfl⟩ := hs
  obtain ⟨premises, hi⟩ := exists_invariant verboseRules lines
  exact hi.valid

theorem Reachable.ready (hs : s.Reachable) (hm : s.mode = .rule) (hp : s.pending = none)
    (hn : (toString s.facts.size).length ≤ Text.digitLimit) : s.Ready :=
  ⟨hm, hp, hs.valid, hn⟩

/-- A call with a wildcard is the calls with the numbers of the facts, one after the other. -/
structure WildcardByNumbers (s : Session) : Prop where
  numbers : s.facts.entries.map (·.1) = List.range' 1 s.facts.size
  both : ∀ (rule : Rule) (name : String), rule.isImplemented = true → rule.arity = 2 → rule ≠ .add →
    rule.CalledBy name →
    Distributes s (RuleCall.text ⟨name, [FactBase.wildcard, FactBase.wildcard]⟩)
      (numberedCalls name rule s.facts.entries s.facts.entries)
  /-- With the number of a fact as the second argument; addition is included. -/
  first : ∀ (rule : Rule) (name : String), rule.isImplemented = true → rule.arity = 2 →
    rule.CalledBy name → ∀ d ∈ s.facts.entries,
      Distributes s (RuleCall.text ⟨name, [FactBase.wildcard, toString d.1]⟩)
        (numberedCalls name rule s.facts.entries [d])
  /-- With the number of a fact as the first argument. -/
  second : ∀ (rule : Rule) (name : String), rule.isImplemented = true → rule.arity = 2 →
    rule ≠ .add → rule.CalledBy name → ∀ e ∈ s.facts.entries,
      Distributes s (RuleCall.text ⟨name, [toString e.1, FactBase.wildcard]⟩)
        (numberedCalls name rule [e] s.facts.entries)
  single : ∀ (rule : Rule) (name : String), rule.isImplemented = true → rule.arity = 1 →
    rule.CalledBy name →
    Distributes s (RuleCall.text ⟨name, [FactBase.wildcard]⟩) (s.facts.entries.map fun e =>
      (RuleCall.text ⟨name, [toString e.1]⟩, rule.infer [e.2]))
  /-- Double negation at a path, if the path can be read and the call has the shape of one. -/
  atPath : ∀ (name text : String) path call, Rule.CalledBy .dn name →
    RuleCall.readPath .dn text = .ok path →
    RuleCall.parse (RuleCall.text ⟨name, [FactBase.wildcard, text]⟩) = .ok call →
    Distributes s (RuleCall.text ⟨name, [FactBase.wildcard, text]⟩) (s.facts.entries.map fun e =>
      (RuleCall.text ⟨name, [toString e.1, text]⟩,
        e.2.modifyAt .dn (fun g => Rule.infer .dn [g]) ((path.getD []).map Int.ofNat)))
  addition : ∀ name line f, Rule.CalledBy .add name → Formula.parse line = .ok f →
    AdditionDistributes s name line

/-- **Wildcard calls.** Where rule calls are taken and the numbers of the facts can be read, a call
with a wildcard reports no error and leads to the same facts with the same messages as the calls
with all numbers in turn, of which those that do not fit report their errors and change nothing. -/
theorem wildcard_by_numbers {s : Session} (hs : s.Reachable) (hm : s.mode = .rule)
    (hp : s.pending = none) (hn : (toString s.facts.size).length ≤ Text.digitLimit) :
    s.WildcardByNumbers := by
  have hready := hs.ready hm hp hn
  exact
    { numbers := hready.valid.numbers
      both := fun _ _ _ ha hadd hname =>
        hready.distributes_two hname ha .all .all (Or.inl rfl) fun h => absurd h hadd
      first := fun _ _ _ ha hname _ hd =>
        hready.distributes_two hname ha .all (.one hd) (Or.inl rfl) fun _ => rfl
      second := fun _ _ _ ha hadd hname _ he =>
        hready.distributes_two hname ha (.one he) .all (Or.inr rfl) fun h => absurd h hadd
      single := fun _ _ hi ha hname => hready.distributes_one hname hi ha
      atPath := fun _ _ _ _ hname hpath hcall => hready.distributes_path hname hpath hcall
      addition := fun _ _ _ hname hf => hready.additionDistributes hname hf }

/-- Three facts: of the nine pairs one fits for modus ponens, the second fact has no part at the
path `1`, and an addition takes them all. -/
theorem wildcard_by_numbers_three_facts :
    let s := (start false).after ["~~p -> q", "p", "p -> q", "therefore", "q V t"]
    s.facts.size = 3 ∧
      Distributes s "mp(*,*)" (numberedCalls "mp" .mp s.facts.entries s.facts.entries) ∧
      Distributes s "DN(*,1)" (s.facts.entries.map fun e =>
        (RuleCall.text ⟨"DN", [toString e.1, "1"]⟩,
          e.2.modifyAt .dn (fun g => Rule.infer .dn [g]) [1])) ∧
      AdditionDistributes s "Add" "t" := by
  intro s
  have hcalls : s.WildcardByNumbers := wildcard_by_numbers ⟨false, _, rfl⟩ (by decide +kernel)
    (Option.isNone_iff_eq_none.mp (by decide +kernel)) (by decide +kernel)
  have hmp : Rule.CalledBy .mp "mp" :=
    ⟨List.all_eq_true.mp (by decide), by decide, by decide +kernel⟩
  have hdn := hcalls.atPath "DN" "1" (some [1]) ⟨"DN", ["*", "1"]⟩ (Rule.calledBy_terse rfl)
    (by decide +kernel) (by decide +kernel)
  exact ⟨by decide +kernel, hcalls.both .mp "mp" rfl rfl (by decide) hmp, hdn,
    hcalls.addition "Add" "t" (.atom .t) (Rule.calledBy_terse rfl) (by decide +kernel)⟩

end Session

end Deduction
