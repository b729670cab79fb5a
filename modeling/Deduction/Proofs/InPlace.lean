import Deduction.Proofs.Batch
import Deduction.Proofs.Grounds

/-!
# Sessions changed in place

Here a line is answered step by step on a session that is changed as the steps go. Something can be
raised at many of them: where a text is read as a statement, where a call is taken apart, where a
reference or a path is looked up, where a rule is applied. What is raised leaves the changes made
before it. Some steps lie inside a part that catches one kind and lets the others through
(`InPlace.attempt`).

`InPlace.handle` answers a line in this way, and it comes to the same as `handle`
(`InPlace.exec_handle`): nothing gets through but a text of digits that is not read as a number, and
nothing has been changed then.
-/

namespace Deduction.Session

/-! ### What is raised -/

/-- What is raised where something goes wrong. -/
inductive Raised where
  /-- A text is no statement. -/
  | unread (e : ParseError)
  /-- A rule or a call is refused. -/
  | refused (e : RuleError)
  /-- A function is given statements of the wrong kind or number. -/
  | mistyped (e : RuleError)
  /-- A text of digits is not read as a number. -/
  | numeral (e : Text.NumeralFault)

namespace Raised

def ofRuleError (e : RuleError) : Raised := if e.isMistyped then mistyped e else refused e

def ofRefusal : Refusal → Raised
  | .rule e => ofRuleError e
  | .numeral e => numeral e

def unread? : Raised → Option ParseError
  | unread e => some e
  | _ => none

def refused? : Raised → Option RuleError
  | refused e => some e
  | _ => none

theorem ofRuleError_eq {e : RuleError} (h : e.isMistyped = false) : ofRuleError e = refused e := by
  rw [ofRuleError, h]
  rfl

end Raised

/-! ### Steps -/

/-- Steps on a session that is changed as they go. What is raised leaves the changes made before
it. -/
abbrev InPlace (α : Type) := ExceptT Raised (StateM Session) α

namespace InPlace

variable {α β ε : Type} {s : Session}

/-- What a step gives, and the session after it. -/
def exec (x : InPlace α) (s : Session) : Except Raised α × Session := x.run.run s

theorem exec_get : (get : InPlace Session).exec s = (.ok s, s) := rfl

theorem exec_modify (f : Session → Session) :
    (modify f : InPlace PUnit).exec s = (.ok ⟨⟩, f s) := rfl

theorem exec_liftM (x : Except Raised α) : (liftM x : InPlace α).exec s = (x, s) := by
  cases x <;> rfl

theorem exec_bind (x : InPlace α) (f : α → InPlace β) :
    (x >>= f).exec s = match x.exec s with
      | (.ok a, s') => (f a).exec s'
      | (.error raised, s') => (.error raised, s') := by
  show (ExceptT.bindCont f (x.exec s).1).run (x.exec s).2 = _
  rcases x.exec s with ⟨raised | a, s'⟩ <;> rfl

/-- A change that cannot fail. -/
def change (f : Session → Session × Reply) : InPlace Reply := modifyGet fun s => (f s).swap

/-- Carries out a part and catches what is of one kind. All else goes on up. -/
def attempt (kind? : Raised → Option ε) (x : InPlace α) : InPlace (Except ε α) := do
  let result : Except Raised α ← liftM x.run
  match result with
  | .ok a => return .ok a
  | .error raised =>
    match kind? raised with
    | some e => return .error e
    | none => throw raised

theorem exec_attempt (kind? : Raised → Option ε) (x : InPlace α) :
    (attempt kind? x).exec s = match x.exec s with
      | (.ok a, t) => (.ok (.ok a), t)
      | (.error raised, t) =>
        match kind? raised with
        | some e => (.ok (.error e), t)
        | none => (.error raised, t) := by
  have hx : (liftM x.run : InPlace (Except Raised α)).exec s =
      (.ok (x.exec s).1, (x.exec s).2) := rfl
  rw [attempt, exec_bind, hx]
  rcases x.exec s with ⟨raised | a, t⟩
  · simp only
    rcases kind? raised with _ | e <;> rfl
  · rfl

/-! ### Lines -/

/-- Reads a statement. -/
def read (line : String) : InPlace Formula :=
  liftM ((Formula.parse line).mapError Raised.unread)

/-- Runs a batch. -/
def results (batch : Batch) : InPlace (List Formula) :=
  liftM (batch.run.mapError Raised.ofRuleError)

def acceptPremise (line : String) : InPlace Reply := do
  let stored ← attempt Raised.unread? do
    let f ← read line
    modify fun s => { s with facts := (s.facts.add f).1 }
  match stored with
  | .error e => return { errors := [e.message] }
  | .ok _ => return {}

def acceptConclusion (line : String) : InPlace Reply := do
  let stored ← attempt Raised.unread? do
    let f ← read line
    modify fun s => { s with facts := { s.facts with conclusion := some f } }
  match stored with
  | .error e => return { errors := [e.message] }
  | .ok _ =>
    modify fun s => { s with mode := .rule }
    return { messages := ["Entering rule mode"] }

/-- Takes a call apart and runs what it asks for; an addition without a statement has no results
yet. -/
def apply (line : String) : InPlace (Option (Rule × List Formula)) := do
  let call ← liftM ((RuleCall.parse line).mapError Raised.ofRuleError)
  let some rule := Rule.lookup? call.name | throw (.ofRuleError (.noSuchRule call.name))
  match ← liftM (((← get).request rule call).mapError Raised.ofRefusal) with
  | .wait pending =>
    modify fun s => { s with pending := some pending }
    return none
  | .run batch => return some (batch.rule, ← results batch)

/-- The results are stored outside the part that catches. -/
def runRule (line : String) : InPlace Reply := do
  match ← attempt Raised.refused? (apply line) with
  | .error e => return { errors := [e.message] }
  | .ok none => return { messages := [additionPrompt] }
  | .ok (some (rule, results)) => change fun s => s.record rule results

/-- Two parts that catch different kinds, and between them the addition stops waiting. -/
def completeAddition (pending : Pending) (line : String) : InPlace Reply := do
  match ← attempt Raised.unread? (read line) with
  | .error e => return { errors := [e.message], messages := [additionPrompt] }
  | .ok addend =>
    modify fun s => { s with pending := none }
    match ← attempt Raised.refused? (results (pending.batch addend)) with
    | .error e => return { errors := [e.message] }
    | .ok results => change fun s => s.record .add results

/-- Answers a line. -/
def handle (line : String) : InPlace Reply := do
  if Text.isBlankText line then return {}
  let s ← get
  match s.pending with
  | some pending => completeAddition pending line
  | none =>
    match Command.ofLine? line s.mode with
    | some command => change fun s => s.runCommand command
    | none =>
      match s.mode with
      | .premise => acceptPremise line
      | .conclusion => acceptConclusion line
      | .rule => runRule line

/-! ### The same answers -/

/-- The outcome of a line for a session that is changed in place: only a number that cannot be read
is raised, and nothing has been changed then. -/
def outcome (s : Session) : Except Text.NumeralFault (Session × Reply) →
    Except Raised Reply × Session
  | .ok (t, reply) => (.ok reply, t)
  | .error e => (.error (.numeral e), s)

theorem exec_acceptPremise (s : Session) (line : String) :
    (acceptPremise line).exec s = outcome s (.ok (s.acceptPremise line)) := by
  simp only [acceptPremise, read, exec_bind, exec_attempt, exec_liftM, Session.acceptPremise]
  rcases Formula.parse line with e | f <;> rfl

theorem exec_acceptConclusion (s : Session) (line : String) :
    (acceptConclusion line).exec s = outcome s (.ok (s.acceptConclusion line)) := by
  simp only [acceptConclusion, read, exec_bind, exec_attempt, exec_liftM, Session.acceptConclusion]
  rcases Formula.parse line with e | f <;> rfl

theorem exec_completeAddition (s : Session) (pending : Pending) (line : String) :
    (completeAddition pending line).exec s = outcome s (.ok (s.completeAddition pending line)) := by
  simp only [completeAddition, read, exec_bind, exec_attempt, exec_liftM, Session.completeAddition]
  rcases Formula.parse line with e | addend
  · rfl
  · -- the second part catches nothing, since an addition never fails
    simp only [Except.mapError, results, exec_bind, exec_modify, exec_attempt, exec_liftM,
      pending.run_batch addend, runBatch_ok (pending.run_batch addend)]
    rfl

/-- All that goes on inside the part that catches refusals. -/
theorem exec_apply (s : Session) (line : String) :
    (apply line).exec s = match s.requestOf line with
      | .error r => (.error (.ofRefusal r), s)
      | .ok (.wait pending) => (.ok none, { s with pending := some pending })
      | .ok (.run batch) =>
        ((batch.run.mapError Raised.ofRuleError).map fun results => some (batch.rule, results),
          s) := by
  simp only [apply, requestOf, exec_bind, exec_liftM]
  rcases RuleCall.parse line with e | call
  · rfl
  · simp only [Except.mapError]
    rcases Rule.lookup? call.name with _ | rule
    · rfl
    · simp only [exec_bind, exec_get, exec_liftM]
      rcases s.request rule call with r | (batch | pending)
      · rfl
      · simp only [results, exec_bind, exec_liftM]
        rcases batch.run with e | results <;> rfl
      · rfl

theorem exec_runRule (s : Session) (line : String) :
    (runRule line).exec s = outcome s (s.runRule line) := by
  simp only [runRule, exec_bind, exec_attempt, exec_apply, Session.runRule]
  rcases hrequest : s.requestOf line with (e | e) | (batch | pending)
  · have hrefused : e.isMistyped = false := explained_requestOf hrequest
    simp only [Raised.ofRefusal, Raised.ofRuleError_eq hrefused]
    rfl
  · rfl
  · simp only
    rcases hrun : batch.run with e | results
    · have hrefused := Batch.isMistyped_run (second_ne_one_of_requestOf hrequest) hrun
      rw [runBatch_error hrun]
      simp only [Except.mapError, Raised.ofRuleError_eq hrefused]
      rfl
    · rw [runBatch_ok hrun]
      rfl
  · rfl

/-- **A line does in place what it does to a session**, and what is raised on the way is caught
wherever a refusal has its place in the reply. -/
theorem exec_handle (s : Session) (line : String) :
    (handle line).exec s = outcome s (s.handle line) := by
  simp only [handle, Session.handle]
  split_ifs with hb
  · rfl
  · simp only [exec_bind, exec_get]
    rcases s.pending with _ | pending
    · rcases Command.ofLine? line s.mode with _ | command
      · rcases s.mode with _ | _ | _
        · exact exec_acceptPremise s line
        · exact exec_acceptConclusion s line
        · exact exec_runRule s line
      · rfl
    · exact exec_completeAddition s pending line

end InPlace

end Deduction.Session
