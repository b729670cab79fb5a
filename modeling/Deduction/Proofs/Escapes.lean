import Deduction.Proofs.Failure

/-!
# Lines without an answer

What is raised while a line is answered is caught on the way, apart from a text of digits that is
not read as a number. Digits only fail to be a number by being too many, and such a text stands in
the line itself (`longRun_of_handle`).
-/

namespace Deduction.Session

variable {s : Session} {line : String}

/-- A line without an answer holds too many digits in a row. -/
theorem longRun_of_handle {e : Text.NumeralFault} (h : s.handle line = .error e) :
    LongRun (Text.squeezeChars line.toList) e := by
  have hhandled := handled s line
  rw [h] at hhandled
  cases hhandled with
  | fault hplain hm hrequest => exact explained_requestOf hrequest

/-- **Every line is answered, short of a number too long to be read.** If a line, without its
blanks, has no more than 4300 ASCII digits in a row, there is a reply, and nothing is raised that is
not caught. For any line at all, the one thing that can be raised and not caught is that a number
with more digits than that cannot be read; it comes before anything has been changed. So neither a
text that is no statement nor a refused rule or call ever goes unreported. -/
theorem line_answered (s : Session) (line : String) :
    ((∀ run, run <:+: Text.squeezeChars line.toList → (∀ c ∈ run, c.isDigit = true) →
        run.length ≤ 4300) →
      ∃ t reply, s.handle line = .ok (t, reply) ∧ (InPlace.handle line).exec s = (.ok reply, t)) ∧
    ∀ raised t, (InPlace.handle line).exec s = (.error raised, t) →
      t = s ∧ ∃ run, run <:+: Text.squeezeChars line.toList ∧ (∀ c ∈ run, c.isDigit = true) ∧
        4300 < run.length ∧ raised = .numeral (.tooLong run.length) ∧
        s.handle line = .error (.tooLong run.length) := by
  rw [InPlace.exec_handle]
  rcases h : s.handle line with e | ⟨t, reply⟩
  · obtain ⟨run, hpart, hdigits, hlong, rfl⟩ := longRun_of_handle h
    refine ⟨fun hshort => absurd (hshort run hpart hdigits) (Nat.not_le.mpr hlong), ?_⟩
    intro raised t hraised
    cases hraised
    exact ⟨rfl, run, hpart, hdigits, hlong, rfl, rfl⟩
  · refine ⟨fun _ => ⟨t, reply, rfl, rfl⟩, ?_⟩
    intro raised t hraised
    cases hraised

/-- Up to the limit there is an answer, and one digit more is beyond it. -/
theorem line_answered_at_limit :
    let s := (start false).after ["p", "therefore", "q"]
    let call (n : ℕ) := RuleCall.text ⟨"DN", [String.ofList (List.replicate n '1')]⟩
    ((∀ run, run <:+: Text.squeezeChars (call 4300).toList → (∀ c ∈ run, c.isDigit = true) →
        run.length ≤ 4300) ∧
      ∃ t reply, s.handle (call 4300) = .ok (t, reply) ∧
        (InPlace.handle (call 4300)).exec s = (.ok reply, t)) ∧
    (InPlace.handle (call 4301)).exec s = (.error (.numeral (.tooLong 4301)), s) ∧
    ∃ run, run <:+: Text.squeezeChars (call 4301).toList ∧ 4300 < run.length := by
  intro s call
  have hdigits : ∀ n, (call n).toList.countP Char.isDigit = n := by
    intro n
    have hone : Char.isDigit '1' = true := by decide
    have hname : ['D', 'N', '('].countP Char.isDigit = 0 := by decide
    have hclose : [')'].countP Char.isDigit = 0 := by decide
    have htext : (call n).toList = ['D', 'N', '('] ++ (List.replicate n '1' ++ [')']) := by
      simp [call, RuleCall.text]
    rw [htext, List.countP_append, List.countP_append, hname, hclose, List.countP_replicate,
      if_pos hone, Nat.zero_add, Nat.add_zero]
  have hshort : ∀ run, run <:+: Text.squeezeChars (call 4300).toList →
      (∀ c ∈ run, c.isDigit = true) → run.length ≤ 4300 := by
    intro run hpart hrun
    calc run.length
        = run.countP Char.isDigit := (List.countP_eq_length.mpr hrun).symm
      _ ≤ (call 4300).toList.countP Char.isDigit :=
          (hpart.sublist.trans List.filter_sublist).countP_le
      _ = 4300 := hdigits 4300
  have hlong : s.handle (call 4301) = .error (.tooLong 4301) := by
    have hdigit : ∀ c ∈ List.replicate 4301 '1', c.isDigit = true := by
      intro c hc
      rw [List.eq_of_mem_replicate hc]
      decide
    have hones : (String.ofList (List.replicate 4301 '1')).toList = List.replicate 4301 '1' :=
      String.toList_ofList
    have h := handle_tooLong (s := s) (by decide +kernel)
      (Option.isNone_iff_eq_none.mp (by decide +kernel))
      (Rule.calledBy_terse (show Rule.isImplemented .dn = true from rfl))
      (fun c hc => hdigit c (hones ▸ hc))
      (by rw [hones, List.length_replicate]; decide)
    rwa [hones, List.length_replicate] at h
  have hraised : (InPlace.handle (call 4301)).exec s = (.error (.numeral (.tooLong 4301)), s) := by
    rw [InPlace.exec_handle, hlong]
    rfl
  obtain ⟨-, run, hpart, -, hlength, -⟩ := (line_answered s (call 4301)).2 _ _ hraised
  exact ⟨⟨hshort, (line_answered s (call 4300)).1 hshort⟩, hraised, run, hpart, hlength⟩

end Deduction.Session
