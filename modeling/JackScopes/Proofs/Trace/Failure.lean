import JackScopes.Proofs.Text.Lines
import JackScopes.Proofs.Trace.Course

/-!
# Where a replay fails

A replay fails at the first line that cannot be followed. The lines before decide
whether it gets there, the line itself decides the fault, and nothing behind it is
looked at. `step_error` says which faults one line can give, `follow_error` finds the
line of a failed replay, and `replay_error_local` says both of whole texts.
-/

namespace JackScopes

def Logged.failure? {ε α : Type} (x : Logged ε α) : Option ε :=
  match x.outcome with
  | .ok _ => none
  | .error e => some e

theorem Logged.failure?_eq_some {ε α : Type} {x : Logged ε α} {e : ε} :
    x.failure? = some e ↔ x.outcome = .error e := by
  rw [Logged.failure?]
  cases x.outcome <;> simp

namespace Trace

/-- A trace is refused for a name only where unknown names are refused. -/
def Refusal.Under (policy : UnknownNames) : Refusal → Prop
  | malformed _ => True
  | unknownName _ => policy = .reject

-- ---------------------------------------------------------------------------
-- One line
-- ---------------------------------------------------------------------------

theorem defineNames_error {kind : Kind} {type : String} {complaint : Complaint} {table : Table}
    {pieces : List (List Char)} {refusal : Refusal}
    (h : (defineNames kind type complaint table pieces).outcome = .error refusal) :
    refusal = .malformed complaint := by
  induction pieces generalizing table with
  | nil => cases h
  | cons piece pieces ih =>
    rw [defineNames] at h
    split at h
    · rw [Logged.outcome_bind_of_ok (Logged.outcome_emit _)] at h
      exact ih h
    · cases h
      rfl

namespace Progress

variable {policy : UnknownNames} {progress : Progress} {refusal : Refusal}

theorem openClass_error {statement : Statement}
    (h : (progress.openClass statement).outcome = .error refusal) : refusal.Under policy := by
  simp only [openClass, Logged.bind_error, Logged.mapError_error] at h
  obtain ⟨complaint, -, rfl⟩ | ⟨name, -, h⟩ := h
  · trivial
  · split at h
    · cases h
      trivial
    · cases h

theorem obey_error {openClass : OpenClass} {directive : Directive}
    (h : (progress.obey policy openClass directive).outcome = .error refusal) :
    refusal.Under policy := by
  cases directive with
  | startSubroutine name => cases h
  | resolve name =>
    rw [obey] at h
    split at h
    · next hr =>
      cases h
      simp only [Bool.and_eq_true, decide_eq_true_eq] at hr
      exact hr.1
    · cases h
  | declare kind type names =>
    simp only [obey, Logged.bind_error] at h
    obtain h | ⟨table, -, h⟩ := h
    · rw [defineNames_error h]
      trivial
    · cases h

theorem step_error {line : List Char}
    (h : (progress.step policy line).outcome = .error refusal) : refusal.Under policy := by
  rw [step] at h
  split at h
  · next statement _ =>
    rw [perform] at h
    split at h
    · exact openClass_error h
    · split at h
      · cases h
        trivial
      · simp only [Logged.bind_error, Logged.mapError_error] at h
        obtain ⟨complaint, -, rfl⟩ | ⟨directive, -, h⟩ := h
        · trivial
        · exact obey_error h
  · cases h

end Progress

-- ---------------------------------------------------------------------------
-- All lines
-- ---------------------------------------------------------------------------

/-- A replay that fails has followed all lines before some line, and fails at this one. -/
theorem follow_error {policy : UnknownNames} {number : Nat} {progress : Progress}
    {lines : List (List Char)} {fault : Fault}
    (h : (follow policy number progress lines).outcome = .error fault) :
    ∃ before line after reached refusal, lines = before ++ line :: after ∧
      (follow policy number progress before).outcome = .ok reached ∧
      (reached.step policy line).outcome = .error refusal ∧
      fault = refusal.fault (number + before.length) := by
  induction lines generalizing number progress with
  | nil => cases h
  | cons line lines ih =>
    rw [follow, Logged.bind_error] at h
    rcases h with h | ⟨next, hnext, h⟩
    · obtain ⟨refusal, hr, rfl⟩ := Logged.mapError_error.mp h
      exact ⟨[], line, lines, progress, refusal, rfl, rfl, hr, rfl⟩
    · obtain ⟨before, bad, after, reached, refusal, rfl, hbefore, hbad, rfl⟩ := ih h
      refine ⟨line :: before, bad, after, reached, refusal, rfl, ?_, hbad, ?_⟩
      · rw [follow, Logged.outcome_bind_of_ok hnext, hbefore]
      · rw [List.length_cons, Nat.add_assoc, Nat.add_comm 1]

/-- Where a line cannot be followed, nothing behind it is looked at. -/
theorem follow_append_of_error {policy : UnknownNames} {number : Nat} {progress : Progress}
    {lines : List (List Char)} {fault : Fault}
    (h : (follow policy number progress lines).outcome = .error fault)
    (more : List (List Char)) :
    follow policy number progress (lines ++ more) = follow policy number progress lines := by
  rw [follow_append, Logged.bind_eq_of_error h]
  exact Logged.ext rfl h.symm

theorem replay_error {policy : UnknownNames} {text : String} {fault : Fault} :
    (replay policy text).outcome = .error fault ↔
      (follow policy 1 {} (Text.lines text.toList)).outcome = .error fault := by
  rw [outcome_replay]
  cases (follow policy 1 {} (Text.lines text.toList)).outcome <;> simp [Except.map]

theorem replay_succeeds {policy : UnknownNames} {text : String} :
    (∃ report, (replay policy text).outcome = .ok report) ↔
      ∃ progress, (follow policy 1 {} (Text.lines text.toList)).outcome = .ok progress := by
  simp [outcome_replay, map_ok]

-- ---------------------------------------------------------------------------
-- The first line that cannot be followed
-- ---------------------------------------------------------------------------

def upTo (n : Nat) (text : String) : String :=
  String.ofList (Text.firstLines n text.toList)

theorem lines_upTo (n : Nat) (text : String) :
    Text.lines (upTo n text).toList = (Text.lines text.toList).take n := by
  rw [upTo, String.toList_ofList, Text.lines_firstLines]

/-- A replay fails at a line: the lines before succeed, and with it they do not. -/
structure FailsAt (policy : UnknownNames) (text : String) (n : Nat) (fault : Fault) : Prop where
  before : ∃ report, (replay policy (upTo (n - 1) text)).outcome = .ok report
  fails : (replay policy (upTo n text)).outcome = .error fault

/-- Fewer lines of a trace that is followed are followed too. -/
theorem upTo_succeeds {policy : UnknownNames} {text : String} {m n : Nat} (hmn : m ≤ n)
    (h : ∃ report, (replay policy (upTo n text)).outcome = .ok report) :
    ∃ report, (replay policy (upTo m text)).outcome = .ok report := by
  rw [replay_succeeds, lines_upTo] at h ⊢
  obtain ⟨progress, h⟩ := h
  rw [← List.take_append_drop m (List.take n _), List.take_take, Nat.min_eq_left hmn, follow_append,
    Logged.bind_ok] at h
  obtain ⟨reached, hreached, -⟩ := h
  exact ⟨reached, hreached⟩

theorem FailsAt.unique {policy : UnknownNames} {text : String} {m n : Nat} {fault other : Fault}
    (hm : FailsAt policy text m other) (hn : FailsAt policy text n fault) : m = n := by
  rcases Nat.lt_trichotomy m n with hlt | heq | hlt
  · obtain ⟨report, hr⟩ := upTo_succeeds (Nat.le_sub_one_of_lt hlt) hn.before
    cases hr.symm.trans hm.fails
  · exact heq
  · obtain ⟨report, hr⟩ := upTo_succeeds (Nat.le_sub_one_of_lt hlt) hm.before
    cases hr.symm.trans hn.fails

/-- What stands behind the line is never looked at. -/
theorem FailsAt.decides {policy : UnknownNames} {text other : String} {n : Nat} {fault : Fault}
    (h : FailsAt policy text n fault)
    (ho : (Text.lines other.toList).take n = (Text.lines text.toList).take n) :
    replay policy other = replay policy text := by
  have hbad := replay_error.mp h.fails
  rw [lines_upTo] at hbad
  have hstop (lines : List (List Char)) (hl : lines.take n = (Text.lines text.toList).take n) :
      follow policy 1 {} lines = follow policy 1 {} ((Text.lines text.toList).take n) := by
    rw [← List.take_append_drop n lines, hl, follow_append_of_error hbad]
  rw [replay_eq, replay_eq, hstop _ ho, hstop _ rfl]

theorem exists_bad_line {policy : UnknownNames} {text : String} {fault : Fault}
    (h : (replay policy text).outcome = .error fault) :
    ∃ before line after reached refusal, Text.lines text.toList = before ++ line :: after ∧
      (follow policy 1 {} before).outcome = .ok reached ∧
      (reached.step policy line).outcome = .error refusal ∧
      fault = refusal.fault (1 + before.length) ∧ FailsAt policy text (1 + before.length) fault := by
  obtain ⟨before, line, after, reached, refusal, hlines, hbefore, hline, rfl⟩ :=
    follow_error (replay_error.mp h)
  have htake : (Text.lines text.toList).take (1 + before.length) = before ++ [line] := by
    rw [hlines, List.append_cons, List.take_left' (by simp [Nat.add_comm])]
  refine ⟨before, line, after, reached, refusal, hlines, hbefore, hline, rfl, ?_, ?_⟩
  · rw [replay_succeeds, lines_upTo, hlines, Nat.add_sub_cancel_left, List.take_left]
    exact ⟨reached, hbefore⟩
  · rw [replay_error, lines_upTo, htake, follow_append, Logged.outcome_bind_of_ok hbefore, follow,
      Logged.bind_error]
    exact .inl (Logged.mapError_error.mpr ⟨refusal, hline, rfl⟩)

theorem exists_failsAt {policy : UnknownNames} {text : String} {fault : Fault}
    (h : (replay policy text).outcome = .error fault) :
    ∃ (n : Nat) (refusal : Refusal), FailsAt policy text n fault ∧ fault = refusal.fault n ∧
      refusal.Under policy := by
  obtain ⟨before, line, after, reached, refusal, -, -, hline, hfault, hfails⟩ := exists_bad_line h
  exact ⟨_, refusal, hfails, hfault, Progress.step_error hline⟩

/-- A failed replay fails at exactly one line. The lines up to this one decide all that
the replay does, whatever stands behind them; a complaint tells the number of the line,
and a name is only refused where unknown names are. -/
theorem replay_error_local {policy : UnknownNames} {text : String} {fault : Fault}
    (h : (replay policy text).outcome = .error fault) :
    ∃ n, FailsAt policy text n fault ∧
      (∀ m other, FailsAt policy text m other → m = n) ∧
      (∀ other : String, (Text.lines other.toList).take n = (Text.lines text.toList).take n →
        replay policy other = replay policy text) ∧
      ((∃ complaint, fault = .script n complaint) ∨
        policy = .reject ∧ ∃ name, fault = .unknownName name) := by
  obtain ⟨n, refusal, hfails, rfl, hunder⟩ := exists_failsAt h
  refine ⟨n, hfails, fun m other hm => hm.unique hfails, fun other => hfails.decides, ?_⟩
  cases refusal with
  | malformed complaint => exact .inl ⟨complaint.text, rfl⟩
  | unknownName name => exact .inr ⟨hunder, name, rfl⟩

/-- A class is opened again, behind a comment line and an empty one. -/
def reopened : String :=
  "// a class too many\r\n\r\nclass A\r\nfield int x\r\nclass A\nsubroutine"

theorem replay_error_local_reopened :
    (replay .aliasField reopened).outcome = .error (.script 5 "class `A` declared twice") ∧
      FailsAt .aliasField reopened 5 (.script 5 "class `A` declared twice") ∧
      (∀ m other, FailsAt .aliasField reopened m other → m = 5) ∧
      ∀ other : String, (Text.lines other.toList).take 5 = (Text.lines reopened.toList).take 5 →
        replay .aliasField other = replay .aliasField reopened := by
  have h : (replay .aliasField reopened).outcome = .error (.script 5 "class `A` declared twice") :=
    Logged.failure?_eq_some.mp (by decide +kernel)
  obtain ⟨n, hfails, hunique, hdecided, ⟨complaint, hfault⟩ | ⟨hpolicy, -⟩⟩ := replay_error_local h
  · obtain ⟨rfl, -⟩ := Fault.script.inj hfault
    exact ⟨h, hfails, hunique, hdecided⟩
  · cases hpolicy

end Trace

end JackScopes
