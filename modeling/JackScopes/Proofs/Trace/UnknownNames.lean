import JackScopes.Proofs.Trace.Failure
import JackScopes.Proofs.Trace.Meaning

/-!
# The two policies on unknown names

Refusing unknown names changes a replay in one way: it ends at the first name that no
scope declares. Up to there both policies follow the same lines to the same progress,
so the replay that takes unknown names for fields tells what the other one does: its
first resolution without storage is where the other one ends.
-/

namespace JackScopes.Trace

/-- An outcome behind some resolutions, where unknown names are refused: the refusal of
the first of these names that has no storage, if there is one. -/
def refuseUnknown {α : Type} (resolutions : List Resolution) (outcome : Except Fault α) :
    Except Fault α :=
  match resolutions.find? (·.storage.isNone) with
  | some resolution => .error (.unknownName resolution.name)
  | none => outcome

section
variable {α β : Type}

theorem refuseUnknown_of_known {resolutions : List Resolution}
    (h : ∀ resolution ∈ resolutions, resolution.storage.isSome) (outcome : Except Fault α) :
    refuseUnknown resolutions outcome = outcome := by
  have hnone : resolutions.find? (·.storage.isNone) = none := by
    rw [List.find?_eq_none]
    intro resolution hr
    simpa [Option.isSome_iff_ne_none] using h resolution hr
  rw [refuseUnknown, hnone]

theorem refuseUnknown_append (earlier later : List Resolution) (outcome : Except Fault α) :
    refuseUnknown (earlier ++ later) outcome =
      refuseUnknown earlier (refuseUnknown later outcome) := by
  simp only [refuseUnknown, List.find?_append]
  cases earlier.find? (·.storage.isNone) <;> rfl

theorem refuseUnknown_bind (resolutions : List Resolution) (outcome : Except Fault α)
    (next : α → Except Fault β) :
    (refuseUnknown resolutions outcome).bind next =
      refuseUnknown resolutions (outcome.bind next) := by
  simp only [refuseUnknown]
  cases resolutions.find? (·.storage.isNone) <;> rfl

end

-- ---------------------------------------------------------------------------
-- One line
-- ---------------------------------------------------------------------------

namespace Progress

variable {progress next : Progress} {line : List Char}

/-- Two computations behave alike, or one takes for a field what the other refuses. -/
def PartOverName (progress : Progress) (lenient strict : Logged Refusal Progress) : Prop :=
  strict = lenient ∨
    ∃ resolution : Resolution, resolution.storage = none ∧
      lenient = pure { progress with resolutions := progress.resolutions.push resolution } ∧
      strict = .fail (.unknownName resolution.name)

theorem partOverName_obey (progress : Progress) (openClass : OpenClass) (directive : Directive) :
    progress.PartOverName (progress.obey .aliasField openClass directive)
      (progress.obey .reject openClass directive) := by
  cases directive with
  | startSubroutine name | declare kind type names => exact .inl rfl
  | resolve name =>
    cases hr : openClass.table.resolve name with
    | none =>
      refine .inr ⟨openClass.resolution name, ?_, ?_, ?_⟩
      · simp [OpenClass.resolution, hr]
      · simp [obey]
      · simp [obey, hr, OpenClass.resolution]
    | some entry => exact .inl (by simp [obey, hr])

theorem partOverName_perform (progress : Progress) (statement : Statement) :
    progress.PartOverName (progress.perform .aliasField statement)
      (progress.perform .reject statement) := by
  unfold perform
  split
  · exact .inl rfl
  · cases progress.current with
    | none => exact .inl rfl
    | some openClass =>
      cases statement.directive with
      | error complaint => exact .inl rfl
      | ok directive => exact partOverName_obey progress openClass directive

theorem partOverName_step (progress : Progress) (line : List Char) :
    progress.PartOverName (progress.step .aliasField line) (progress.step .reject line) := by
  unfold step
  cases Statement.ofLine? line with
  | none => exact .inl rfl
  | some statement => exact partOverName_perform progress statement

theorem storage_isSome_of_admits {sentence : Sentence} (h : progress.Admits .reject sentence) :
    ∀ resolution ∈ sentence.resolved?.toList.flatMap fun name =>
      (progress.current.map (·.resolution name)).toList, resolution.storage.isSome := by
  cases sentence with
  | blank | openClass name | startSubroutine name | declare kind type names =>
    simp [Sentence.resolved?]
  | resolve name =>
    obtain ⟨openClass, hcurrent, hknown⟩ := h
    simpa [Sentence.resolved?, hcurrent, OpenClass.resolution] using hknown rfl

/-- Refusing unknown names ends a line at the resolutions without storage that it makes. -/
theorem step_reject_of_ok (h : (progress.step .aliasField line).outcome = .ok next)
    (number : Nat) :
    ∃ made, next.resolutions.toList = progress.resolutions.toList ++ made ∧
      ((progress.step .reject line).mapError (Refusal.fault number)).outcome =
        refuseUnknown made (.ok next) := by
  rcases partOverName_step progress line with hsame | ⟨resolution, hnone, halias, hreject⟩
  · have hok : (progress.step .reject line).outcome = .ok next := by rw [hsame, h]
    obtain ⟨sentence, -, hadmits, rfl⟩ := step_ok.mp hok
    refine ⟨_, resolutions_heed progress sentence, ?_⟩
    rw [refuseUnknown_of_known (storage_isSome_of_admits hadmits)]
    exact Logged.mapError_ok.mpr hok
  · rw [halias, Logged.outcome_pure, Except.ok.injEq] at h
    subst h
    refine ⟨[resolution], by simp, ?_⟩
    rw [hreject]
    simp [refuseUnknown, hnone, Except.mapError, Refusal.fault]

theorem step_reject_of_error {refusal : Refusal}
    (h : (progress.step .aliasField line).outcome = .error refusal) :
    (progress.step .reject line).outcome = .error refusal := by
  rcases partOverName_step progress line with hsame | ⟨resolution, -, halias, -⟩
  · rw [hsame, h]
  · rw [halias] at h
    cases h

end Progress

-- ---------------------------------------------------------------------------
-- All lines
-- ---------------------------------------------------------------------------

theorem follow_reject_of_ok {number : Nat} {progress final : Progress}
    {lines : List (List Char)}
    (h : (follow .aliasField number progress lines).outcome = .ok final) :
    ∃ made, final.resolutions.toList = progress.resolutions.toList ++ made ∧
      (follow .reject number progress lines).outcome = refuseUnknown made (.ok final) := by
  induction lines generalizing number progress with
  | nil =>
    cases h
    exact ⟨[], by simp, rfl⟩
  | cons line lines ih =>
    obtain ⟨next, hnext, hrest⟩ := Logged.bind_ok.mp h
    obtain ⟨first, hfirst, hstep⟩ :=
      Progress.step_reject_of_ok (Logged.mapError_ok.mp hnext) number
    obtain ⟨rest, hmade, hfollow⟩ := ih hrest
    refine ⟨first ++ rest, by rw [hmade, hfirst, List.append_assoc], ?_⟩
    rw [follow, Logged.outcome_bind, hstep, refuseUnknown_bind, refuseUnknown_append]
    exact congrArg _ hfollow

/-- Followed from fresh, all resolutions are made on the way. -/
theorem follow_reject_fresh {number : Nat} {final : Progress} {lines : List (List Char)}
    (h : (follow .aliasField number {} lines).outcome = .ok final) :
    (follow .reject number {} lines).outcome =
      refuseUnknown final.resolutions.toList (.ok final) := by
  obtain ⟨made, hmade, hreject⟩ := follow_reject_of_ok h
  have hall : final.resolutions.toList = made := by simpa using hmade
  rw [hall, hreject]

theorem replay_reject_of_ok {text : String} {report : Report}
    (h : (replay .aliasField text).outcome = .ok report) :
    (replay .reject text).outcome = refuseUnknown report.resolutions (.ok report) := by
  rw [replay_eq] at h ⊢
  obtain ⟨final, hfollow, hreport⟩ := Logged.bind_ok.mp h
  cases hreport
  rw [Logged.outcome_bind, follow_reject_fresh hfollow, refuseUnknown_bind]
  rfl

theorem replay_reject_of_error {text : String} {fault : Fault}
    (h : (replay .aliasField text).outcome = .error fault) :
    ∃ n complaint report, fault = .script (n + 1) complaint ∧
      (replay .aliasField (upTo n text)).outcome = .ok report ∧
      (replay .reject text).outcome = refuseUnknown report.resolutions (.error fault) := by
  obtain ⟨before, line, after, reached, refusal, hlines, hbefore, hline, rfl⟩ :=
    follow_error (replay_error.mp h)
  cases refusal with
  | unknownName name => cases (Progress.step_error hline : UnknownNames.aliasField = .reject)
  | malformed complaint =>
    have hbad : (follow .reject (1 + before.length) reached (line :: after)).outcome =
        .error (.script (1 + before.length) complaint.text) :=
      Logged.bind_error.mpr (.inl
        (Logged.mapError_error.mpr ⟨_, Progress.step_reject_of_error hline, rfl⟩))
    -- either an unknown name comes before the malformed line, or the line is reached
    have hfollow : (follow .reject 1 {} (Text.lines text.toList)).outcome =
        refuseUnknown reached.resolutions.toList
          (.error (.script (1 + before.length) complaint.text)) := by
      rw [hlines, follow_append, Logged.outcome_bind, follow_reject_fresh hbefore,
        refuseUnknown_bind]
      exact congrArg _ hbad
    refine ⟨before.length, complaint.text, reached.report, ?_, ?_, ?_⟩
    · rw [Refusal.fault, Nat.add_comm]
    · rw [outcome_replay, lines_upTo, hlines, List.take_left, hbefore]
      rfl
    · rw [replay_eq, Logged.outcome_bind, hfollow, refuseUnknown_bind]
      rfl

/-- The policies differ only over names that no scope declares. Where the lenient replay
succeeds, the strict one gives the same report or refuses the first resolved name without
storage. Where the lenient one fails, it complains about a line; the strict one makes the
same complaint, or refuses the first such name among the lines before. -/
theorem replay_reject (text : String) :
    (∃ report, (replay .aliasField text).outcome = .ok report ∧
        (replay .reject text).outcome = refuseUnknown report.resolutions (.ok report)) ∨
      ∃ n complaint report,
        (replay .aliasField text).outcome = .error (.script (n + 1) complaint) ∧
        (replay .aliasField (upTo n text)).outcome = .ok report ∧
        (replay .reject text).outcome =
          refuseUnknown report.resolutions (.error (.script (n + 1) complaint)) := by
  cases h : (replay .aliasField text).outcome with
  | ok report => exact .inl ⟨report, rfl, replay_reject_of_ok h⟩
  | error fault =>
    obtain ⟨n, complaint, report, rfl, hbefore, hreject⟩ := replay_reject_of_error h
    exact .inr ⟨n, complaint, report, rfl, hbefore, hreject⟩

end JackScopes.Trace
