import JackScopes.Proofs.Outcome

/-!
# How much is logged

The threshold chooses from the log and decides nothing else. What the program does once it
has told the settings is its course: events and an outcome that no threshold takes part in.
A run at a threshold prints the outcome of the course, and of its events those that the
threshold admits.
-/

namespace JackScopes

/-- What a lower threshold admits is found among what a higher one admits. -/
theorem Severity.filter_filter_admits {low high : Severity} (h : high.admits low = true)
    (events : List Event) :
    (events.filter fun event => high.admits event.severity).filter
        (fun event => low.admits event.severity) =
      events.filter fun event => low.admits event.severity := by
  rw [List.filter_filter]
  refine List.filter_congr fun event _ => ?_
  cases hlow : low.admits event.severity with
  | false => rfl
  | true => rw [admits_trans h hlow, Bool.and_self]

namespace Program

variable {files : Files}

/-- What the program does with a trace once it has told the settings. -/
def course (files : Files) (policy : UnknownNames) (tracePath : String) :
    Logged Fault Trace.Report := do
  Logged.emit [.replaying tracePath]
  let text ← Logged.ofExcept (readText files tracePath)
  let report ← Trace.replay policy text
  Logged.emit (closing report)
  return report

def lastWord : Except Fault Trace.Report → String
  | .ok _ => ""
  | .error fault => fault.text ++ "\n"

def ended (work : Except Fault Trace.Report) (log : String) : Outcome :=
  match work with
  | .ok report => ⟨0, report.text, log ++ lastWord work⟩
  | .error _ => ⟨1, "", log ++ lastWord work⟩

theorem exitCode_ended (work : Except Fault Trace.Report) (log other : String) :
    (ended work log).exitCode = (ended work other).exitCode := by
  cases work <;> rfl

theorem stdout_ended (work : Except Fault Trace.Report) (log other : String) :
    (ended work log).stdout = (ended work other).stdout := by
  cases work <;> rfl

theorem stderr_ended (work : Except Fault Trace.Report) (log : String) :
    (ended work log).stderr = log ++ lastWord work := by
  cases work <;> rfl

theorem logAt_cons (threshold : Severity) (event : Event) (events : List Event) :
    logAt threshold (event :: events) = logAt threshold [event] ++ logAt threshold events := by
  unfold logAt
  cases h : threshold.admits event.severity <;> simp [h, String.join_cons]

theorem perform_eq_course (task : Task) :
    perform files task = (do
      Logged.emit [.configured task.settings.text]
      course files task.settings.unknownNames task.tracePath) := by
  rfl

theorem run_of_starts (tracePath : String) {rest : List String} {settings : Settings}
    {threshold : Severity} (h : Starts files rest settings threshold) :
    run files (tracePath :: rest) =
      let work := course files settings.unknownNames tracePath
      ended work.outcome (logAt threshold (.configured settings.text :: work.events)) := by
  have hperform : perform files { tracePath, settings, threshold } =
      ⟨.configured settings.text :: (course files settings.unknownNames tracePath).events,
        (course files settings.unknownNames tracePath).outcome⟩ := by
    rw [perform_eq_course, Logged.bind_eq_of_ok (Logged.outcome_emit _)]
    rfl
  cases houtcome : (course files settings.unknownNames tracePath).outcome with
  | ok report =>
    rw [houtcome] at hperform
    rw [run_of_ok (prepare_of_starts h) hperform]
    simp [ended, lastWord, houtcome]
  | error fault =>
    rw [houtcome] at hperform
    rw [run_of_error (prepare_of_starts h) hperform]
    simp [ended, lastWord, houtcome, failed, String.append_assoc]

/-- How much is logged does not change the answer. Two settings texts that ask for the same
with unknown names, with a threshold each, make the program end with the same exit code and
the same output. But for the line that tells the settings, the log at the lower threshold is
what this threshold admits of the log at the higher one, line by line, and the same message
ends both if the program fails. -/
theorem run_at_thresholds (tracePath : String) {lowPath highPath : String}
    {lowSettings highSettings : Settings} {low high : Severity}
    (hlow : Starts files [lowPath] lowSettings low)
    (hhigh : Starts files [highPath] highSettings high)
    (hpolicy : lowSettings.unknownNames = highSettings.unknownNames) :
    let lowRun := run files [tracePath, lowPath]
    let highRun := run files [tracePath, highPath]
    let work := course files lowSettings.unknownNames tracePath
    let logged := work.events.filter fun event => high.admits event.severity
    lowRun.exitCode = highRun.exitCode ∧ lowRun.stdout = highRun.stdout ∧
      highRun.stderr = logAt high [.configured highSettings.text] ++
        String.join (logged.map Event.line) ++ lastWord work.outcome ∧
      (high.admits low = true →
        lowRun.stderr = logAt low [.configured lowSettings.text] ++
          String.join ((logged.filter fun event => low.admits event.severity).map Event.line) ++
            lastWord work.outcome) := by
  intro lowRun highRun work logged
  have hlowRun : lowRun =
      ended work.outcome (logAt low (.configured lowSettings.text :: work.events)) :=
    run_of_starts tracePath hlow
  have hhighRun : highRun =
      ended work.outcome (logAt high (.configured highSettings.text :: work.events)) := by
    have hrun := run_of_starts tracePath hhigh
    rwa [← hpolicy] at hrun
  rw [hlowRun, hhighRun]
  refine ⟨exitCode_ended .., stdout_ended .., ?_, fun hless => ?_⟩
  · rw [stderr_ended, logAt_cons]
    rfl
  · rw [stderr_ended, logAt_cons, Severity.filter_filter_admits hless]
    rfl

/-- A trace that fails within a line, and two settings texts for it. -/
def twoLevels : Files := fun path =>
  if path = "trace" then .ok "class A\nvar int x\nresolve x\nvar int y,"
  else if path = "quiet" then .ok "\x7b\"logLevel\": \"warn\"\x7d"
  else if path = "loud" then .ok "[\"alias-field\", \"5\"]"
  else .error .missing

theorem run_at_thresholds_two_levels :
    Starts twoLevels ["quiet"] ⟨.aliasField, "warn"⟩ .warn ∧
      Starts twoLevels ["loud"] ⟨.aliasField, "5"⟩ .trace ∧
      Severity.trace.admits .warn = true ∧
      (run twoLevels ["trace", "quiet"]).exitCode = (run twoLevels ["trace", "loud"]).exitCode ∧
      (run twoLevels ["trace", "quiet"]).stdout = (run twoLevels ["trace", "loud"]).stdout ∧
      (run twoLevels ["trace", "quiet"]).stderr =
        " WARN jack_symtab::symtab: VAR defined outside of any subroutine; " ++
          "opening a subroutine scope.\nline 4: malformed name list: `y,`\n" := by
  have hquiet : Starts twoLevels ["quiet"] ⟨.aliasField, "warn"⟩ .warn :=
    ⟨.file rfl rfl, by decide +kernel⟩
  have hloud : Starts twoLevels ["loud"] ⟨.aliasField, "5"⟩ .trace :=
    ⟨.file rfl rfl, by decide +kernel⟩
  have hless : Severity.trace.admits .warn = true := rfl
  obtain ⟨hcode, hout, -, hlog⟩ := run_at_thresholds "trace" hquiet hloud rfl
  exact ⟨hquiet, hloud, hless, hcode, hout, (hlog hless).trans (by decide +kernel)⟩

end Program

end JackScopes
