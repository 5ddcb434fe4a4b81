import JackScopes.Proofs.EventLog
import JackScopes.Proofs.Trace.Failure
import JackScopes.Proofs.Trace.Meaning

/-!
# The log of a replay

A replay logs what its sentences do, one after the other, and then one summary. A
replay that fails logs no summary. It logs what the lines before the bad one do, and
nothing of the bad one but the definitions that took effect: the names of a declaration
up to the first that is no identifier. `replay_events` has both.
-/

namespace JackScopes.Trace

open Text (Identifier)

def Sentence.logs (before : List Sentence) : Sentence → List Event
  | blank | resolve _ => []
  | openClass name => [.classOpened name]
  | startSubroutine _ => (tableAt before).startEvents
  | declare kind type names =>
    Session.events (tableAt before) (names.map fun name => .define kind name type)

/-- What a sentence logs behind others, in words: but for a class that is opened, what its
commands log behind those of the others. -/
def Sentence.tells (before : List Sentence) : Sentence → List (Severity × String)
  | openClass name => [(.debug, "Compiling class `" ++ name ++ "`.")]
  | sentence =>
    (sentence.commands.mapIdx fun i command =>
      command.tells (before.flatMap Sentence.commands ++ sentence.commands.take i)).flatten

def told (sentences : List Sentence) : List Event :=
  (sentences.mapIdx fun i sentence => sentence.logs (sentences.take i)).flatten

def summary (sentences : List Sentence) : Event :=
  .replayed (sentences.filterMap Sentence.resolved?).length
    (sentences.filterMap Sentence.openedClass?).length

/-- The names of a list that stand before the first piece that is no identifier. -/
def Spoiled (names : List String) (list : List Char) : Prop :=
  ∃ bad later, namePieces list = names.map String.toList ++ bad :: later ∧
    (∀ name ∈ names, Identifier name.toList) ∧ ¬ Identifier bad

/-- A line is a declaration that breaks off behind some names. -/
def BreaksOff (kind : Kind) (type : String) (names : List String) (line : List Char) : Prop :=
  ∃ code content list, Text.BeforeComment line code ∧ Text.Within code content ∧
    Declares kind type list content ∧ Spoiled names list

/-- What a line logs that cannot be followed: inside a class, a declaration defines the
names that it breaks off behind. -/
inductive Leaves (before : List Sentence) (line : List Char) : List Event → Prop
  | broken {kind : Kind} {type : String} {names : List String} :
      (classAt before).isSome → BreaksOff kind type names line →
      Leaves before line ((Sentence.declare kind type names).logs before)
  | nothing :
      (∀ kind type names, (classAt before).isSome → ¬ BreaksOff kind type names line) →
      Leaves before line []

-- ---------------------------------------------------------------------------
-- Lists of names
-- ---------------------------------------------------------------------------

def soundNames (list : List Char) : List String :=
  ((namePieces list).takeWhile Text.isIdentifier).map String.ofList

theorem soundNames_eq {list : List Char}
    (h : ∀ piece ∈ namePieces list, Text.isIdentifier piece = true) :
    soundNames list = (namePieces list).map String.ofList := by
  rw [soundNames, List.takeWhile_eq_self_iff.mpr h]

theorem spoiled_iff {names : List String} {list : List Char} :
    Spoiled names list ↔
      (∃ piece ∈ namePieces list, ¬ Text.isIdentifier piece = true) ∧ names = soundNames list := by
  constructor
  · rintro ⟨bad, later, hpieces, hnames, hbad⟩
    have hstop : ¬ Text.isIdentifier bad = true := mt Text.isIdentifier_iff.mp hbad
    have hsound : ∀ piece ∈ names.map String.toList, Text.isIdentifier piece = true := by
      simpa [Text.isIdentifier_iff] using hnames
    refine ⟨⟨bad, by simp [hpieces], hstop⟩, ?_⟩
    simp [soundNames, hpieces, List.takeWhile_append_of_pos hsound, hstop, Function.comp_def]
  · rintro ⟨⟨piece, hp, hbad⟩, rfl⟩
    have hne : (namePieces list).dropWhile Text.isIdentifier ≠ [] := fun hnone =>
      hbad (List.dropWhile_eq_nil_iff.mp hnone piece hp)
    obtain ⟨bad, later, hdrop⟩ := List.exists_cons_of_ne_nil hne
    have hfirst := List.head?_dropWhile_not Text.isIdentifier (namePieces list)
    rw [hdrop] at hfirst
    refine ⟨bad, later, ?_, ?_, mt Text.isIdentifier_iff.mpr (by simpa using hfirst)⟩
    · rw [← hdrop]
      simp [soundNames, Function.comp_def]
    · intro name hname
      obtain ⟨piece, hpiece, rfl⟩ := List.mem_map.mp hname
      simpa [← Text.isIdentifier_iff] using List.mem_takeWhile_imp hpiece

theorem breaksOff_iff {kind : Kind} {type : String} {names : List String} {line : List Char} :
    BreaksOff kind type names line ↔
      ∃ statement list, Statement.ofLine? line = some statement ∧
        statement.directive = .ok (.declare kind type list) ∧ Spoiled names list := by
  constructor
  · rintro ⟨code, content, list, hcode, hcontent, hdeclares, hnames⟩
    rw [Text.beforeComment_iff.mp hcode] at hcontent
    rw [Text.within_iff.mp hcontent] at hdeclares
    obtain ⟨statement, hline, hd⟩ := declares_iff.mp hdeclares
    exact ⟨statement, list, hline, hd, hnames⟩
  · rintro ⟨statement, list, hline, hd, hnames⟩
    exact ⟨_, _, list, Text.beforeComment_withoutComment line, Text.within_trim _,
      declares_iff.mpr ⟨statement, hline, hd⟩, hnames⟩

-- ---------------------------------------------------------------------------
-- One line
-- ---------------------------------------------------------------------------

/-- Names are defined one by one, also where a later one is no identifier. -/
theorem events_defineNames (kind : Kind) (type : String) (complaint : Complaint) (table : Table)
    (pieces : List (List Char)) :
    (defineNames kind type complaint table pieces).events =
      Session.events table (((pieces.takeWhile Text.isIdentifier).map String.ofList).map
        fun name => .define kind name type) := by
  induction pieces generalizing table with
  | nil => rfl
  | cons piece pieces ih =>
    rw [defineNames]
    by_cases hp : Text.isIdentifier piece = true
    · rw [if_pos hp, Logged.events_bind_of_ok (Logged.outcome_emit _), ih]
      simp [hp, Session.events, Session.replies, Command.events, Command.apply]
    · simp [hp, Session.events, Session.replies]

def Directive.logs (table : Table) : Directive → List Event
  | startSubroutine _ => table.startEvents
  | resolve _ => []
  | declare kind type list =>
    Session.events table ((soundNames list).map fun name => .define kind name type)

namespace Progress

variable {policy : UnknownNames} {progress : Progress} {line : List Char}

theorem events_openClass_of_ok {statement : Statement} {name : String}
    (hname : statement.className = .ok name) (hnew : progress.hasClass name = false) :
    (progress.openClass statement).events = [.classOpened name] := by
  simp [openClass, hname, hnew, Logged.events_bind, Except.mapError]

theorem events_openClass_of_error {statement : Statement} {refusal : Refusal}
    (h : (progress.openClass statement).outcome = .error refusal) :
    (progress.openClass statement).events = [] := by
  cases hname : statement.className with
  | error complaint => simp [openClass, hname, Logged.events_bind, Except.mapError]
  | ok name =>
    cases hknown : progress.hasClass name with
    | true => simp [openClass, hname, hknown, Logged.events_bind, Except.mapError]
    | false =>
      simp [openClass, hname, hknown, Logged.outcome_bind, Except.mapError, Except.bind,
        Except.map] at h

theorem events_obey (progress : Progress) (openClass : OpenClass) (directive : Directive) :
    (progress.obey policy openClass directive).events = directive.logs openClass.table := by
  cases directive with
  | startSubroutine name => simp [obey, Directive.logs]
  | resolve name =>
    rw [obey]
    split <;> rfl
  | declare kind type list =>
    rw [obey, Logged.events_bind, events_defineNames]
    cases (defineNames kind type _ openClass.table (namePieces list)).outcome <;>
      simp [Directive.logs, soundNames]

theorem perform_of_directive {statement : Statement} {openClass : OpenClass}
    {directive : Directive} (hw : statement.word ≠ "class")
    (hcurrent : progress.current = some openClass) (hd : statement.directive = .ok directive) :
    progress.perform policy statement = progress.obey policy openClass directive := by
  simp only [perform, if_neg hw, hcurrent, hd]
  rfl

variable {before : List Sentence}

theorem exists_current (h : (heedAll {} before).current.isSome) :
    ∃ openClass, (heedAll {} before).current = some openClass ∧
      openClass.table = tableAt before := by
  obtain ⟨openClass, hcurrent⟩ := Option.isSome_iff_exists.mp h
  obtain ⟨name, -, rfl⟩ := Option.map_eq_some_iff.mp ((current_heedAll before).symm.trans hcurrent)
  exact ⟨_, hcurrent, rfl⟩

theorem events_step_of_onLine {sentence : Sentence} (hs : sentence.OnLine line)
    (ha : (heedAll {} before).Admits policy sentence) :
    ((heedAll {} before).step policy line).events = sentence.logs before := by
  rw [step]
  cases sentence with
  | blank =>
    rw [ofLine?_eq_none_iff.mpr hs]
    rfl
  | openClass name =>
    obtain ⟨statement, hline, hw, hname⟩ := onLine_openClass_iff.mp hs
    simp only [hline, perform, if_pos hw]
    exact events_openClass_of_ok hname ha
  | startSubroutine name =>
    obtain ⟨statement, hline, hw, hd⟩ := onLine_startSubroutine_iff.mp hs
    obtain ⟨openClass, hcurrent, htable⟩ := exists_current ha
    simp only [hline, perform_of_directive hw hcurrent hd, events_obey, htable]
    rfl
  | resolve name =>
    obtain ⟨statement, hline, hw, hd⟩ := onLine_resolve_iff.mp hs
    obtain ⟨openClass, hcurrent, -⟩ := id ha
    simp only [hline, perform_of_directive hw hcurrent hd, events_obey]
    rfl
  | declare kind type names =>
    obtain ⟨statement, list, hline, hw, hd, hp, rfl⟩ := onLine_declare_iff.mp hs
    obtain ⟨openClass, hcurrent, htable⟩ := exists_current ha
    simp only [hline, perform_of_directive hw hcurrent hd, events_obey, htable, Directive.logs,
      soundNames_eq hp]
    rfl

theorem leaves_nothing {statement : Statement} (hline : Statement.ofLine? line = some statement)
    (hd : ∀ kind type list, statement.directive ≠ .ok (.declare kind type list)) :
    Leaves before line [] := by
  refine .nothing fun kind type names _ hbreaks => ?_
  obtain ⟨other, list, hother, hdeclare, -⟩ := breaksOff_iff.mp hbreaks
  cases hline.symm.trans hother
  exact hd kind type list hdeclare

theorem leaves_of_obey_error {statement : Statement} {openClass : OpenClass}
    {directive : Directive} {refusal : Refusal} (hline : Statement.ofLine? line = some statement)
    (hcurrent : (heedAll {} before).current = some openClass)
    (hd : statement.directive = .ok directive)
    (h : ((heedAll {} before).obey policy openClass directive).outcome = .error refusal) :
    Leaves before line (directive.logs openClass.table) := by
  obtain ⟨name, hclass, rfl⟩ :=
    Option.map_eq_some_iff.mp ((current_heedAll before).symm.trans hcurrent)
  cases directive with
  | startSubroutine name => cases h
  | resolve name => exact leaves_nothing hline (by simp [hd])
  | declare kind type list =>
    have hspoiled : ∃ piece ∈ namePieces list, ¬ Text.isIdentifier piece = true := by
      by_contra hall
      have hall : ∀ piece ∈ namePieces list, Text.isIdentifier piece = true := by
        simpa using hall
      rw [(obey_declare_ok hcurrent).mpr ⟨hall, rfl⟩] at h
      cases h
    have hbreaks : BreaksOff kind type (soundNames list) line :=
      breaksOff_iff.mpr ⟨statement, list, hline, hd, spoiled_iff.mpr ⟨hspoiled, rfl⟩⟩
    exact .broken (by simp [hclass]) hbreaks

theorem leaves_of_step_error {refusal : Refusal}
    (h : ((heedAll {} before).step policy line).outcome = .error refusal) :
    Leaves before line ((heedAll {} before).step policy line).events := by
  rw [step] at h ⊢
  cases hline : Statement.ofLine? line with
  | none => simp [hline] at h
  | some statement =>
    simp only [hline] at h ⊢
    by_cases hw : statement.word = "class"
    · -- the word that opens a class is no kind
      rw [perform, if_pos hw] at h ⊢
      rw [events_openClass_of_error h]
      refine leaves_nothing hline fun kind type list hdeclare => ?_
      exact (word_of_ofString? (directive_declare_iff.mp hdeclare).1).1 hw
    · cases hcurrent : (heedAll {} before).current with
      | none =>
        simp only [perform, if_neg hw, hcurrent]
        refine .nothing fun kind type names hclass _ => ?_
        simp [current_heedAll] at hcurrent
        simp [hcurrent] at hclass
      | some openClass =>
        cases hd : statement.directive with
        | error complaint =>
          simp only [perform, if_neg hw, hcurrent, hd]
          exact leaves_nothing hline (by simp [hd])
        | ok directive =>
          rw [perform_of_directive hw hcurrent hd] at h ⊢
          rw [events_obey]
          exact leaves_of_obey_error hline hcurrent hd h

end Progress

-- ---------------------------------------------------------------------------
-- All lines
-- ---------------------------------------------------------------------------

theorem told_concat (sentences : List Sentence) (sentence : Sentence) :
    told (sentences ++ [sentence]) = told sentences ++ sentence.logs sentences := by
  have hbefore : sentences.mapIdx
        (fun i other => other.logs ((sentences ++ [sentence]).take i)) =
      sentences.mapIdx fun i other => other.logs (sentences.take i) := by
    rw [List.mapIdx_eq_mapIdx_iff]
    intro i hi
    rw [List.take_append_of_le_length (Nat.le_of_lt hi)]
  simp [told, List.mapIdx_concat, hbefore]

/-- Lines that are followed log what their sentences do, behind those before them. -/
theorem told_append_events_follow {policy : UnknownNames} (before : List Sentence)
    {sentences : List Sentence} {lines : List (List Char)}
    (hs : List.Forall₂ Sentence.OnLine sentences lines)
    (ha : (Progress.heedAll {} before).AdmitsAll policy sentences) (number : Nat) :
    told before ++ (follow policy number (Progress.heedAll {} before) lines).events =
      told (before ++ sentences) := by
  -- what stands behind a line is logged by the table that its sentence leaves, so the
  -- sentences before grow with each line
  induction hs generalizing before number with
  | nil => simp [follow]
  | @cons sentence line sentences lines hline hlines ih =>
    obtain ⟨hadmits, hrest⟩ := Progress.admitsAll_cons.mp ha
    have hstep : (((Progress.heedAll {} before).step policy line).mapError
        (Refusal.fault number)).outcome = .ok (Progress.heedAll {} (before ++ [sentence])) := by
      rw [Logged.mapError_ok, Progress.heedAll_concat]
      exact Progress.step_of_onLine hline hadmits
    have hafter := ih (before ++ [sentence]) (Progress.heedAll_concat before sentence ▸ hrest)
      (number + 1)
    rw [told_concat, List.append_assoc] at hafter
    rw [follow, Logged.events_bind_of_ok hstep, Logged.events_mapError,
      Progress.events_step_of_onLine hline hadmits, hafter, List.append_assoc]
    rfl

theorem events_follow {policy : UnknownNames} {sentences : List Sentence}
    {lines : List (List Char)} (hs : List.Forall₂ Sentence.OnLine sentences lines)
    (ha : Progress.AdmitsAll policy {} sentences) :
    (follow policy 1 {} lines).events = told sentences :=
  told_append_events_follow [] hs ha 1

theorem summary_report {policy : UnknownNames} {sentences : List Sentence}
    (ha : Progress.AdmitsAll policy {} sentences) :
    (Progress.heedAll {} sentences).report.summary = summary sentences := by
  have hclasses := congrArg List.length (Progress.classes_heedAll sentences)
  have hresolutions := congrArg List.length (Progress.names_resolutions ha)
  rw [List.length_map] at hclasses hresolutions
  rw [Report.summary, summary, ← hclasses, ← hresolutions]
  rfl

-- ---------------------------------------------------------------------------
-- The summary
-- ---------------------------------------------------------------------------

theorem severity_of_mem_events {table : Table} {event : Event} (command : Command)
    (h : event ∈ command.events table) : event.severity ≠ .info := by
  cases command with
  | renew | ask query => cases h
  | startSubroutine =>
    rw [Command.events, Table.startEvents_eq] at h
    split at h <;> simp_all [Event.severity]
  | define kind name type =>
    simp only [Command.events, Table.defineEvents, List.mem_append] at h
    rcases h with (h | h) | h
    · split at h <;> simp_all [Event.severity]
    · split at h <;> simp_all [Event.severity]
    · simp_all [Event.severity]

theorem severity_of_mem_session {commands : List Command} {table : Table} {event : Event}
    (h : event ∈ Session.events table commands) : event.severity ≠ .info := by
  induction commands generalizing table with
  | nil => cases h
  | cons command commands ih =>
    rcases List.mem_append.mp h with h | h
    · exact severity_of_mem_events command h
    · exact ih h

theorem severity_of_mem_logs {before : List Sentence} {sentence : Sentence} {event : Event}
    (h : event ∈ sentence.logs before) : event.severity ≠ .info := by
  cases sentence with
  | blank | resolve name => cases h
  | openClass name =>
    rw [List.mem_singleton.mp h]
    simp [Event.severity]
  | startSubroutine name =>
    exact severity_of_mem_events .startSubroutine h
  | declare kind type names => exact severity_of_mem_session h

/-- Nothing but the summary is worth a notice of its severity. -/
theorem severity_of_mem_told {sentences : List Sentence} {event : Event}
    (h : event ∈ told sentences) : event.severity ≠ .info := by
  induction sentences using List.reverseRecOn with
  | nil => cases h
  | append_singleton sentences sentence ih =>
    rw [told_concat, List.mem_append] at h
    exact h.elim ih severity_of_mem_logs

theorem Leaves.severity {before : List Sentence} {line : List Char} {events : List Event}
    (h : Leaves before line events) : ∀ event ∈ events, event.severity ≠ .info := by
  cases h with
  | broken => exact fun _ => severity_of_mem_logs
  | nothing => simp

-- ---------------------------------------------------------------------------
-- Words
-- ---------------------------------------------------------------------------

theorem logs_eq_events (before : List Sentence) {sentence : Sentence}
    (h : ∀ name, sentence ≠ .openClass name) :
    sentence.logs before = Session.events (tableAt before) sentence.commands := by
  cases sentence with
  | openClass name => exact absurd rfl (h name)
  | startSubroutine name => exact (List.append_nil _).symm
  | blank | resolve name | declare kind type names => rfl

theorem Sentence.wording_logs (before : List Sentence) (sentence : Sentence) :
    (sentence.logs before).map Event.wording = sentence.tells before := by
  cases sentence with
  | openClass name => rfl
  | blank | startSubroutine name | resolve name | declare kind type names =>
    rw [logs_eq_events before (by simp)]
    exact Session.map_wording_events ..

-- ---------------------------------------------------------------------------
-- The whole log
-- ---------------------------------------------------------------------------

theorem events_replay_of_ok {policy : UnknownNames} {text : String} {report : Report}
    (h : (replay policy text).outcome = .ok report) :
    ∃ sentences, Says text sentences ∧ report.summary = summary sentences ∧
      (replay policy text).events = told sentences ++ [summary sentences] := by
  obtain ⟨sentences, hsays, hadmits, rfl⟩ := replay_ok.mp h
  have hfollow : (follow policy 1 {} (Text.lines text.toList)).outcome = .ok _ :=
    follow_ok.mpr ⟨sentences, hsays, hadmits, rfl⟩
  refine ⟨sentences, hsays, summary_report hadmits, ?_⟩
  rw [replay_eq, Logged.events_bind_of_ok hfollow, events_follow hsays hadmits,
    summary_report hadmits]

theorem events_replay_of_error {policy : UnknownNames} {text : String} {fault : Fault}
    (h : (replay policy text).outcome = .error fault) :
    ∃ n line sentences left, FailsAt policy text n fault ∧
      (Text.lines text.toList)[n - 1]? = some line ∧ Says (upTo (n - 1) text) sentences ∧
      Leaves sentences line left ∧ (replay policy text).events = told sentences ++ left := by
  obtain ⟨before, line, after, reached, refusal, hlines, hbefore, hline, -, hfails⟩ :=
    exists_bad_line h
  obtain ⟨sentences, hsays, hadmits, rfl⟩ := follow_ok.mp hbefore
  have hbad : (((Progress.heedAll {} sentences).step policy line).mapError
      (Refusal.fault (1 + before.length))).outcome = .error _ :=
    Logged.mapError_error.mpr ⟨refusal, hline, rfl⟩
  refine ⟨1 + before.length, line, sentences, _, hfails, ?_, ?_,
    Progress.leaves_of_step_error hline, ?_⟩
  · simp [hlines]
  · rw [Says, lines_upTo, hlines, Nat.add_sub_cancel_left, List.take_left]
    exact hsays
  · rw [replay_eq, Logged.events_bind_of_error (replay_error.mp h), hlines, follow_append,
      Logged.events_bind_of_ok hbefore, events_follow hsays hadmits, follow,
      Logged.events_bind_of_error hbad, Logged.events_mapError]

/-- A replay logs what its lines do, line by line, and ends with a summary. If it fails,
it logs what the lines before do, then what the bad line leaves, and no summary. The
severities and the words of a sentence's log are those that are given for it, and the
summary counts the resolutions and the classes. -/
theorem replay_events (policy : UnknownNames) (text : String) :
    (∀ report, (replay policy text).outcome = .ok report →
      ∃ sentences, Says text sentences ∧ report.summary = summary sentences ∧
        (replay policy text).events = told sentences ++ [summary sentences] ∧
        ∀ event ∈ told sentences, event.severity ≠ .info) ∧
    (∀ fault, (replay policy text).outcome = .error fault →
      ∃ n line sentences left, FailsAt policy text n fault ∧
        (Text.lines text.toList)[n - 1]? = some line ∧
        Says (upTo (n - 1) text) sentences ∧
        (replay policy (upTo (n - 1) text)).events = told sentences ++ [summary sentences] ∧
        Leaves sentences line left ∧
        (replay policy text).events = told sentences ++ left ∧
        ∀ event ∈ told sentences ++ left, event.severity ≠ .info) ∧
    (∀ before sentence,
      (Sentence.logs before sentence).map Event.wording = sentence.tells before) ∧
    ∀ sentences, (summary sentences).wording =
      (.info, "Replayed " ++ toString (sentences.filterMap Sentence.resolved?).length ++
        " resolutions across " ++ toString (sentences.filterMap Sentence.openedClass?).length ++
        " classes.") := by
  refine ⟨?_, ?_, Sentence.wording_logs, fun _ => rfl⟩
  · intro report h
    obtain ⟨sentences, hsays, hsummary, hevents⟩ := events_replay_of_ok h
    exact ⟨sentences, hsays, hsummary, hevents, fun _ => severity_of_mem_told⟩
  · intro fault h
    obtain ⟨n, line, sentences, left, hfails, hline, hsays, hleft, hevents⟩ :=
      events_replay_of_error h
    obtain ⟨report, hbefore⟩ := hfails.before
    obtain ⟨others, hothers, -, hsummary⟩ := events_replay_of_ok hbefore
    rw [hothers.unique hsays] at hsummary
    refine ⟨n, line, sentences, left, hfails, hline, hsays, hsummary, hleft, hevents, ?_⟩
    intro event hmem
    exact (List.mem_append.mp hmem).elim severity_of_mem_told (hleft.severity event)

/-- One of the names in the list of the third line starts with a digit. -/
def interrupted : String :=
  "class A\nstatic int x, x // twice\nvar int y, 1z, w\nresolve x"

theorem replay_events_interrupted :
    (∃ sentences, Says shadowing sentences ∧
      (replay .aliasField shadowing).events = told sentences ++ [summary sentences] ∧
      ∀ event ∈ told sentences, event.severity ≠ .info) ∧
    (replay .reject interrupted).events =
      [.classOpened "A", .defined "x" .static 0 "int", .redefined "x" .static 1,
        .defined "x" .static 1 "int", .scopeOpened .var, .defined "y" .var 0 "int"] ∧
    ∃ n line sentences left,
      FailsAt .reject interrupted n (.script 3 "malformed name list: `y, 1z, w`") ∧
      (Text.lines interrupted.toList)[n - 1]? = some line ∧
      Says (upTo (n - 1) interrupted) sentences ∧
      Leaves sentences line left ∧ (replay .reject interrupted).events = told sentences ++ left := by
  have hfailure : (replay .reject interrupted).outcome =
      .error (.script 3 "malformed name list: `y, 1z, w`") :=
    Logged.failure?_eq_some.mp (by decide +kernel)
  obtain ⟨report, hreport, -⟩ : ∃ report, (replay .aliasField shadowing).outcome = .ok report ∧
      report.resolutions.length = 2 := exists_report_of_map (by decide +kernel)
  obtain ⟨sentences, hsays, -, hevents, hquiet⟩ :=
    (replay_events .aliasField shadowing).1 report hreport
  obtain ⟨n, line, before, left, hfails, hline, hbefore, -, hleft, hlog, -⟩ :=
    (replay_events .reject interrupted).2.1 _ hfailure
  exact ⟨⟨sentences, hsays, hevents, hquiet⟩, by decide +kernel,
    n, line, before, left, hfails, hline, hbefore, hleft, hlog⟩

end JackScopes.Trace
