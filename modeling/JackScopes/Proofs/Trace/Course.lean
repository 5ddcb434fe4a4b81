import JackScopes.Proofs.Trace.Grammar
import JackScopes.Session
import JackScopes.Trace.Replay
import Mathlib.Data.List.Forall2

/-!
# The course of a replay

What each sentence of a trace does to the progress of its replay, and which
sentences are let through. `step_ok` reads the success of one line as a sentence
that is on the line, is let through and is heeded; `follow_ok` and `replay_ok`
say the same of all lines of a trace.
-/

namespace JackScopes

theorem Logged.bind_ok {ε α β : Type} {x : Logged ε α} {next : α → Logged ε β} {b : β} :
    (x >>= next).outcome = .ok b ↔ ∃ a, x.outcome = .ok a ∧ (next a).outcome = .ok b := by
  rw [Logged.outcome_bind]
  cases x.outcome <;> simp [Except.bind]

theorem Logged.bind_error {ε α β : Type} {x : Logged ε α} {next : α → Logged ε β} {e : ε} :
    (x >>= next).outcome = .error e ↔
      x.outcome = .error e ∨ ∃ a, x.outcome = .ok a ∧ (next a).outcome = .error e := by
  rw [Logged.outcome_bind]
  cases x.outcome <;> simp [Except.bind]

theorem Logged.mapError_ok {ε ζ α : Type} {f : ε → ζ} {x : Logged ε α} {a : α} :
    (x.mapError f).outcome = .ok a ↔ x.outcome = .ok a := by
  rw [Logged.outcome_mapError]
  cases x.outcome <;> simp [Except.mapError]

theorem Logged.mapError_error {ε ζ α : Type} {f : ε → ζ} {x : Logged ε α} {z : ζ} :
    (x.mapError f).outcome = .error z ↔ ∃ e, x.outcome = .error e ∧ f e = z := by
  rw [Logged.outcome_mapError]
  cases x.outcome <;> simp [Except.mapError]

namespace Trace

def Sentence.commands : Sentence → List Command
  | .blank => []
  | .openClass _ => [.renew]
  | .startSubroutine _ => [.startSubroutine]
  | .resolve name => [.ask (.resolve name)]
  | .declare kind type names => names.map fun name => .define kind name type

namespace OpenClass

def startSubroutine (openClass : OpenClass) (name : String) : OpenClass :=
  { openClass with table := openClass.table.startSubroutine, subroutine := some name }

def declare (openClass : OpenClass) (kind : Kind) (type : String) (names : List String) :
    OpenClass :=
  { openClass with
    table := Session.final openClass.table (Sentence.declare kind type names).commands }

end OpenClass

namespace Progress

def heed (progress : Progress) : Sentence → Progress
  | .blank => progress
  | .openClass name => progress.beginClass name
  | .startSubroutine name =>
    { progress with current := progress.current.map (·.startSubroutine name) }
  | .resolve name =>
    { progress with
      resolutions :=
        progress.resolutions ++ (progress.current.map (·.resolution name)).toList.toArray }
  | .declare kind type names =>
    { progress with current := progress.current.map (·.declare kind type names) }

def Admits (policy : UnknownNames) (progress : Progress) : Sentence → Prop
  | .blank => True
  | .openClass name => progress.hasClass name = false
  | .startSubroutine _ | .declare .. => progress.current.isSome
  | .resolve name => ∃ openClass, progress.current = some openClass ∧
      (policy = .reject → (openClass.table.resolve name).isSome)

end Progress

-- ---------------------------------------------------------------------------
-- One line
-- ---------------------------------------------------------------------------

theorem defineNames_ok {kind : Kind} {type : String} {complaint : Complaint} {table next : Table}
    {pieces : List (List Char)} :
    (defineNames kind type complaint table pieces).outcome = .ok next ↔
      (∀ piece ∈ pieces, Text.isIdentifier piece = true) ∧
        next = Session.final table
          (Sentence.declare kind type (pieces.map String.ofList)).commands := by
  induction pieces generalizing table with
  | nil =>
    simp only [defineNames, Logged.outcome_pure, Except.ok.injEq]
    simpa [Sentence.commands, Session.final] using eq_comm
  | cons piece pieces ih =>
    rw [defineNames]
    split
    · next hp =>
      rw [Logged.outcome_bind_of_ok (Logged.outcome_emit _), ih]
      simp [hp, Sentence.commands, Session.final, Command.apply]
    · next hp => simp [hp]

namespace Progress

variable {policy : UnknownNames} {progress next : Progress} {line : List Char}

theorem openClass_ok {statement : Statement} :
    (progress.openClass statement).outcome = .ok next ↔
      ∃ name, statement.className = .ok name ∧ progress.Admits policy (.openClass name) ∧
        next = progress.heed (.openClass name) := by
  simp only [openClass, Logged.bind_ok, Logged.mapError_ok, Logged.outcome_ofExcept]
  refine exists_congr fun name => and_congr_right fun _ => ?_
  cases hc : progress.hasClass name with
  | true => simp [Admits, hc]
  | false =>
    simp only [Admits, hc, heed, Logged.bind_ok, Bool.false_eq_true, ↓reduceIte,
      Logged.outcome_emit, Logged.outcome_pure, Except.ok.injEq, exists_const, true_and]
    exact eq_comm

theorem obey_startSubroutine_ok {openClass : OpenClass} {name : String}
    (hcurrent : progress.current = some openClass) :
    (progress.obey policy openClass (.startSubroutine name)).outcome = .ok next ↔
      next = progress.heed (.startSubroutine name) := by
  simp only [obey, heed, hcurrent, OpenClass.startSubroutine, Logged.bind_ok,
    Logged.outcome_emit, Logged.outcome_pure, Except.ok.injEq, exists_const, true_and,
    Option.map_some]
  exact eq_comm

theorem obey_resolve_ok {openClass : OpenClass} {name : String}
    (hcurrent : progress.current = some openClass) :
    (progress.obey policy openClass (.resolve name)).outcome = .ok next ↔
      progress.Admits policy (.resolve name) ∧ next = progress.heed (.resolve name) := by
  have hadmits : progress.Admits policy (.resolve name) ↔
      ¬ (policy = .reject ∧ openClass.table.resolve name = none) := by
    simp [Admits, hcurrent, Option.isSome_iff_ne_none]
  rw [obey, hadmits]
  split
  · next h => simp_all
  · next h =>
    have hh : ¬ (policy = .reject ∧ openClass.table.resolve name = none) := by simpa using h
    simp only [hh, Logged.outcome_pure, Except.ok.injEq, heed, hcurrent, not_false_eq_true,
      true_and, Option.map_some, Option.toList_some, Array.append_singleton]
    exact eq_comm

theorem obey_declare_ok {openClass : OpenClass} {kind : Kind} {type : String} {list : List Char}
    (hcurrent : progress.current = some openClass) :
    (progress.obey policy openClass (.declare kind type list)).outcome = .ok next ↔
      (∀ piece ∈ namePieces list, Text.isIdentifier piece = true) ∧
        next = progress.heed (.declare kind type ((namePieces list).map String.ofList)) := by
  simp only [obey, Logged.bind_ok, defineNames_ok]
  constructor
  · rintro ⟨table, ⟨hp, rfl⟩, h⟩
    simp only [Logged.outcome_pure, Except.ok.injEq] at h
    exact ⟨hp, by simp [← h, heed, hcurrent, OpenClass.declare]⟩
  · rintro ⟨hp, rfl⟩
    exact ⟨_, ⟨hp, rfl⟩, by simp [heed, hcurrent, OpenClass.declare]⟩

theorem perform_class_ok {statement : Statement} (hw : statement.word = "class") :
    (progress.perform policy statement).outcome = .ok next ↔
      ∃ name, statement.className = .ok name ∧ progress.Admits policy (.openClass name) ∧
        next = progress.heed (.openClass name) := by
  rw [perform, if_pos hw]
  exact openClass_ok

theorem perform_directive_ok {statement : Statement} (hw : statement.word ≠ "class") :
    (progress.perform policy statement).outcome = .ok next ↔
      ∃ openClass directive, progress.current = some openClass ∧
        statement.directive = .ok directive ∧
        (progress.obey policy openClass directive).outcome = .ok next := by
  rw [perform, if_neg hw]
  cases progress.current with
  | none => simp
  | some openClass =>
    simp only [Logged.bind_ok, Logged.mapError_ok, Logged.outcome_ofExcept, Option.some.injEq,
      exists_and_left, exists_eq_left']

theorem exists_sentence_of_step_ok (h : (progress.step policy line).outcome = .ok next) :
    ∃ sentence, sentence.OnLine line ∧ progress.Admits policy sentence ∧
      next = progress.heed sentence := by
  rw [step] at h
  cases hline : Statement.ofLine? line with
  | none =>
    simp only [hline, Logged.outcome_pure, Except.ok.injEq] at h
    exact ⟨.blank, ofLine?_eq_none_iff.mp hline, trivial, h.symm⟩
  | some statement =>
    simp only [hline] at h
    by_cases hw : statement.word = "class"
    · obtain ⟨name, hname, ha, hn⟩ := (perform_class_ok hw).mp h
      exact ⟨_, onLine_openClass_iff.mpr ⟨statement, hline, hw, hname⟩, ha, hn⟩
    · obtain ⟨openClass, directive, hcurrent, hd, ho⟩ := (perform_directive_ok hw).mp h
      cases directive with
      | startSubroutine name =>
        refine ⟨_, onLine_startSubroutine_iff.mpr ⟨statement, hline, hw, hd⟩, ?_,
          (obey_startSubroutine_ok hcurrent).mp ho⟩
        simp [Admits, hcurrent]
      | resolve name =>
        exact ⟨_, onLine_resolve_iff.mpr ⟨statement, hline, hw, hd⟩,
          (obey_resolve_ok hcurrent).mp ho⟩
      | declare kind type list =>
        obtain ⟨hp, hn⟩ := (obey_declare_ok hcurrent).mp ho
        refine ⟨_, onLine_declare_iff.mpr ⟨statement, list, hline, hw, hd, hp, rfl⟩, ?_, hn⟩
        simp [Admits, hcurrent]

theorem step_of_onLine {sentence : Sentence} (hs : sentence.OnLine line)
    (ha : progress.Admits policy sentence) :
    (progress.step policy line).outcome = .ok (progress.heed sentence) := by
  rw [step]
  cases sentence with
  | blank =>
    rw [ofLine?_eq_none_iff.mpr hs]
    rfl
  | openClass name =>
    obtain ⟨statement, hline, hw, hname⟩ := onLine_openClass_iff.mp hs
    rw [hline]
    exact (perform_class_ok hw).mpr ⟨name, hname, ha, rfl⟩
  | startSubroutine name =>
    obtain ⟨statement, hline, hw, hd⟩ := onLine_startSubroutine_iff.mp hs
    obtain ⟨openClass, hcurrent⟩ := Option.isSome_iff_exists.mp ha
    rw [hline]
    exact (perform_directive_ok hw).mpr
      ⟨openClass, _, hcurrent, hd, (obey_startSubroutine_ok hcurrent).mpr rfl⟩
  | resolve name =>
    obtain ⟨statement, hline, hw, hd⟩ := onLine_resolve_iff.mp hs
    obtain ⟨openClass, hcurrent, -⟩ := id ha
    rw [hline]
    exact (perform_directive_ok hw).mpr
      ⟨openClass, _, hcurrent, hd, (obey_resolve_ok hcurrent).mpr ⟨ha, rfl⟩⟩
  | declare kind type names =>
    obtain ⟨statement, list, hline, hw, hd, hp, rfl⟩ := onLine_declare_iff.mp hs
    obtain ⟨openClass, hcurrent⟩ := Option.isSome_iff_exists.mp ha
    rw [hline]
    exact (perform_directive_ok hw).mpr
      ⟨openClass, _, hcurrent, hd, (obey_declare_ok hcurrent).mpr ⟨hp, rfl⟩⟩

/-- A line is followed exactly if it says a sentence that can be followed there, and
then the sentence is heeded. -/
theorem step_ok :
    (progress.step policy line).outcome = .ok next ↔
      ∃ sentence, sentence.OnLine line ∧ progress.Admits policy sentence ∧
        next = progress.heed sentence := by
  refine ⟨exists_sentence_of_step_ok, ?_⟩
  rintro ⟨sentence, hs, ha, rfl⟩
  exact step_of_onLine hs ha

-- ---------------------------------------------------------------------------
-- All lines
-- ---------------------------------------------------------------------------

def heedAll (progress : Progress) (sentences : List Sentence) : Progress :=
  sentences.foldl heed progress

def AdmitsAll (policy : UnknownNames) (progress : Progress) (sentences : List Sentence) : Prop :=
  ∀ before sentence after, sentences = before ++ sentence :: after →
    (progress.heedAll before).Admits policy sentence

@[simp] theorem heedAll_concat (sentences : List Sentence) (sentence : Sentence) :
    progress.heedAll (sentences ++ [sentence]) = (progress.heedAll sentences).heed sentence :=
  List.foldl_concat ..

theorem heedAll_append (before after : List Sentence) :
    progress.heedAll (before ++ after) = (progress.heedAll before).heedAll after :=
  List.foldl_append

theorem AdmitsAll.of_append {before after : List Sentence}
    (h : progress.AdmitsAll policy (before ++ after)) : progress.AdmitsAll policy before := by
  rintro first sentence rest rfl
  exact h first sentence (rest ++ after) (by simp)

theorem AdmitsAll.at_last {before : List Sentence} {sentence : Sentence}
    (h : progress.AdmitsAll policy (before ++ [sentence])) :
    (progress.heedAll before).Admits policy sentence :=
  h before sentence [] rfl

theorem admitsAll_cons {sentence : Sentence} {sentences : List Sentence} :
    progress.AdmitsAll policy (sentence :: sentences) ↔
      progress.Admits policy sentence ∧ (progress.heed sentence).AdmitsAll policy sentences := by
  constructor
  · intro h
    refine ⟨h [] sentence sentences rfl, ?_⟩
    rintro before other after rfl
    exact h (sentence :: before) other after rfl
  · rintro ⟨hs, h⟩ before other after he
    cases before with
    | nil =>
      cases he
      exact hs
    | cons first before =>
      cases he
      exact h before other after rfl

end Progress

theorem follow_ok {policy : UnknownNames} {number : Nat} {progress next : Progress}
    {lines : List (List Char)} :
    (follow policy number progress lines).outcome = .ok next ↔
      ∃ sentences, List.Forall₂ Sentence.OnLine sentences lines ∧
        progress.AdmitsAll policy sentences ∧ next = progress.heedAll sentences := by
  induction lines generalizing number progress with
  | nil =>
    simp only [follow, Logged.outcome_pure, Except.ok.injEq, List.forall₂_nil_right_iff]
    constructor
    · rintro rfl
      exact ⟨[], rfl, by simp [Progress.AdmitsAll], rfl⟩
    · rintro ⟨_, rfl, -, rfl⟩
      rfl
  | cons line lines ih =>
    simp only [follow, Logged.bind_ok, Logged.mapError_ok, Progress.step_ok, ih]
    constructor
    · rintro ⟨_, ⟨sentence, hs, ha, rfl⟩, sentences, hall, hadmits, rfl⟩
      exact ⟨sentence :: sentences, .cons hs hall, Progress.admitsAll_cons.mpr ⟨ha, hadmits⟩, rfl⟩
    · rintro ⟨_, hall, hadmits, rfl⟩
      cases hall with
      | cons hs hall =>
        obtain ⟨ha, hrest⟩ := Progress.admitsAll_cons.mp hadmits
        exact ⟨_, ⟨_, hs, ha, rfl⟩, _, hall, hrest, rfl⟩

/-- The sentences of a text, one a line. -/
def Says (text : String) (sentences : List Sentence) : Prop :=
  List.Forall₂ Sentence.OnLine sentences (Text.lines text.toList)

theorem Says.unique {text : String} {sentences others : List Sentence} (h : Says text sentences)
    (ho : Says text others) : sentences = others := by
  rw [Says] at h ho
  generalize Text.lines text.toList = lines at h ho
  induction h generalizing others with
  | nil => exact (List.forall₂_nil_right_iff.mp ho).symm
  | cons hs _ ih =>
    cases ho with
    | cons hother hrest => rw [hs.unique hother, ih hrest]

def Report.summary (report : Report) : Event :=
  .replayed report.resolutions.length report.classes.length

theorem replay_eq (policy : UnknownNames) (text : String) :
    replay policy text = (do
      let progress ← follow policy 1 {} (Text.lines text.toList)
      ⟨[progress.report.summary], .ok progress.report⟩) := rfl

theorem outcome_replay (policy : UnknownNames) (text : String) :
    (replay policy text).outcome =
      (follow policy 1 {} (Text.lines text.toList)).outcome.map Progress.report := by
  rw [replay_eq, Logged.outcome_bind]
  cases (follow policy 1 {} (Text.lines text.toList)).outcome <;> rfl

theorem replay_ok {policy : UnknownNames} {text : String} {report : Report} :
    (replay policy text).outcome = .ok report ↔
      ∃ sentences, Says text sentences ∧ Progress.AdmitsAll policy {} sentences ∧
        report = (Progress.heedAll {} sentences).report := by
  rw [outcome_replay, map_ok]
  simp only [follow_ok, Says]
  constructor
  · rintro ⟨_, ⟨sentences, hsays, hadmits, rfl⟩, rfl⟩
    exact ⟨sentences, hsays, hadmits, rfl⟩
  · rintro ⟨sentences, hsays, hadmits, rfl⟩
    exact ⟨_, ⟨sentences, hsays, hadmits, rfl⟩, rfl⟩

theorem exists_report_of_map {α : Type} {policy : UnknownNames} {text : String} {f : Report → α}
    {a : α} (h : (replay policy text).outcome.toOption.map f = some a) :
    ∃ report, (replay policy text).outcome = .ok report ∧ f report = a := by
  cases hr : (replay policy text).outcome with
  | error fault => simp [hr, Except.toOption] at h
  | ok report =>
    rw [hr] at h
    exact ⟨report, rfl, Option.some.inj h⟩

theorem exists_report_of_resolutions {policy : UnknownNames} {text : String}
    {resolutions : List Resolution}
    (h : (replay policy text).outcome.toOption.map Report.resolutions = some resolutions) :
    ∃ report, (replay policy text).outcome = .ok report ∧ report.resolutions = resolutions :=
  exists_report_of_map h

end Trace

end JackScopes
