import JackScopes.Proofs.History
import JackScopes.Proofs.Trace.Course
import Mathlib.Data.List.Nodup

/-!
# What a trace means

The answers of a replay, told by the sentences of the trace alone. A name refers
to a declaration in sight: one of the class at hand, and for arguments and
variables one of the subroutine at hand. The replay's progress agrees with the
sentences so far: its table is what their commands make of a fresh one, and its
class, its subroutine and its resolutions are those that the sentences name.
-/

namespace JackScopes.Trace

namespace Sentence

def openedClass? : Sentence → Option String
  | openClass name => some name
  | _ => none

def startedSubroutine? : Sentence → Option String
  | startSubroutine name => some name
  | _ => none

def resolved? : Sentence → Option String
  | resolve name => some name
  | _ => none

def hides (kind : Kind) : Sentence → Bool
  | openClass _ => true
  | startSubroutine _ => kind.level = .perSubroutine
  | blank | resolve _ | declare .. => false

def declared (kind : Kind) : Sentence → List Declaration
  | declare other type names => if other = kind then names.map fun name => ⟨name, type⟩ else []
  | blank | openClass _ | startSubroutine _ | resolve _ => []

end Sentence

/-- The declarations of a kind in sight after some sentences: those of the class, and
for kinds of a subroutine, of the subroutine. -/
def visible (kind : Kind) (sentences : List Sentence) : List Declaration :=
  (sentences.rtakeWhile (!·.hides kind)).flatMap (·.declared kind)

def classAt (sentences : List Sentence) : Option String :=
  (sentences.filterMap Sentence.openedClass?).getLast?

/-- The subroutine at hand after some sentences: the last one of the class. -/
def subroutineAt (sentences : List Sentence) : Option String :=
  ((sentences.rtakeWhile (·.openedClass? = none)).filterMap Sentence.startedSubroutine?).getLast?

/-- What a name refers to after some sentences: the first declaration in sight, under
the first kind that has one. A name without a declaration counts as a field. -/
inductive Refers (before : List Sentence) (name : String) :
    Kind → Option Storage → Option String → Prop
  | declared {nearer farther : List Kind} {kind : Kind} {earlier later : List Declaration}
      {type : String} :
      [.arg, .var, .static, .field] = nearer ++ kind :: farther →
      (∀ other ∈ nearer, name ∉ (visible other before).map Declaration.name) →
      visible kind before = earlier ++ ⟨name, type⟩ :: later →
      name ∉ earlier.map Declaration.name →
      Refers before name kind (some ⟨kind.segment, earlier.length⟩) (some type)
  | undeclared :
      (∀ kind, name ∉ (visible kind before).map Declaration.name) →
      Refers before name .field none none

structure Answers (before : List Sentence) (asked : String) (resolution : Resolution) : Prop where
  className : classAt before = some resolution.className
  subroutine : subroutineAt before = resolution.subroutine
  name : resolution.name = asked
  refers : Refers before asked resolution.kind resolution.storage resolution.type

-- ---------------------------------------------------------------------------
-- Tables and declarations in sight
-- ---------------------------------------------------------------------------

theorem visible_concat (kind : Kind) (sentences : List Sentence) (sentence : Sentence) :
    visible kind (sentences ++ [sentence]) =
      if sentence.hides kind then []
      else visible kind sentences ++ sentence.declared kind := by
  rw [visible, List.rtakeWhile_concat]
  cases h : sentence.hides kind <;> simp [visible]

theorem live_append_commands (kind : Kind) (commands : List Command) (sentence : Sentence) :
    Session.live kind (commands ++ sentence.commands) =
      if sentence.hides kind then []
      else Session.live kind commands ++ sentence.declared kind := by
  cases sentence with
  | blank => simp [Sentence.commands, Sentence.hides, Sentence.declared]
  | openClass name => exact Session.live_concat kind commands .renew
  | startSubroutine name => exact Session.live_concat kind commands .startSubroutine
  | resolve name => exact Session.live_concat kind commands (.ask (.resolve name))
  | declare other type names =>
    rw [Session.live_append commands (by simp [Sentence.commands, Command.discards])]
    by_cases hk : other = kind <;>
      simp [Sentence.commands, Sentence.hides, Sentence.declared, Command.declared?, hk]

/-- The declarations in sight are those still live after the commands. -/
theorem live_commands (kind : Kind) (sentences : List Sentence) :
    Session.live kind (sentences.flatMap Sentence.commands) = visible kind sentences := by
  induction sentences using List.reverseRecOn with
  | nil => rfl
  | append_singleton sentences sentence ih =>
    rw [List.flatMap_append, List.flatMap_singleton, live_append_commands, ih, visible_concat]

def tableAt (sentences : List Sentence) : Table :=
  Session.final {} (sentences.flatMap Sentence.commands)

theorem tableAt_concat (sentences : List Sentence) (sentence : Sentence) :
    tableAt (sentences ++ [sentence]) = Session.final (tableAt sentences) sentence.commands := by
  rw [tableAt, List.flatMap_append, List.flatMap_singleton, Session.final_append]
  rfl

theorem find?_tableAt (sentences : List Sentence) (kind : Kind) (name : String) :
    ((tableAt sentences).category kind).find? name =
      ((tableAt sentences).entries kind).find? (·.name = name) :=
  (Session.indexed_final .fresh _ kind).find?_eq name

theorem find?_tableAt_eq_none_iff {sentences : List Sentence} {kind : Kind} {name : String} :
    ((tableAt sentences).category kind).find? name = none ↔
      name ∉ (visible kind sentences).map Declaration.name := by
  rw [find?_tableAt, tableAt, Session.find?_entries_final_eq_none_iff, live_commands]

theorem find?_tableAt_eq_some_iff {sentences : List Sentence} {kind : Kind} {name : String}
    {entry : Entry} :
    ((tableAt sentences).category kind).find? name = some entry ↔
      ∃ earlier type later, visible kind sentences = earlier ++ ⟨name, type⟩ :: later ∧
        name ∉ earlier.map Declaration.name ∧ entry = ⟨name, type, kind, earlier.length⟩ := by
  rw [find?_tableAt, tableAt, Session.find?_entries_final_eq_some_iff, live_commands]

theorem resolve_tableAt_eq_none_iff {sentences : List Sentence} {name : String} :
    (tableAt sentences).resolve name = none ↔
      ∀ kind, name ∉ (visible kind sentences).map Declaration.name := by
  rw [Table.resolve, Table.lookup, List.findSome?_eq_none_iff]
  simp only [find?_tableAt_eq_none_iff]
  refine ⟨fun h kind => h kind ?_, fun h kind _ => h kind⟩
  cases kind <;> simp [Kind.resolveOrder]

theorem refers_tableAt (sentences : List Sentence) (name : String) :
    Refers sentences name ((tableAt sentences).kindOf name)
      (((tableAt sentences).resolve name).map Entry.storage)
      (((tableAt sentences).resolve name).map Entry.type) := by
  rw [Table.kindOf]
  cases hr : (tableAt sentences).resolve name with
  | none => exact .undeclared (resolve_tableAt_eq_none_iff.mp hr)
  | some entry =>
    obtain ⟨nearer, kind, farther, horder, hfind, hnearer⟩ := List.findSome?_eq_some_iff.mp hr
    obtain ⟨earlier, type, later, hvisible, hearlier, rfl⟩ := find?_tableAt_eq_some_iff.mp hfind
    refine .declared horder (fun other ho => ?_) hvisible hearlier
    exact find?_tableAt_eq_none_iff.mp (hnearer other ho)

-- ---------------------------------------------------------------------------
-- The class and the subroutine at hand
-- ---------------------------------------------------------------------------

theorem classAt_concat (sentences : List Sentence) (sentence : Sentence) :
    classAt (sentences ++ [sentence]) = sentence.openedClass?.or (classAt sentences) := by
  rw [classAt, Session.filterMap_concat]
  cases sentence.openedClass? <;> simp [classAt]

theorem subroutineAt_concat (sentences : List Sentence) (sentence : Sentence) :
    subroutineAt (sentences ++ [sentence]) =
      if sentence.openedClass? = none then sentence.startedSubroutine?.or (subroutineAt sentences)
      else none := by
  rw [subroutineAt, List.rtakeWhile_concat]
  by_cases h : sentence.openedClass? = none
  · cases hs : sentence.startedSubroutine? <;> simp [h, hs, subroutineAt]
  · simp [h]

theorem mem_openedClasses_iff {name : String} {sentences : List Sentence} :
    name ∈ sentences.filterMap Sentence.openedClass? ↔ .openClass name ∈ sentences := by
  rw [List.mem_filterMap]
  constructor
  · rintro ⟨sentence, hs, hname⟩
    cases sentence <;> simp [Sentence.openedClass?] at hname
    exact hname ▸ hs
  · exact fun h => ⟨_, h, rfl⟩

theorem classAt_isSome_iff {sentences : List Sentence} :
    (classAt sentences).isSome ↔ ∃ name, .openClass name ∈ sentences := by
  rw [classAt, List.getLast?_isSome, ← List.length_pos_iff, List.length_pos_iff_exists_mem]
  exact exists_congr fun name => mem_openedClasses_iff

-- ---------------------------------------------------------------------------
-- The progress of a replay
-- ---------------------------------------------------------------------------

namespace Progress

/-- The class at hand, its table and its subroutine are as the sentences say. -/
theorem current_heedAll (sentences : List Sentence) :
    (heedAll {} sentences).current = (classAt sentences).map fun name =>
      { name, table := tableAt sentences, subroutine := subroutineAt sentences } := by
  induction sentences using List.reverseRecOn with
  | nil => rfl
  | append_singleton sentences sentence ih =>
    rw [heedAll_concat, classAt_concat, subroutineAt_concat, tableAt_concat]
    cases sentence with
    | blank => exact ih
    | openClass name => rfl
    | startSubroutine name =>
      rw [heed, ih, Option.map_map]
      rfl
    | resolve name => exact ih
    | declare kind type names =>
      rw [heed, ih, Option.map_map]
      rfl

theorem classes_heed (progress : Progress) (sentence : Sentence) :
    (progress.heed sentence).classes.toList.map Prod.fst =
      progress.classes.toList.map Prod.fst ++ sentence.openedClass?.toList := by
  cases sentence with
  | openClass name => simp [heed, classes, beginClass, Sentence.openedClass?]
  | blank | resolve name => simp [heed, classes, Sentence.openedClass?]
  | startSubroutine name | declare kind type names =>
    cases hc : progress.current <;>
      simp [heed, classes, hc, Sentence.openedClass?, OpenClass.startSubroutine, OpenClass.declare]

theorem classes_heedAll (sentences : List Sentence) :
    (heedAll {} sentences).classes.toList.map Prod.fst =
      sentences.filterMap Sentence.openedClass? := by
  induction sentences using List.reverseRecOn with
  | nil => rfl
  | append_singleton sentences sentence ih =>
    rw [heedAll_concat, classes_heed, ih, Session.filterMap_concat]

theorem hasClass_eq_false_iff {progress : Progress} {name : String} :
    progress.hasClass name = false ↔ name ∉ progress.classes.toList.map Prod.fst := by
  rw [hasClass, ← Array.any_toList, List.any_eq_false, List.mem_map]
  simp only [decide_eq_true_eq, not_exists, not_and]

theorem resolutions_heed (progress : Progress) (sentence : Sentence) :
    (progress.heed sentence).resolutions.toList =
      progress.resolutions.toList ++
        sentence.resolved?.toList.flatMap fun name =>
          (progress.current.map (·.resolution name)).toList := by
  cases sentence with
  | resolve name => simp [heed, Sentence.resolved?]
  | blank | openClass name | startSubroutine name | declare kind type names =>
    simp [heed, beginClass, Sentence.resolved?]

/-- No resolution is dropped or changed once it is made. -/
theorem resolutions_prefix (progress : Progress) (sentences : List Sentence) :
    progress.resolutions.toList <+: (progress.heedAll sentences).resolutions.toList := by
  induction sentences using List.reverseRecOn with
  | nil => exact List.prefix_rfl
  | append_singleton sentences sentence ih =>
    rw [heedAll_concat, resolutions_heed]
    exact ih.trans (List.prefix_append ..)

variable {policy : UnknownNames} {sentences : List Sentence}

theorem classes_nodup (h : AdmitsAll policy {} sentences) :
    (sentences.filterMap Sentence.openedClass?).Nodup := by
  induction sentences using List.reverseRecOn with
  | nil => exact List.nodup_nil
  | append_singleton sentences sentence ih =>
    have hbefore := ih h.of_append
    rw [Session.filterMap_concat]
    cases sentence with
    | openClass name =>
      have hnew : name ∉ sentences.filterMap Sentence.openedClass? := by
        rw [← classes_heedAll]
        exact hasClass_eq_false_iff.mp h.at_last
      have hnodup := (List.nodup_concat _ name).mpr ⟨hnew, hbefore⟩
      rwa [List.concat_eq_append] at hnodup
    | blank | startSubroutine name | resolve name | declare kind type names =>
      simpa [Sentence.openedClass?] using hbefore

theorem names_resolutions (h : AdmitsAll policy {} sentences) :
    (heedAll {} sentences).resolutions.toList.map Resolution.name =
      sentences.filterMap Sentence.resolved? := by
  induction sentences using List.reverseRecOn with
  | nil => rfl
  | append_singleton sentences sentence ih =>
    rw [heedAll_concat, resolutions_heed, List.map_append, ih h.of_append,
      Session.filterMap_concat]
    cases sentence with
    | resolve name =>
      obtain ⟨openClass, hcurrent, -⟩ := h.at_last
      simp [Sentence.resolved?, hcurrent, OpenClass.resolution]
    | blank | openClass name | startSubroutine name | declare kind type names => rfl

theorem answers_resolution {before : List Sentence} {openClass : OpenClass}
    (hcurrent : (heedAll {} before).current = some openClass) (name : String) :
    Answers before name (openClass.resolution name) := by
  rw [current_heedAll, Option.map_eq_some_iff] at hcurrent
  obtain ⟨className, hclass, rfl⟩ := hcurrent
  exact ⟨hclass, rfl, rfl, refers_tableAt before name⟩

theorem exists_resolution {before after : List Sentence} {name : String}
    (h : AdmitsAll policy {} (before ++ .resolve name :: after)) :
    ∃ resolution,
      (heedAll {} (before ++ .resolve name :: after)).resolutions.toList[
        (before.filterMap Sentence.resolved?).length]? = some resolution ∧
      Answers before name resolution := by
  obtain ⟨openClass, hcurrent, -⟩ := h before _ after rfl
  refine ⟨_, ?_, answers_resolution hcurrent name⟩
  have hlength : (heedAll {} before).resolutions.toList.length =
      (before.filterMap Sentence.resolved?).length := by
    rw [← names_resolutions h.of_append, List.length_map]
  have hall : heedAll {} (before ++ .resolve name :: after) =
      ((heedAll {} before).heed (.resolve name)).heedAll after := heedAll_append before _
  obtain ⟨more, hmore⟩ := resolutions_prefix ((heedAll {} before).heed (.resolve name)) after
  rw [hall, ← hmore, resolutions_heed, hcurrent, ← hlength]
  simp [Sentence.resolved?]

end Progress

-- ---------------------------------------------------------------------------
-- The report of a trace
-- ---------------------------------------------------------------------------

structure Reports (report : Report) (sentences : List Sentence) : Prop where
  classes : report.classes.map Prod.fst = sentences.filterMap Sentence.openedClass?
  distinct : (report.classes.map Prod.fst).Nodup
  names : report.resolutions.map Resolution.name = sentences.filterMap Sentence.resolved?
  answers : ∀ before name after, sentences = before ++ .resolve name :: after →
    ∃ resolution,
      report.resolutions[(before.filterMap Sentence.resolved?).length]? = some resolution ∧
      Answers before name resolution

/-- A trace that is followed to its end says one row of sentences, and its report
answers them. -/
theorem replay_reports {policy : UnknownNames} {text : String} {report : Report}
    (h : (replay policy text).outcome = .ok report) :
    ∃ sentences, Says text sentences ∧ (∀ others, Says text others → others = sentences) ∧
      Reports report sentences := by
  obtain ⟨sentences, hsays, hadmits, rfl⟩ := replay_ok.mp h
  refine ⟨sentences, hsays, fun others ho => ho.unique hsays, ?_⟩
  have hclasses := Progress.classes_heedAll sentences
  exact
    { classes := hclasses
      distinct := hclasses ▸ Progress.classes_nodup hadmits
      names := Progress.names_resolutions hadmits
      answers := by
        rintro before name after rfl
        exact Progress.exists_resolution hadmits }

/-- An argument shadows a static variable, and the next class sees neither. -/
def shadowing : String :=
  "class A\nstatic int x\nsubroutine f\narg int y, x // the nearest x\nresolve x\n" ++
    "class B\nresolve x"

theorem replay_reports_shadowing :
    ∃ report, (replay .aliasField shadowing).outcome = .ok report ∧
      report.resolutions =
        [⟨"A", some "f", "x", .arg, some ⟨.argument, 1⟩, some "int"⟩,
          ⟨"B", none, "x", .field, none, none⟩] ∧
      ∃ sentences, Says shadowing sentences ∧
        (∀ others, Says shadowing others → others = sentences) ∧ Reports report sentences := by
  have hanswers : (replay .aliasField shadowing).outcome.toOption.map Report.resolutions =
      some [⟨"A", some "f", "x", .arg, some ⟨.argument, 1⟩, some "int"⟩,
        ⟨"B", none, "x", .field, none, none⟩] := by decide +kernel
  cases h : (replay .aliasField shadowing).outcome with
  | error fault => simp [h, Except.toOption] at hanswers
  | ok report =>
    rw [h] at hanswers
    exact ⟨report, rfl, Option.some.inj hanswers, replay_reports h⟩

end JackScopes.Trace
