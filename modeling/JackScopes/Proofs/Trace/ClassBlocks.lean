import JackScopes.Proofs.Trace.Failure
import JackScopes.Proofs.Trace.Meaning

/-!
# Traces one behind the other

A trace that opens a class first reads nothing of what stands before it: put behind
another trace, it is followed as from fresh. `follow_behind` says so of lines, with the
classes and resolutions of the other trace kept before its own and its faults some
lines further down; `replay_append` says it of whole texts.
-/

namespace JackScopes

def Fault.moved (offset : Nat) : Fault → Fault
  | .script line complaint => .script (offset + line) complaint
  | fault => fault

namespace Trace

instance : Append Report where
  append report other :=
    ⟨report.classes ++ other.classes, report.resolutions ++ other.resolutions⟩

theorem Report.summary_append (report other : Report) :
    (report ++ other).summary =
      .replayed (report.resolutions.length + other.resolutions.length)
        (report.classes.length + other.classes.length) := by
  rw [← List.length_append, ← List.length_append]
  rfl

namespace Progress

/-- Progress with other progress before it, all of whose classes are closed. -/
def behind (progress base : Progress) : Progress where
  closed := base.classes ++ progress.closed
  current := progress.current
  resolutions := base.resolutions ++ progress.resolutions

variable {policy : UnknownNames}

-- ---------------------------------------------------------------------------
-- One line behind other progress
-- ---------------------------------------------------------------------------

theorem current_behind (progress base : Progress) :
    (progress.behind base).current = progress.current := rfl

theorem classes_behind (progress base : Progress) :
    (progress.behind base).classes = base.classes ++ progress.classes := by
  unfold classes behind
  cases progress.current <;> simp [classes]

theorem hasClass_behind (progress base : Progress) (name : String) :
    (progress.behind base).hasClass name = (base.hasClass name || progress.hasClass name) := by
  simp only [hasClass, classes_behind, Array.any_append]

theorem report_behind (progress base : Progress) :
    (progress.behind base).report = base.report ++ progress.report := by
  rw [report, classes_behind, Array.toList_append, behind, Array.toList_append]
  rfl

theorem beginClass_behind (progress base : Progress) (name : String) :
    (progress.behind base).beginClass name = (progress.beginClass name).behind base := by
  rw [beginClass, classes_behind]
  rfl

theorem openClass_of_ok {progress : Progress} {statement : Statement} {name : String}
    (h : statement.className = .ok name) :
    progress.openClass statement =
      if progress.hasClass name then .fail (.malformed (.repeatedClass name))
      else (do
        Logged.emit [.classOpened name]
        pure (progress.beginClass name)) := by
  rw [openClass, h]
  rfl

theorem openClass_behind {progress base : Progress} {statement : Statement}
    (hnew : ∀ name, statement.className = .ok name → base.hasClass name = false) :
    (progress.behind base).openClass statement =
      (·.behind base) <$> progress.openClass statement := by
  cases hname : statement.className with
  | error complaint =>
    rw [openClass, openClass, hname]
    rfl
  | ok name =>
    rw [openClass_of_ok hname, openClass_of_ok hname, hasClass_behind, hnew name hname,
      Bool.false_or]
    split
    · rfl
    · rw [beginClass_behind]
      rfl

theorem obey_behind (progress base : Progress) (openClass : OpenClass) (directive : Directive) :
    (progress.behind base).obey policy openClass directive =
      (·.behind base) <$> progress.obey policy openClass directive := by
  cases directive with
  | startSubroutine name =>
    simp only [obey, map_bind, map_pure]
    rfl
  | resolve name =>
    simp only [obey]
    split
    · rfl
    · simp [behind]
  | declare kind type names =>
    simp only [obey, map_bind, map_pure]
    rfl

theorem perform_behind {progress base : Progress} {statement : Statement}
    (hnew : statement.word = "class" →
      ∀ name, statement.className = .ok name → base.hasClass name = false) :
    (progress.behind base).perform policy statement =
      (·.behind base) <$> progress.perform policy statement := by
  unfold perform
  split
  · next hw => exact openClass_behind (hnew hw)
  · rw [current_behind]
    cases progress.current with
    | none => rfl
    | some openClass =>
      simp only [map_bind]
      exact bind_congr fun directive => obey_behind progress base openClass directive

theorem step_behind {progress base : Progress} {line : List Char}
    (hnew : ∀ name, (Sentence.openClass name).OnLine line → base.hasClass name = false) :
    (progress.behind base).step policy line = (·.behind base) <$> progress.step policy line := by
  unfold step
  cases hline : Statement.ofLine? line with
  | none => rfl
  | some statement =>
    exact perform_behind fun hw name hname =>
      hnew name (onLine_openClass_iff.mpr ⟨statement, hline, hw, hname⟩)

end Progress

-- ---------------------------------------------------------------------------
-- All lines
-- ---------------------------------------------------------------------------

theorem Refusal.fault_add (refusal : Refusal) (offset number : Nat) :
    refusal.fault (offset + number) = (refusal.fault number).moved offset := by
  cases refusal <;> rfl

theorem follow_behind {policy : UnknownNames} {base : Progress} {lines : List (List Char)}
    (hnew : ∀ line ∈ lines, ∀ name,
      (Sentence.openClass name).OnLine line → base.hasClass name = false)
    (offset number : Nat) (progress : Progress) :
    follow policy (offset + number) (progress.behind base) lines =
      ((·.behind base) <$> follow policy number progress lines).mapError (·.moved offset) := by
  induction lines generalizing number progress with
  | nil => rfl
  | cons line lines ih =>
    have hfault : Refusal.fault (offset + number) =
        Fault.moved offset ∘ Refusal.fault number :=
      funext fun refusal => refusal.fault_add offset number
    have hrest : ∀ next : Progress,
        follow policy (offset + number + 1) (next.behind base) lines =
          ((·.behind base) <$> follow policy (number + 1) next lines).mapError (·.moved offset) :=
      ih (fun other ho => hnew other (List.mem_cons_of_mem _ ho)) (number + 1)
    rw [follow, follow, Progress.step_behind (hnew line List.mem_cons_self), Logged.mapError_map,
      bind_map_left, map_bind, Logged.mapError_bind, Logged.mapError_mapError, hfault]
    exact bind_congr hrest

-- ---------------------------------------------------------------------------
-- Lines that open a class first
-- ---------------------------------------------------------------------------

theorem Progress.classes_fresh_behind (progress : Progress) :
    (behind {} progress).classes = progress.classes :=
  (classes_behind {} progress).trans Array.append_empty

/-- To open a class, it does not matter which class is at hand. -/
theorem Progress.openClass_fresh_behind (progress : Progress) (statement : Statement) :
    (behind {} progress).openClass statement = progress.openClass statement := by
  have hhas (name : String) : (behind {} progress).hasClass name = progress.hasClass name := by
    rw [hasClass, hasClass, classes_fresh_behind]
  have hbegin (name : String) :
      (behind {} progress).beginClass name = progress.beginClass name := by
    rw [beginClass, classes_fresh_behind]
    simp [behind, beginClass]
  simp only [openClass, hhas, hbegin]

/-- The first directive of the lines, if there is one, opens a class. -/
def OpensFirst (lines : List (List Char)) : Prop :=
  ∀ statement, lines.findSome? Statement.ofLine? = some statement → statement.word = "class"

/-- Lines that open a class first are followed alike with and without a class at hand:
nothing but blank lines comes before the class at hand is closed. -/
theorem report_follow_fresh_behind {policy : UnknownNames} {lines : List (List Char)}
    (h : OpensFirst lines) (number : Nat) (progress : Progress) :
    Progress.report <$> follow policy number (.behind {} progress) lines =
      Progress.report <$> follow policy number progress lines := by
  induction lines generalizing number with
  | nil =>
    have hreport : (Progress.behind {} progress).report = progress.report := by
      rw [Progress.report, Progress.classes_fresh_behind]
      simp [Progress.report, Progress.behind]
    rw [follow, follow, map_pure, map_pure, hreport]
  | cons line lines ih =>
    cases hline : Statement.ofLine? line with
    | none =>
      have hstep (current : Progress) : current.step policy line = pure current := by
        rw [Progress.step, hline]
      have hrest := ih fun statement hs => h statement (by rw [List.findSome?_cons, hline, hs])
      rw [follow, follow, hstep, hstep]
      exact hrest (number + 1)
    | some statement =>
      have hw : statement.word = "class" := h statement (by rw [List.findSome?_cons, hline])
      have hstep : (Progress.behind {} progress).step policy line = progress.step policy line := by
        simp only [Progress.step, hline, Progress.perform, hw, ↓reduceIte,
          Progress.openClass_fresh_behind]
      rw [follow, follow, hstep]

/-- Lines behind others that were followed, where they open a class first and no class
twice: they are followed as from fresh. -/
theorem report_follow_append {policy : UnknownNames} {before after : List (List Char)}
    {reached : Progress} (hbefore : (follow policy 1 {} before).outcome = .ok reached)
    (hclass : OpensFirst after)
    (hnew : ∀ line ∈ after, ∀ name,
      (Sentence.openClass name).OnLine line → reached.hasClass name = false) :
    Progress.report <$> follow policy 1 {} (before ++ after) =
      ⟨(follow policy 1 {} before).events ++ (follow policy 1 {} after).events,
        ((follow policy 1 {} after).outcome.map (reached.report ++ ·.report)).mapError
          (·.moved before.length)⟩ := by
  have hreport : Progress.report ∘ (Progress.behind · reached) = (reached.report ++ ·.report) :=
    funext fun final => final.report_behind reached
  have hafter : Progress.report <$> follow policy (1 + before.length) reached after =
      ((reached.report ++ ·.report) <$> follow policy 1 {} after).mapError
        (·.moved before.length) := by
    rw [← report_follow_fresh_behind hclass, Nat.add_comm, follow_behind hnew,
      ← Logged.mapError_map, ← comp_map, hreport]
  rw [follow_append, map_bind, Logged.bind_eq_of_ok hbefore, hafter]
  simp

/-- Traces of different classes do not touch each other. Put behind a trace that is
followed, a trace that opens a class first does and logs what it does alone: its classes
and resolutions come behind those of the first, its faults tell the lines where they now
stand, and only the summary at the end counts both. -/
theorem replay_append {policy : UnknownNames} {first second : String} {report : Report}
    (hend : Text.Finished first.toList)
    (hfirst : (replay policy first).outcome = .ok report)
    (hclass : OpensFirst (Text.lines second.toList))
    (hnew : ∀ line ∈ Text.lines second.toList, ∀ name,
      (Sentence.openClass name).OnLine line → name ∉ report.classes.map Prod.fst) :
    ∃ log, (replay policy first).events = log ++ [report.summary] ∧
      (∀ other, (replay policy second).outcome = .ok other →
        ∃ more, (replay policy second).events = more ++ [other.summary] ∧
          replay policy (first ++ second) =
            ⟨log ++ more ++ [.replayed (report.resolutions.length + other.resolutions.length)
                (report.classes.length + other.classes.length)],
              .ok (report ++ other)⟩) ∧
      ∀ fault, (replay policy second).outcome = .error fault →
        replay policy (first ++ second) =
          ⟨log ++ (replay policy second).events,
            .error (fault.moved (Text.lines first.toList).length)⟩ := by
  have hreplay (text : String) : replay policy text =
      Progress.report <$> follow policy 1 {} (Text.lines text.toList) >>= fun report =>
        ⟨[report.summary], .ok report⟩ := by
    rw [replay_eq, bind_map_left]
  obtain ⟨reached, hreached, rfl⟩ := map_ok.mp (outcome_replay policy first ▸ hfirst)
  have hboth := report_follow_append hreached hclass fun line hl name hs =>
    Progress.hasClass_eq_false_iff.mpr (hnew line hl name hs)
  rw [← Text.lines_append hend, ← String.toList_append] at hboth
  refine ⟨_, by rw [replay_eq, Logged.events_bind_of_ok hreached], ?_, ?_⟩
  · intro other hother
    obtain ⟨final, hfinal, rfl⟩ := map_ok.mp (outcome_replay policy second ▸ hother)
    refine ⟨_, by rw [replay_eq, Logged.events_bind_of_ok hfinal], ?_⟩
    rw [hreplay, hboth, hfinal, ← Report.summary_append]
    rfl
  · intro fault hfault
    have hfails := replay_error.mp hfault
    rw [hreplay, hboth, hfails, replay_eq, Logged.bind_eq_of_error hfails]
    rfl

def upperBlock : String :=
  "class A\nfield int x\nsubroutine f\nresolve x\n"

/-- The class does not see the `x` above it, and its last line names no variable. -/
def lowerBlock : String :=
  "// another class\nclass B\nresolve x\nvar x"

theorem replay_append_blocks :
    Text.Finished upperBlock.toList ∧ OpensFirst (Text.lines lowerBlock.toList) ∧
      ∃ report, (replay .aliasField upperBlock).outcome = .ok report ∧
        (∀ line ∈ Text.lines lowerBlock.toList, ∀ name,
          (Sentence.openClass name).OnLine line → name ∉ report.classes.map Prod.fst) ∧
        (replay .aliasField lowerBlock).outcome =
          .error (.script 4 "malformed name list: ``") ∧
        (replay .aliasField (upperBlock ++ lowerBlock)).outcome =
          .error (.script 8 "malformed name list: ``") := by
  have hend : Text.Finished upperBlock.toList := .inr (by decide +kernel)
  have hclass : OpensFirst (Text.lines lowerBlock.toList) := by
    have hfound : (Text.lines lowerBlock.toList).findSome? Statement.ofLine? =
        some ⟨"class", ['B']⟩ := by decide +kernel
    intro statement hs
    cases hfound.symm.trans hs
    rfl
  have hother : ∀ line ∈ Text.lines lowerBlock.toList,
      Sentence.ofLine? line ≠ some (.openClass "A") := by decide +kernel
  have hnames : (replay .aliasField upperBlock).outcome.toOption.map
      (·.classes.map Prod.fst) = some ["A"] := by decide +kernel
  have hfault : (replay .aliasField lowerBlock).outcome =
      .error (.script 4 "malformed name list: ``") :=
    Logged.failure?_eq_some.mp (by decide +kernel)
  have hlength : (Text.lines upperBlock.toList).length = 4 := by decide +kernel
  cases h : (replay .aliasField upperBlock).outcome with
  | error fault => simp [h, Except.toOption] at hnames
  | ok report =>
    rw [h] at hnames
    have hclasses : report.classes.map Prod.fst = ["A"] := Option.some.inj hnames
    have hnew : ∀ line ∈ Text.lines lowerBlock.toList, ∀ name,
        (Sentence.openClass name).OnLine line → name ∉ report.classes.map Prod.fst := by
      intro line hl name hs hn
      rw [hclasses, List.mem_singleton] at hn
      exact hother line hl (hn ▸ Sentence.ofLine?_of_onLine hs)
    obtain ⟨_, -, -, hbehind⟩ := replay_append hend h hclass hnew
    refine ⟨hend, hclass, report, rfl, hnew, hfault, ?_⟩
    rw [hbehind _ hfault, hlength]
    rfl

end Trace

end JackScopes
