import JackScopes.Proofs.Text.Lines
import JackScopes.Proofs.Trace.Addresses

/-!
# The text of a report

What is printed for the resolutions of a trace can be read back. The names on a line are
identifiers, so they end at the first character that is in none, and a type is one word.
So the lines of a report are its resolutions, one each, and no two resolutions share a
line.
-/

namespace JackScopes.Trace

open Text (Word Identifier)

namespace Sentence

/-- The names that a sentence tells of. A type is not one of them. -/
def names : Sentence → List String
  | blank => []
  | openClass name | startSubroutine name | resolve name => [name]
  | declare _ _ names => names

end Sentence

/-- The parts of a resolution that are names or types are written as a line of a trace
has them. -/
structure Resolution.Legible (resolution : Resolution) : Prop where
  className : Identifier resolution.className.toList
  subroutine : ∀ name, resolution.subroutine = some name → Identifier name.toList
  name : Identifier resolution.name.toList
  type : ∀ type, resolution.type = some type → Word type.toList
  coherent : resolution.Coherent

-- ---------------------------------------------------------------------------
-- Names and types of a trace
-- ---------------------------------------------------------------------------

theorem Labelled.identifier {label name : String} {cs : List Char} (h : Labelled label name cs) :
    Identifier name.toList := by
  obtain ⟨_, -, hname, -⟩ := h
  exact hname

namespace Sentence

theorem Written.identifier {sentence : Sentence} {cs : List Char} (h : sentence.Written cs) :
    ∀ name ∈ sentence.names, Identifier name.toList := by
  cases h with
  | blank => simp [names]
  | openClass h | startSubroutine h | resolve h => simpa [names] using h.identifier
  | declare _ _ _ _ hnames => exact hnames.identifier

theorem Written.word {kind : Kind} {type : String} {names : List String} {cs : List Char}
    (h : (Sentence.declare kind type names).Written cs) : Word type.toList := by
  cases h
  assumption

end Sentence

theorem Says.exists_onLine {text : String} {sentences : List Sentence} (h : Says text sentences)
    {sentence : Sentence} (hs : sentence ∈ sentences) : ∃ line, sentence.OnLine line := by
  obtain ⟨i, hi, rfl⟩ := List.getElem_of_mem hs
  exact ⟨_, h.get hi (h.length_eq ▸ hi)⟩

theorem Says.exists_written {text : String} {sentences : List Sentence} (h : Says text sentences)
    {sentence : Sentence} (hs : sentence ∈ sentences) : ∃ cs, sentence.Written cs := by
  obtain ⟨line, hline⟩ := h.exists_onLine hs
  exact ⟨_, Sentence.onLine_iff.mp hline⟩

theorem Says.identifier {text : String} {sentences : List Sentence} (h : Says text sentences)
    {sentence : Sentence} (hs : sentence ∈ sentences) {name : String}
    (hname : name ∈ sentence.names) : Identifier name.toList := by
  obtain ⟨cs, hwritten⟩ := h.exists_written hs
  exact hwritten.identifier name hname

theorem mem_of_subroutineAt {sentences : List Sentence} {name : String}
    (h : subroutineAt sentences = some name) : .startSubroutine name ∈ sentences := by
  obtain ⟨sentence, hs, hname⟩ := List.mem_filterMap.mp (List.mem_of_getLast? h)
  have hmem := (List.rtakeWhile_suffix _ sentences).subset hs
  cases sentence <;> simp [Sentence.startedSubroutine?] at hname
  exact hname ▸ hmem

theorem exists_declare_of_mem_visible {kind : Kind} {sentences : List Sentence}
    {declaration : Declaration} (h : declaration ∈ visible kind sentences) :
    ∃ names, .declare kind declaration.type names ∈ sentences := by
  obtain ⟨sentence, hs, hdeclared⟩ := List.mem_flatMap.mp h
  have hmem := (List.rtakeWhile_suffix _ sentences).subset hs
  cases sentence with
  | declare other type names =>
    rw [Sentence.declared] at hdeclared
    split at hdeclared
    · next hkind =>
      obtain ⟨name, -, rfl⟩ := List.mem_map.mp hdeclared
      exact ⟨names, hkind ▸ hmem⟩
    · cases hdeclared
  | blank | openClass name | startSubroutine name | resolve name => cases hdeclared

theorem Refers.exists_declare {before : List Sentence} {name type : String} {kind : Kind}
    {storage : Option Storage} (h : Refers before name kind storage (some type)) :
    ∃ names, .declare kind type names ∈ before := by
  cases h with
  | declared _ _ hvisible _ =>
    exact exists_declare_of_mem_visible (hvisible ▸ List.mem_append_right _ List.mem_cons_self)

theorem Answers.legible {text : String} {before after : List Sentence} {resolution : Resolution}
    (h : Answers before resolution.name resolution)
    (hsaid : Says text (before ++ .resolve resolution.name :: after)) : resolution.Legible where
  className := by
    have hmem := mem_openedClasses_iff.mp (List.mem_of_getLast? h.className)
    exact hsaid.identifier (List.mem_append_left _ hmem) List.mem_cons_self
  subroutine name hname := by
    have hmem := mem_of_subroutineAt (h.subroutine.trans hname)
    exact hsaid.identifier (List.mem_append_left _ hmem) List.mem_cons_self
  name := hsaid.identifier (List.mem_append_right _ List.mem_cons_self) List.mem_cons_self
  type type htype := by
    obtain ⟨names, hmem⟩ := (htype ▸ h.refers).exists_declare
    obtain ⟨cs, hwritten⟩ := hsaid.exists_written (List.mem_append_left _ hmem)
    exact hwritten.word
  coherent := h.coherent

theorem Progress.legible_of_mem {policy : UnknownNames} {text : String}
    {sentences : List Sentence} (hsaid : Says text sentences)
    (h : AdmitsAll policy {} sentences) {resolution : Resolution}
    (hr : resolution ∈ (heedAll {} sentences).report.resolutions) : resolution.Legible := by
  obtain ⟨i, hi⟩ := List.mem_iff_getElem?.mp hr
  obtain ⟨before, after, rfl, -, hanswers⟩ := exists_answered h hi
  exact hanswers.legible hsaid

-- ---------------------------------------------------------------------------
-- The parts of a line
-- ---------------------------------------------------------------------------

theorem space_not_mem_segment (segment : Segment) : ' ' ∉ segment.name.toList := by
  cases segment <;> decide

theorem segment_name_injective {first second : Segment} (h : first.name = second.name) :
    first = second := by
  cases first <;> cases second <;> first | rfl | exact absurd h (by decide)

namespace Resolution

theorem toList_text (resolution : Resolution) :
    resolution.text.toList = resolution.place.toList ++ ':' :: ' ' ::
      (resolution.name.toList ++ ' ' :: '-' :: '>' :: ' ' :: resolution.meaning.toList) := by
  simp [text]

theorem toList_meaning_of_storage {resolution : Resolution} {storage : Storage} {type : String}
    (hstorage : resolution.storage = some storage) (htype : resolution.type = some type) :
    resolution.meaning.toList = storage.segment.name.toList ++ ' ' ::
      (Nat.toDigits 10 storage.index ++ ' ' :: '(' :: (type.toList ++ [')'])) := by
  simp [meaning, hstorage, htype, Storage.text]

variable {resolution first second : Resolution}

theorem Coherent.toList_meaning_of_none (h : resolution.Coherent)
    (hstorage : resolution.storage = none) :
    resolution.meaning.toList = "FIELD".toList ++ ' ' :: "(undefined)".toList := by
  simp [meaning, hstorage, h.field hstorage, Kind.name]

theorem Coherent.exists_type (h : resolution.Coherent) {storage : Storage}
    (hstorage : resolution.storage = some storage) : ∃ type, resolution.type = some type := by
  rw [← Option.ne_none_iff_exists', ne_eq, ← h.storage_eq_none_iff, hstorage]
  exact Option.some_ne_none storage

/-- No type makes a declared name look like an undeclared one: the word for its segment is
in the way. -/
theorem Coherent.meaning_ne (hfirst : first.Coherent) (hsecond : second.Coherent)
    (hnone : first.storage = none) {storage : Storage} (hs : second.storage = some storage) :
    first.meaning ≠ second.meaning := by
  obtain ⟨type, htype⟩ := hsecond.exists_type hs
  intro h
  have hlist := congrArg String.toList h
  rw [hfirst.toList_meaning_of_none hnone, toList_meaning_of_storage hs htype] at hlist
  obtain ⟨hsegment, -⟩ := Text.cut_unique (by decide) (space_not_mem_segment _) hlist
  revert hsegment
  cases storage.segment <;> decide

theorem meaning_injective_of_storage {storage other : Storage} {type otherType : String}
    (hs : first.storage = some storage) (ht : first.type = some type)
    (hsother : second.storage = some other) (htother : second.type = some otherType)
    (h : first.meaning = second.meaning) : storage = other ∧ type = otherType := by
  have hlist := congrArg String.toList h
  rw [toList_meaning_of_storage hs ht, toList_meaning_of_storage hsother htother] at hlist
  obtain ⟨hsegment, hrest⟩ :=
    Text.cut_unique (space_not_mem_segment _) (space_not_mem_segment _) hlist
  obtain ⟨hdigits, htypes⟩ :=
    Text.cut_unique (Text.not_mem_toDigits rfl _) (Text.not_mem_toDigits rfl _) hrest
  refine ⟨?_, ?_⟩
  · obtain ⟨segment, index⟩ := storage
    obtain rfl := segment_name_injective (String.toList_inj.mp hsegment)
    obtain rfl := Text.toDigits_injective hdigits
    rfl
  · rw [← String.toList_inj]
    exact List.append_cancel_right (List.cons.inj htypes).2

theorem Coherent.meaning_injective (hfirst : first.Coherent) (hsecond : second.Coherent)
    (h : first.meaning = second.meaning) :
    first.kind = second.kind ∧ first.storage = second.storage ∧ first.type = second.type := by
  cases hs : first.storage with
  | none =>
    cases ht : second.storage with
    | none =>
      refine ⟨(hfirst.field hs).trans (hsecond.field ht).symm, rfl, ?_⟩
      rw [hfirst.storage_eq_none_iff.mp hs, hsecond.storage_eq_none_iff.mp ht]
    | some storage => exact absurd h (hfirst.meaning_ne hsecond hs ht)
  | some storage =>
    cases ht : second.storage with
    | none => exact absurd h.symm (hsecond.meaning_ne hfirst ht hs)
    | some other =>
      obtain ⟨type, htype⟩ := hfirst.exists_type hs
      obtain ⟨otherType, hother⟩ := hsecond.exists_type ht
      obtain ⟨rfl, rfl⟩ := meaning_injective_of_storage hs htype ht hother h
      refine ⟨?_, rfl, htype.trans hother.symm⟩
      apply Kind.segment_injective
      rw [← hfirst.segment storage hs, hsecond.segment storage ht]

theorem Legible.place_ne (h : first.Legible) (hnone : first.subroutine = none) {name : String}
    (hs : second.subroutine = some name) : first.place ≠ second.place := by
  intro hplace
  have hlist := congrArg String.toList hplace
  have hdot : '.' ∉ first.className.toList := h.className.not_mem (by decide)
  simp only [place, hnone, hs, String.toList_append] at hlist
  rw [hlist] at hdot
  simp at hdot

theorem Legible.place_injective (hfirst : first.Legible) (hsecond : second.Legible)
    (h : first.place = second.place) :
    first.className = second.className ∧ first.subroutine = second.subroutine := by
  cases hs : first.subroutine with
  | none =>
    cases ht : second.subroutine with
    | none =>
      simp only [place, hs, ht] at h
      exact ⟨h, rfl⟩
    | some other => exact absurd h (hfirst.place_ne hs ht)
  | some name =>
    cases ht : second.subroutine with
    | none => exact absurd h.symm (hsecond.place_ne ht hs)
    | some other =>
      have hlist := congrArg String.toList h
      simp only [place, hs, ht, String.toList_append, List.append_assoc] at hlist
      obtain ⟨hclass, hname⟩ := Text.cut_unique (hfirst.className.not_mem (by decide))
        (hsecond.className.not_mem (by decide)) hlist
      exact ⟨String.toList_inj.mp hclass, congrArg some (String.toList_inj.mp hname)⟩

/-- A character that is in no name is in the place of a resolution only if it is the dot. -/
theorem Legible.not_mem_place (h : resolution.Legible) {c : Char}
    (hc : Text.continuesIdentifier c = false) (hdot : c ≠ '.') : c ∉ resolution.place.toList := by
  have hclass := h.className.not_mem hc
  cases hs : resolution.subroutine with
  | none => simpa [place, hs] using hclass
  | some name =>
    have hname := (h.subroutine name hs).not_mem hc
    simp [place, hs, hclass, hname, hdot]

/-- A line tells of one resolution. -/
theorem Legible.text_injective (hfirst : first.Legible) (hsecond : second.Legible)
    (h : first.text = second.text) : first = second := by
  have hlist := congrArg String.toList h
  rw [toList_text, toList_text] at hlist
  -- no colon is in a place and no blank in a name, but a type may hold any of the marks
  obtain ⟨hplace, hrest⟩ := Text.cut_unique (hfirst.not_mem_place (by decide) (by decide))
    (hsecond.not_mem_place (by decide) (by decide)) hlist
  obtain ⟨hname, harrow⟩ := Text.cut_unique (hfirst.name.not_mem (by decide))
    (hsecond.name.not_mem (by decide)) (List.cons.inj hrest).2
  have hmeaning : first.meaning = second.meaning := by
    simpa [String.toList_inj] using harrow
  obtain ⟨hclass, hsubroutine⟩ :=
    hfirst.place_injective hsecond (String.toList_inj.mp hplace)
  obtain ⟨hkind, hstorage, htype⟩ := hfirst.coherent.meaning_injective hsecond.coherent hmeaning
  cases first
  cases second
  rw [mk.injEq]
  exact ⟨hclass, hsubroutine, String.toList_inj.mp hname, hkind, hstorage, htype⟩

-- ---------------------------------------------------------------------------
-- One line for each resolution
-- ---------------------------------------------------------------------------

theorem Legible.newline_not_mem_meaning (h : resolution.Legible) :
    '\n' ∉ resolution.meaning.toList := by
  cases hs : resolution.storage with
  | none =>
    rw [h.coherent.toList_meaning_of_none hs]
    decide
  | some storage =>
    obtain ⟨type, htype⟩ := h.coherent.exists_type hs
    have hsegment : '\n' ∉ storage.segment.name.toList := by cases storage.segment <;> decide
    have hdigits : '\n' ∉ Nat.toDigits 10 storage.index := Text.not_mem_toDigits rfl _
    have hword : '\n' ∉ type.toList := (h.type type htype).newline_not_mem
    rw [toList_meaning_of_storage hs htype]
    simp [hsegment, hdigits, hword]

theorem Legible.newline_not_mem_text (h : resolution.Legible) : '\n' ∉ resolution.text.toList := by
  have hplace : '\n' ∉ resolution.place.toList := h.not_mem_place (by decide) (by decide)
  have hname : '\n' ∉ resolution.name.toList := h.name.not_mem (by decide)
  rw [toList_text]
  simp [hplace, hname, h.newline_not_mem_meaning]

theorem Coherent.getLast?_meaning (h : resolution.Coherent) :
    resolution.meaning.toList.getLast? = some ')' := by
  cases hs : resolution.storage with
  | none =>
    rw [h.toList_meaning_of_none hs]
    rfl
  | some storage =>
    obtain ⟨type, htype⟩ := h.exists_type hs
    rw [toList_meaning_of_storage hs htype]
    simp [List.getLast?_cons]

theorem Coherent.getLast?_text (h : resolution.Coherent) :
    resolution.text.toList.getLast? = some ')' := by
  have hmeaning := h.getLast?_meaning
  rw [toList_text]
  simp [List.getLast?_append, List.getLast?_cons, hmeaning]

end Resolution

theorem Report.toList_text (report : Report) :
    report.text.toList = (report.resolutions.map (·.text.toList)).flatMap (· ++ ['\n']) := by
  simp [text, List.flatMap_map]

theorem Report.lines_text {report : Report}
    (h : ∀ resolution ∈ report.resolutions, resolution.Legible) :
    Text.lines report.text.toList = report.resolutions.map (·.text.toList) := by
  rw [toList_text]
  apply Text.lines_flatMap_ended
  · exact List.forall_mem_map.mpr fun resolution hr => (h resolution hr).newline_not_mem_text
  · refine List.forall_mem_map.mpr fun resolution hr => ?_
    rw [(h resolution hr).coherent.getLast?_text]
    decide

theorem eq_of_map_text {first second : List Resolution}
    (hfirst : ∀ resolution ∈ first, resolution.Legible)
    (hsecond : ∀ resolution ∈ second, resolution.Legible)
    (h : first.map (·.text.toList) = second.map (·.text.toList)) : first = second := by
  refine Text.eq_of_map_eq (fun resolution hr other ho hsame => ?_) h
  exact (hfirst resolution hr).text_injective (hsecond other ho) (String.toList_inj.mp hsame)

theorem legible_of_replay {policy : UnknownNames} {text : String} {report : Report}
    (h : (replay policy text).outcome = .ok report) :
    ∀ resolution ∈ report.resolutions, resolution.Legible := by
  obtain ⟨sentences, hsaid, hadmits, rfl⟩ := replay_ok.mp h
  exact fun resolution hr => Progress.legible_of_mem hsaid hadmits hr

/-- The text of a report tells all of its resolutions. Each of them is one line, which no
other resolution of any trace prints, and reports of one text have the same ones. -/
theorem replay_text_injective {policy otherPolicy : UnknownNames} {text otherText : String}
    {report other : Report} (h : (replay policy text).outcome = .ok report)
    (hother : (replay otherPolicy otherText).outcome = .ok other) :
    (report.text = other.text → report.resolutions = other.resolutions) ∧
      (∀ first ∈ report.resolutions, ∀ second ∈ other.resolutions,
        first.text = second.text → first = second) ∧
      Text.lines report.text.toList = report.resolutions.map (·.text.toList) := by
  have hlegible := legible_of_replay h
  have hotherLegible := legible_of_replay hother
  refine ⟨fun htext => ?_, fun first hfirst second hsecond => ?_, Report.lines_text hlegible⟩
  · apply eq_of_map_text hlegible hotherLegible
    rw [← Report.lines_text hlegible, ← Report.lines_text hotherLegible, htext]
  · exact (hlegible first hfirst).text_injective (hotherLegible second hsecond)

/-- A name that nothing declares, and one that is declared with a type of that look. -/
def undeclared : String :=
  "class A\nresolve x"

def declaredUndefined : String :=
  "class A\nfield undefined x\nresolve x"

theorem replay_text_injective_undefined :
    ∃ report other, (replay .aliasField undeclared).outcome = .ok report ∧
      (replay .reject declaredUndefined).outcome = .ok other ∧
      report.text ≠ other.text ∧
      Text.lines report.text.toList = ["A: x -> FIELD (undefined)".toList] ∧
      Text.lines other.text.toList = ["A: x -> this 0 (undefined)".toList] := by
  have hanswers : (replay .aliasField undeclared).outcome.toOption.map Report.resolutions =
      some [⟨"A", none, "x", .field, none, none⟩] := by decide +kernel
  have hothers : (replay .reject declaredUndefined).outcome.toOption.map Report.resolutions =
      some [⟨"A", none, "x", .field, some ⟨.this, 0⟩, some "undefined"⟩] := by decide +kernel
  obtain ⟨report, h, hresolutions⟩ := exists_report_of_resolutions hanswers
  obtain ⟨other, hother, hotherResolutions⟩ := exists_report_of_resolutions hothers
  obtain ⟨hinjective, -, hlines⟩ := replay_text_injective h hother
  obtain ⟨-, -, hotherLines⟩ := replay_text_injective hother h
  refine ⟨report, other, h, hother, fun htext => ?_, ?_, ?_⟩
  · have hsame := hinjective htext
    rw [hresolutions, hotherResolutions] at hsame
    exact absurd hsame (by decide)
  · rw [hlines, hresolutions]
    decide +kernel
  · rw [hotherLines, hotherResolutions]
    decide +kernel

end JackScopes.Trace
