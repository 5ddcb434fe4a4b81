import JackScopes.Proofs.Trace.Meaning

/-!
# Addresses in a report

An answer that a trace is given on its way still holds at its end. What is declared
under a kind keeps its place in the table until the kind goes out of sight, and a class's
table stays as it is once the next class is opened. So the storage of a resolution leads
to the entry it was taken from, in the table its class is left with.
-/

namespace JackScopes.Trace

def Report.table? (report : Report) (name : String) : Option Table :=
  report.classes.lookup name

def ofClass (sentences : List Sentence) : List Sentence :=
  sentences.takeWhile (·.openedClass? = none)

namespace Resolution

/-- The parts of a resolution fit: a type stands beside a storage and only there, the
storage is one of the kind, and a name without one counts as a field. -/
structure Coherent (resolution : Resolution) : Prop where
  storage_eq_none_iff : resolution.storage = none ↔ resolution.type = none
  field : resolution.storage = none → resolution.kind = .field
  segment : ∀ storage, resolution.storage = some storage →
    storage.segment = resolution.kind.segment

/-- The storage of a resolution, if it has one, leads to an entry of a table that is as
the resolution tells. -/
def StandsIn (resolution : Resolution) (table : Table) : Prop :=
  ∀ storage, resolution.storage = some storage → ∃ type, resolution.type = some type ∧
    (table.entries resolution.kind)[storage.index]? =
      some ⟨resolution.name, type, resolution.kind, storage.index⟩

theorem StandsIn.eq_of_storage {first second : Resolution} {table : Table}
    (hfirst : first.StandsIn table) (hsecond : second.StandsIn table)
    (hkind : first.kind = second.kind) {storage : Storage}
    (hs : first.storage = some storage) (ht : second.storage = some storage) :
    first.name = second.name ∧ first.type = second.type := by
  obtain ⟨type, htype, hentry⟩ := hfirst storage hs
  obtain ⟨other, hother, hsame⟩ := hsecond storage ht
  rw [hkind, hsame, Option.some.injEq, Entry.mk.injEq] at hentry
  obtain ⟨hname, rfl, -, -⟩ := hentry
  exact ⟨hname.symm, htype.trans hother.symm⟩

end Resolution

-- ---------------------------------------------------------------------------
-- What stays in sight
-- ---------------------------------------------------------------------------

theorem openedClass?_of_mem_ofClass {sentences : List Sentence} {sentence : Sentence}
    (h : sentence ∈ ofClass sentences) : sentence.openedClass? = none := by
  simpa using List.mem_takeWhile_imp h

/-- Within a class, only the next subroutine hides declarations, and only its own kinds. -/
theorem hides_eq_false_of_mem_ofClass {kind : Kind} {sentences : List Sentence}
    (h : kind.level = .perClass ∨ ∀ name, .startSubroutine name ∉ ofClass sentences) :
    ∀ sentence ∈ ofClass sentences, sentence.hides kind = false := by
  intro sentence hs
  have hclass := openedClass?_of_mem_ofClass hs
  cases sentence with
  | openClass name => cases hclass
  | startSubroutine name =>
    rcases h with h | h
    · simp [Sentence.hides, h]
    · exact absurd hs (h name)
  | blank | resolve name | declare other type names => rfl

theorem visible_append {kind : Kind} (before : List Sentence) {after : List Sentence}
    (h : ∀ sentence ∈ after, sentence.hides kind = false) :
    visible kind (before ++ after) = visible kind before ++ after.flatMap (·.declared kind) := by
  induction after using List.reverseRecOn with
  | nil => simp
  | append_singleton after sentence ih =>
    have hs : sentence.hides kind = false := h sentence (by simp)
    have hafter := ih fun other ho => h other (by simp [ho])
    rw [← List.append_assoc, visible_concat, hs, hafter]
    simp

theorem entries_tableAt (sentences : List Sentence) (kind : Kind) :
    (tableAt sentences).entries kind = (visible kind sentences).mapIdx (Declaration.entry kind) := by
  rw [tableAt, Session.entries_final, live_commands]

-- ---------------------------------------------------------------------------
-- Answers
-- ---------------------------------------------------------------------------

theorem Refers.coherent {before : List Sentence} {name : String} {kind : Kind}
    {storage : Option Storage} {type : Option String} (h : Refers before name kind storage type) :
    (storage = none ↔ type = none) ∧ (storage = none → kind = .field) ∧
      ∀ place, storage = some place → place.segment = kind.segment := by
  cases h with
  | declared => simp
  | undeclared => simp

/-- A declaration that is referred to keeps its place as long as its kind stays in sight. -/
theorem Refers.entry {before after : List Sentence} {name : String} {kind : Kind}
    {place : Storage} {type : Option String} (h : Refers before name kind (some place) type)
    (hstays : ∀ sentence ∈ after, sentence.hides kind = false) :
    ∃ declared, type = some declared ∧
      ((tableAt (before ++ after)).entries kind)[place.index]? =
        some ⟨name, declared, kind, place.index⟩ := by
  cases h with
  | @declared _ _ _ earlier later type _ _ hvisible _ =>
    refine ⟨type, rfl, ?_⟩
    rw [entries_tableAt, visible_append before hstays, hvisible, List.getElem?_mapIdx]
    simp [Declaration.entry]

theorem Answers.coherent {before : List Sentence} {asked : String} {resolution : Resolution}
    (h : Answers before asked resolution) : resolution.Coherent := by
  obtain ⟨hnone, hfield, hsegment⟩ := h.refers.coherent
  exact ⟨hnone, hfield, hsegment⟩

theorem Answers.standsIn {before after : List Sentence} {asked : String}
    {resolution : Resolution} (h : Answers before asked resolution)
    (hstays : ∀ sentence ∈ after, sentence.hides resolution.kind = false) :
    resolution.StandsIn (tableAt (before ++ after)) := by
  intro storage hstorage
  have hrefers := h.refers
  rw [hstorage] at hrefers
  obtain ⟨type, htype, hentry⟩ := hrefers.entry hstays
  rw [h.name]
  exact ⟨type, htype, hentry⟩

-- ---------------------------------------------------------------------------
-- The last table of a class
-- ---------------------------------------------------------------------------

theorem classAt_append {before after : List Sentence}
    (h : ∀ sentence ∈ after, sentence.openedClass? = none) :
    classAt (before ++ after) = classAt before := by
  rw [classAt, List.filterMap_append, List.filterMap_eq_nil_iff.mpr h, List.append_nil, classAt]

namespace Progress

theorem closed_heed (progress : Progress) (sentence : Sentence) :
    (progress.heed sentence).closed =
      if sentence.openedClass? = none then progress.closed else progress.classes := by
  cases sentence <;> rfl

theorem toList_classes (progress : Progress) :
    progress.classes.toList = progress.closed.toList ++
      (progress.current.map fun openClass => (openClass.name, openClass.table)).toList := by
  rw [classes]
  cases progress.current <;> simp

theorem closed_prefix_classes (progress : Progress) :
    progress.closed.toList <+: progress.classes.toList := by
  rw [toList_classes]
  exact List.prefix_append ..

/-- A class that is closed stays, with its table. -/
theorem closed_prefix_closed (progress : Progress) (sentences : List Sentence) :
    progress.closed.toList <+: (progress.heedAll sentences).closed.toList := by
  induction sentences using List.reverseRecOn with
  | nil => exact List.prefix_rfl
  | append_singleton sentences sentence ih =>
    rw [heedAll_concat, closed_heed]
    split
    · exact ih
    · exact ih.trans (closed_prefix_classes _)

theorem mem_classes_of_current {progress : Progress} {openClass : OpenClass}
    (h : progress.current = some openClass) :
    (openClass.name, openClass.table) ∈ progress.classes.toList := by
  simp [toList_classes, h]

/-- The class at hand is closed with the table it has when the next class is opened. -/
theorem mem_classes_heedAll {progress : Progress} {openClass : OpenClass}
    (hcurrent : progress.current = some openClass) {after : List Sentence}
    (hafter : ∀ sentence ∈ after.head?, sentence.openedClass? ≠ none) :
    (openClass.name, openClass.table) ∈ (progress.heedAll after).classes.toList := by
  cases after with
  | nil => exact mem_classes_of_current hcurrent
  | cons sentence rest =>
    have hopens : sentence.openedClass? ≠ none := hafter sentence rfl
    have hclosed : (progress.heed sentence).closed = progress.classes := by
      rw [closed_heed, if_neg hopens]
    have hmem := mem_classes_of_current hcurrent
    rw [← hclosed] at hmem
    have hlater := (closed_prefix_closed (progress.heed sentence) rest).subset hmem
    exact (closed_prefix_classes _).subset hlater

theorem mem_classes_of_classAt {before : List Sentence} {className : String}
    (h : classAt before = some className) (after : List Sentence) :
    (className, tableAt (before ++ ofClass after)) ∈
      (heedAll {} (before ++ after)).classes.toList := by
  have hsplit : before ++ after =
      (before ++ ofClass after) ++ after.dropWhile (·.openedClass? = none) := by
    rw [List.append_assoc, ofClass, List.takeWhile_append_dropWhile]
  have hcurrent := current_heedAll (before ++ ofClass after)
  rw [classAt_append fun sentence => openedClass?_of_mem_ofClass, h] at hcurrent
  rw [hsplit, heedAll_append]
  refine mem_classes_heedAll hcurrent fun sentence hs => ?_
  have hstop := List.head?_dropWhile_not (fun sentence : Sentence =>
    decide (sentence.openedClass? = none)) after
  rw [Option.mem_def.mp hs] at hstop
  simpa using hstop

variable {policy : UnknownNames} {sentences : List Sentence}

theorem table?_report (h : AdmitsAll policy {} sentences) {name : String} {table : Table}
    (hmem : (name, table) ∈ (heedAll {} sentences).classes.toList) :
    (heedAll {} sentences).report.table? name = some table := by
  have hdistinct : ((heedAll {} sentences).classes.toList.map Prod.fst).Nodup := by
    rw [classes_heedAll]
    exact classes_nodup h
  obtain ⟨earlier, later, hsplit⟩ := List.append_of_mem hmem
  rw [hsplit, List.map_append, List.map_cons, List.nodup_append] at hdistinct
  refine List.lookup_eq_some_iff.mpr ⟨earlier, later, hsplit, fun other ho => ?_⟩
  have hne := hdistinct.2.2 other.1 (List.mem_map_of_mem ho) name (by simp)
  simpa using Ne.symm hne

-- ---------------------------------------------------------------------------
-- The line of a resolution
-- ---------------------------------------------------------------------------

theorem exists_split_filterMap {α β : Type} {f : α → Option β} {as : List α} {i : Nat} {b : β}
    (h : (as.filterMap f)[i]? = some b) :
    ∃ before a after, as = before ++ a :: after ∧ (before.filterMap f).length = i ∧
      f a = some b := by
  obtain ⟨hlt, hget⟩ := List.getElem?_eq_some_iff.mp h
  have hsplit : as.filterMap f = (as.filterMap f).take i ++ b :: (as.filterMap f).drop (i + 1) := by
    rw [← hget, List.getElem_cons_drop, List.take_append_drop]
  obtain ⟨first, rest, rfl, hfirst, hrest⟩ := List.filterMap_eq_append_iff.mp hsplit
  obtain ⟨silent, a, after, rfl, hsilent, ha, -⟩ := List.filterMap_eq_cons_iff.mp hrest
  refine ⟨first ++ silent, a, after, (List.append_assoc ..).symm, ?_, ha⟩
  rw [List.filterMap_append, List.filterMap_eq_nil_iff.mpr hsilent, List.append_nil, hfirst,
    List.length_take, Nat.min_eq_left (Nat.le_of_lt hlt)]

theorem exists_answered (h : AdmitsAll policy {} sentences) {i : Nat} {resolution : Resolution}
    (hi : (heedAll {} sentences).resolutions.toList[i]? = some resolution) :
    ∃ before after, sentences = before ++ .resolve resolution.name :: after ∧
      (before.filterMap Sentence.resolved?).length = i ∧
      Answers before resolution.name resolution := by
  have hname : (sentences.filterMap Sentence.resolved?)[i]? = some resolution.name := by
    rw [← names_resolutions h, List.getElem?_map, hi]
    rfl
  obtain ⟨before, sentence, after, rfl, hlength, hresolved⟩ := exists_split_filterMap hname
  obtain rfl : sentence = .resolve resolution.name := by
    cases sentence <;> simp [Sentence.resolved?] at hresolved
    rw [hresolved]
  obtain ⟨found, hfound, hanswers⟩ := exists_resolution h
  rw [hlength, hi, Option.some.injEq] at hfound
  exact ⟨before, after, rfl, hlength, hfound ▸ hanswers⟩

theorem coherent_of_mem (h : AdmitsAll policy {} sentences) {resolution : Resolution}
    (hr : resolution ∈ (heedAll {} sentences).report.resolutions) : resolution.Coherent := by
  obtain ⟨i, hi⟩ := List.mem_iff_getElem?.mp hr
  obtain ⟨_, _, -, -, hanswers⟩ := exists_answered h hi
  exact hanswers.coherent

end Progress

-- ---------------------------------------------------------------------------
-- The report of a trace
-- ---------------------------------------------------------------------------

/-- A resolution between some sentences tells of an entry that lasts: the table its class
is left with holds it, unless a subroutine of the class has started behind it and has
discarded it. -/
structure Lasts (report : Report) (before after : List Sentence) (resolution : Resolution) :
    Prop where
  className : classAt before = some resolution.className
  table : ∃ table, report.table? resolution.className = some table ∧
    (resolution.kind.level = .perClass ∨ (∀ name, .startSubroutine name ∉ ofClass after) →
      resolution.StandsIn table)

theorem Progress.exists_lasts {policy : UnknownNames} {sentences : List Sentence}
    (h : AdmitsAll policy {} sentences) {i : Nat} {resolution : Resolution}
    (hi : (heedAll {} sentences).report.resolutions[i]? = some resolution) :
    ∃ before after, sentences = before ++ .resolve resolution.name :: after ∧
      (before.filterMap Sentence.resolved?).length = i ∧
      Lasts (heedAll {} sentences).report before after resolution := by
  obtain ⟨before, after, hsplit, hlength, hanswers⟩ := exists_answered h hi
  have hmem := mem_classes_of_classAt hanswers.className (.resolve resolution.name :: after)
  rw [← hsplit] at hmem
  refine ⟨before, after, hsplit, hlength, hanswers.className, _, table?_report h hmem, ?_⟩
  intro hstays
  refine hanswers.standsIn fun sentence hs => ?_
  have hcons : ofClass (.resolve resolution.name :: after) =
      .resolve resolution.name :: ofClass after := by simp [ofClass, Sentence.openedClass?]
  rw [hcons] at hs
  rcases List.mem_cons.mp hs with rfl | hs
  · rfl
  · exact hides_eq_false_of_mem_ofClass hstays sentence hs

/-- The addresses in a report do not dangle. The parts of each resolution fit, and the
entry that it tells of lasts. So within a class, a storage of the class's scope belongs
to one name and one type. -/
theorem replay_addresses {policy : UnknownNames} {text : String} {report : Report}
    (h : (replay policy text).outcome = .ok report) :
    ∃ sentences, Says text sentences ∧
      (∀ i resolution, report.resolutions[i]? = some resolution →
        resolution.Coherent ∧
          ∃ before after, sentences = before ++ .resolve resolution.name :: after ∧
            (before.filterMap Sentence.resolved?).length = i ∧
            Lasts report before after resolution) ∧
      ∀ first ∈ report.resolutions, ∀ second ∈ report.resolutions, ∀ storage,
        first.className = second.className → first.kind.level = .perClass →
          first.storage = some storage → second.storage = some storage →
          first.name = second.name ∧ first.type = second.type := by
  obtain ⟨sentences, hsays, hadmits, rfl⟩ := replay_ok.mp h
  refine ⟨sentences, hsays, ?_, ?_⟩
  · intro i resolution hi
    have hmem := List.mem_of_getElem? hi
    exact ⟨Progress.coherent_of_mem hadmits hmem, Progress.exists_lasts hadmits hi⟩
  · intro first hfirst second hsecond storage hclass hlevel hs ht
    have hkind : first.kind = second.kind := by
      apply Kind.segment_injective
      rw [← (Progress.coherent_of_mem hadmits hfirst).segment storage hs,
        ← (Progress.coherent_of_mem hadmits hsecond).segment storage ht]
    obtain ⟨i, hi⟩ := List.mem_iff_getElem?.mp hfirst
    obtain ⟨j, hj⟩ := List.mem_iff_getElem?.mp hsecond
    obtain ⟨_, _, -, -, -, table, htable, hstands⟩ := Progress.exists_lasts hadmits hi
    obtain ⟨_, _, -, -, -, other, hother, hsame⟩ := Progress.exists_lasts hadmits hj
    rw [← hclass, htable, Option.some.injEq] at hother
    subst hother
    exact (hstands (.inl hlevel)).eq_of_storage (hsame (.inl (hkind ▸ hlevel))) hkind hs ht

def overshadowed : String :=
  "class A\nstatic int w, x\nresolve x\nsubroutine f\narg char x\nresolve x\n" ++
    "static int z\nsubroutine g\nresolve x\nclass B\nresolve x"

theorem replay_addresses_overshadowed :
    ∃ report table, (replay .aliasField overshadowed).outcome = .ok report ∧
      report.resolutions.map Resolution.storage =
        [some ⟨.static, 1⟩, some ⟨.argument, 0⟩, some ⟨.static, 1⟩, none] ∧
      report.table? "A" = some table ∧
      (table.entries .static)[1]? = some ⟨"x", "int", .static, 1⟩ := by
  have hanswers : (replay .aliasField overshadowed).outcome.toOption.map Report.resolutions =
      some [⟨"A", none, "x", .static, some ⟨.static, 1⟩, some "int"⟩,
        ⟨"A", some "f", "x", .arg, some ⟨.argument, 0⟩, some "char"⟩,
        ⟨"A", some "g", "x", .static, some ⟨.static, 1⟩, some "int"⟩,
        ⟨"B", none, "x", .field, none, none⟩] := by decide +kernel
  obtain ⟨report, h, hresolutions⟩ := exists_report_of_resolutions hanswers
  obtain ⟨_, -, hall, -⟩ := replay_addresses h
  obtain ⟨-, _, _, -, -, -, table, htable, hstands⟩ := hall 0 _ (by rw [hresolutions]; rfl)
  obtain ⟨type, htype, hentry⟩ := hstands (.inl rfl) _ rfl
  cases htype
  exact ⟨report, table, h, by rw [hresolutions]; rfl, htable, hentry⟩

end JackScopes.Trace
