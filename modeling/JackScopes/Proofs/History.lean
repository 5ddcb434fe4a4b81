import JackScopes.Proofs.NameIndex
import Mathlib.Data.List.DropRight

/-!
# Live declarations

What a table holds can be told from the commands alone. Each kind holds what has
been declared under it since the last command that discarded the kind, in that
order, and an entry's index is its position there. So no declaration is lost,
repeated, moved or kept beyond its scope.
-/

namespace JackScopes

/-- What the source says of a name, apart from its kind. -/
structure Declaration where
  name : String
  type : String
  deriving DecidableEq

namespace Declaration

def entry (kind : Kind) (index : Nat) (declaration : Declaration) : Entry :=
  ⟨declaration.name, declaration.type, kind, index⟩

def ofEntry (entry : Entry) : Declaration :=
  ⟨entry.name, entry.type⟩

end Declaration

namespace Command

/-- Whether a command discards the entries of a kind. A fresh table has none, and a
subroutine starts without those of the one before. -/
def discards (kind : Kind) : Command → Bool
  | renew => true
  | startSubroutine => kind.level = .perSubroutine
  | define .. | ask _ => false

def declared? (kind : Kind) : Command → Option Declaration
  | define other name type => if other = kind then some ⟨name, type⟩ else none
  | renew | startSubroutine | ask _ => none

/-- Whether a command leaves a subroutine scope open in any case. -/
def entersSubroutine : Command → Bool
  | startSubroutine => true
  | define kind _ _ => kind.level = .perSubroutine
  | renew | ask _ => false

theorem entries_apply (command : Command) (table : Table) (kind : Kind) :
    (command.apply table).entries kind =
      if command.discards kind then []
      else table.entries kind ++
        (command.declared? kind).toList.map (Declaration.entry kind (table.count kind)) := by
  cases command with
  | renew => cases kind <;> rfl
  | startSubroutine => simp [apply, discards, declared?, Table.entries_startSubroutine]
  | define other name type =>
    simp only [apply, discards, declared?, Table.entries_define, Bool.false_eq_true, ↓reduceIte]
    by_cases hk : kind = other
    · simp [hk, Declaration.entry]
    · simp [hk, Ne.symm hk]
  | ask => simp [apply, discards, declared?]

theorem inSubroutine_apply (command : Command) (table : Table) :
    (command.apply table).inSubroutine =
      (command ≠ .renew && (table.inSubroutine || command.entersSubroutine)) := by
  cases command with
  | renew => rfl
  | startSubroutine => simp [apply, entersSubroutine]
  | define kind name type => simp [apply, entersSubroutine, Table.inSubroutine_define]
  | ask => simp [apply, entersSubroutine]

end Command

namespace Session

/-- What is declared under a kind and still live after a row of commands: all since
the last command that discarded the kind. -/
def live (kind : Kind) (commands : List Command) : List Declaration :=
  (commands.rtakeWhile (!·.discards kind)).filterMap (·.declared? kind)

def sinceFresh (commands : List Command) : List Command :=
  commands.rtakeWhile (· ≠ .renew)

-- ---------------------------------------------------------------------------
-- Rows of commands
-- ---------------------------------------------------------------------------

theorem filterMap_concat {α β : Type} (f : α → Option β) (as : List α) (a : α) :
    (as ++ [a]).filterMap f = as.filterMap f ++ (f a).toList := by
  rw [List.filterMap_append]
  cases h : f a <;> simp [h]

@[simp] theorem final_concat (table : Table) (commands : List Command) (command : Command) :
    final table (commands ++ [command]) = command.apply (final table commands) :=
  List.foldl_concat ..

theorem final_append (table : Table) (before after : List Command) :
    final table (before ++ after) = final (final table before) after :=
  List.foldl_append

@[simp] theorem length_replies (table : Table) (commands : List Command) :
    (replies table commands).length = commands.length := by
  induction commands generalizing table with
  | nil => rfl
  | cons command commands ih => simp [replies, ih]

theorem replies_append (table : Table) (before after : List Command) :
    replies table (before ++ after) =
      replies table before ++ replies (final table before) after := by
  induction before generalizing table with
  | nil => rfl
  | cons command before ih => simp [replies, ih, final]

theorem getElem?_replies (table : Table) (before : List Command) (command : Command)
    (after : List Command) :
    (replies table (before ++ command :: after))[before.length]? =
      some (command.answer (final table before), command.events (final table before)) := by
  rw [replies_append, List.getElem?_append_right (by simp)]
  simp [replies]

theorem live_concat (kind : Kind) (commands : List Command) (command : Command) :
    live kind (commands ++ [command]) =
      if command.discards kind then []
      else live kind commands ++ (command.declared? kind).toList := by
  rw [live, List.rtakeWhile_concat]
  cases command.discards kind with
  | true => rfl
  | false => exact filterMap_concat ..

/-- What is live stays live, at its position, as long as no command discards it. -/
theorem live_append {kind : Kind} (before : List Command) {after : List Command}
    (h : ∀ command ∈ after, command.discards kind = false) :
    live kind (before ++ after) =
      live kind before ++ after.filterMap (·.declared? kind) := by
  induction after using List.reverseRecOn with
  | nil => simp
  | append_singleton after command ih =>
    have hc : command.discards kind = false := h command (by simp)
    have hafter : ∀ other ∈ after, other.discards kind = false := fun other ho =>
      h other (by simp [ho])
    rw [← List.append_assoc, live_concat, ih hafter, filterMap_concat, ← List.append_assoc]
    simp [hc]

-- ---------------------------------------------------------------------------
-- The table after a row of commands
-- ---------------------------------------------------------------------------

theorem entries_final (commands : List Command) (kind : Kind) :
    (final {} commands).entries kind = (live kind commands).mapIdx (Declaration.entry kind) := by
  induction commands using List.reverseRecOn with
  | nil => cases kind <;> rfl
  | append_singleton commands command ih =>
    have hcount : (final {} commands).count kind = (live kind commands).length := by
      rw [← Table.length_entries, ih, List.length_mapIdx]
    rw [final_concat, Command.entries_apply, live_concat, ih, hcount]
    cases command.discards kind with
    | true => rfl
    | false => cases hd : command.declared? kind <;> simp [List.mapIdx_concat]

theorem count_final (commands : List Command) (kind : Kind) :
    (final {} commands).count kind = (live kind commands).length := by
  rw [← Table.length_entries, entries_final, List.length_mapIdx]

theorem getElem?_entries_final (commands : List Command) (kind : Kind) (i : Nat) :
    ((final {} commands).entries kind)[i]? =
      (live kind commands)[i]?.map (Declaration.entry kind i) := by
  rw [entries_final, List.getElem?_mapIdx]

theorem map_name_mapIdx (kind : Kind) (declarations : List Declaration) :
    (declarations.mapIdx (Declaration.entry kind)).map Entry.name =
      declarations.map Declaration.name := by
  apply List.ext_getElem?
  intro i
  simp [Function.comp_def, Declaration.entry]

theorem find?_entries_final_eq_none_iff {commands : List Command} {kind : Kind} {name : String} :
    ((final {} commands).entries kind).find? (·.name = name) = none ↔
      name ∉ (live kind commands).map Declaration.name := by
  rw [entries_final, List.find?_eq_none, ← map_name_mapIdx kind]
  simp [-List.mem_mapIdx]

/-- The first entry of a name stems from the first live declaration of the name. -/
theorem find?_entries_final_eq_some_iff {commands : List Command} {kind : Kind} {name : String}
    {entry : Entry} :
    ((final {} commands).entries kind).find? (·.name = name) = some entry ↔
      ∃ earlier type later, live kind commands = earlier ++ ⟨name, type⟩ :: later ∧
        name ∉ earlier.map Declaration.name ∧ entry = ⟨name, type, kind, earlier.length⟩ := by
  rw [entries_final, List.find?_eq_some_iff_append]
  constructor
  · rintro ⟨hname, before, after, hsplit, hbefore⟩
    obtain ⟨earlier, rest, hlive, rfl, hrest⟩ := List.mapIdx_eq_append_iff.mp hsplit
    obtain ⟨⟨declared, type⟩, later, rfl, rfl, -⟩ := List.mapIdx_eq_cons_iff.mp hrest
    obtain rfl : declared = name := by simpa [Declaration.entry] using hname
    refine ⟨earlier, type, later, hlive, ?_, by simp [Declaration.entry]⟩
    rw [← map_name_mapIdx kind]
    simpa [-List.mem_mapIdx] using hbefore
  · rintro ⟨earlier, type, later, hlive, hbefore, rfl⟩
    refine ⟨by simp, earlier.mapIdx (Declaration.entry kind),
      later.mapIdx fun i => Declaration.entry kind (i + 1 + earlier.length), ?_, ?_⟩
    · rw [hlive, List.mapIdx_append, List.mapIdx_cons, Nat.zero_add]
      rfl
    · rw [← map_name_mapIdx kind] at hbefore
      simpa [-List.mem_mapIdx] using hbefore

theorem inSubroutine_final (commands : List Command) :
    (final {} commands).inSubroutine = (sinceFresh commands).any Command.entersSubroutine := by
  induction commands using List.reverseRecOn with
  | nil => rfl
  | append_singleton commands command ih =>
    rw [final_concat, Command.inSubroutine_apply, sinceFresh, List.rtakeWhile_concat, ih]
    by_cases hr : command = .renew <;> simp [hr, sinceFresh]

/-- The contents of a table are its live history. Each kind lists what was declared
under it since the kind was last discarded, in order, under its kind and with its
position as index; a definition is answered by the position at which its entry then
stands, and stands until the kind is discarded; and there is a subroutine scope
exactly if a command to this table started a subroutine or declared a name of one. -/
theorem final_eq_history (commands : List Command) (kind : Kind) :
    let table := final {} commands
    (table.entries kind).map Declaration.ofEntry = live kind commands ∧
      (∀ (i : Nat) (entry : Entry), (table.entries kind)[i]? = some entry →
        entry.kind = kind ∧ entry.index = i) ∧
      table.count kind = (live kind commands).length ∧
      (∀ before name type after, commands = before ++ .define kind name type :: after →
        ∃ i, ((replies {} commands)[before.length]?).map Prod.fst = some (.number i) ∧
          ((final {} (before ++ [.define kind name type])).entries kind)[i]? =
            some ⟨name, type, kind, i⟩ ∧
          ((∀ command ∈ after, command.discards kind = false) →
            (table.entries kind)[i]? = some ⟨name, type, kind, i⟩)) ∧
      (table.inSubroutine = true ↔
        ∃ command ∈ sinceFresh commands, command.entersSubroutine = true) := by
  intro table
  refine ⟨?_, ?_, count_final commands kind, ?_, ?_⟩
  · rw [entries_final]
    apply List.ext_getElem?
    intro i
    simp [Function.comp_def, Declaration.entry, Declaration.ofEntry]
  · intro i entry hi
    exact (indexed_final .fresh commands kind).kind_index hi
  · rintro before name type after rfl
    refine ⟨(live kind before).length, ?_, ?_, fun hafter => ?_⟩
    · rw [getElem?_replies]
      simp [Command.answer, count_final]
    · rw [getElem?_entries_final, live_concat]
      simp [Command.discards, Command.declared?, Declaration.entry]
    · have hkept : ∀ command ∈ Command.define kind name type :: after,
          command.discards kind = false := by
        intro command hc
        rcases List.mem_cons.mp hc with rfl | hc
        · rfl
        · exact hafter command hc
      rw [getElem?_entries_final, live_append before hkept]
      simp [Command.declared?, Declaration.entry]
  · rw [inSubroutine_final, List.any_eq_true]

end Session

end JackScopes
