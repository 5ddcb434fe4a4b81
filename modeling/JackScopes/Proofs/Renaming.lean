import JackScopes.Proofs.Contents
import Mathlib.Data.List.Forall2

/-!
# Renaming

A table looks into no name and no type. Give every name a new one, so that different
names stay different, and every type any new one: the table assigns the same indices,
answers with the new names and types in place of the old ones, and logs the same events
about them (`replies_renamed`). So no name is special, and none is taken for another.
-/

namespace JackScopes

/-- New names and types for old ones. Different names get different new names. -/
structure Renaming where
  name : String → String
  type : String → String
  name_injective : Function.Injective name

namespace Renaming

variable (new : Renaming)

def entry (entry : Entry) : Entry :=
  { entry with name := new.name entry.name, type := new.type entry.type }

def query : Query → Query
  | .kindOf name => .kindOf (new.name name)
  | .typeOf name => .typeOf (new.name name)
  | .indexOf name => .indexOf (new.name name)
  | .resolve name => .resolve (new.name name)
  | .storageOf name => .storageOf (new.name name)
  | query => query

def command : Command → Command
  | .define kind name type => .define kind (new.name name) (new.type type)
  | .ask query => .ask (new.query query)
  | command => command

def event : Event → Event
  | .defined name kind index type => .defined (new.name name) kind index (new.type type)
  | .redefined name kind index => .redefined (new.name name) kind index
  | event => event

def answer : Answer → Answer
  | .type type => .type (type.map new.type)
  | .entry entry => .entry (entry.map new.entry)
  | .entries entries => .entries (entries.map new.entry)
  | answer => answer

/-- A table, and one that is the same but for the new names and types. -/
structure Relates (table other : Table) : Prop where
  entries (kind : Kind) : other.entries kind = (table.entries kind).map new.entry
  inSubroutine : other.inSubroutine = table.inSubroutine

inductive Answers : Answer → Answer → Prop
  | plain {answer : Answer} :
      (∀ s, answer ≠ .text s) → Answers answer (new.answer answer)
  | text {table other : Table} :
      new.Relates table other → Answers (.text table.text) (.text other.text)

-- ---------------------------------------------------------------------------
-- One command
-- ---------------------------------------------------------------------------

variable {new} {table other : Table}

theorem find?_map_entry (entries : List Entry) (name : String) :
    (entries.map new.entry).find? (·.name = new.name name) =
      (entries.find? (·.name = name)).map new.entry := by
  have hname (entry : Entry) : (new.entry entry).name = new.name name ↔ entry.name = name :=
    new.name_injective.eq_iff
  simp only [List.find?_map, Function.comp_def, hname]

theorem discards_command (command : Command) (kind : Kind) :
    (new.command command).discards kind = command.discards kind := by
  cases command <;> rfl

theorem declared_command (command : Command) (kind : Kind) (index : Nat) :
    ((new.command command).declared? kind).toList.map (Declaration.entry kind index) =
      ((command.declared? kind).toList.map (Declaration.entry kind index)).map new.entry := by
  cases command with
  | define other name type =>
    rw [Renaming.command, Command.declared?, Command.declared?]
    split <;> rfl
  | renew | startSubroutine | ask query => rfl

namespace Relates

theorem count (h : new.Relates table other) (kind : Kind) :
    other.count kind = table.count kind := by
  rw [← Table.length_entries, ← Table.length_entries, h.entries, List.length_map]

theorem lookup (h : new.Relates table other) (ht : table.Indexed) (ho : other.Indexed)
    (order : List Kind) (name : String) :
    other.lookup order (new.name name) = (table.lookup order name).map new.entry := by
  have hentries : other.entries = fun kind => (table.entries kind).map new.entry :=
    funext h.entries
  rw [ho.lookup_eq, ht.lookup_eq, hentries, ← List.map_flatMap, find?_map_entry]

theorem contains (h : new.Relates table other) (ht : table.Indexed) (ho : other.Indexed)
    (kind : Kind) (name : String) :
    (other.category kind).contains (new.name name) = (table.category kind).contains name := by
  have hentries := h.entries kind
  unfold Table.entries at hentries
  rw [(ho kind).contains_eq, (ht kind).contains_eq, hentries, ← List.isSome_find?,
    ← List.isSome_find?, find?_map_entry, Option.isSome_map]

theorem answer (h : new.Relates table other) (ht : table.Indexed) (ho : other.Indexed)
    (query : Query) : new.Answers (table.answer query) (other.answer (new.query query)) := by
  have hmeant (name : String) :
      other.resolve (new.name name) = (table.resolve name).map new.entry :=
    h.lookup ht ho Kind.resolveOrder name
  have htyped (name : String) := h.lookup ht ho Kind.typeOrder name
  have hplain {answer renamed : Answer} (hsame : renamed = new.answer answer)
      (hs : ∀ s, answer ≠ .text s) : new.Answers answer renamed :=
    hsame ▸ .plain hs
  cases query with
  | count kind => exact hplain (congrArg Answer.number (h.count kind)) (by rintro _ ⟨⟩)
  | counts =>
    have hcounts : other.counts = table.counts := by
      rw [Table.counts, Table.counts, funext h.count]
    exact hplain (congrArg Answer.numbers hcounts) (by rintro _ ⟨⟩)
  | kindOf name =>
    have hkind : other.kindOf (new.name name) = table.kindOf name := by
      rw [Table.kindOf, hmeant, Option.map_map]
      rfl
    exact hplain (congrArg Answer.kind hkind) (by rintro _ ⟨⟩)
  | typeOf name =>
    have htype : other.typeOf (new.name name) = (table.typeOf name).map new.type := by
      rw [Table.typeOf, htyped, Option.map_map, Table.typeOf, Option.map_map]
      rfl
    exact hplain (congrArg Answer.type htype) (by rintro _ ⟨⟩)
  | indexOf name =>
    have hindex : other.indexOf (new.name name) = table.indexOf name := by
      rw [Table.indexOf, hmeant, Option.map_map]
      rfl
    exact hplain (congrArg Answer.index hindex) (by rintro _ ⟨⟩)
  | resolve name => exact hplain (congrArg Answer.entry (hmeant name)) (by rintro _ ⟨⟩)
  | storageOf name =>
    have hstorage : other.storageOf (new.name name) = table.storageOf name := by
      rw [Table.storageOf, hmeant, Option.map_map]
      rfl
    exact hplain (congrArg Answer.storage hstorage) (by rintro _ ⟨⟩)
  | entries kind => exact hplain (congrArg Answer.entries (h.entries kind)) (by rintro _ ⟨⟩)
  | inSubroutine => exact hplain (congrArg Answer.flag h.inSubroutine) (by rintro _ ⟨⟩)
  | text => exact .text h

theorem startEvents (h : new.Relates table other) :
    other.startEvents = table.startEvents.map new.event := by
  rw [Table.startEvents_eq, Table.startEvents_eq, h.inSubroutine, h.count, h.count]
  split <;> rfl

theorem defineEvents (h : new.Relates table other) (ht : table.Indexed) (ho : other.Indexed)
    (kind : Kind) (name type : String) :
    other.defineEvents kind (new.name name) (new.type type) =
      (table.defineEvents kind name type).map new.event := by
  unfold Table.defineEvents Table.opensScope
  rw [h.inSubroutine, h.contains ht ho, h.count, List.map_append, List.map_append]
  split <;> split <;> rfl

theorem reply (h : new.Relates table other) (ht : table.Indexed) (ho : other.Indexed)
    (command : Command) :
    new.Answers (command.answer table) ((new.command command).answer other) ∧
      (new.command command).events other = (command.events table).map new.event := by
  cases command with
  | renew => exact ⟨.plain (by rintro _ ⟨⟩), rfl⟩
  | startSubroutine => exact ⟨.plain (by rintro _ ⟨⟩), h.startEvents⟩
  | define kind name type =>
    refine ⟨?_, h.defineEvents ht ho kind name type⟩
    rw [Renaming.command, Command.answer, Command.answer, h.count]
    exact .plain (by rintro _ ⟨⟩)
  | ask query => exact ⟨h.answer ht ho query, rfl⟩

theorem apply (h : new.Relates table other) (command : Command) :
    new.Relates (command.apply table) ((new.command command).apply other) where
  entries kind := by
    rw [Command.entries_apply, Command.entries_apply, discards_command, declared_command,
      h.entries, h.count]
    split
    · rfl
    · rw [List.map_append]
  inSubroutine := by
    rw [Command.inSubroutine_apply, Command.inSubroutine_apply, h.inSubroutine]
    cases command <;> rfl

end Relates

end Renaming

namespace Session

open Renaming

theorem replies_related {new : Renaming} {table other : Table} (h : new.Relates table other)
    (ht : table.Indexed) (ho : other.Indexed) (commands : List Command) :
    List.Forall₂
      (fun reply renamed => new.Answers reply.1 renamed.1 ∧ renamed.2 = reply.2.map new.event)
      (replies table commands) (replies other (commands.map new.command)) := by
  induction commands generalizing table other with
  | nil => exact .nil
  | cons command commands ih =>
    have hnext := ih (h.apply command) (command.indexed_apply ht)
      ((new.command command).indexed_apply ho)
    exact .cons (h.reply ht ho command) hnext

theorem final_related {new : Renaming} {table other : Table} (h : new.Relates table other)
    (commands : List Command) :
    new.Relates (final table commands) (final other (commands.map new.command)) := by
  induction commands generalizing table other with
  | nil => exact h
  | cons command commands ih => exact ih (h.apply command)

/-- A row of commands to a fresh table, and the same commands with new names and types:
each command assigns the same index, or is answered the same with the new names and types
in place, and logs the same events about them; and the tables stay the same but for those. -/
theorem replies_renamed (new : Renaming) (commands : List Command) :
    List.Forall₂
      (fun reply other => new.Answers reply.1 other.1 ∧ other.2 = reply.2.map new.event)
      (replies {} commands) (replies {} (commands.map new.command)) ∧
    new.Relates (final {} commands) (final {} (commands.map new.command)) := by
  have hfresh : new.Relates {} {} := ⟨fun kind => by cases kind <;> rfl, rfl⟩
  exact ⟨replies_related hfresh .fresh .fresh commands, final_related hfresh commands⟩

/-- Puts a word of the trace in front of each name, and forgets the types. -/
def labelling : Renaming where
  name s := "class " ++ s
  type _ := ""
  name_injective _ _ h := by simpa using h

def lookalikes : List Command :=
  [.define .static "x" "int", .define .field "" "char", .define .arg "X" "Main",
    .define .arg " x" "int", .define .arg "X" "int", .ask (.indexOf " x"), .ask (.kindOf "X"),
    .startSubroutine, .ask (.resolve "x"), .ask (.storageOf "X"), .ask (.typeOf ""), .ask .text]

theorem replies_renamed_lookalikes :
    Function.Injective labelling.name ∧
      List.Forall₂
        (fun reply other =>
          labelling.Answers reply.1 other.1 ∧ other.2 = reply.2.map labelling.event)
        (replies {} lookalikes) (replies {} (lookalikes.map labelling.command)) ∧
      labelling.Relates (final {} lookalikes) (final {} (lookalikes.map labelling.command)) ∧
      (replies {} (lookalikes.map labelling.command)).map Prod.fst =
        [.number 0, .number 0, .number 0, .number 1, .number 2, .index (some 1), .kind .arg,
          .nothing, .entry (some ⟨"class x", "", .static, 0⟩), .storage none, .type (some ""),
          .text ("class scope:\n    STATIC 0 class x: \n    FIELD 0 class : \n" ++
            "subroutine scope:\n")] := by
  obtain ⟨hreplies, hfinal⟩ := replies_renamed labelling lookalikes
  exact ⟨labelling.name_injective, hreplies, hfinal, by decide +kernel⟩

end Session

end JackScopes
