import JackScopes.Proofs.History

/-!
# What determines a table

Two tables that hold the same entries, and of which both or neither have a subroutine
scope, are never told apart: they answer alike, log alike and go on to agree after any
command. The entries are the declarations that are live, so a table does not remember
what was discarded, nor in which order kinds were mixed.
-/

namespace JackScopes

namespace Table

variable {table other : Table}

theorem startEvents_eq (table : Table) :
    table.startEvents =
      if table.inSubroutine then [.scopeDiscarded (table.count .arg) (table.count .var)]
      else [] := by
  unfold startEvents inSubroutine count category inner
  cases table.subroutine <;> rfl

/-- What two tables must have in common, if their indices of names are right. -/
structure Agree (table other : Table) : Prop where
  entries (kind : Kind) : table.entries kind = other.entries kind
  inSubroutine : table.inSubroutine = other.inSubroutine
  indexed : table.Indexed
  indexed_other : other.Indexed

-- ---------------------------------------------------------------------------
-- Tables that agree answer and log alike
-- ---------------------------------------------------------------------------

namespace Agree

theorem count (h : Agree table other) (kind : Kind) : table.count kind = other.count kind := by
  rw [← length_entries, ← length_entries, h.entries]

theorem contains (h : Agree table other) (kind : Kind) (name : String) :
    (table.category kind).contains name = (other.category kind).contains name := by
  have hentries := h.entries kind
  unfold Table.entries at hentries
  rw [(h.indexed kind).contains_eq, (h.indexed_other kind).contains_eq, hentries]

theorem lookup (h : Agree table other) (order : List Kind) (name : String) :
    table.lookup order name = other.lookup order name := by
  have hentries : table.entries = other.entries := funext h.entries
  rw [h.indexed.lookup_eq, h.indexed_other.lookup_eq, hentries]

theorem text (h : Agree table other) : table.text = other.text := by
  have hentries : table.entries = other.entries := funext h.entries
  unfold Table.text entriesText
  rw [hentries, h.inSubroutine]

theorem answer (h : Agree table other) (query : Query) : table.answer query = other.answer query := by
  cases query with
  | count kind => simp [Table.answer, h.count]
  | counts => simp [Table.answer, counts, h.count]
  | kindOf name => simp [Table.answer, kindOf, resolve, h.lookup]
  | typeOf name => simp [Table.answer, typeOf, h.lookup]
  | indexOf name => simp [Table.answer, indexOf, resolve, h.lookup]
  | resolve name => simp [Table.answer, Table.resolve, h.lookup]
  | storageOf name => simp [Table.answer, storageOf, Table.resolve, h.lookup]
  | entries kind => simp [Table.answer, h.entries]
  | inSubroutine => simp [Table.answer, h.inSubroutine]
  | text => simp [Table.answer, h.text]

theorem startEvents (h : Agree table other) : table.startEvents = other.startEvents := by
  rw [startEvents_eq, startEvents_eq, h.inSubroutine, h.count, h.count]

theorem defineEvents (h : Agree table other) (kind : Kind) (name type : String) :
    table.defineEvents kind name type = other.defineEvents kind name type := by
  unfold Table.defineEvents opensScope
  rw [h.inSubroutine, h.contains, h.count]

theorem reply (h : Agree table other) (command : Command) :
    command.answer table = command.answer other ∧ command.events table = command.events other := by
  cases command with
  | renew => exact ⟨rfl, rfl⟩
  | startSubroutine => exact ⟨rfl, h.startEvents⟩
  | define kind name type =>
    exact ⟨congrArg Answer.number (h.count kind), h.defineEvents kind name type⟩
  | ask query => exact ⟨h.answer query, rfl⟩

theorem apply (h : Agree table other) (command : Command) :
    Agree (command.apply table) (command.apply other) where
  entries kind := by rw [Command.entries_apply, Command.entries_apply, h.entries, h.count]
  inSubroutine := by rw [Command.inSubroutine_apply, Command.inSubroutine_apply, h.inSubroutine]
  indexed := Command.indexed_apply h.indexed command
  indexed_other := Command.indexed_apply h.indexed_other command

theorem replies (h : Agree table other) (commands : List Command) :
    Session.replies table commands = Session.replies other commands := by
  induction commands generalizing table other with
  | nil => rfl
  | cons command commands ih =>
    obtain ⟨hanswer, hevents⟩ := h.reply command
    rw [Session.replies, Session.replies, hanswer, hevents, ih (h.apply command)]

theorem final (h : Agree table other) (commands : List Command) :
    Agree (Session.final table commands) (Session.final other commands) := by
  induction commands generalizing table other with
  | nil => exact h
  | cons command commands ih => exact ih (h.apply command)

end Agree

end Table

-- ---------------------------------------------------------------------------
-- Histories that leave tables alike
-- ---------------------------------------------------------------------------

namespace Session

/-- Whatever is done and asked next, two tables answer alike, log alike and read alike. -/
def Alike (table other : Table) : Prop :=
  ∀ commands, replies table commands = replies other commands ∧
    (final table commands).text = (final other commands).text

theorem Alike.of_agree {table other : Table} (h : table.Agree other) : Alike table other :=
  fun commands => ⟨h.replies commands, (h.final commands).text⟩

theorem agree_of_live {first second : List Command} (h : ∀ kind, live kind first = live kind second)
    (hscope : (final {} first).inSubroutine = (final {} second).inSubroutine) :
    (final {} first).Agree (final {} second) where
  entries kind := by rw [entries_final, entries_final, h]
  inSubroutine := hscope
  indexed := indexed_final .fresh first
  indexed_other := indexed_final .fresh second

/-- Commands that discard nothing, and so only define names and ask. -/
def Keeping (commands : List Command) : Prop :=
  ∀ command ∈ commands, ∀ kind, command.discards kind = false

theorem inSubroutine_final_of_keeping (table : Table) {commands : List Command}
    (h : Keeping commands) :
    (final table commands).inSubroutine =
      (table.inSubroutine || commands.any Command.entersSubroutine) := by
  induction commands using List.reverseRecOn with
  | nil => simp [final]
  | append_singleton commands command ih =>
    have hnew : command ≠ .renew := by
      rintro rfl
      cases h .renew (by simp) .static
    have hbefore := ih fun other ho => h other (by simp [ho])
    rw [final_concat, Command.inSubroutine_apply, hbefore]
    simp [hnew, Bool.or_assoc]

/-- Commands that discard nothing open a subroutine scope by what they declare. -/
theorem any_entersSubroutine_iff {commands : List Command} (h : Keeping commands) :
    commands.any Command.entersSubroutine = true ↔
      ∃ kind : Kind, kind.level = .perSubroutine ∧
        ∃ declaration, declaration ∈ commands.filterMap (·.declared? kind) := by
  constructor
  · intro hany
    obtain ⟨command, hc, henters⟩ := List.any_eq_true.mp hany
    cases command with
    | renew | ask query => cases henters
    | startSubroutine => cases h .startSubroutine hc .arg
    | define kind name type =>
      refine ⟨kind, by simpa [Command.entersSubroutine] using henters, ⟨name, type⟩, ?_⟩
      exact List.mem_filterMap.mpr ⟨_, hc, by simp [Command.declared?]⟩
  · rintro ⟨kind, hlevel, declaration, hd⟩
    obtain ⟨command, hc, hdeclared⟩ := List.mem_filterMap.mp hd
    refine List.any_eq_true.mpr ⟨command, hc, ?_⟩
    cases command with
    | renew | startSubroutine | ask query => cases hdeclared
    | define other name type =>
      have hk : other = kind := by
        by_contra hne
        simp [Command.declared?, hne] at hdeclared
      simp [Command.entersSubroutine, hk, hlevel]

/-- Declarations of different kinds can be interleaved in any way. -/
theorem agree_of_rearranged (before : List Command) {definitions rearranged : List Command}
    (hd : Keeping definitions) (hr : Keeping rearranged)
    (h : ∀ kind, definitions.filterMap (·.declared? kind) =
      rearranged.filterMap (·.declared? kind)) :
    (final {} (before ++ definitions)).Agree (final {} (before ++ rearranged)) := by
  refine agree_of_live (fun kind => ?_) ?_
  · rw [live_append before fun command hc => hd command hc kind,
      live_append before fun command hc => hr command hc kind, h]
  · have henters : definitions.any Command.entersSubroutine =
        rearranged.any Command.entersSubroutine := by
      rw [Bool.eq_iff_iff, any_entersSubroutine_iff hd, any_entersSubroutine_iff hr]
      simp only [h]
    rw [final_append, final_append, inSubroutine_final_of_keeping _ hd,
      inSubroutine_final_of_keeping _ hr, henters]

def WithinSubroutine (commands : List Command) : Prop :=
  ∀ command ∈ commands, ∀ kind : Kind, kind.level = .perClass →
    command.discards kind = false ∧ command.declared? kind = none

/-- A subroutine that is over leaves no trace. -/
theorem agree_of_discarded (before : List Command) {discarded : List Command}
    (h : WithinSubroutine discarded) :
    (final {} (before ++ discarded ++ [.startSubroutine])).Agree
      (final {} (before ++ [.startSubroutine])) := by
  refine agree_of_live (fun kind => ?_) ?_
  · rw [live_concat, live_concat]
    cases hlevel : kind.level with
    | perSubroutine => simp [Command.discards, hlevel]
    | perClass =>
      have hkeeps : ∀ command ∈ discarded, command.discards kind = false :=
        fun command hc => (h command hc kind hlevel).1
      have hnone : discarded.filterMap (·.declared? kind) = [] :=
        List.filterMap_eq_nil_iff.mpr fun command hc => (h command hc kind hlevel).2
      rw [live_append before hkeeps, hnone, List.append_nil]
  · rw [final_concat, final_concat]
    rfl

/-- A table is determined by its live declarations. Two rows of commands that leave the
same ones of each kind, and both or neither a subroutine scope, leave tables that
nothing tells apart. So it does not matter how declarations of different kinds were
interleaved, nor what a subroutine that is over has declared. -/
theorem live_determines :
    (∀ first second, (∀ kind, live kind first = live kind second) →
      (final {} first).inSubroutine = (final {} second).inSubroutine →
        Alike (final {} first) (final {} second)) ∧
    (∀ before definitions rearranged, Keeping definitions → Keeping rearranged →
      (∀ kind, definitions.filterMap (·.declared? kind) =
        rearranged.filterMap (·.declared? kind)) →
        Alike (final {} (before ++ definitions)) (final {} (before ++ rearranged))) ∧
    ∀ before discarded, WithinSubroutine discarded →
      Alike (final {} (before ++ discarded ++ [.startSubroutine]))
        (final {} (before ++ [.startSubroutine])) := by
  refine ⟨?_, ?_, ?_⟩
  · intro first second hlive hscope
    exact .of_agree (agree_of_live hlive hscope)
  · intro before definitions rearranged hd hr h
    exact .of_agree (agree_of_rearranged before hd hr h)
  · intro before discarded h
    exact .of_agree (agree_of_discarded before h)

def spent : List Command :=
  [.define .arg "this" "Main", .startSubroutine, .define .var "x" "char"]

def classThenLocals : List Command :=
  [.define .static "x" "int", .define .field "y" "int", .define .var "x" "char",
    .define .arg "x" "Main"]

def mixed : List Command :=
  [.define .arg "x" "Main", .define .static "x" "int", .define .var "x" "char",
    .define .field "y" "int"]

theorem live_determines_spent :
    Alike (final {} (spent ++ .startSubroutine :: mixed))
        (final {} (.startSubroutine :: classThenLocals)) ∧
      Alike (final {} (spent ++ classThenLocals)) (final {} (spent ++ mixed)) ∧
      Alike (final {} (classThenLocals ++ spent ++ [.startSubroutine]))
        (final {} (classThenLocals ++ [.startSubroutine])) := by
  obtain ⟨hlive, hrearranged, hdiscarded⟩ := live_determines
  refine ⟨hlive _ _ ?_ rfl, hrearranged spent _ _ ?_ ?_ ?_, hdiscarded classThenLocals spent ?_⟩
  · intro kind
    cases kind <;> rfl
  · simp [Keeping, classThenLocals, Command.discards]
  · simp [Keeping, mixed, Command.discards]
  · intro kind
    cases kind <;> rfl
  · intro command hc kind hlevel
    simp only [spent, List.mem_cons, List.not_mem_nil, or_false] at hc
    cases kind with
    | arg | var => cases hlevel
    | static | field => rcases hc with rfl | rfl | rfl <;> exact ⟨rfl, rfl⟩

end Session

end JackScopes
