import JackScopes.Proofs.History

/-!
# What definitions overtake

Definitions add entries to a table and move none. So a lookup gives what it gave, unless
a definition has put the name under a kind that is looked through before the kind of the
old answer. Then the first entry that was made there answers. `overtakes_lookup` says so
for any order of kinds, and `definitions_refine` for the two orders of a table.
-/

namespace JackScopes

structure Definition where
  kind : Kind
  name : String
  type : String
  deriving DecidableEq

def Definition.command (definition : Definition) : Command :=
  .define definition.kind definition.name definition.type

def Table.defineAll (table : Table) (definitions : List Definition) : Table :=
  Session.final table (definitions.map Definition.command)

def Kind.ahead (order : List Kind) : Option Entry → List Kind
  | some entry => order.takeWhile (· ≠ entry.kind)
  | none => order

/-- What a name means after some definitions, where it had an old meaning before. -/
inductive Overtakes (order : List Kind) (table : Table) (definitions : List Definition)
    (name : String) (old : Option Entry) : Option Entry → Prop
  | kept :
      (∀ kind ∈ Kind.ahead order old, ∀ type, ⟨kind, name, type⟩ ∉ definitions) →
      Overtakes order table definitions name old old
  | overtaken {nearer farther : List Kind} {kind : Kind} {before after : List Definition}
      {type : String} {entry : Entry} :
      Kind.ahead order old = nearer ++ kind :: farther →
      (∀ other ∈ nearer, ∀ type, ⟨other, name, type⟩ ∉ definitions) →
      definitions = before ++ ⟨kind, name, type⟩ :: after →
      (∀ type, ⟨kind, name, type⟩ ∉ before) →
      (table.defineAll (before ++ [⟨kind, name, type⟩])).entries kind =
        (table.defineAll before).entries kind ++ [entry] →
      Overtakes order table definitions name old (some entry)

namespace Table

variable {table : Table}

-- ---------------------------------------------------------------------------
-- One definition
-- ---------------------------------------------------------------------------

theorem Indexed.find?_define (h : table.Indexed) (definition : Definition) (kind : Kind)
    (name : String) :
    ((definition.command.apply table).category kind).find? name =
      ((table.category kind).find? name).or
        (if kind = definition.kind ∧ definition.name = name then
          some ⟨definition.name, definition.type, definition.kind, table.count definition.kind⟩
        else none) := by
  have hentries := table.entries_define definition.kind kind definition.name definition.type
  have hindexed := h.define definition.kind definition.name definition.type kind
  unfold entries at hentries
  simp only [Definition.command, Command.apply]
  rw [hindexed.find?_eq, (h kind).find?_eq, hentries, List.find?_append]
  by_cases hk : kind = definition.kind <;> by_cases hn : definition.name = name <;> simp [hk, hn]

-- ---------------------------------------------------------------------------
-- Rows of definitions
-- ---------------------------------------------------------------------------

theorem defineAll_concat (table : Table) (definitions : List Definition)
    (definition : Definition) :
    table.defineAll (definitions ++ [definition]) =
      definition.command.apply (table.defineAll definitions) := by
  rw [defineAll, List.map_append]
  exact Session.final_concat ..

theorem Indexed.defineAll (h : table.Indexed) (definitions : List Definition) :
    (table.defineAll definitions).Indexed :=
  Session.indexed_final h _

theorem entries_prefix_defineAll (table : Table) (definitions : List Definition) (kind : Kind) :
    table.entries kind <+: (table.defineAll definitions).entries kind := by
  induction definitions using List.reverseRecOn with
  | nil => exact List.prefix_rfl
  | append_singleton definitions definition ih =>
    rw [defineAll_concat, Definition.command, Command.apply, entries_define]
    exact ih.trans (List.prefix_append ..)

theorem Indexed.find?_defineAll_of_some (h : table.Indexed) {kind : Kind} {name : String}
    {entry : Entry} (hfind : (table.category kind).find? name = some entry)
    (definitions : List Definition) :
    ((table.defineAll definitions).category kind).find? name = some entry := by
  induction definitions using List.reverseRecOn with
  | nil => exact hfind
  | append_singleton definitions definition ih =>
    rw [defineAll_concat, (h.defineAll definitions).find?_define, ih, Option.some_or]

theorem Indexed.find?_defineAll_eq_none_iff (h : table.Indexed) {kind : Kind} {name : String}
    {definitions : List Definition} :
    ((table.defineAll definitions).category kind).find? name = none ↔
      (table.category kind).find? name = none ∧ ∀ type, ⟨kind, name, type⟩ ∉ definitions := by
  induction definitions using List.reverseRecOn with
  | nil => simp [Table.defineAll, Session.final]
  | append_singleton definitions definition ih =>
    rw [defineAll_concat, (h.defineAll definitions).find?_define, Option.or_eq_none_iff, ih]
    obtain ⟨other, defined, type⟩ := definition
    simp only [ite_eq_right_iff, reduceCtorEq, imp_false, List.mem_append, List.mem_singleton,
      Definition.mk.injEq, not_or, not_and]
    constructor
    · rintro ⟨⟨hnone, hbefore⟩, hnew⟩
      exact ⟨hnone, fun type' => ⟨hbefore type', fun hk hn => absurd hn.symm (hnew hk)⟩⟩
    · rintro ⟨hnone, hall⟩
      refine ⟨⟨hnone, fun type' => (hall type').1⟩, fun hk hn => ?_⟩
      exact (hall type).2 hk hn.symm rfl

/-- What answers for a name that was not there is the entry of the first definition. -/
theorem Indexed.exists_first_definition (h : table.Indexed) {kind : Kind} {name : String}
    {entry : Entry} {definitions : List Definition}
    (hold : (table.category kind).find? name = none)
    (hnew : ((table.defineAll definitions).category kind).find? name = some entry) :
    ∃ before type after, definitions = before ++ ⟨kind, name, type⟩ :: after ∧
      (∀ type, ⟨kind, name, type⟩ ∉ before) ∧
      (table.defineAll (before ++ [⟨kind, name, type⟩])).entries kind =
        (table.defineAll before).entries kind ++ [entry] := by
  induction definitions using List.reverseRecOn with
  | nil => cases hold.symm.trans hnew
  | append_singleton definitions definition ih =>
    rw [defineAll_concat, (h.defineAll definitions).find?_define, Option.or_eq_some_iff] at hnew
    rcases hnew with hbefore | ⟨hnone, hlast⟩
    · obtain ⟨before, type, after, rfl, hfirst, hentry⟩ := ih hbefore
      exact ⟨before, type, after ++ [definition], by simp, hfirst, hentry⟩
    · obtain ⟨other, defined, type⟩ := definition
      simp only [Option.ite_none_right_eq_some, Option.some.injEq] at hlast
      obtain ⟨⟨rfl, rfl⟩, rfl⟩ := hlast
      refine ⟨definitions, type, [], rfl, (h.find?_defineAll_eq_none_iff.mp hnone).2, ?_⟩
      rw [defineAll_concat, Definition.command, Command.apply, entries_define, if_pos rfl]

-- ---------------------------------------------------------------------------
-- Lookups through several kinds
-- ---------------------------------------------------------------------------

/-- The kinds ahead have nothing of the name. Behind them the old answer is found, before
and after the definitions. -/
theorem Indexed.exists_behind (h : table.Indexed) (order : List Kind) (name : String)
    (definitions : List Definition) :
    ∃ behind, order = Kind.ahead order (table.lookup order name) ++ behind ∧
      (∀ kind ∈ Kind.ahead order (table.lookup order name),
        (table.category kind).find? name = none) ∧
      (table.defineAll definitions).lookup behind name = table.lookup order name := by
  cases hold : table.lookup order name with
  | none =>
    refine ⟨[], by simp [Kind.ahead], ?_, rfl⟩
    simpa [Kind.ahead, lookup] using hold
  | some entry =>
    obtain ⟨nearer, kind, farther, horder, hfind, hnearer⟩ := List.findSome?_eq_some_iff.mp hold
    have hkind : entry.kind = kind := by
      rw [(h kind).find?_eq] at hfind
      exact h.kind_of_mem (List.mem_of_find?_eq_some hfind)
    have hne : ∀ other ∈ nearer, decide (other ≠ entry.kind) = true := by
      intro other ho
      rw [decide_eq_true_iff, hkind]
      rintro rfl
      cases hfind.symm.trans (hnearer other ho)
    have hahead : Kind.ahead order (some entry) = nearer := by
      rw [Kind.ahead, horder, List.takeWhile_append_of_pos hne]
      simp [hkind]
    rw [hahead]
    refine ⟨kind :: farther, horder, hnearer, ?_⟩
    rw [lookup, List.findSome?_cons, h.find?_defineAll_of_some hfind]

theorem Indexed.overtakes_lookup (h : table.Indexed) (order : List Kind)
    (definitions : List Definition) (name : String) :
    Overtakes order table definitions name (table.lookup order name)
      ((table.defineAll definitions).lookup order name) := by
  obtain ⟨behind, horder, hahead, hbehind⟩ := h.exists_behind order name definitions
  have hlookup : (table.defineAll definitions).lookup order name =
      ((table.defineAll definitions).lookup (Kind.ahead order (table.lookup order name)) name).or
        (table.lookup order name) := by
    conv => lhs; rw [horder, lookup, List.findSome?_append]
    exact congrArg (Option.or _) hbehind
  rw [hlookup]
  cases hnew : (table.defineAll definitions).lookup
      (Kind.ahead order (table.lookup order name)) name with
  | none =>
    rw [Option.none_or]
    refine .kept fun kind hk => ?_
    have hnone := List.findSome?_eq_none_iff.mp hnew kind hk
    exact (h.find?_defineAll_eq_none_iff.mp hnone).2
  | some entry =>
    rw [Option.some_or]
    obtain ⟨nearer, kind, farther, hsplit, hfind, hnearer⟩ := List.findSome?_eq_some_iff.mp hnew
    have hold : (table.category kind).find? name = none := hahead kind (by simp [hsplit])
    obtain ⟨before, type, after, hdefinitions, hfirst, hentry⟩ :=
      h.exists_first_definition hold hfind
    refine .overtaken hsplit (fun other ho => ?_) hdefinitions hfirst hentry
    exact (h.find?_defineAll_eq_none_iff.mp (hnearer other ho)).2

end Table

theorem Overtakes.eq_of_undefined {order : List Kind} {table : Table}
    {definitions : List Definition} {name : String} {old new : Option Entry}
    (h : Overtakes order table definitions name old new)
    (hname : ∀ definition ∈ definitions, definition.name ≠ name) : new = old := by
  cases h with
  | kept => rfl
  | @overtaken _ _ kind before after type _ _ _ hdefinitions =>
    have hmem : ⟨kind, name, type⟩ ∈ definitions := by simp [hdefinitions]
    exact absurd rfl (hname _ hmem)

namespace Session

/-- Definitions refine the answers of a table. Its entries stay where they are. A name
that none of them defines keeps all its answers. Any name keeps its meaning, and its
type, unless a definition puts it under a kind that is looked through before. -/
theorem definitions_refine (commands : List Command) (definitions : List Definition) :
    let table := final {} commands
    let next := table.defineAll definitions
    (∀ (kind : Kind) (i : Nat) (entry : Entry), (table.entries kind)[i]? = some entry →
      (next.entries kind)[i]? = some entry) ∧
      (∀ name, (∀ definition ∈ definitions, definition.name ≠ name) →
        next.resolve name = table.resolve name ∧ next.kindOf name = table.kindOf name ∧
          next.indexOf name = table.indexOf name ∧ next.storageOf name = table.storageOf name ∧
          next.typeOf name = table.typeOf name) ∧
      ∀ name,
        Overtakes [.arg, .var, .static, .field] table definitions name (table.resolve name)
          (next.resolve name) ∧
        ∃ typed,
          Overtakes [.static, .field, .arg, .var] table definitions name
            (table.lookup [.static, .field, .arg, .var] name) typed ∧
          next.typeOf name = typed.map Entry.type := by
  intro table next
  have indexed : table.Indexed := indexed_final .fresh commands
  have hmeant (name : String) := indexed.overtakes_lookup Kind.resolveOrder definitions name
  have htyped (name : String) := indexed.overtakes_lookup Kind.typeOrder definitions name
  refine ⟨?_, ?_, fun name => ⟨hmeant name, _, htyped name, rfl⟩⟩
  · intro kind i entry hi
    obtain ⟨added, hadded⟩ := table.entries_prefix_defineAll definitions kind
    obtain ⟨hlt, -⟩ := List.getElem?_eq_some_iff.mp hi
    rw [← hadded, List.getElem?_append_left hlt, hi]
  · intro name hname
    have hresolve : next.resolve name = table.resolve name :=
      (hmeant name).eq_of_undefined hname
    have hlookup : next.lookup Kind.typeOrder name = table.lookup Kind.typeOrder name :=
      (htyped name).eq_of_undefined hname
    refine ⟨hresolve, ?_, ?_, ?_, ?_⟩
    · rw [Table.kindOf, hresolve, Table.kindOf]
    · rw [Table.indexOf, hresolve, Table.indexOf]
    · rw [Table.storageOf, hresolve, Table.storageOf]
    · rw [Table.typeOf, hlookup, Table.typeOf]

end Session

end JackScopes
