import JackScopes.Proofs.Json.Tokens
import JackScopes.Settings.Reading

/-!
# The format of settings

All the ways to write settings: an object of members in any order, or a list of their
values in the fixed one, with any blanks between the tokens. A text is read exactly if
it is written so, and the settings that are read are those it gives, with the defaults
for what it does not give: `ofString_ok_iff_written`.
-/

namespace JackScopes.Settings

open Json (Blanks Reader Spelled Token)
open Json.Reader (Reads ReadsBehind)

inductive Given
  | unknownNames (choice : UnknownNames)
  | logLevel (level : String)
  deriving DecidableEq

namespace Given

def member : Given → Member
  | unknownNames _ => .unknownNames
  | logLevel _ => .logLevel

@[simp] theorem member_unknownNames (choice : UnknownNames) :
    (unknownNames choice).member = .unknownNames := rfl

@[simp] theorem member_logLevel (level : String) : (logLevel level).member = .logLevel := rfl

/-- A value. A choice stands as its name, or as the one key of an object with a null. -/
inductive Value : Given → List Token → Prop
  | name (choice : UnknownNames) : Value (.unknownNames choice) [.string choice.name]
  | object (choice : UnknownNames) : Value (.unknownNames choice)
      [.openBrace, .string choice.name, .colon, .null, .closeBrace]
  | level (level : String) : Value (.logLevel level) [.string level]

inductive Keyed (given : Given) : List Token → Prop
  | intro {value : List Token} :
      given.Value value → Keyed given (.string given.member.name :: .colon :: value)

end Given

def put (settings : Settings) : Given → Settings
  | .unknownNames choice => { settings with unknownNames := choice }
  | .logLevel level => { settings with logLevel := level }

inductive Row (Form : Given → List Token → Prop) : List Given → List Token → Prop
  | nil : Row Form [] []
  | single {given : Given} {tokens : List Token} : Form given tokens → Row Form [given] tokens
  | cons {given other : Given} {more : List Given} {tokens rest : List Token} :
      Form given tokens → Row Form (other :: more) rest →
      Row Form (given :: other :: more) (tokens ++ .comma :: rest)

/-- Settings as they can be written: an object of some of them, in any order, or a list of
the first values. -/
inductive Written (givens : List Given) : List Token → Prop
  | object {tokens : List Token} :
      (givens.map Given.member).Nodup → Row Given.Keyed givens tokens →
      Written givens (.openBrace :: (tokens ++ [.closeBrace]))
  | list {tokens : List Token} :
      givens.map Given.member <+: [.unknownNames, .logLevel] → Row Given.Value givens tokens →
      Written givens (.openBracket :: (tokens ++ [.closeBracket]))

-- ---------------------------------------------------------------------------
-- Values
-- ---------------------------------------------------------------------------

theorem choiceOfString?_eq_some_iff {name : String} {choice : UnknownNames} :
    UnknownNames.ofString? name = some choice ↔ name = choice.name := by
  constructor
  · intro h
    have hname := List.find?_some h
    simpa [eq_comm] using hname
  · rintro rfl
    exact UnknownNames.ofString?_name choice

theorem reads_choice :
    ReadsBehind '"' choice fun choice tokens => tokens = [.string choice.name] := by
  refine (Reader.reads_stringBody.bind fun name => (?_ : Reads _ fun choice tokens =>
    UnknownNames.ofString? name = some choice ∧ tokens = [])).of_iff ?_
  · cases UnknownNames.ofString? name with
    | none => exact Reader.Fails.reads (Reader.fails_failAfter _) (by simp)
    | some found => exact (Reader.reads_pure found).of_iff (by simp [eq_comm])
  · simp [choiceOfString?_eq_some_iff]

theorem reads_choiceObject : Reads choiceObject fun choice tokens =>
    tokens = [.string choice.name, .colon, .null, .closeBrace] := by
  refine (Reader.reads_expect '"' rfl (fun c hc => by split <;> simp_all)
    (reads_choice.bind fun choice => Reader.reads_colon.bind fun _ =>
      (Reader.reads_null "unit").bind fun _ => Reader.reads_expect '\x7d' rfl
        (fun c hc => by split <;> simp_all)
        ((Reader.reads_pure choice).behind .closeBrace rfl))).of_iff ?_
  simp

theorem reads_unknownNamesValue :
    Reads unknownNamesValue fun choice => (Given.unknownNames choice).Value := by
  refine (Reader.reads_choose '"' '\x7b' (by decide) rfl rfl
    (fun c h₁ h₂ => by split <;> simp_all)
    reads_choice (reads_choiceObject.behind .openBrace rfl)).of_iff ?_
  intro choice tokens
  constructor
  · rintro (rfl | ⟨_, rfl, rfl⟩)
    · exact .name choice
    · exact .object choice
  · rintro (_ | _)
    · exact .inl rfl
    · exact .inr ⟨_, rfl, rfl⟩

theorem reads_logLevelValue :
    Reads logLevelValue fun level => (Given.logLevel level).Value := by
  refine (Reader.reads_string _).of_iff fun level tokens => ?_
  constructor
  · rintro rfl
    exact .level level
  · rintro (_ | _)
    rfl

def Draft.put (draft : Draft) : Given → Draft
  | .unknownNames choice => { draft with unknownNames := some choice }
  | .logLevel level => { draft with logLevel := some level }

theorem reads_value (draft : Draft) (member : Member) :
    Reads (value draft member) fun next tokens =>
      ∃ given : Given, given.member = member ∧ given.Value tokens ∧ next = draft.put given := by
  cases member with
  | unknownNames =>
    refine (reads_unknownNamesValue.bind fun choice => Reader.reads_pure _).of_iff ?_
    intro next tokens
    constructor
    · rintro ⟨choice, value, _, hvalue, ⟨rfl, rfl⟩, rfl⟩
      exact ⟨.unknownNames choice, rfl, by simpa using hvalue, rfl⟩
    · rintro ⟨choice | level, hmember, hvalue, rfl⟩
      · exact ⟨choice, tokens, [], hvalue, ⟨rfl, rfl⟩, by simp⟩
      · cases hmember
  | logLevel =>
    refine (reads_logLevelValue.bind fun level => Reader.reads_pure _).of_iff ?_
    intro next tokens
    constructor
    · rintro ⟨level, value, _, hvalue, ⟨rfl, rfl⟩, rfl⟩
      exact ⟨.logLevel level, rfl, by simpa using hvalue, rfl⟩
    · rintro ⟨choice | level, hmember, hvalue, rfl⟩
      · cases hmember
      · exact ⟨level, tokens, [], hvalue, ⟨rfl, rfl⟩, by simp⟩

-- ---------------------------------------------------------------------------
-- Members
-- ---------------------------------------------------------------------------

theorem memberOfString?_eq_some_iff {key : String} {member : Member} :
    Member.ofString? key = some member ↔ key = member.name := by
  constructor
  · intro h
    have hname := List.find?_some h
    simpa [eq_comm] using hname
  · rintro rfl
    cases member <;> decide

theorem fails_refuseKey {α : Type} (cause : Json.Cause) :
    Reader.Fails (refuseKey cause : Reader α) := by
  refine Reader.Fails.behind (fun c => ?_) Reader.peekPastBlanks
  split
  · exact Reader.Fails.behind (fun _ => Reader.fails_failAfter cause) _
  · exact Reader.fails_failAfter cause

theorem reads_member (draft : Draft) :
    ReadsBehind '"' (member draft) fun next tokens => ∃ given : Given,
      given.Keyed tokens ∧ given.member.isIn draft = false ∧ next = draft.put given := by
  refine (Reader.reads_stringBody.bind fun key => (?_ : Reads _ fun next tokens =>
    ∃ given : Given, Member.ofString? key = some given.member ∧
      given.member.isIn draft = false ∧ next = draft.put given ∧
      ∃ value, given.Value value ∧ tokens = .colon :: value)).of_iff ?_
  · cases Member.ofString? key with
    | none => exact (fails_refuseKey _).reads (by simp)
    | some member =>
      dsimp only
      split
      · next hin =>
        refine (fails_refuseKey _).reads ?_
        rintro next tokens ⟨given, hmember, hnot, -⟩
        cases hmember
        simp [hin] at hnot
      · next hin =>
        refine (Reader.reads_colon.bind fun _ => reads_value draft member).of_iff ?_
        intro next tokens
        constructor
        · rintro ⟨_, _, value, rfl, ⟨given, rfl, hvalue, rfl⟩, rfl⟩
          exact ⟨given, rfl, by simpa using hin, rfl, value, hvalue, rfl⟩
        · rintro ⟨given, hmember, -, rfl, value, hvalue, rfl⟩
          cases hmember
          exact ⟨(), _, value, rfl, ⟨given, rfl, hvalue, rfl⟩, rfl⟩
  · intro next tokens
    constructor
    · rintro ⟨key, _, _, rfl, ⟨given, hmember, hnot, rfl, value, hvalue, rfl⟩, rfl⟩
      rw [memberOfString?_eq_some_iff.mp hmember]
      exact ⟨given, .intro hvalue, hnot, rfl⟩
    · rintro ⟨given, ⟨hvalue⟩, hnot, rfl⟩
      exact ⟨_, _, _, rfl, ⟨given, memberOfString?_eq_some_iff.mpr rfl, hnot, rfl, _, hvalue, rfl⟩,
        rfl⟩

-- ---------------------------------------------------------------------------
-- Objects
-- ---------------------------------------------------------------------------

/-- A draft lacks all of some settings, which are of different members. -/
structure Draft.Lacks (draft : Draft) (givens : List Given) : Prop where
  distinct : (givens.map Given.member).Nodup
  absent : ∀ given ∈ givens, given.member.isIn draft = false

def Draft.missing (draft : Draft) : Nat :=
  (Member.all.filter (!·.isIn draft)).length

theorem isIn_put (draft : Draft) (given : Given) (member : Member) :
    member.isIn (draft.put given) = (given.member = member || member.isIn draft) := by
  cases given <;> cases member <;> simp [Draft.put, Member.isIn, Given.member]

theorem missing_put {draft : Draft} {given : Given} (h : given.member.isIn draft = false) :
    (draft.put given).missing + 1 = draft.missing := by
  obtain ⟨choice, level⟩ := draft
  cases given <;> cases choice <;> cases level <;> first | rfl | cases h

theorem lacks_cons {draft : Draft} {given : Given} {givens : List Given} :
    draft.Lacks (given :: givens) ↔
      given.member.isIn draft = false ∧ (draft.put given).Lacks givens := by
  constructor
  · rintro ⟨hdistinct, habsent⟩
    obtain ⟨hnew, hrest⟩ := List.nodup_cons.mp hdistinct
    refine ⟨habsent given List.mem_cons_self, hrest, fun other ho => ?_⟩
    rw [isIn_put, habsent other (List.mem_cons_of_mem _ ho), Bool.or_false, decide_eq_false_iff_not]
    exact fun hsame => hnew (hsame ▸ List.mem_map_of_mem ho)
  · rintro ⟨hnew, hdistinct, habsent⟩
    simp only [isIn_put, Bool.or_eq_false_iff, decide_eq_false_iff_not] at habsent
    refine ⟨List.nodup_cons.mpr ⟨?_, hdistinct⟩, ?_⟩
    · intro hmem
      obtain ⟨other, ho, hsame⟩ := List.mem_map.mp hmem
      exact (habsent other ho).1 hsame.symm
    · rintro other (_ | ⟨_, ho⟩)
      · exact hnew
      · exact (habsent other ho).2

theorem row_singleton {Form : Given → List Token → Prop} {given : Given} {tokens : List Token} :
    Row Form [given] tokens ↔ Form given tokens := by
  refine ⟨?_, .single⟩
  rintro (_ | h)
  exact h

theorem row_cons {Form : Given → List Token → Prop} {given other : Given} {more : List Given}
    {tokens : List Token} :
    Row Form (given :: other :: more) tokens ↔
      ∃ first rest, Form given first ∧ Row Form (other :: more) rest ∧
        tokens = first ++ .comma :: rest := by
  constructor
  · rintro (_ | _ | ⟨hfirst, hrest⟩)
    exact ⟨_, _, hfirst, hrest, rfl⟩
  · rintro ⟨first, rest, hfirst, hrest, rfl⟩
    exact .cons hfirst hrest

@[simp] theorem lacks_nil (draft : Draft) : draft.Lacks [] :=
  ⟨List.nodup_nil, by simp⟩

/-- The members of an object from one of them on, up to the brace that closes it. -/
def MembersFrom (draft next : Draft) (tokens : List Token) : Prop :=
  ∃ (given : Given) (more : List Given) (row : List Token),
    Row Given.Keyed (given :: more) row ∧ draft.Lacks (given :: more) ∧
      next = (given :: more).foldl Draft.put draft ∧ tokens = row ++ [.closeBrace]

theorem membersFrom_iff {draft next : Draft} {tokens : List Token} :
    MembersFrom draft next tokens ↔
      ∃ (given : Given) (first rest : List Token), given.Keyed first ∧
        given.member.isIn draft = false ∧ tokens = first ++ rest ∧
          (next = draft.put given ∧ rest = [.closeBrace] ∨
            ∃ more, MembersFrom (draft.put given) next more ∧ rest = .comma :: more) := by
  constructor
  · rintro ⟨given, more, row, hrow, hlacks, rfl, rfl⟩
    obtain ⟨hnew, hrest⟩ := lacks_cons.mp hlacks
    cases more with
    | nil => exact ⟨given, row, _, row_singleton.mp hrow, hnew, rfl, .inl ⟨rfl, rfl⟩⟩
    | cons other more =>
      obtain ⟨first, rest, hfirst, hmore, rfl⟩ := row_cons.mp hrow
      exact ⟨given, first, _, hfirst, hnew, by simp,
        .inr ⟨_, ⟨other, more, rest, hmore, hrest, rfl, rfl⟩, rfl⟩⟩
  · rintro ⟨given, first, _, hfirst, hnew, rfl, ⟨rfl, rfl⟩ | ⟨_, hmore, rfl⟩⟩
    · exact ⟨given, [], first, .single hfirst, lacks_cons.mpr ⟨hnew, lacks_nil _⟩, rfl, rfl⟩
    · obtain ⟨other, more, rest, hrow, hlacks, rfl, rfl⟩ := hmore
      exact ⟨given, other :: more, _, .cons hfirst hrow, lacks_cons.mpr ⟨hnew, hlacks⟩, rfl, by simp⟩

/-- Members are read as long as one is missing, so there is room for all of them. -/
theorem reads_members {draft : Draft} {room : Nat} (h : draft.missing ≤ room) :
    ReadsBehind '"' (members draft room) (MembersFrom draft) := by
  induction room generalizing draft with
  | zero =>
    -- no member is missing, so whatever the key, it is refused
    refine (reads_member draft).of_iff fun next tokens => iff_of_false ?_ ?_
    · rintro ⟨given, -, hnew, -⟩
      have hput := missing_put hnew
      omega
    · intro hmembers
      obtain ⟨given, _, _, -, hnew, -⟩ := membersFrom_iff.mp hmembers
      have hput := missing_put hnew
      omega
  | succ room ih =>
    refine ((reads_member draft).bind_of fun next first hfirst => (?_ : Reads _ fun last tokens =>
      last = next ∧ tokens = [.closeBrace] ∨
        ∃ more, MembersFrom next last more ∧ tokens = .comma :: more)).of_iff ?_
    · obtain ⟨given, -, hnew, rfl⟩ := hfirst
      have hroom : (draft.put given).missing ≤ room := by
        have hput := missing_put hnew
        omega
      refine (Reader.reads_choose '\x7d' ',' (by decide) rfl rfl
        (fun c h₁ h₂ => by split <;> simp_all) ((Reader.reads_pure _).behind .closeBrace rfl)
        ((Reader.reads_expect '"' rfl (fun c hc => by split <;> simp_all)
          (ih hroom)).behind .comma rfl)).of_iff ?_
      simp
    · intro last tokens
      rw [membersFrom_iff]
      constructor
      · rintro ⟨_, first, rest, ⟨given, hfirst, hnew, rfl⟩, hrest, rfl⟩
        exact ⟨given, first, rest, hfirst, hnew, rfl, hrest⟩
      · rintro ⟨given, first, rest, hfirst, hnew, rfl, hrest⟩
        exact ⟨_, first, rest, ⟨given, hfirst, hnew, rfl⟩, hrest, rfl⟩

theorem reads_object : Reads object fun draft tokens =>
    ∃ givens row, (givens.map Given.member).Nodup ∧ Row Given.Keyed givens row ∧
      draft = givens.foldl Draft.put {} ∧ tokens = row ++ [.closeBrace] := by
  have hfresh : ({} : Draft).missing ≤ Member.all.length := by decide
  refine (Reader.reads_choose '\x7d' '"' (by decide) rfl rfl
    (fun c h₁ h₂ => by split <;> simp_all) ((Reader.reads_pure _).behind .closeBrace rfl)
    (reads_members hfresh)).of_iff ?_
  intro draft tokens
  constructor
  · rintro (⟨_, ⟨rfl, rfl⟩, rfl⟩ | ⟨given, more, row, hrow, hlacks, rfl, rfl⟩)
    · exact ⟨[], [], List.nodup_nil, .nil, rfl, rfl⟩
    · exact ⟨given :: more, row, hlacks.distinct, hrow, rfl, rfl⟩
  · rintro ⟨givens, row, hdistinct, hrow, rfl, rfl⟩
    cases givens with
    | nil =>
      obtain _ | _ := hrow
      exact .inl ⟨[], ⟨rfl, rfl⟩, rfl⟩
    | cons given more =>
      have habsent : ∀ other ∈ given :: more, other.member.isIn {} = false := by
        rintro (_ | _) - <;> rfl
      exact .inr ⟨given, more, row, hrow, ⟨hdistinct, habsent⟩, rfl, rfl⟩

-- ---------------------------------------------------------------------------
-- Lists
-- ---------------------------------------------------------------------------

theorem reads_listEnd : Reads listEnd fun _ tokens => tokens = [.closeBracket] := by
  refine (Reader.reads_expect ']' rfl (fun c hc => ?_)
    ((Reader.reads_pure ()).behind .closeBracket rfl)).of_iff (by simp)
  split
  · exact Reader.fails_failAt _
  · exact absurd rfl hc
  · exact .behind (fun _ => .behind (fun c => by split <;> simp) _) _
  · exact Reader.fails_failAt _

theorem reads_lastValue (draft : Draft) :
    Reads (do
      let draft ← value draft .logLevel
      listEnd
      return draft) fun next tokens =>
    ∃ level, next = draft.put (.logLevel level) ∧ tokens = [.string level, .closeBracket] := by
  refine ((reads_value draft .logLevel).bind fun next => reads_listEnd.bind fun _ =>
    Reader.reads_pure next).of_iff fun next tokens => ?_
  constructor
  · rintro ⟨_, _, _, ⟨given, hmember, hvalue, rfl⟩, ⟨_, _, _, rfl, ⟨rfl, rfl⟩, rfl⟩, rfl⟩
    obtain _ | _ | level := hvalue
    · cases hmember
    · cases hmember
    · exact ⟨level, rfl, rfl⟩
  · rintro ⟨level, rfl, rfl⟩
    exact ⟨_, _, _, ⟨.logLevel level, rfl, .level level, rfl⟩, ⟨(), _, _, rfl, ⟨rfl, rfl⟩, rfl⟩, rfl⟩

theorem reads_afterFirst (draft : Draft) : Reads (afterFirst draft) fun next tokens =>
    next = draft ∧ tokens = [.closeBracket] ∨
      ∃ level, next = draft.put (.logLevel level) ∧
        tokens = [.comma, .string level, .closeBracket] := by
  refine (Reader.reads_choose ']' ',' (by decide) rfl rfl (fun c h₁ h₂ => by split <;> simp_all)
    ((Reader.reads_pure draft).behind .closeBracket rfl)
    ((Reader.reads_guarded (fun c => ?_) (reads_lastValue draft) ?_).behind .comma rfl)).of_iff
      (by simp)
  · split
    · exact .inr (Reader.fails_failAt _)
    · exact .inr (Reader.fails_failAt _)
    · exact .inl rfl
  · rintro _ _ ⟨level, rfl, rfl⟩
    exact ⟨_, _, rfl, rfl⟩

theorem reads_list : Reads list fun draft tokens =>
    ∃ givens row, givens.map Given.member <+: [.unknownNames, .logLevel] ∧
      Row Given.Value givens row ∧ draft = givens.foldl Draft.put {} ∧
        tokens = row ++ [.closeBracket] := by
  refine (Reader.reads_unless ']' rfl (Reader.fails_failAt _) (fun c hc => ?_)
    ((Reader.reads_pure {}).behind .closeBracket rfl)
    ((reads_value {} .unknownNames).bind reads_afterFirst) ?_).of_iff fun draft tokens => ?_
  · split
    · next h => cases h
    · next h => exact absurd (Option.some.inj h) hc
    · rfl
  · rintro _ _ ⟨_, _, _, ⟨given, hmember, hvalue, rfl⟩, -, rfl⟩
    cases hvalue <;> exact ⟨_, _, rfl, by simp [Token.first]⟩
  · constructor
    · rintro (⟨_, ⟨rfl, rfl⟩, rfl⟩ | ⟨_, _, _, ⟨given, hmember, hvalue, rfl⟩, hrest, rfl⟩)
      · exact ⟨[], [], List.nil_prefix, .nil, rfl, rfl⟩
      · obtain ⟨rfl, rfl⟩ | ⟨level, rfl, rfl⟩ := hrest
        · exact ⟨[given], _, by simp [hmember], .single hvalue, rfl, rfl⟩
        · exact ⟨[given, .logLevel level], _, by simp [hmember],
            .cons hvalue (.single (.level level)), rfl, by simp⟩
    · rintro ⟨givens, row, hmembers, hrow, rfl, rfl⟩
      rcases givens with _ | ⟨given, _ | ⟨last, _ | ⟨other, more⟩⟩⟩
      · obtain _ | _ := hrow
        exact .inl ⟨[], ⟨rfl, rfl⟩, rfl⟩
      · rw [row_singleton] at hrow
        exact .inr ⟨_, row, _, ⟨given, by simpa using hmembers, hrow, rfl⟩, .inl ⟨rfl, rfl⟩, rfl⟩
      · obtain ⟨first, rest, hfirst, hrest, rfl⟩ := row_cons.mp hrow
        obtain ⟨hgiven, hlast⟩ : given.member = .unknownNames ∧ last.member = .logLevel := by
          simpa using hmembers
        obtain _ | _ | level := row_singleton.mp hrest
        · cases hlast
        · cases hlast
        · exact .inr ⟨_, first, _, ⟨given, hgiven, hfirst, rfl⟩, .inr ⟨level, rfl, rfl⟩, by simp⟩
      · simp at hmembers

theorem reads_root : Reads root fun draft tokens =>
    ∃ givens, Written givens tokens ∧ draft = givens.foldl Draft.put {} := by
  refine (Reader.reads_choose '\x7b' '[' (by decide) rfl rfl
    (fun c h₁ h₂ => by split <;> simp_all) (reads_object.behind .openBrace rfl)
    (reads_list.behind .openBracket rfl)).of_iff ?_
  intro draft tokens
  constructor
  · rintro (⟨_, ⟨givens, row, hdistinct, hrow, rfl, rfl⟩, rfl⟩ |
      ⟨_, ⟨givens, row, hmembers, hrow, rfl, rfl⟩, rfl⟩)
    · exact ⟨givens, .object hdistinct hrow, rfl⟩
    · exact ⟨givens, .list hmembers hrow, rfl⟩
  · rintro ⟨givens, ⟨hdistinct, hrow⟩ | ⟨hmembers, hrow⟩, rfl⟩
    · exact .inl ⟨_, ⟨givens, _, hdistinct, hrow, rfl, rfl⟩, rfl⟩
    · exact .inr ⟨_, ⟨givens, _, hmembers, hrow, rfl, rfl⟩, rfl⟩

-- ---------------------------------------------------------------------------
-- Whole texts
-- ---------------------------------------------------------------------------

theorem settings_put (draft : Draft) (given : Given) :
    (draft.put given).settings = draft.settings.put given := by
  cases given <;> rfl

theorem settings_foldl_put (draft : Draft) (givens : List Given) :
    (givens.foldl Draft.put draft).settings = givens.foldl put draft.settings := by
  induction givens generalizing draft with
  | nil => rfl
  | cons given givens ih => simp [ih, settings_put]

theorem ofString_ok {text : String} {settings : Settings} :
    ofString text = .ok settings ↔
      ∃ draft, root.readAll text = .ok draft ∧ settings = draft.settings := by
  rw [ofString, read]
  cases root.readAll text with
  | error misreading => simp [Except.map]
  | ok draft => simp [Except.map, eq_comm]

/-- A text is read as settings exactly if it is written in their format, and then the
settings are those it gives, over the defaults. -/
theorem ofString_ok_iff_written {text : String} {settings : Settings} :
    ofString text = .ok settings ↔
      ∃ givens tokens written right, Written givens tokens ∧ Spelled tokens written ∧
        Blanks right ∧ text.toList = written ++ right ∧
        settings = givens.foldl put ⟨.aliasField, "info"⟩ := by
  simp only [ofString_ok, reads_root.readAll_ok]
  constructor
  · rintro ⟨_, ⟨tokens, written, right, ⟨givens, hgivens, rfl⟩, hspelled, hright, htext⟩, rfl⟩
    exact ⟨givens, tokens, written, right, hgivens, hspelled, hright, htext,
      settings_foldl_put {} givens⟩
  · rintro ⟨givens, tokens, written, right, hgivens, hspelled, hright, htext, rfl⟩
    exact ⟨_, ⟨tokens, written, right, ⟨givens, hgivens, rfl⟩, hspelled, hright, htext⟩,
      (settings_foldl_put {} givens).symm⟩

/-- A list with its first value alone, with escapes in the choice. -/
example : (ofString " [ \x7b\"\\u0072ej\\u0065ct\" : null\x7d ]\n").toOption =
    some ⟨.reject, "info"⟩ := by decide +kernel

end JackScopes.Settings
