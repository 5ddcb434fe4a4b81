import JackScopes.Json.Mismatch
import JackScopes.Proofs.Json.Literal
import Mathlib.Data.List.DropRight

/-!
# Tokens of JSON

The tokens that settings are written with, and what readers make of them. Blanks may
stand before each token. A reader that succeeds has read exactly the tokens it wants,
from its cursor to a later one.
-/

namespace JackScopes.Json

open Quoted (Literal)

def Blanks (cs : List Char) : Prop :=
  ∀ c ∈ cs, Reader.isBlank c = true

inductive Token
  | openBrace
  | closeBrace
  | openBracket
  | closeBracket
  | colon
  | comma
  | null
  | string (s : String)
  deriving DecidableEq

namespace Token

/-- The letters of a token that can be written in one way only. -/
def letters? : Token → Option (List Char)
  | openBrace => some ['\x7b']
  | closeBrace => some ['\x7d']
  | openBracket => some ['[']
  | closeBracket => some [']']
  | colon => some [':']
  | comma => some [',']
  | null => some ['n', 'u', 'l', 'l']
  | string _ => none

def first : Token → Char
  | openBrace => '\x7b'
  | closeBrace => '\x7d'
  | openBracket => '['
  | closeBracket => ']'
  | colon => ':'
  | comma => ','
  | null => 'n'
  | string _ => '"'

inductive Written : Token → List Char → Prop
  | letters {token : Token} {cs : List Char} : token.letters? = some cs → Written token cs
  | string {s : String} {cs : List Char} :
      Literal s.toList cs → Written (.string s) ('"' :: (cs ++ ['"']))

theorem Written.exists_first {token : Token} {cs : List Char} (h : token.Written cs) :
    ∃ rest, cs = token.first :: rest := by
  cases h with
  | letters h => cases token <;> cases h <;> exact ⟨_, rfl⟩
  | string _ => exact ⟨_, rfl⟩

theorem isBlank_first (token : Token) : Reader.isBlank token.first = false := by
  cases token <;> rfl

end Token

/-- Tokens as they can be written, each behind any blanks. -/
inductive Spelled : List Token → List Char → Prop
  | nil : Spelled [] []
  | cons {token : Token} {tokens : List Token} {left cs rest : List Char} :
      Blanks left → token.Written cs → Spelled tokens rest →
      Spelled (token :: tokens) (left ++ cs ++ rest)

namespace Cursor

def Spells (cursor : Cursor) (tokens : List Token) (after : Cursor) : Prop :=
  ∃ taken, Spelled tokens taken ∧ cursor.Reaches taken after

def pastBlanks (cursor : Cursor) : Cursor :=
  cursor.skipWhile Reader.isBlank

/-- A character stands behind any blanks, and then comes the other cursor. -/
def Takes (cursor : Cursor) (c : Char) (after : Cursor) : Prop :=
  cursor.pastBlanks.next? = some c ∧ after = cursor.pastBlanks.advance

-- ---------------------------------------------------------------------------
-- Texts between cursors
-- ---------------------------------------------------------------------------

variable {cursor after : Cursor}

@[simp] theorem reaches_nil : cursor.Reaches [] after ↔ after = cursor := by
  constructor
  · rintro ⟨hrest, hposition⟩
    cases cursor
    cases after
    simp_all [Text.utf8Size]
  · rintro rfl
    exact ⟨rfl, rfl⟩

theorem reaches_append {cs ds : List Char} :
    cursor.Reaches (cs ++ ds) after ↔ ∃ mid, cursor.Reaches cs mid ∧ mid.Reaches ds after := by
  constructor
  · rintro ⟨hrest, hposition⟩
    refine ⟨⟨cursor.position + Text.utf8Size cs, ds ++ after.rest⟩, ⟨?_, rfl⟩, rfl, ?_⟩
    · rw [hrest, List.append_assoc]
    · rw [hposition, Text.utf8Size_append, Nat.add_assoc]
  · rintro ⟨mid, ⟨hcs, hmid⟩, hds, hafter⟩
    refine ⟨?_, ?_⟩
    · rw [hcs, hds, List.append_assoc]
    · rw [hafter, hmid, Text.utf8Size_append, Nat.add_assoc]

theorem reaches_singleton {c : Char} :
    cursor.Reaches [c] after ↔ cursor.next? = some c ∧ after = cursor.advance := by
  constructor
  · rintro ⟨hrest, hposition⟩
    cases after
    simp_all [next?, advance, Text.utf8Size]
  · rintro ⟨hnext, rfl⟩
    obtain ⟨rest, hrest⟩ := List.head?_eq_some_iff.mp hnext
    exact ⟨by simp [advance, hrest], by simp [advance, hrest, Text.utf8Size]⟩

theorem reaches_pastBlanks (cursor : Cursor) :
    cursor.Reaches (cursor.takeWhile Reader.isBlank) cursor.pastBlanks :=
  ⟨(cursor.takeWhile_append_rest _).symm, rfl⟩

theorem blanks_takeWhile (cursor : Cursor) : Blanks (cursor.takeWhile Reader.isBlank) :=
  fun _ hc => List.mem_takeWhile_imp hc

/-- Blanks are all the blanks unless one more stands behind them. -/
theorem pastBlanks_of_reaches {left : List Char} (hl : Blanks left)
    (h : cursor.Reaches left after) (hstop : ∀ c ∈ after.next?, Reader.isBlank c = false) :
    cursor.pastBlanks = after := by
  obtain ⟨hrest, hposition⟩ := h
  have hnone : after.rest.takeWhile Reader.isBlank = [] := by
    cases hr : after.rest with
    | nil => rfl
    | cons c rest => simp [hstop c (by simp [next?, hr])]
  have hdrop : after.rest.dropWhile Reader.isBlank = after.rest := by
    have hsplit := List.takeWhile_append_dropWhile (p := Reader.isBlank) (l := after.rest)
    rwa [hnone] at hsplit
  simp only [pastBlanks, skipWhile, takeWhile, hrest, List.takeWhile_append_of_pos hl,
    List.dropWhile_append_of_pos hl, hnone, hdrop, List.append_nil, ← hposition]

theorem takes_iff {c : Char} (hc : Reader.isBlank c = false) :
    cursor.Takes c after ↔ ∃ left, Blanks left ∧ cursor.Reaches (left ++ [c]) after := by
  constructor
  · rintro ⟨hnext, rfl⟩
    exact ⟨_, cursor.blanks_takeWhile,
      reaches_append.mpr ⟨_, cursor.reaches_pastBlanks, reaches_singleton.mpr ⟨hnext, rfl⟩⟩⟩
  · rintro ⟨left, hl, h⟩
    obtain ⟨mid, hleft, hmark⟩ := reaches_append.mp h
    obtain ⟨hnext, hafter⟩ := reaches_singleton.mp hmark
    have hmid : cursor.pastBlanks = mid := by
      refine pastBlanks_of_reaches hl hleft fun d hd => ?_
      rw [hnext, Option.mem_some_iff] at hd
      exact hd ▸ hc
    exact ⟨hmid ▸ hnext, hmid ▸ hafter⟩

-- ---------------------------------------------------------------------------
-- Tokens between cursors
-- ---------------------------------------------------------------------------

@[simp] theorem spells_nil : cursor.Spells [] after ↔ after = cursor := by
  rw [← reaches_nil]
  constructor
  · rintro ⟨_, _ | _, h⟩
    exact h
  · exact fun h => ⟨[], .nil, h⟩

theorem spells_singleton {token : Token} :
    cursor.Spells [token] after ↔
      ∃ left cs, Blanks left ∧ token.Written cs ∧ cursor.Reaches (left ++ cs) after := by
  constructor
  · rintro ⟨_, _ | ⟨hl, hcs, _ | _⟩, h⟩
    exact ⟨_, _, hl, hcs, by simpa using h⟩
  · rintro ⟨left, cs, hl, hcs, h⟩
    exact ⟨_, .cons hl hcs .nil, by simpa using h⟩

theorem spells_cons {token : Token} {tokens : List Token} :
    cursor.Spells (token :: tokens) after ↔
      ∃ mid, cursor.Spells [token] mid ∧ mid.Spells tokens after := by
  constructor
  · rintro ⟨_, _ | ⟨hl, hcs, hrest⟩, h⟩
    obtain ⟨mid, hfirst, hmid⟩ := reaches_append.mp h
    exact ⟨mid, spells_singleton.mpr ⟨_, _, hl, hcs, hfirst⟩, _, hrest, hmid⟩
  · rintro ⟨mid, hfirst, rest, hrest, hmid⟩
    obtain ⟨left, cs, hl, hcs, h⟩ := spells_singleton.mp hfirst
    exact ⟨_, .cons hl hcs hrest, reaches_append.mpr ⟨mid, h, hmid⟩⟩

theorem spells_append {tokens more : List Token} :
    cursor.Spells (tokens ++ more) after ↔
      ∃ mid, cursor.Spells tokens mid ∧ mid.Spells more after := by
  induction tokens generalizing cursor with
  | nil => simp
  | cons token tokens ih =>
    rw [List.cons_append, spells_cons]
    simp only [ih]
    constructor
    · rintro ⟨first, hfirst, mid, htokens, hmore⟩
      exact ⟨mid, spells_cons.mpr ⟨first, hfirst, htokens⟩, hmore⟩
    · rintro ⟨mid, htokens, hmore⟩
      obtain ⟨first, hfirst, hrest⟩ := spells_cons.mp htokens
      exact ⟨first, hfirst, mid, hrest, hmore⟩

theorem spells_of_form (token : Token) {Form : List Char → Prop}
    (h : ∀ ds, token.Written ds ↔ ∃ cs, Form cs ∧ ds = token.first :: cs) :
    cursor.Spells [token] after ↔
      ∃ mid, cursor.Takes token.first mid ∧ ∃ cs, Form cs ∧ mid.Reaches cs after := by
  simp only [spells_singleton, h, takes_iff token.isBlank_first]
  constructor
  · rintro ⟨left, _, hl, ⟨cs, hcs, rfl⟩, h⟩
    rw [List.append_cons] at h
    obtain ⟨mid, hfirst, hrest⟩ := reaches_append.mp h
    exact ⟨mid, ⟨left, hl, hfirst⟩, cs, hcs, hrest⟩
  · rintro ⟨mid, ⟨left, hl, hfirst⟩, cs, hcs, hrest⟩
    refine ⟨left, _, hl, ⟨cs, hcs, rfl⟩, ?_⟩
    rw [List.append_cons]
    exact reaches_append.mpr ⟨mid, hfirst, hrest⟩

theorem spells_letters (token : Token) {cs : List Char}
    (h : token.letters? = some (token.first :: cs)) :
    cursor.Spells [token] after ↔
      ∃ mid, cursor.Takes token.first mid ∧ mid.Reaches cs after := by
  have hwritten (ds : List Char) :
      token.Written ds ↔ ∃ rest, rest = cs ∧ ds = token.first :: rest := by
    constructor
    · intro hds
      cases hds with
      | letters hds => exact ⟨cs, rfl, Option.some.inj (hds.symm.trans h)⟩
      | string _ => cases h
    · rintro ⟨_, rfl, rfl⟩
      exact .letters h
  simpa using spells_of_form token hwritten

theorem spells_mark (token : Token) (h : token.letters? = some [token.first]) :
    cursor.Spells [token] after ↔ cursor.Takes token.first after := by
  simp [spells_letters token h]

theorem spells_string (s : String) :
    cursor.Spells [.string s] after ↔
      ∃ mid, cursor.Takes '"' mid ∧ Reader.stringBody mid = .ok (s, after) := by
  have hwritten (ds : List Char) : (Token.string s).Written ds ↔
      ∃ cs, (∃ inner, Literal s.toList inner ∧ cs = inner ++ ['"']) ∧ ds = '"' :: cs := by
    constructor
    · intro hds
      cases hds with
      | letters hds => cases hds
      | string hinner => exact ⟨_, ⟨_, hinner, rfl⟩, rfl⟩
    · rintro ⟨_, ⟨inner, hinner, rfl⟩, rfl⟩
      exact .string hinner
  simp only [spells_of_form (.string s) hwritten, Reader.stringBody_ok]
  refine exists_congr fun mid => and_congr_right fun _ => ?_
  constructor
  · rintro ⟨_, ⟨inner, hinner, rfl⟩, h⟩
    exact ⟨inner, hinner, h⟩
  · rintro ⟨inner, hinner, h⟩
    exact ⟨_, ⟨inner, hinner, rfl⟩, h⟩

theorem Spells.first {token : Token} {tokens : List Token}
    (h : cursor.Spells (token :: tokens) after) :
    cursor.pastBlanks.next? = some token.first ∧
      cursor.pastBlanks.Spells (token :: tokens) after := by
  obtain ⟨mid, hfirst, hrest⟩ := spells_cons.mp h
  obtain ⟨left, cs, hl, hcs, hreach⟩ := spells_singleton.mp hfirst
  obtain ⟨start, hleft, htoken⟩ := reaches_append.mp hreach
  obtain ⟨letters, rfl⟩ := hcs.exists_first
  have hnext : start.next? = some token.first := by
    rw [next?, htoken.rest]
    rfl
  have hstart : cursor.pastBlanks = start := by
    refine pastBlanks_of_reaches hl hleft fun c hc => ?_
    rw [hnext, Option.mem_some_iff] at hc
    exact hc ▸ token.isBlank_first
  rw [hstart]
  exact ⟨hnext, spells_cons.mpr
    ⟨mid, spells_singleton.mpr ⟨[], _, by simp [Blanks], hcs, htoken⟩, hrest⟩⟩

theorem spells_pastBlanks {token : Token} {tokens : List Token} :
    cursor.pastBlanks.Spells (token :: tokens) after ↔ cursor.Spells (token :: tokens) after := by
  refine ⟨fun h => ?_, fun h => h.first.2⟩
  obtain ⟨mid, hfirst, hrest⟩ := spells_cons.mp h
  obtain ⟨left, cs, hl, hcs, hreach⟩ := spells_singleton.mp hfirst
  have hblanks : Blanks (cursor.takeWhile Reader.isBlank ++ left) := by
    intro c hc
    exact (List.mem_append.mp hc).elim (cursor.blanks_takeWhile c) (hl c)
  have hall : cursor.Reaches (cursor.takeWhile Reader.isBlank ++ left ++ cs) mid := by
    rw [List.append_assoc]
    exact reaches_append.mpr ⟨_, cursor.reaches_pastBlanks, hreach⟩
  exact spells_cons.mpr ⟨mid, spells_singleton.mpr ⟨_, cs, hblanks, hcs, hall⟩, hrest⟩

end Cursor

-- ---------------------------------------------------------------------------
-- Readers
-- ---------------------------------------------------------------------------

namespace Reader

variable {α β : Type} {cursor after : Cursor}

theorem bind_ok {reader : Reader α} {next : α → Reader β} {b : β} :
    (reader >>= next) cursor = .ok (b, after) ↔
      ∃ a mid, reader cursor = .ok (a, mid) ∧ next a mid = .ok (b, after) := by
  change (reader cursor >>= fun found => next found.1 found.2) = _ ↔ _
  rcases reader cursor with misreading | ⟨a, mid⟩ <;> simp [bind, Except.bind]

theorem pure_ok {a b : α} :
    (pure a : Reader α) cursor = .ok (b, after) ↔ b = a ∧ after = cursor := by
  change Except.ok (a, cursor) = _ ↔ _
  simp [eq_comm]

theorem advance_bind (next : Unit → Reader β) (cursor : Cursor) :
    (advance >>= next) cursor = next () cursor.advance := rfl

theorem peek_bind (next : Option Char → Reader β) (cursor : Cursor) :
    (peek >>= next) cursor = next cursor.next? cursor := rfl

theorem peekPastBlanks_bind (next : Option Char → Reader β) (cursor : Cursor) :
    (peekPastBlanks >>= next) cursor = next cursor.pastBlanks.next? cursor.pastBlanks := rfl

/-- A reader that succeeds nowhere. -/
def Fails (reader : Reader α) : Prop :=
  ∀ cursor result, reader cursor ≠ .ok result

@[simp] theorem fails_failAfter (cause : Cause) : Fails (failAfter cause : Reader α) :=
  fun _ _ h => nomatch h

@[simp] theorem fails_failAt (cause : Cause) : Fails (failAt cause : Reader α) :=
  fun _ _ h => nomatch h

theorem Fails.behind {next : α → Reader β} (h : ∀ a, Fails (next a)) (reader : Reader α) :
    Fails (reader >>= next) := by
  rintro cursor ⟨b, after⟩ hok
  obtain ⟨a, mid, -, hnext⟩ := bind_ok.mp hok
  exact h a mid _ hnext

@[simp] theorem fails_mismatch (wanted : String) : Fails (mismatch wanted : Reader α) := by
  have hunexpected (found : Found) : Fails (unexpected found wanted : Reader α) :=
    fails_failAfter _
  refine Fails.behind (fun c => ?_) peek
  split
  · exact .behind (fun _ => .behind (fun _ => hunexpected _) _) _
  · exact .behind (fun _ => .behind (fun _ => hunexpected _) _) _
  · exact .behind (fun _ => .behind (fun _ => hunexpected _) _) _
  · exact .behind (fun _ => .behind (fun _ => hunexpected _) _) _
  · exact .behind (fun _ => .behind (fun _ => hunexpected _) _) _
  · exact hunexpected _
  · exact hunexpected _
  · split
    · exact .behind (fun _ => hunexpected _) _
    · exact fails_failAt _

-- ---------------------------------------------------------------------------
-- Readers of tokens
-- ---------------------------------------------------------------------------

variable {Form Other : α → List Token → Prop}

/-- A reader succeeds where tokens of a form stand, and goes behind them. -/
def Reads (reader : Reader α) (Form : α → List Token → Prop) : Prop :=
  ∀ (cursor : Cursor) (a : α) (after : Cursor), reader cursor = .ok (a, after) ↔
    ∃ tokens, Form a tokens ∧ cursor.Spells tokens after

/-- A reader does so that starts behind the first character of the tokens. -/
def ReadsBehind (mark : Char) (reader : Reader α) (Form : α → List Token → Prop) : Prop :=
  ∀ (cursor : Cursor) (a : α) (after : Cursor),
    (∃ mid, cursor.Takes mark mid ∧ reader mid = .ok (a, after)) ↔
      ∃ tokens, Form a tokens ∧ cursor.Spells tokens after

theorem Reads.of_iff {reader : Reader α} (h : Reads reader Form)
    (hform : ∀ a tokens, Form a tokens ↔ Other a tokens) : Reads reader Other := by
  intro cursor a after
  simp only [h cursor a after, hform]

theorem ReadsBehind.of_iff {mark : Char} {reader : Reader α} (h : ReadsBehind mark reader Form)
    (hform : ∀ a tokens, Form a tokens ↔ Other a tokens) : ReadsBehind mark reader Other := by
  intro cursor a after
  simp only [h cursor a after, hform]

theorem Fails.reads {reader : Reader α} (h : Fails reader) (hform : ∀ a tokens, ¬ Form a tokens) :
    Reads reader Form := by
  intro cursor a after
  simp [h cursor _, hform]

theorem reads_pure (a : α) : Reads (pure a) fun b tokens => b = a ∧ tokens = [] := by
  intro cursor b after
  rw [pure_ok]
  constructor
  · rintro ⟨rfl, rfl⟩
    exact ⟨[], ⟨rfl, rfl⟩, Cursor.spells_nil.mpr rfl⟩
  · rintro ⟨_, ⟨rfl, rfl⟩, h⟩
    exact ⟨rfl, Cursor.spells_nil.mp h⟩

section
variable {reader : Reader α} {next : α → Reader β} {Next : α → β → List Token → Prop}

theorem Reads.bind (h : Reads reader Form) (hnext : ∀ a, Reads (next a) (Next a)) :
    Reads (reader >>= next) fun b tokens =>
      ∃ a first rest, Form a first ∧ Next a b rest ∧ tokens = first ++ rest := by
  intro cursor b after
  rw [bind_ok]
  constructor
  · rintro ⟨a, mid, ha, hb⟩
    obtain ⟨first, hfirst, hmid⟩ := (h _ _ _).mp ha
    obtain ⟨rest, hrest, hafter⟩ := (hnext _ _ _ _).mp hb
    exact ⟨_, ⟨a, first, rest, hfirst, hrest, rfl⟩, Cursor.spells_append.mpr ⟨mid, hmid, hafter⟩⟩
  · rintro ⟨_, ⟨a, first, rest, hfirst, hrest, rfl⟩, hspells⟩
    obtain ⟨mid, hmid, hafter⟩ := Cursor.spells_append.mp hspells
    exact ⟨a, mid, (h _ _ _).mpr ⟨first, hfirst, hmid⟩, (hnext _ _ _ _).mpr ⟨rest, hrest, hafter⟩⟩

/-- What comes next need only be known for what is yielded first. -/
theorem ReadsBehind.bind_of {mark : Char} (h : ReadsBehind mark reader Form)
    (hnext : ∀ a first, Form a first → Reads (next a) (Next a)) :
    ReadsBehind mark (reader >>= next) fun b tokens =>
      ∃ a first rest, Form a first ∧ Next a b rest ∧ tokens = first ++ rest := by
  intro cursor b after
  simp only [bind_ok]
  constructor
  · rintro ⟨start, hstart, a, mid, ha, hb⟩
    obtain ⟨first, hfirst, hmid⟩ := (h _ _ _).mp ⟨start, hstart, ha⟩
    obtain ⟨rest, hrest, hafter⟩ := (hnext a first hfirst _ _ _).mp hb
    exact ⟨_, ⟨a, first, rest, hfirst, hrest, rfl⟩, Cursor.spells_append.mpr ⟨mid, hmid, hafter⟩⟩
  · rintro ⟨_, ⟨a, first, rest, hfirst, hrest, rfl⟩, hspells⟩
    obtain ⟨mid, hmid, hafter⟩ := Cursor.spells_append.mp hspells
    obtain ⟨start, hstart, ha⟩ := (h _ _ _).mpr ⟨first, hfirst, hmid⟩
    exact ⟨start, hstart, a, mid, ha, (hnext a first hfirst _ _ _).mpr ⟨rest, hrest, hafter⟩⟩

theorem ReadsBehind.bind {mark : Char} (h : ReadsBehind mark reader Form)
    (hnext : ∀ a, Reads (next a) (Next a)) :
    ReadsBehind mark (reader >>= next) fun b tokens =>
      ∃ a first rest, Form a first ∧ Next a b rest ∧ tokens = first ++ rest :=
  h.bind_of fun a _ _ => hnext a

/-- A token of one character, and what is read behind it. -/
theorem Reads.behind (h : Reads reader Form) (token : Token)
    (htoken : token.letters? = some [token.first]) :
    ReadsBehind token.first reader fun a tokens =>
      ∃ rest, Form a rest ∧ tokens = token :: rest := by
  intro cursor a after
  constructor
  · rintro ⟨mid, hmid, ha⟩
    obtain ⟨rest, hrest, hafter⟩ := (h _ _ _).mp ha
    exact ⟨_, ⟨rest, hrest, rfl⟩,
      Cursor.spells_cons.mpr ⟨mid, (Cursor.spells_mark token htoken).mpr hmid, hafter⟩⟩
  · rintro ⟨_, ⟨rest, hrest, rfl⟩, hspells⟩
    obtain ⟨mid, hmid, hafter⟩ := Cursor.spells_cons.mp hspells
    exact ⟨mid, (Cursor.spells_mark token htoken).mp hmid, (h _ _ _).mpr ⟨rest, hrest, hafter⟩⟩

def StartsWith (p : Char → Prop) (Form : α → List Token → Prop) : Prop :=
  ∀ a tokens, Form a tokens → ∃ token rest, tokens = token :: rest ∧ p token.first

theorem Reads.starts {p : Char → Prop} (h : Reads reader Form) (hstarts : StartsWith p Form) {a : α}
    (hok : reader cursor = .ok (a, after)) : ∃ c, cursor.pastBlanks.next? = some c ∧ p c := by
  obtain ⟨tokens, hform, hspells⟩ := (h _ _ _).mp hok
  obtain ⟨token, rest, rfl, hp⟩ := hstarts a tokens hform
  exact ⟨_, hspells.first.1, hp⟩

/-- A reader of tokens does not mind whether the blanks before them have been skipped. -/
theorem Reads.pastBlanks {p : Char → Prop} (h : Reads reader Form) (hstarts : StartsWith p Form)
    {a : α} :
    reader cursor.pastBlanks = .ok (a, after) ↔ reader cursor = .ok (a, after) := by
  rw [h, h]
  refine exists_congr fun tokens => and_congr_right fun hform => ?_
  obtain ⟨token, rest, rfl, -⟩ := hstarts a tokens hform
  exact Cursor.spells_pastBlanks

end

section
variable {next : Option Char → Reader α} {left right : Reader α}

/-- A reader that goes on behind each of two characters, and fails at any other. -/
theorem reads_choose (first second : Char) (hne : first ≠ second)
    (hfirst : next (some first) = advance >>= fun _ => left)
    (hsecond : next (some second) = advance >>= fun _ => right)
    (hother : ∀ c, c ≠ some first → c ≠ some second → Fails (next c))
    (hleft : ReadsBehind first left Form) (hright : ReadsBehind second right Other) :
    Reads (peekPastBlanks >>= next) fun a tokens => Form a tokens ∨ Other a tokens := by
  intro cursor a after
  simp only [or_and_right, exists_or, ← hleft cursor a after, ← hright cursor a after,
    peekPastBlanks_bind, Cursor.Takes, and_assoc, exists_and_left, exists_eq_left]
  by_cases h₁ : cursor.pastBlanks.next? = some first
  · simp [h₁, hfirst, advance_bind, hne]
  · by_cases h₂ : cursor.pastBlanks.next? = some second
    · simp [h₂, hsecond, advance_bind, Ne.symm hne]
    · simp [h₁, h₂, hother _ h₁ h₂ _ _]

/-- A reader that goes on behind one character, and fails at any other. -/
theorem reads_expect (first : Char) (hfirst : next (some first) = advance >>= fun _ => left)
    (hother : ∀ c, c ≠ some first → Fails (next c)) (hleft : ReadsBehind first left Form) :
    Reads (peekPastBlanks >>= next) Form := by
  intro cursor a after
  simp only [← hleft cursor a after, peekPastBlanks_bind, Cursor.Takes, and_assoc,
    exists_and_left, exists_eq_left]
  by_cases h : cursor.pastBlanks.next? = some first
  · simp [h, hfirst, advance_bind]
  · simp [h, hother _ h _ _]

/-- A reader that goes on behind one character, and leaves any other to a second reader,
whose tokens start with another. -/
theorem reads_unless (first : Char) (hfirst : next (some first) = advance >>= fun _ => left)
    (hnone : Fails (next none)) (hother : ∀ c, c ≠ first → next (some c) = right)
    (hleft : ReadsBehind first left Form) (hright : Reads right Other)
    (hstarts : StartsWith (· ≠ first) Other) :
    Reads (peekPastBlanks >>= next) fun a tokens => Form a tokens ∨ Other a tokens := by
  intro cursor a after
  simp only [or_and_right, exists_or, ← hleft cursor a after, ← hright cursor a after,
    peekPastBlanks_bind, Cursor.Takes, and_assoc, exists_and_left, exists_eq_left]
  cases hnext : cursor.pastBlanks.next? with
  | none =>
    simp only [hnone _ _, reduceCtorEq, false_and, false_or, false_iff]
    intro hok
    obtain ⟨c, hc, -⟩ := hright.starts hstarts hok
    cases hnext.symm.trans hc
  | some c =>
    by_cases hc : c = first
    · have hno : right cursor ≠ .ok (a, after) := by
        intro hok
        obtain ⟨d, hd, hne⟩ := hright.starts hstarts hok
        exact hne (Option.some.inj (hd.symm.trans hnext) ▸ hc)
      simp [hc, hfirst, advance_bind, hno]
    · rw [hother c hc, hright.pastBlanks hstarts]
      simp [hc]

/-- A reader that looks ahead, and leaves what it does not refuse to a second reader. -/
theorem reads_guarded (hnext : ∀ c, next c = right ∨ Fails (next c)) (hright : Reads right Form)
    (hstarts : StartsWith (fun c => next (some c) = right) Form) :
    Reads (peekPastBlanks >>= next) Form := by
  intro cursor a after
  rw [peekPastBlanks_bind, ← hright cursor a after]
  rcases hnext cursor.pastBlanks.next? with hsame | hfails
  · rw [hsame, hright.pastBlanks hstarts]
  · simp only [hfails _ _, false_iff]
    intro hok
    obtain ⟨c, hc, hsame⟩ := hright.starts hstarts hok
    rw [hc, hsame] at hfails
    exact hfails _ _ hok

end

-- ---------------------------------------------------------------------------
-- Readers of one token
-- ---------------------------------------------------------------------------

theorem letters_ok {ls : List Char} :
    letters ls cursor = .ok ((), after) ↔ cursor.Reaches ls after := by
  induction ls generalizing cursor with
  | nil => rw [letters, pure_ok, Cursor.reaches_nil, eq_self, true_and]
  | cons l ls ih =>
    rw [letters, peek_bind, ← List.singleton_append, Cursor.reaches_append]
    simp only [Cursor.reaches_singleton, and_assoc, exists_and_left, exists_eq_left]
    cases hnext : cursor.next? with
    | none => simp [fails_failAfter _ _ _]
    | some c =>
      by_cases hc : c = l
      · simp [hc, advance_bind, ih]
      · simp [hc, fails_failAt _ _ _]

theorem reads_stringBody :
    ReadsBehind '"' stringBody fun s tokens => tokens = [.string s] := by
  intro cursor s after
  simp [Cursor.spells_string]

theorem reads_string (wanted : String) :
    Reads (string wanted) fun s tokens => tokens = [.string s] :=
  reads_expect '"' rfl (fun c hc => by split <;> simp_all) reads_stringBody

theorem reads_null (wanted : String) : Reads (null wanted) fun _ tokens => tokens = [.null] := by
  refine reads_expect 'n' rfl (fun c hc => by split <;> simp_all) ?_
  rintro cursor ⟨⟩ after
  simp [letters_ok, Cursor.spells_letters .null rfl, Token.first]

theorem reads_colon : Reads colon fun _ tokens => tokens = [.colon] := by
  refine (reads_expect ':' rfl (fun c hc => by split <;> simp_all)
    ((reads_pure ()).behind .colon rfl)).of_iff ?_
  simp

-- ---------------------------------------------------------------------------
-- Whole texts
-- ---------------------------------------------------------------------------

theorem next?_pastBlanks_eq_none : cursor.pastBlanks.next? = none ↔ Blanks cursor.rest := by
  rw [Cursor.next?, List.head?_eq_none_iff]
  exact List.dropWhile_eq_nil_iff

theorem toEnd_ok {a b : α} :
    (peekPastBlanks >>= fun c => match c with
      | none => pure a
      | some _ => failAt .trailingCharacters : Reader α) cursor = .ok (b, after) ↔
      b = a ∧ Blanks cursor.rest ∧ after = cursor.pastBlanks := by
  rw [peekPastBlanks_bind, ← next?_pastBlanks_eq_none]
  cases cursor.pastBlanks.next? with
  | none => simp [pure_ok]
  | some c => simp [fails_failAt _ _ _]

theorem readAll_ok {reader : Reader α} {text : String} {a : α} :
    readAll reader text = .ok a ↔
      ∃ after, reader (.start text) = .ok (a, after) ∧ Blanks after.rest := by
  have hmap : readAll reader text = ((reader >>= fun a => peekPastBlanks >>= fun c => match c with
      | none => pure a
      | some _ => failAt .trailingCharacters) (.start text)).map Prod.fst := rfl
  have hfst {x : Except Misreading (α × Cursor)} :
      x.map Prod.fst = .ok a ↔ ∃ after, x = .ok (a, after) := by
    rcases x with misreading | ⟨b, after⟩ <;> simp [Except.map]
  rw [hmap, hfst]
  constructor
  · rintro ⟨after, h⟩
    obtain ⟨b, mid, hread, hend⟩ := bind_ok.mp h
    obtain ⟨rfl, hblanks, -⟩ := toEnd_ok.mp hend
    exact ⟨mid, hread, hblanks⟩
  · rintro ⟨mid, hread, hblanks⟩
    exact ⟨_, bind_ok.mpr ⟨a, mid, hread, toEnd_ok.mpr ⟨rfl, hblanks, rfl⟩⟩⟩

/-- A text that is read as a whole is spelled tokens with blanks behind them. -/
theorem Reads.readAll_ok {reader : Reader α} (h : Reads reader Form) {text : String} {a : α} :
    readAll reader text = .ok a ↔
      ∃ tokens written right, Form a tokens ∧ Spelled tokens written ∧ Blanks right ∧
        text.toList = written ++ right := by
  rw [Reader.readAll_ok]
  constructor
  · rintro ⟨after, hread, hblanks⟩
    obtain ⟨tokens, hform, written, hwritten, hreach⟩ := (h _ _ _).mp hread
    exact ⟨tokens, written, after.rest, hform, hwritten, hblanks, hreach.rest⟩
  · rintro ⟨tokens, written, right, hform, hwritten, hblanks, htext⟩
    have hreach : (Cursor.start text).Reaches written ⟨0 + Text.utf8Size written, right⟩ :=
      ⟨htext, rfl⟩
    exact ⟨_, (h _ _ _).mpr ⟨tokens, hform, written, hwritten, hreach⟩, hblanks⟩

end Reader

end JackScopes.Json
