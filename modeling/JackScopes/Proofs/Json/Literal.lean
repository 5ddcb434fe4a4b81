import JackScopes.Json.Quoted
import Mathlib.Data.Nat.Digits.Defs
import Mathlib.Data.List.Forall2
import Mathlib.Tactic.IntervalCases

/-!
# Strings in JSON, as they are written

The texts that can stand between two quotes, and what they stand for. A character is
written as it is, by a short escape, or by its units in UTF-16, so that a half of a pair
is never written on its own. Reading the inside of a string finds exactly these texts:
`stringBody_ok`.
-/

namespace JackScopes.Json

/-- A text stands between two cursors. -/
structure Cursor.Reaches (cursor : Cursor) (taken : List Char) (after : Cursor) : Prop where
  rest : cursor.rest = taken ++ after.rest
  position : after.position = cursor.position + Text.utf8Size taken

namespace Quoted

/-- The units of a character in UTF-16: one, or the two halves of a pair. -/
def units (c : Char) : List Nat :=
  if c.toNat < 0x10000 then [c.toNat]
  else [0xd800 + (c.toNat - 0x10000) / 0x400, 0xdc00 + (c.toNat - 0x10000) % 0x400]

/-- A hexadecimal digit by its value. Letters may be of either case. -/
def HexDigit (value : Nat) (c : Char) : Prop :=
  value < 16 ∧ (c = value.digitChar ∨ c = value.digitChar.toUpper)

instance (value : Nat) (c : Char) : Decidable (HexDigit value c) :=
  inferInstanceAs (Decidable (_ ∧ _))

/-- A number by its four hexadecimal digits, the greatest first. -/
def Hexadecimal (n : Nat) (cs : List Char) : Prop :=
  ∃ values, values.length = 4 ∧ List.Forall₂ HexDigit values cs ∧
    n = Nat.ofDigits 16 values.reverse

def shortEscapes : List (Char × Char) :=
  [('"', '"'), ('\\', '\\'), ('/', '/'), ('b', '\x08'), ('f', '\x0c'), ('n', '\n'), ('r', '\r'),
    ('t', '\t')]

/-- How a character can be written in a string: as it is, by a letter, or by its units. -/
inductive Written (c : Char) : List Char → Prop
  | plain : ' ' ≤ c → c ≠ '"' → c ≠ '\\' → Written c [c]
  | short {letter : Char} : (letter, c) ∈ shortEscapes → Written c ['\\', letter]
  | units {escapes : List (List Char)} : List.Forall₂ Hexadecimal (units c) escapes →
      Written c (escapes.flatMap fun digits => '\\' :: 'u' :: digits)

inductive Literal : List Char → List Char → Prop
  | nil : Literal [] []
  | cons {c : Char} {written cs rest : List Char} :
      Written c written → Literal cs rest → Literal (c :: cs) (written ++ rest)

-- ---------------------------------------------------------------------------
-- Units
-- ---------------------------------------------------------------------------

theorem toNat_valid (c : Char) : c.toNat < 0xd800 ∨ 0xdfff < c.toNat ∧ c.toNat < 0x110000 :=
  c.valid

theorem toNat_ofNat {n : Nat} (h : n < 0xd800 ∨ 0xdfff < n ∧ n < 0x110000) :
    (Char.ofNat n).toNat = n := by
  rw [Char.ofNat, dif_pos h]
  rfl

theorem units_eq_single_iff {c : Char} {n : Nat} :
    units c = [n] ↔
      n < 0x10000 ∧ isFirstHalf n = false ∧ isSecondHalf n = false ∧ Char.ofNat n = c := by
  have hvalid := toNat_valid c
  simp only [units, isFirstHalf, isSecondHalf, Bool.and_eq_false_iff, decide_eq_false_iff_not]
  constructor
  · split
    · simp only [List.cons.injEq, and_true]
      rintro rfl
      exact ⟨by assumption, by omega, by omega, Char.ofNat_toNat c⟩
    · simp
  · rintro ⟨hn, hfirst, hsecond, rfl⟩
    rw [toNat_ofNat (by omega), if_pos hn]

theorem units_eq_pair_iff {c : Char} {n m : Nat} :
    units c = [n, m] ↔ isFirstHalf n = true ∧ isSecondHalf m = true ∧ pairChar n m = c := by
  have hvalid := toNat_valid c
  simp only [units, isFirstHalf, isSecondHalf, Bool.and_eq_true, decide_eq_true_eq, pairChar]
  constructor
  · split
    · simp
    · simp only [List.cons.injEq, and_true]
      rintro ⟨rfl, rfl⟩
      have hsum : 0x10000 + (0xd800 + (c.toNat - 0x10000) / 0x400 - 0xd800) * 0x400 +
          (0xdc00 + (c.toNat - 0x10000) % 0x400 - 0xdc00) = c.toNat := by omega
      rw [hsum]
      exact ⟨by omega, by omega, Char.ofNat_toNat c⟩
  · rintro ⟨hfirst, hsecond, rfl⟩
    rw [toNat_ofNat (by omega), if_neg (by omega)]
    simp only [List.cons.injEq, and_true]
    omega

theorem units_cases (c : Char) : (∃ n, units c = [n]) ∨ ∃ n m, units c = [n, m] := by
  rw [units]
  split
  · exact .inl ⟨_, rfl⟩
  · exact .inr ⟨_, _, rfl⟩

-- ---------------------------------------------------------------------------
-- Hexadecimal digits
-- ---------------------------------------------------------------------------

theorem toNat_lt_of_hexValue? {value : Nat} {c : Char} (h : hexValue? c = some value) :
    c.toNat < 0x67 := by
  rw [hexValue?] at h
  split at h
  · next hd =>
    have hrange : 48 ≤ c.toNat ∧ c.toNat ≤ 57 := by
      simpa [Char.isDigit, UInt32.le_iff_toNat_le] using hd
    omega
  · split at h
    · next hl =>
      simp only [Bool.and_eq_true, decide_eq_true_eq] at hl
      have hlast : c.toNat ≤ 102 := hl.2
      omega
    · split at h
      · next hu =>
        simp only [Bool.and_eq_true, decide_eq_true_eq] at hu
        have hlast : c.toNat ≤ 70 := hu.2
        omega
      · cases h

theorem hexDigit_of_hexValue? {value : Nat} {c : Char} (h : hexValue? c = some value) :
    HexDigit value c := by
  have hall : ∀ k < 0x67, ∀ v ∈ hexValue? (Char.ofNat k), HexDigit v (Char.ofNat k) := by
    decide +kernel
  simpa using hall c.toNat (toNat_lt_of_hexValue? h) value (by simpa using h)

theorem hexDigit_iff {value : Nat} {c : Char} : HexDigit value c ↔ hexValue? c = some value := by
  refine ⟨?_, hexDigit_of_hexValue?⟩
  rintro ⟨hvalue, hc⟩
  interval_cases value <;> rcases hc with rfl | rfl <;> decide

theorem HexDigit.utf8Size {value : Nat} {c : Char} (h : HexDigit value c) : c.utf8Size = 1 := by
  obtain ⟨hvalue, hc⟩ := h
  interval_cases value <;> rcases hc with rfl | rfl <;> decide

theorem hexadecimal_iff {n : Nat} {a b c d : Char} :
    Hexadecimal n [a, b, c, d] ↔ unit? a b c d = some n := by
  simp only [unit?, Option.bind_eq_bind, Option.bind_eq_some_iff, Option.pure_def,
    Option.some.injEq, ← hexDigit_iff]
  constructor
  · rintro ⟨_, -, _ | ⟨ha, _ | ⟨hb, _ | ⟨hc, _ | ⟨hd, _ | _⟩⟩⟩⟩, rfl⟩
    refine ⟨_, ha, _, hb, _, hc, _, hd, ?_⟩
    simp [Nat.ofDigits]
    omega
  · rintro ⟨p, ha, q, hb, r, hc, s, hd, rfl⟩
    refine ⟨[p, q, r, s], rfl, .cons ha (.cons hb (.cons hc (.cons hd .nil))), ?_⟩
    simp [Nat.ofDigits]
    omega

theorem Hexadecimal.lt {n : Nat} {cs : List Char} (h : Hexadecimal n cs) : n < 0x10000 := by
  obtain ⟨_, hlength, hdigits, rfl⟩ := h
  obtain ⟨p, q, r, s, rfl⟩ := List.length_eq_four.mp hlength
  obtain _ | ⟨ha, _ | ⟨hb, _ | ⟨hc, _ | ⟨hd, _ | _⟩⟩⟩⟩ := hdigits
  have hp := ha.1
  have hq := hb.1
  have hr := hc.1
  have hs := hd.1
  simp [Nat.ofDigits]
  omega

theorem Hexadecimal.exists_unit? {n : Nat} {cs : List Char} (h : Hexadecimal n cs) :
    ∃ a b c d, cs = [a, b, c, d] ∧ unit? a b c d = some n := by
  obtain ⟨_, hlength, hdigits, -⟩ := id h
  rw [hdigits.length_eq] at hlength
  obtain ⟨a, b, c, d, rfl⟩ := List.length_eq_four.mp hlength
  exact ⟨a, b, c, d, rfl, hexadecimal_iff.mp h⟩

theorem Hexadecimal.utf8Size_escape {n : Nat} {cs : List Char} (h : Hexadecimal n cs) :
    Text.utf8Size ('\\' :: 'u' :: cs) = 6 := by
  obtain ⟨_, hlength, hdigits, -⟩ := h
  obtain ⟨p, q, r, s, rfl⟩ := List.length_eq_four.mp hlength
  obtain _ | ⟨ha, _ | ⟨hb, _ | ⟨hc, _ | ⟨hd, _ | _⟩⟩⟩⟩ := hdigits
  simp only [Text.utf8Size, ha.utf8Size, hb.utf8Size, hc.utf8Size, hd.utf8Size]
  rfl

theorem shortEscape?_eq_some_iff {letter c : Char} :
    shortEscape? letter = some c ↔ (letter, c) ∈ shortEscapes := by
  constructor
  · intro h
    rw [shortEscape?.eq_def] at h
    split at h <;> cases h <;> decide
  · intro h
    simp [shortEscapes] at h
    rcases h with ⟨rfl, rfl⟩ | ⟨rfl, rfl⟩ | ⟨rfl, rfl⟩ | ⟨rfl, rfl⟩ | ⟨rfl, rfl⟩ | ⟨rfl, rfl⟩ | ⟨rfl, rfl⟩ | ⟨rfl, rfl⟩ <;> rfl

-- ---------------------------------------------------------------------------
-- One character
-- ---------------------------------------------------------------------------

def prepend (c : Char) : List Char × Cursor → List Char × Cursor
  | (decoded, cursor) => (c :: decoded, cursor)

theorem body_plain {c : Char} (hspace : ' ' ≤ c) (hquote : c ≠ '"') (hslash : c ≠ '\\')
    (position : Nat) (cs : List Char) :
    body position (c :: cs) = (body (position + c.utf8Size) cs).map (prepend c) := by
  have hcontrol : ¬ c < ' ' := Char.not_lt.mpr hspace
  rw [body, if_neg hcontrol]
  · rfl
  all_goals simp [hquote, hslash]

theorem body_short {letter c : Char} (h : shortEscape? letter = some c) (position : Nat)
    (cs : List Char) :
    body position ('\\' :: letter :: cs) = (body (position + 2) cs).map (prepend c) := by
  have hu : letter ≠ 'u' := by
    rintro rfl
    cases h
  rw [body, h]
  · rfl
  all_goals simp [hu]

theorem body_unit {a b c d decoded : Char} {n : Nat} (h : unit? a b c d = some n)
    (hc : units decoded = [n]) (position : Nat) (cs : List Char) :
    body position ('\\' :: 'u' :: a :: b :: c :: d :: cs) =
      (body (position + 6) cs).map (prepend decoded) := by
  obtain ⟨-, hfirst, hsecond, rfl⟩ := units_eq_single_iff.mp hc
  simp only [body, h, hfirst, hsecond]
  rfl

theorem body_pair {a b c d e f g h decoded : Char} {n m : Nat} (hn : unit? a b c d = some n)
    (hm : unit? e f g h = some m) (hc : units decoded = [n, m]) (position : Nat)
    (cs : List Char) :
    body position ('\\' :: 'u' :: a :: b :: c :: d :: '\\' :: 'u' :: e :: f :: g :: h :: cs) =
      (body (position + 12) cs).map (prepend decoded) := by
  obtain ⟨hfirst, hsecond, rfl⟩ := units_eq_pair_iff.mp hc
  have hother : isSecondHalf n = false := by
    simp [isFirstHalf] at hfirst
    simp [isSecondHalf]
    omega
  simp only [body, hn, hm, hfirst, hsecond, hother]
  rfl

theorem body_written {c : Char} {written : List Char} (h : Written c written) (position : Nat)
    (cs : List Char) :
    body position (written ++ cs) =
      (body (position + Text.utf8Size written) cs).map (prepend c) := by
  cases h with
  | plain hspace hquote hslash => exact body_plain hspace hquote hslash position cs
  | @short letter hletter =>
    have hsize : Text.utf8Size ['\\', letter] = 2 := by
      have hall : ∀ escape ∈ shortEscapes, Text.utf8Size ['\\', escape.1] = 2 := by decide
      exact hall _ hletter
    rw [hsize]
    exact body_short (shortEscape?_eq_some_iff.mpr hletter) position cs
  | units hunits =>
    rcases units_cases c with ⟨n, hc⟩ | ⟨n, m, hc⟩
    · obtain _ | ⟨hdigits, _ | _⟩ := hc ▸ hunits
      rw [List.flatMap_singleton, hdigits.utf8Size_escape]
      obtain ⟨_, _, _, _, rfl, hn⟩ := hdigits.exists_unit?
      exact body_unit hn hc position cs
    · obtain _ | ⟨hfirst, _ | ⟨hsecond, _ | _⟩⟩ := hc ▸ hunits
      rw [List.flatMap_cons, List.flatMap_singleton, Text.utf8Size_append, hfirst.utf8Size_escape,
        hsecond.utf8Size_escape]
      obtain ⟨_, _, _, _, rfl, hn⟩ := hfirst.exists_unit?
      obtain ⟨_, _, _, _, rfl, hm⟩ := hsecond.exists_unit?
      exact body_pair hn hm hc position cs

theorem body_of_literal {decoded written : List Char} (h : Literal decoded written)
    (position : Nat) (rest : List Char) :
    body position (written ++ '"' :: rest) =
      .ok (decoded, ⟨position + Text.utf8Size written + 1, rest⟩) := by
  induction h generalizing position with
  | nil => simp [body, Text.utf8Size]
  | cons hc _ ih =>
    rw [List.append_assoc, body_written hc, ih, Text.utf8Size_append, Nat.add_assoc position]
    rfl

theorem exists_literal_cons {c : Char} {written cs decoded : List Char} {after : Cursor}
    {x : Except Misreading (List Char × Cursor)} (hc : Written c written)
    (hx : ∀ {decoded : List Char} {after : Cursor}, x = .ok (decoded, after) →
      ∃ rest, Literal decoded rest ∧ cs = rest ++ '"' :: after.rest)
    (h : x.map (prepend c) = .ok (decoded, after)) :
    ∃ rest, Literal decoded rest ∧ written ++ cs = rest ++ '"' :: after.rest := by
  cases x with
  | error misreading => cases h
  | ok found =>
    obtain ⟨more, cursor⟩ := found
    cases h
    obtain ⟨rest, hrest, rfl⟩ := hx rfl
    exact ⟨written ++ rest, .cons hc hrest, by simp⟩

theorem exists_literal {position : Nat} {cs decoded : List Char} {after : Cursor}
    (h : body position cs = .ok (decoded, after)) :
    ∃ written, Literal decoded written ∧ cs = written ++ '"' :: after.rest := by
  fun_induction body position cs generalizing decoded after with
  | case2 position cs =>
    cases h
    exact ⟨[], .nil, rfl⟩
  | case6 position a b c d n hn _ hfirst e f g j cs m hm hsecond ih =>
    -- two halves of a pair
    have hc := units_eq_pair_iff.mpr ⟨hfirst, hsecond, rfl⟩
    have hunits : List.Forall₂ Hexadecimal (units (pairChar n m)) [[a, b, c, d], [e, f, g, j]] :=
      hc ▸ .cons (hexadecimal_iff.mpr hn) (.cons (hexadecimal_iff.mpr hm) .nil)
    exact exists_literal_cons (.units hunits) ih h
  | case9 position a b c d cs n hn hsecond hfirst ih =>
    -- one unit
    have hdigits := hexadecimal_iff.mpr hn
    have hc := units_eq_single_iff.mpr
      ⟨hdigits.lt, Bool.eq_false_iff.mpr hfirst, Bool.eq_false_iff.mpr hsecond, rfl⟩
    have hunits : List.Forall₂ Hexadecimal (units (Char.ofNat n)) [[a, b, c, d]] :=
      hc ▸ .cons hdigits .nil
    exact exists_literal_cons (.units hunits) ih h
  | case12 position letter cs _ _ c hletter ih =>
    exact exists_literal_cons (.short (shortEscape?_eq_some_iff.mp hletter)) ih h
  | case15 position c cs hquote _ _ hslash hend hcontrol ih =>
    have hplain : c ≠ '\\' := by
      rintro rfl
      cases cs with
      | nil => exact hend rfl rfl
      | cons d cs => exact hslash d cs rfl rfl
    exact exists_literal_cons (.plain (Char.not_lt.mp hcontrol) hquote hplain) ih h
  | _ => cases h

theorem body_ok {position : Nat} {cs decoded : List Char} {after : Cursor} :
    body position cs = .ok (decoded, after) ↔
      ∃ written, Literal decoded written ∧
        Cursor.Reaches ⟨position, cs⟩ (written ++ ['"']) after := by
  have hquote : Text.utf8Size ['"'] = 1 := rfl
  constructor
  · intro h
    obtain ⟨place, rest⟩ := after
    obtain ⟨written, hwritten, rfl⟩ := exists_literal h
    rw [body_of_literal hwritten] at h
    cases h
    exact ⟨written, hwritten, by simp, by simp [Text.utf8Size_append, hquote, Nat.add_assoc]⟩
  · rintro ⟨written, hwritten, hrest, hposition⟩
    simp only [List.append_assoc, List.singleton_append] at hrest
    rw [hrest, body_of_literal hwritten, Nat.add_assoc, ← hquote, ← Text.utf8Size_append,
      ← hposition]

/-- A text without quotes, backslashes and control characters can be written as it is. -/
theorem Literal.plain {cs : List Char} (h : ∀ c ∈ cs, ' ' ≤ c ∧ c ≠ '"' ∧ c ≠ '\\') :
    Literal cs cs := by
  induction cs with
  | nil => exact .nil
  | cons c cs ih =>
    obtain ⟨⟨hspace, hquote, hslash⟩, hcs⟩ := List.forall_mem_cons.mp h
    exact .cons (.plain hspace hquote hslash) (ih hcs)

end Quoted

open Quoted (Literal)

/-- The inside of a string is read up to the quote that ends it. -/
theorem Reader.stringBody_ok {cursor after : Cursor} {s : String} :
    Reader.stringBody cursor = .ok (s, after) ↔
      ∃ written, Literal s.toList written ∧ cursor.Reaches (written ++ ['"']) after := by
  have hmap : Reader.stringBody cursor = (Quoted.body cursor.position cursor.rest).map
      fun found => (String.ofList found.1, found.2) := rfl
  rw [hmap, ← Quoted.body_ok]
  cases Quoted.body cursor.position cursor.rest with
  | error misreading => simp [Except.map]
  | ok found =>
    obtain ⟨decoded, behind⟩ := found
    simp only [Except.map, Except.ok.injEq, Prod.mk.injEq]
    constructor
    · rintro ⟨rfl, rfl⟩
      simp
    · rintro ⟨rfl, rfl⟩
      simp

end JackScopes.Json
