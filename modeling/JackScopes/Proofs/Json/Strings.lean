import JackScopes.Proofs.Json.Locality

/-!
# What readers of strings look at

The inside of a string is read one character at a time, each by a reader that looks at
the escapes it takes and at nothing behind them. So reading a string is local:
`local_stringBody`.
-/

namespace JackScopes.Json

open Text (Shares Foreign utf8Size)
open Reader

namespace Quoted

def unitAhead? : List Char → Option Nat
  | a :: b :: c :: d :: _ => unit? a b c d
  | _ => none

theorem unitAhead?_eq_none {cs : List Char}
    (h : ∀ a b c d rest, cs = a :: b :: c :: d :: rest → False) : unitAhead? cs = none := by
  rw [unitAhead?.eq_def]
  split
  · exact (h _ _ _ _ _ rfl).elim
  · rfl

def unit : Reader Nat := fun cursor =>
  match unitAhead? cursor.rest with
  | some n => .ok (n, ⟨cursor.position + 4, cursor.rest.drop 4⟩)
  | none => .error (badUnit cursor.position cursor.rest)

def nextUnit : Reader Nat := do
  match ← peek with
  | none => failAt .endInString
  | some '\\' => do
    advance
    match ← peek with
    | none => failAt .endInString
    | some 'u' => do
      advance
      unit
    | some _ => failAt .unpairedEscape
  | some _ => failAt .unpairedEscape

/-- Reads the character that a number writes, or that one and the next. -/
def numbered : Reader Char := do
  let n ← unit
  if isSecondHalf n then failAfter .loneHalf
  else if isFirstHalf n then do
    let m ← nextUnit
    if isSecondHalf m then return pairChar n m else failAfter .loneHalf
  else return .ofNat n

def escape : Reader Char := do
  match ← peek with
  | none => failAt .endInString
  | some 'u' => do
    advance
    numbered
  | some c =>
    match shortEscape? c with
    | none => failAt .invalidEscape
    | some decoded => do
      advance
      return decoded

def characterSeen : Option Char → Reader (Option Char)
  | none => failAt .endInString
  | some '"' => do
    advance
    return none
  | some '\\' => do
    advance
    return some (← escape)
  | some c =>
    if c < ' ' then failAt .controlCharacter
    else do
      advance
      return some c

def character : Reader (Option Char) :=
  peek >>= characterSeen

def inside : Reader (List Char) := fun cursor =>
  body cursor.position cursor.rest

def insideBehind : Option Char → Reader (List Char)
  | none => return []
  | some c => return c :: (← inside)

-- ---------------------------------------------------------------------------
-- Each reader, run
-- ---------------------------------------------------------------------------

section
variable {α : Type} (position : Nat) (cs : List Char)

theorem unit_bind (next : Nat → Reader α) :
    (unit >>= next) ⟨position, cs⟩ = match unitAhead? cs with
      | some n => next n ⟨position + 4, cs.drop 4⟩
      | none => .error (badUnit position cs) := by
  change (unit ⟨position, cs⟩ >>= fun found => next found.1 found.2) = _
  rw [unit]
  cases unitAhead? cs <;> rfl

theorem nextUnit_bind (next : Nat → Reader α) :
    (nextUnit >>= next) ⟨position, '\\' :: 'u' :: cs⟩ = (unit >>= next) ⟨position + 2, cs⟩ :=
  rfl

theorem nextUnit_bind_of_bad (next : Nat → Reader α) {cs : List Char}
    (h : ∀ rest, cs = '\\' :: 'u' :: rest → unitAhead? rest = none) :
    (nextUnit >>= next) ⟨position, cs⟩ = .error (badPair position cs) := by
  by_cases hslash : ∃ rest, cs = '\\' :: rest
  · obtain ⟨_ | ⟨c, cs⟩, rfl⟩ := hslash
    · rfl
    · by_cases hc : c = 'u'
      · subst hc
        rw [nextUnit_bind, unit_bind, h cs rfl]
        rfl
      · have hbad : badPair position ('\\' :: c :: cs) = ⟨.unpairedEscape, position + 2⟩ := by
          simp [badPair, hc]
        simp only [hbad, nextUnit, bind_assoc, peek_bind, advance_bind, Cursor.next?,
          Cursor.advance, List.head?_cons]
        rfl
  · cases cs with
    | nil => rfl
    | cons c cs =>
      have hc : c ≠ '\\' := fun hc => hslash ⟨cs, by rw [hc]⟩
      have hbad : badPair position (c :: cs) = ⟨.unpairedEscape, position + 1⟩ := by
        simp [badPair, hc]
      simp only [hbad, nextUnit, bind_assoc, peek_bind, Cursor.next?, List.head?_cons]
      rfl

theorem numbered_bind (next : Char → Reader α) :
    (numbered >>= next) ⟨position, cs⟩ = match unitAhead? cs with
      | none => .error (badUnit position cs)
      | some n =>
        if isSecondHalf n then .error ⟨.loneHalf, position + 4⟩
        else if isFirstHalf n then
          (nextUnit >>= fun m =>
            if isSecondHalf m then next (pairChar n m) else failAfter .loneHalf)
            ⟨position + 4, cs.drop 4⟩
        else next (.ofNat n) ⟨position + 4, cs.drop 4⟩ := by
  rw [numbered, bind_assoc, unit_bind]
  cases unitAhead? cs with
  | none => rfl
  | some n =>
    dsimp only
    split
    · rfl
    · split
      · have hnext : (fun m => (if isSecondHalf m then pure (pairChar n m)
            else failAfter .loneHalf : Reader Char) >>= next) =
            fun m => if isSecondHalf m then next (pairChar n m) else failAfter .loneHalf := by
          funext m
          split <;> rfl
        rw [bind_assoc, hnext]
      · rfl

theorem escape_bind_number (next : Char → Reader α) :
    (escape >>= next) ⟨position, 'u' :: cs⟩ = (numbered >>= next) ⟨position + 1, cs⟩ :=
  rfl

theorem utf8Size_of_shortEscape? {letter c : Char} (h : shortEscape? letter = some c) :
    letter.utf8Size = 1 := by
  have hall : ∀ escape ∈ shortEscapes, escape.1.utf8Size = 1 := by decide
  exact hall _ (shortEscape?_eq_some_iff.mp h)

theorem escape_bind_letter (next : Char → Reader α) {c : Char} (hc : c ≠ 'u') :
    (escape >>= next) ⟨position, c :: cs⟩ = match shortEscape? c with
      | none => .error ⟨.invalidEscape, position + 1⟩
      | some decoded => next decoded ⟨position + 1, cs⟩ := by
  simp only [escape, bind_assoc, peek_bind, Cursor.next?, List.head?_cons]
  cases h : shortEscape? c with
  | none => rfl
  | some decoded =>
    rw [← utf8Size_of_shortEscape? h]
    rfl

theorem character_bind_escape (next : Option Char → Reader α) :
    (character >>= next) ⟨position, '\\' :: cs⟩ =
      (escape >>= fun c => next (some c)) ⟨position + 1, cs⟩ := by
  simp only [character, characterSeen, bind_assoc, peek_bind, advance_bind, Cursor.next?,
    List.head?_cons, pure_bind]
  rfl

theorem character_bind_number (next : Option Char → Reader α) :
    (character >>= next) ⟨position, '\\' :: 'u' :: cs⟩ =
      (numbered >>= fun c => next (some c)) ⟨position + 2, cs⟩ := by
  rw [character_bind_escape, escape_bind_number]

theorem characterSeen_plain {c : Char} (hquote : c ≠ '"') (hslash : c ≠ '\\') :
    characterSeen (some c) =
      if c < ' ' then failAt .controlCharacter
      else do
        advance
        return some c := by
  simp only [characterSeen]

theorem character_bind_plain (next : Option Char → Reader α) {c : Char} (hquote : c ≠ '"')
    (hslash : c ≠ '\\') :
    (character >>= next) ⟨position, c :: cs⟩ =
      if c < ' ' then .error ⟨.controlCharacter, position + 1⟩
      else next (some c) ⟨position + c.utf8Size, cs⟩ := by
  simp only [character, bind_assoc, peek_bind, Cursor.next?, List.head?_cons,
    characterSeen_plain hquote hslash]
  split <;> rfl

end

theorem ne_backslash {c : Char} {cs : List Char}
    (hslash : ∀ d rest, c = '\\' → cs = d :: rest → False) (hend : c = '\\' → cs = [] → False) :
    c ≠ '\\' := by
  intro hc
  cases cs with
  | nil => exact hend hc rfl
  | cons d cs => exact hslash d cs hc rfl

theorem inside_eq : inside = character >>= insideBehind := by
  funext ⟨position, cs⟩
  change body position cs = _
  fun_cases body position cs with
  | case1 => rfl
  | case2 => rfl
  | case3 a b c d cs h =>
    simp only [character_bind_number, numbered_bind, unitAhead?, h]
  | case4 a b c d cs n h hsecond =>
    simp only [character_bind_number, numbered_bind, unitAhead?, h, hsecond]
    rfl
  | case5 a b c d n h hsecond hfirst e f g j cs hm =>
    simp only [character_bind_number, numbered_bind, unitAhead?, h, hsecond, hfirst, List.drop,
      nextUnit_bind, unit_bind, hm]
    rfl
  | case6 a b c d n h hsecond hfirst e f g j cs m hm hpair =>
    -- two halves of a pair
    simp only [character_bind_number, numbered_bind, unitAhead?, h, hsecond, hfirst, List.drop,
      nextUnit_bind, unit_bind, hm, hpair]
    rfl
  | case7 a b c d n h hsecond hfirst e f g j cs m hm hpair =>
    simp only [character_bind_number, numbered_bind, unitAhead?, h, hsecond, hfirst, List.drop,
      nextUnit_bind, unit_bind, hm, hpair]
    rfl
  | case8 a b c d n h hsecond hfirst cs hpair =>
    -- a first half without a unit behind it
    have hbad : ∀ rest, cs = '\\' :: 'u' :: rest → unitAhead? rest = none := by
      rintro rest rfl
      exact unitAhead?_eq_none fun e f g j cs hcs => hpair e f g j cs (by rw [hcs])
    simp only [character_bind_number, numbered_bind, unitAhead?, h, hsecond, hfirst, List.drop,
      nextUnit_bind_of_bad _ _ hbad]
    rfl
  | case9 a b c d cs n h hsecond hfirst =>
    -- one unit
    simp only [character_bind_number, numbered_bind, unitAhead?, h, hsecond, hfirst]
    rfl
  | case10 cs hcs =>
    have hunit : unitAhead? cs = none := unitAhead?_eq_none hcs
    simp only [character_bind_number, numbered_bind, hunit]
  | case11 c cs _ hu h =>
    simp only [character_bind_escape, escape_bind_letter _ _ _ hu, h]
  | case12 c cs _ hu decoded h =>
    simp only [character_bind_escape, escape_bind_letter _ _ _ hu, h]
    rfl
  | case13 => rfl
  | case14 c cs hquote _ _ hslash hend hcontrol =>
    have hplain : c ≠ '\\' := ne_backslash hslash hend
    rw [character_bind_plain _ _ _ hquote hplain, if_pos hcontrol]
  | case15 c cs hquote _ _ hslash hend hcontrol =>
    have hplain : c ≠ '\\' := ne_backslash hslash hend
    rw [character_bind_plain _ _ _ hquote hplain, if_neg hcontrol]
    rfl

-- ---------------------------------------------------------------------------
-- Each reader is local
-- ---------------------------------------------------------------------------

theorem Hexadecimal.utf8Size {n : Nat} {cs : List Char} (h : Hexadecimal n cs) :
    utf8Size cs = 4 := by
  have hescape : 1 + (1 + Text.utf8Size cs) = 6 := h.utf8Size_escape
  omega

theorem unitAhead?_eq_some_iff {n : Nat} {cs : List Char} :
    unitAhead? cs = some n ↔ ∃ digits rest, Hexadecimal n digits ∧ cs = digits ++ rest := by
  constructor
  · intro h
    rw [unitAhead?.eq_def] at h
    split at h
    · next a b c d rest => exact ⟨[a, b, c, d], rest, hexadecimal_iff.mpr h, rfl⟩
    · cases h
  · rintro ⟨digits, rest, hdigits, rfl⟩
    obtain ⟨a, b, c, d, rfl, h⟩ := hdigits.exists_unit?
    exact h

theorem unit_of_hexadecimal {n : Nat} {digits : List Char} (h : Hexadecimal n digits)
    (position : Nat) (rest : List Char) :
    unit ⟨position, digits ++ rest⟩ = .ok (n, ⟨position + 4, rest⟩) := by
  rw [unit, unitAhead?_eq_some_iff.mpr ⟨digits, rest, h, rfl⟩]
  obtain ⟨a, b, c, d, rfl, -⟩ := h.exists_unit?
  rfl

theorem unit_of_none {cs : List Char} (h : unitAhead? cs = none) (position : Nat) :
    unit ⟨position, cs⟩ = .error (badUnit position cs) := by
  rw [unit, h]

theorem local_unit : Local unit := by
  rintro ⟨position, cs⟩
  cases hunit : unitAhead? cs with
  | some n =>
    obtain ⟨digits, rest, hdigits, rfl⟩ := unitAhead?_eq_some_iff.mp hunit
    have hread := unit_of_hexadecimal hdigits position
    constructor
    · intro m after hok
      cases (hread rest).symm.trans hok
      exact ⟨digits, ⟨rfl, by rw [hdigits.utf8Size]⟩, fun ds _ => hread ds⟩
    · intro misreading herror
      cases (hread rest).symm.trans herror
  | none =>
    constructor
    · intro m after hok
      cases (unit_of_none hunit position).symm.trans hok
    · intro misreading herror
      cases (unit_of_none hunit position).symm.trans herror
      by_cases hsize : Text.utf8Size cs < 4
      · rw [badUnit, if_pos hsize]
        exact ⟨Nat.le_add_right .., le_rfl, fun _ => rfl, by rintro ⟨⟩⟩
      · rw [badUnit, if_neg hsize]
        refine ⟨Nat.le_add_right .., by dsimp only; omega, by rintro ⟨⟩, fun _ ds hds => ?_⟩
        -- four digits there would be shared
        have hshare : Shares 4 cs ds := hds.mono (by dsimp only; omega)
        have hother : unitAhead? ds = none := by
          rw [Option.eq_none_iff_forall_ne_some]
          intro n hn
          obtain ⟨digits, rest, hdigits, rfl⟩ := unitAhead?_eq_some_iff.mp hn
          obtain ⟨rest', rfl, -⟩ := hshare.symm.exists_append hdigits.utf8Size.le
          rw [unitAhead?_eq_some_iff.mpr ⟨digits, rest', hdigits, rfl⟩] at hunit
          cases hunit
        have hlong := hshare.le_utf8Size (Nat.not_lt.mp hsize)
        rw [unit_of_none hother, badUnit, if_neg (Nat.not_lt.mpr hlong)]

theorem local_nextUnit : Local nextUnit := by
  refine local_peek (failAt .unpairedEscape) (stays_failAt _) (fun c => ?_) fun c hc => by
    split <;> simp_all [Foreign]
  split
  · next h => cases h
  · refine local_advance.bind fun _ =>
      local_peek (failAt .unpairedEscape) (stays_failAt _) (fun d => ?_) fun d hd => by
        split <;> simp_all [Foreign]
    split
    · next h => cases h
    · exact local_advance.bind fun _ => local_unit
    · exact local_failAt rfl
  · exact local_failAt rfl

theorem local_numbered : Local numbered := by
  refine local_unit.bind fun n => ?_
  split
  · exact local_failAfter rfl
  · split
    · refine local_nextUnit.bind fun m => ?_
      split
      · exact local_pure _
      · exact local_failAfter rfl
    · exact local_pure _

theorem shortEscape?_of_foreign {c : Char} (h : Foreign c) : shortEscape? c = none := by
  have hall : ∀ escape ∈ shortEscapes, ¬ Foreign escape.1 := by decide
  rw [Option.eq_none_iff_forall_ne_some]
  intro decoded hdecoded
  exact hall _ (shortEscape?_eq_some_iff.mp hdecoded) h

theorem local_escape : Local escape := by
  refine local_peek (failAt .invalidEscape) (stays_failAt _) (fun c => ?_) fun c hc => ?_
  · split
    · next h => cases h
    · exact local_advance.bind fun _ => local_numbered
    · split
      · exact local_failAt rfl
      · exact local_advance.bind fun _ => local_pure _
  · have hletter := shortEscape?_of_foreign hc
    split <;> simp_all [Foreign]

theorem local_characterSeen (c : Char) : Local (characterSeen (some c)) := by
  rw [characterSeen.eq_def]
  split
  · next h => cases h
  · exact local_advance.bind fun _ => local_pure _
  · exact local_advance.bind fun _ => local_escape.bind fun _ => local_pure _
  · split
    · exact local_failAt rfl
    · exact local_advance.bind fun _ => local_pure _

theorem local_character : Local character := by
  rintro ⟨position, _ | ⟨c, cs⟩⟩
  · exact .peek_end (stays_failAt _)
  · by_cases hc : Foreign c
    · -- a character beyond ASCII is taken as a whole, so it is settled by its own bytes
      have hread (ds : List Char) : character ⟨position, c :: ds⟩ =
          .ok (some c, ⟨position + c.utf8Size, ds⟩) := by
        have hcontrol : ¬ c < ' ' := by
          intro h
          have hlow : c.toNat < 32 := h
          have hhigh : 127 < c.toNat := hc
          omega
        rw [← bind_pure character, character_bind_plain _ _ _ (hc.ne (by decide))
          (hc.ne (by decide)), if_neg hcontrol]
        rfl
      constructor
      · intro found after hok
        cases (hread cs).symm.trans hok
        exact ⟨[c], ⟨rfl, rfl⟩, fun ds _ => hread ds⟩
      · intro misreading herror
        cases (hread cs).symm.trans herror
    · refine (local_characterSeen c _).peek fun d hd => ?_
      rcases hd with rfl | ⟨hc', -⟩
      · rfl
      · exact absurd hc' hc

theorem length_lt_of_character {cursor after : Cursor} {found : Option Char}
    (h : character cursor = .ok (found, after)) : after.rest.length < cursor.rest.length := by
  obtain ⟨position, _ | ⟨c, cs⟩⟩ := cursor
  · cases h
  · rw [List.length_cons, Nat.lt_succ_iff]
    rw [← bind_pure character] at h
    by_cases hquote : c = '"'
    · subst hquote
      cases h
      exact le_rfl
    · by_cases hslash : c = '\\'
      · subst hslash
        rw [character_bind_escape] at h
        exact ((local_escape.bind fun _ => local_pure _) _).ok h |>.length_le
      · rw [character_bind_plain _ _ _ hquote hslash] at h
        split at h
        · cases h
        · cases h
          exact le_rfl

theorem local_inside : Local inside := by
  have hall (n : Nat) : ∀ cursor : Cursor, cursor.rest.length < n → LocalAt inside cursor := by
    induction n with
    | zero => exact fun cursor h => absurd h (Nat.not_lt_zero _)
    | succ n ih =>
      intro cursor hcursor
      rw [inside_eq]
      refine (local_character cursor).bind fun found mid hfound => ?_
      cases found with
      | none => exact local_pure _ mid
      | some c =>
        have hmid := length_lt_of_character hfound
        exact (ih mid (by omega)).bind fun decoded after _ => local_pure _ after
  exact fun cursor => hall _ cursor (Nat.lt_succ_self _)

end Quoted

theorem Reader.local_stringBody : Local stringBody := by
  have hbody : stringBody = Quoted.inside >>= fun cs => pure (String.ofList cs) := rfl
  rw [hbody]
  exact Quoted.local_inside.bind fun cs => local_pure _

end JackScopes.Json
