import JackScopes.Proofs.Json.Strings

/-!
# What readers of values look at

Numbers, words and strings are read locally, and so is what is refused by what it is:
`local_mismatch`. One misreading of a number points into what has been read: an exponent
is out of range at the digit that makes it so, whatever digits follow.
-/

namespace JackScopes.Json

open Text (Shares Foreign utf8Size)

/-- The digits up to the first that is beyond the limit tell that a row of them is. -/
theorem exists_of_digitsBeyond? {value count total : Nat} {ds : List Char}
    (h : digitsBeyond? value count ds = some total) :
    ∃ first rest, ds = first ++ rest ∧ first ≠ [] ∧ total = count + first.length ∧
      ∀ more, digitsBeyond? value count (first ++ more) = some total := by
  induction ds generalizing value count with
  | nil => cases h
  | cons d ds ih =>
    rw [digitsBeyond?] at h
    split at h
    · next hbeyond =>
      cases h
      exact ⟨[d], ds, rfl, by simp, rfl, fun more => if_pos hbeyond⟩
    · next hbelow =>
      obtain ⟨first, rest, rfl, -, rfl, hmore⟩ := ih h
      refine ⟨d :: first, rest, rfl, by simp, ?_, fun more => ?_⟩
      · rw [List.length_cons]
        omega
      · rw [List.cons_append, digitsBeyond?]
        exact (if_neg hbelow).trans (hmore more)

namespace Reader

theorem isDigit_of_foreign {c : Char} (h : Foreign c) : c.isDigit = false := by
  rw [Bool.eq_false_iff]
  intro hdigit
  have hrange : 48 ≤ c.toNat ∧ c.toNat ≤ 57 := by
    simpa [Char.isDigit, UInt32.le_iff_toNat_le] using hdigit
  have hhigh : 127 < c.toNat := h
  omega

theorem utf8Size_of_digits {ds : List Char} (h : ∀ d ∈ ds, d.isDigit = true) :
    utf8Size ds = ds.length := by
  induction ds with
  | nil => rfl
  | cons d ds ih =>
    obtain ⟨hd, hds⟩ := List.forall_mem_cons.mp h
    have hsize : d.utf8Size = 1 := by
      refine Text.utf8Size_of_not_foreign fun hforeign => ?_
      cases hd.symm.trans (isDigit_of_foreign hforeign)
    rw [utf8Size, hsize, ih hds, List.length_cons, Nat.add_comm]

theorem digits_ok {cursor after : Cursor} {ds : List Char} :
    digits cursor = .ok (ds, after) ↔
      ds ≠ [] ∧ ds = cursor.takeWhile Char.isDigit ∧ after = cursor.skipWhile Char.isDigit := by
  have htake : takeWhile Char.isDigit cursor = .ok (ds, after) ↔
      ds = cursor.takeWhile Char.isDigit ∧ after = cursor.skipWhile Char.isDigit := by
    change Except.ok (_, _) = _ ↔ _
    rw [Except.ok.injEq, Prod.mk.injEq, eq_comm, @eq_comm _ (cursor.skipWhile _)]
  obtain ⟨position, cs⟩ := cursor
  rw [digits, peek_bind]
  cases cs with
  | nil =>
    simp only [Cursor.next?, List.head?_nil, fails_failAt _ _ _, false_iff]
    rintro ⟨hne, rfl, -⟩
    exact hne rfl
  | cons c cs =>
    cases hc : c.isDigit with
    | false =>
      simp only [Cursor.next?, List.head?_cons, hc, Bool.false_eq_true, if_false,
        fails_failAt _ _ _, false_iff]
      rintro ⟨hne, rfl, -⟩
      exact hne (List.takeWhile_cons_of_neg (by simp [hc]))
    | true =>
      simp only [Cursor.next?, List.head?_cons, hc, if_true, htake]
      refine ⟨fun h => ⟨?_, h⟩, And.right⟩
      rw [h.1, Cursor.takeWhile, List.takeWhile_cons_of_pos hc]
      exact List.cons_ne_nil _ _

theorem local_digits : Local digits := by
  refine local_peek (failAt .invalidNumber) (stays_failAt _) (fun c => ?_) fun c hc => by
    simp [isDigit_of_foreign hc]
  dsimp only
  split
  · exact local_takeWhile fun _ => isDigit_of_foreign
  · exact local_failAt rfl

theorem local_float (negative : Bool) (s : Significand) : Local (float negative s) := by
  rw [float]
  split
  · exact local_pure _
  · exact local_failAfter rfl

theorem local_exponentSign : Local exponentSign := by
  refine local_peek (pure false) (local_pure false).stays (fun c => ?_) fun c hc => by
    split <;> simp_all [Foreign]
  split
  · exact local_advance.bind fun _ => local_pure _
  · exact local_advance.bind fun _ => local_pure _
  · exact local_pure _

theorem LocalAt.position {α : Type} (next : Nat → Reader α) {cursor : Cursor}
    (h : LocalAt (next cursor.position) cursor) :
    LocalAt (do next (← get).position) cursor where
  ok hok := by
    obtain ⟨taken, htaken, hread⟩ := h.ok hok
    exact ⟨taken, htaken, hread⟩
  error herror := by
    obtain ⟨hlower, hupper, hatEnd, hsettled⟩ := h.error herror
    exact ⟨hlower, hupper, hatEnd, hsettled⟩

def exponentEnd (negative : Bool) (s : Significand) (down : Bool) (start : Nat)
    (ds : List Char) : Reader Found := do
  match digitsBeyond? 0 0 ds with
  | some count =>
    if s.value ≠ 0 && !down then throw ⟨.numberOutOfRange, start + count⟩
    else float negative ⟨0, 0⟩
  | none =>
    let n : Int := ds.foldl (fun n d => 10 * n + Significand.digitValue d) 0
    float negative (s.shift (if down then -n else n))

theorem exponent_eq (negative : Bool) (s : Significand) :
    exponent negative s = (do
      advance
      let down ← exponentSign
      let start := (← get).position
      let ds ← digits
      exponentEnd negative s down start ds) :=
  rfl

/-- What is left of an exponent is local, or fails at one of the digits. -/
theorem exponentEnd_cases (negative : Bool) (s : Significand) (down : Bool) (start : Nat)
    (ds : List Char) :
    Local (exponentEnd negative s down start ds) ∨
      ∃ first rest, ds = first ++ rest ∧ first ≠ [] ∧ ∀ more,
        exponentEnd negative s down start (first ++ more) =
          throw ⟨.numberOutOfRange, start + first.length⟩ := by
  rw [exponentEnd]
  split
  · next count hcount =>
    split
    · next hrange =>
      obtain ⟨first, rest, rfl, hfirst, rfl, hmore⟩ := exists_of_digitsBeyond? hcount
      refine .inr ⟨first, rest, rfl, hfirst, fun more => ?_⟩
      rw [exponentEnd, hmore]
      dsimp only
      rw [if_pos hrange, Nat.zero_add]
    · exact .inl (local_float _ _)
  · exact .inl (local_float _ _)

/-- A misreading at a digit is settled by the digits up to that one. -/
theorem pinned_in_digits {α : Type} {next : List Char → Reader α} {cursor mid : Cursor}
    {first rest : List Char} {cause : Cause} (hcause : cause.isEnd = false) (hfirst : first ≠ [])
    (hds : digits cursor = .ok (first ++ rest, mid))
    (hnext : ∀ more, next (first ++ more) = throw ⟨cause, cursor.position + first.length⟩) :
    Pinned (digits >>= next) cursor ⟨cause, cursor.position + first.length⟩ := by
  obtain ⟨-, htaken, rfl⟩ := digits_ok.mp hds
  have hall : ∀ d ∈ first, d.isDigit = true := fun d hd =>
    List.mem_takeWhile_imp (htaken ▸ List.mem_append_left rest hd)
  have hsize := utf8Size_of_digits hall
  have hcursor := cursor.takeWhile_append_rest Char.isDigit
  rw [← htaken, List.append_assoc] at hcursor
  refine ⟨Nat.le_add_right .., ?_, fun hend => ?_, fun _ cs hcs => ?_⟩
  · dsimp only
    rw [← hcursor, Text.utf8Size_append, hsize]
    omega
  · cases hend.symm.trans hcause
  · rw [← hcursor] at hcs
    obtain ⟨more, rfl, -⟩ := hcs.exists_append (by dsimp only; omega)
    have htake : (first ++ more).takeWhile Char.isDigit = first ++ more.takeWhile Char.isDigit :=
      List.takeWhile_append_of_pos hall
    have hread : digits ⟨cursor.position, first ++ more⟩ =
        .ok (first ++ more.takeWhile Char.isDigit, Cursor.skipWhile Char.isDigit _) :=
      digits_ok.mpr ⟨by simp [hfirst], htake.symm, rfl⟩
    exact bind_error.mpr (.inr ⟨_, _, hread, by rw [hnext]; rfl⟩)

theorem local_exponent (negative : Bool) (s : Significand) : Local (exponent negative s) := by
  rw [exponent_eq]
  refine local_advance.bind fun _ => local_exponentSign.bind fun down cursor => ?_
  refine LocalAt.position (fun start => digits >>= exponentEnd negative s down start) ?_
  constructor
  · intro found after hok
    obtain ⟨ds, mid, hds, hgo⟩ := bind_ok.mp hok
    refine ((local_digits cursor).ok hds).bind ?_
    rcases exponentEnd_cases negative s down cursor.position ds with
      hlocal | ⟨first, rest, rfl, -, hthrow⟩
    · exact (hlocal mid).ok hgo
    · rw [hthrow] at hgo
      cases hgo
  · intro misreading herror
    rcases bind_error.mp herror with hds | ⟨ds, mid, hds, hgo⟩
    · exact ((local_digits cursor).error hds).bind_left
    · rcases exponentEnd_cases negative s down cursor.position ds with
        hlocal | ⟨first, rest, rfl, hfirst, hthrow⟩
      · exact .bind ((local_digits cursor).ok hds) ((hlocal mid).error hgo)
      · rw [hthrow] at hgo
        cases hgo
        exact pinned_in_digits rfl hfirst hds hthrow

theorem local_floatEnd (negative : Bool) (s : Significand) : Local (floatEnd negative s) := by
  refine local_peek (float negative s) (local_float negative s).stays (fun c => ?_) fun c hc => by
    split <;> simp_all [Foreign]
  split
  · exact local_exponent negative s
  · exact local_exponent negative s
  · exact local_float negative s

theorem local_fraction (negative : Bool) (s : Significand) : Local (fraction negative s) :=
  local_advance.bind fun _ => local_digits.bind fun _ => local_floatEnd negative _

theorem local_integer (negative : Bool) (n : Nat) : Local (integer negative n) := by
  rw [integer]
  split
  · exact local_pure _
  · split
    · exact local_pure _
    · exact local_float _ _

theorem local_whole : Local whole := by
  have hdigits : Local (digits >>= fun ds => pure (Significand.addWhole ⟨0, 0⟩ ds)) :=
    local_digits.bind fun _ => local_pure _
  refine local_peek (digits >>= fun ds => pure (Significand.addWhole ⟨0, 0⟩ ds)) hdigits.stays
    (fun c => ?_) fun c hc => ?_
  · split
    · refine local_advance.bind fun _ =>
        local_peek (pure ⟨0, 0⟩) (local_pure _).stays (fun d => ?_) fun d hd => by
          simp [isDigit, isDigit_of_foreign hd]
      split
      · exact local_failAt rfl
      · exact local_pure _
    · exact hdigits
  · split
    · next h => exact absurd h (hc.some_ne (by decide))
    · rfl

theorem local_number (negative : Bool) : Local (number negative) := by
  refine local_whole.bind fun s => ?_
  have hplain : Local
      (if s.exponent = 0 then integer negative s.value else float negative s) := by
    split
    · exact local_integer negative _
    · exact local_float negative s
  refine local_peek (if s.exponent = 0 then integer negative s.value else float negative s)
    hplain.stays (fun c => ?_) fun c hc => by split <;> simp_all [Foreign]
  split
  · exact local_fraction negative s
  · exact local_exponent negative s
  · exact local_exponent negative s
  · exact hplain

-- ---------------------------------------------------------------------------
-- Values
-- ---------------------------------------------------------------------------

section
variable {α : Type} {next : Reader α}

theorem local_unexpected (found : Found) (wanted : String) :
    Local (unexpected found wanted : Reader α) :=
  local_failAfter rfl

theorem Local.behind_word (h : Local next) {ls : List Char} (hls : ∀ l ∈ ls, ¬ Foreign l) :
    Local (do advance; letters ls; next) :=
  local_advance.bind fun _ => (local_letters hls).bind fun _ => h

theorem local_mismatch (wanted : String) : Local (mismatch wanted : Reader α) := by
  have hfound (found : Found) : Local (unexpected found wanted : Reader α) :=
    local_unexpected found wanted
  have hother : Local (failAt .expectedValue : Reader α) := local_failAt rfl
  refine local_peek (failAt .expectedValue) hother.stays (fun c => ?_) fun c hc => ?_
  · split
    · exact (hfound .null).behind_word (by simp [Foreign])
    · exact (hfound (.boolean true)).behind_word (by simp [Foreign])
    · exact (hfound (.boolean false)).behind_word (by simp [Foreign])
    · exact local_advance.bind fun _ => local_stringBody.bind fun _ => hfound _
    · exact local_advance.bind fun _ => (local_number true).bind hfound
    · exact hfound .sequence
    · exact hfound .map
    · split
      · exact (local_number false).bind hfound
      · exact hother
  · have hdigit := isDigit_of_foreign hc
    split <;> simp_all [Foreign, isDigit]

theorem local_string (wanted : String) : Local (string wanted) := by
  refine local_peekPastBlanks (mismatch wanted) (stays_failAt _) (fun c => ?_) fun c hc => by
    split <;> simp_all [Foreign]
  split
  · next h => cases h
  · exact local_advance.bind fun _ => local_stringBody
  · exact local_mismatch wanted

theorem local_null (wanted : String) : Local (null wanted) := by
  refine local_peekPastBlanks (mismatch wanted) (stays_failAt _) (fun c => ?_) fun c hc => by
    split <;> simp_all [Foreign]
  split
  · next h => cases h
  · exact local_advance.bind fun _ => local_letters (by simp [Foreign])
  · exact local_mismatch wanted

theorem local_colon : Local colon := by
  refine local_peekPastBlanks (failAt .expectedColon) (stays_failAt _) (fun c => ?_) fun c hc => by
    split <;> simp_all [Foreign]
  split
  · next h => cases h
  · exact local_advance
  · exact local_failAt rfl

end

end Reader

end JackScopes.Json
