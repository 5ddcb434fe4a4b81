import JackScopes.Proofs.Json.Tokens
import JackScopes.Proofs.Text.Bytes

/-!
# What readers look at

A reader looks at the text it takes and at one byte more. So what it yields is settled by
these bytes, whatever comes behind them; and a misreading is settled by the bytes up to the
place it points to and by the next one, unless it says that the text ended too early: then
it points to the end. `Local` is this property, and readers keep it when they are put
together.
-/

namespace JackScopes.Json

open Text (Shares Foreign utf8Size)

/-- Two texts that go on alike behind the text between two cursors start alike. -/
theorem Cursor.Reaches.shares {cursor after : Cursor} {taken cs : List Char}
    (h : cursor.Reaches taken after) (hcs : Shares 1 after.rest cs) :
    Shares 1 cursor.rest (taken ++ cs) := by
  rw [h.rest]
  exact (hcs.append_left taken).mono (Nat.le_add_left ..)

namespace Reader

variable {α β : Type}

/-- What a reader yields is settled by the text it takes and by the byte behind that. -/
def Settled (reader : Reader α) (cursor : Cursor) (a : α) (after : Cursor) : Prop :=
  ∃ taken, cursor.Reaches taken after ∧
    ∀ cs, Shares 1 after.rest cs →
      reader ⟨cursor.position, taken ++ cs⟩ = .ok (a, ⟨after.position, cs⟩)

/-- A misreading points into the text, and to its end if the text ends too early. If not,
it is settled by the bytes up to where it points and by the byte behind them. -/
structure Pinned (reader : Reader α) (cursor : Cursor) (misreading : Misreading) : Prop where
  lower : cursor.position ≤ misreading.position
  upper : misreading.position ≤ cursor.position + utf8Size cursor.rest
  atEnd : misreading.cause.isEnd = true →
    misreading.position = cursor.position + utf8Size cursor.rest
  settled : misreading.cause.isEnd = false → ∀ cs,
    Shares (misreading.position + 1 - cursor.position) cursor.rest cs →
      reader ⟨cursor.position, cs⟩ = .error misreading

structure LocalAt (reader : Reader α) (cursor : Cursor) : Prop where
  ok {a : α} {after : Cursor} : reader cursor = .ok (a, after) → Settled reader cursor a after
  error {misreading : Misreading} :
    reader cursor = .error misreading → Pinned reader cursor misreading

def Local (reader : Reader α) : Prop :=
  ∀ cursor, LocalAt reader cursor

-- ---------------------------------------------------------------------------
-- One reader behind another
-- ---------------------------------------------------------------------------

section
variable {reader : Reader α} {next : α → Reader β} {cursor mid after : Cursor} {a : α} {b : β}
  {misreading : Misreading}

theorem bind_error :
    (reader >>= next) cursor = .error misreading ↔
      reader cursor = .error misreading ∨
        ∃ a mid, reader cursor = .ok (a, mid) ∧ next a mid = .error misreading := by
  change (reader cursor >>= fun found => next found.1 found.2) = _ ↔ _
  rcases reader cursor with other | ⟨a, mid⟩ <;> simp [bind, Except.bind]

theorem Settled.length_le (h : Settled reader cursor a after) :
    after.rest.length ≤ cursor.rest.length := by
  obtain ⟨taken, htaken, -⟩ := h
  rw [htaken.rest, List.length_append]
  exact Nat.le_add_left ..

theorem Settled.bind (h : Settled reader cursor a mid) (hnext : Settled (next a) mid b after) :
    Settled (reader >>= next) cursor b after := by
  obtain ⟨first, hfirst, hread⟩ := h
  obtain ⟨rest, hrest, hgo⟩ := hnext
  refine ⟨first ++ rest, Cursor.reaches_append.mpr ⟨mid, hfirst, hrest⟩, fun cs hcs => ?_⟩
  rw [List.append_assoc]
  exact bind_ok.mpr ⟨a, _, hread _ (hrest.shares hcs), hgo cs hcs⟩

theorem Pinned.bind_left (h : Pinned reader cursor misreading) :
    Pinned (reader >>= next) cursor misreading :=
  ⟨h.lower, h.upper, h.atEnd, fun hcause cs hcs => bind_error.mpr (.inl (h.settled hcause cs hcs))⟩

theorem Pinned.bind (h : Settled reader cursor a mid) (hnext : Pinned (next a) mid misreading) :
    Pinned (reader >>= next) cursor misreading := by
  obtain ⟨taken, htaken, hread⟩ := h
  have hsize : cursor.position + utf8Size cursor.rest = mid.position + utf8Size mid.rest := by
    rw [htaken.rest, htaken.position, Text.utf8Size_append, Nat.add_assoc]
  have hposition := htaken.position
  have hlower := hnext.lower
  refine ⟨by omega, hsize ▸ hnext.upper, hsize ▸ hnext.atEnd, fun hcause cs hcs => ?_⟩
  -- the other text starts with what was taken, and goes on alike
  rw [htaken.rest] at hcs
  obtain ⟨rest, rfl, hrest⟩ := hcs.exists_append (by omega)
  have hshare : Shares (misreading.position + 1 - mid.position) mid.rest rest :=
    hrest.mono (by omega)
  exact bind_error.mpr
    (.inr ⟨a, _, hread rest (hshare.mono (by omega)), hnext.settled hcause rest hshare⟩)

theorem LocalAt.bind (h : LocalAt reader cursor)
    (hnext : ∀ a mid, reader cursor = .ok (a, mid) → LocalAt (next a) mid) :
    LocalAt (reader >>= next) cursor where
  ok hok := by
    obtain ⟨a, mid, hread, hgo⟩ := bind_ok.mp hok
    exact (h.ok hread).bind ((hnext a mid hread).ok hgo)
  error herror := by
    rcases bind_error.mp herror with hread | ⟨a, mid, hread, hgo⟩
    · exact (h.error hread).bind_left
    · exact .bind (h.ok hread) ((hnext a mid hread).error hgo)

theorem Local.bind (h : Local reader) (hnext : ∀ a, Local (next a)) : Local (reader >>= next) :=
  fun cursor => (h cursor).bind fun a mid _ => hnext a mid

end

-- ---------------------------------------------------------------------------
-- Readers that look at one character at most
-- ---------------------------------------------------------------------------

section
variable {reader : Reader α} {misreading : Misreading} {cause : Cause}

theorem pinned_end {position : Nat} (h : misreading.position = position)
    (herror : reader ⟨position, []⟩ = .error misreading) :
    Pinned reader ⟨position, []⟩ misreading where
  lower := h.ge
  upper := h.le
  atEnd _ := h
  settled _ cs hcs := by
    rw [(Text.shares_nil (by dsimp only; omega)).mp hcs, herror]

theorem local_pure (a : α) : Local (pure a : Reader α) := by
  intro cursor
  constructor
  · intro b after hok
    obtain ⟨rfl, rfl⟩ := pure_ok.mp hok
    exact ⟨[], Cursor.reaches_nil.mpr rfl, fun _ _ => rfl⟩
  · intro misreading herror
    cases herror

theorem local_failAfter (hcause : cause.isEnd = false) : Local (failAfter cause : Reader α) := by
  intro cursor
  constructor
  · exact fun hok => absurd hok (fails_failAfter cause _ _)
  · intro misreading herror
    cases herror
    refine ⟨le_rfl, Nat.le_add_right .., fun hend => ?_, fun _ _ _ => rfl⟩
    cases hend.symm.trans hcause

theorem local_failAt (hcause : cause.isEnd = false) : Local (failAt cause : Reader α) := by
  rintro ⟨position, cs⟩
  constructor
  · exact fun hok => absurd hok (fails_failAt cause _ _)
  · intro misreading herror
    cases cs with
    | nil =>
      cases herror
      exact pinned_end rfl rfl
    | cons c cs =>
      obtain rfl : misreading = ⟨cause, position + 1⟩ := by
        cases herror
        rfl
      have hsize := c.utf8Size_pos
      refine ⟨Nat.le_succ _, ?_, fun hend => ?_, fun _ ds hds => ?_⟩
      · simp only [utf8Size]
        omega
      · cases hend.symm.trans hcause
      · obtain ⟨d, rest, rfl, -⟩ := hds.exists_next (by dsimp only; omega)
        rfl

theorem local_advance : Local advance := by
  rintro ⟨position, cs⟩
  constructor
  · intro a after hok
    obtain rfl : after = Cursor.advance ⟨position, cs⟩ := by
      cases hok
      rfl
    cases cs with
    | nil =>
      refine ⟨[], Cursor.reaches_nil.mpr rfl, fun ds hds => ?_⟩
      rw [(Text.shares_nil Nat.one_pos).mp hds]
      rfl
    | cons c cs =>
      exact ⟨[c], Cursor.reaches_singleton.mpr ⟨rfl, rfl⟩, fun ds _ => rfl⟩
  · intro misreading herror
    cases herror

structure Stays (reader : Reader α) : Prop where
  ok {position : Nat} {a : α} {after : Cursor} :
    reader ⟨position, []⟩ = .ok (a, after) → after = ⟨position, []⟩
  error {position : Nat} {misreading : Misreading} :
    reader ⟨position, []⟩ = .error misreading → misreading.position = position

theorem Local.stays (h : Local reader) : Stays reader where
  ok {position a after} hok := by
    obtain ⟨taken, htaken, -⟩ := (h _).ok hok
    obtain ⟨rfl, -⟩ := List.append_eq_nil_iff.mp htaken.rest.symm
    exact Cursor.reaches_nil.mp htaken
  error {position misreading} herror := by
    have hpinned := (h _).error herror
    exact Nat.le_antisymm hpinned.upper hpinned.lower

/-- A failure stays at the end of a text even if it says so. -/
theorem stays_failAfter (cause : Cause) : Stays (failAfter cause : Reader α) where
  ok hok := absurd hok (fails_failAfter cause _ _)
  error herror := by
    cases herror
    rfl

theorem stays_failAt (cause : Cause) : Stays (failAt cause : Reader α) where
  ok hok := absurd hok (fails_failAt cause _ _)
  error herror := by
    cases herror
    rfl

end

-- ---------------------------------------------------------------------------
-- Looking ahead
-- ---------------------------------------------------------------------------

section
variable {next : Option Char → Reader α}

theorem LocalAt.peek_end {position : Nat} (h : Stays (next none)) :
    LocalAt (peek >>= next) ⟨position, []⟩ where
  ok hok := by
    obtain rfl := h.ok hok
    refine ⟨[], Cursor.reaches_nil.mpr rfl, fun cs hcs => ?_⟩
    rw [(Text.shares_nil Nat.one_pos).mp hcs]
    exact hok
  error herror := pinned_end (h.error herror) herror

/-- A look ahead settles how to go on if that is the same for all characters with the same
first byte. -/
theorem LocalAt.peek {position : Nat} {c : Char} {cs : List Char}
    (h : LocalAt (next (some c)) ⟨position, c :: cs⟩)
    (hsame : ∀ d, d = c ∨ Foreign c ∧ Foreign d → next (some d) = next (some c)) :
    LocalAt (peek >>= next) ⟨position, c :: cs⟩ where
  ok {a after} hok := by
    obtain ⟨taken, htaken, hread⟩ := h.ok hok
    refine ⟨taken, htaken, fun ds hds => ?_⟩
    obtain ⟨d, rest, hcons, hd⟩ := (htaken.shares hds).exists_next Nat.one_pos
    rw [peek_bind, hcons, Cursor.next?, List.head?_cons, hsame d hd, ← hcons]
    exact hread ds hds
  error {misreading} herror := by
    obtain ⟨hlower, hupper, hatEnd, hsettled⟩ := h.error herror
    refine ⟨hlower, hupper, hatEnd, fun hcause ds hds => ?_⟩
    obtain ⟨d, rest, rfl, hd⟩ := hds.exists_next (by dsimp only at hlower ⊢; omega)
    rw [peek_bind, Cursor.next?, List.head?_cons, hsame d hd]
    exact hsettled hcause _ hds

/-- A reader that looks at the next character and treats all beyond ASCII alike. -/
theorem local_peek (other : Reader α) (hend : Stays (next none))
    (hnext : ∀ c, Local (next (some c))) (hother : ∀ c, Foreign c → next (some c) = other) :
    Local (peek >>= next) := by
  rintro ⟨position, cs⟩
  cases cs with
  | nil => exact .peek_end hend
  | cons c cs =>
    refine (hnext c _).peek fun d hd => ?_
    rcases hd with rfl | ⟨hc, hd⟩
    · rfl
    · rw [hother c hc, hother d hd]

theorem local_takeWhile {p : Char → Bool} (hp : ∀ c, Foreign c → p c = false) :
    Local (takeWhile p) := by
  intro cursor
  constructor
  · intro cs after hok
    obtain ⟨rfl, rfl⟩ : cs = cursor.takeWhile p ∧ after = cursor.skipWhile p := by
      cases hok
      exact ⟨rfl, rfl⟩
    refine ⟨cursor.takeWhile p, ⟨(cursor.takeWhile_append_rest p).symm, rfl⟩, fun ds hds => ?_⟩
    have hall : ∀ c ∈ cursor.takeWhile p, p c = true := fun _ hc => List.mem_takeWhile_imp hc
    -- what stands behind the characters taken fails the test, here as there
    have hstop : ds.takeWhile p = [] ∧ ds.dropWhile p = ds := by
      cases hrest : cursor.rest.dropWhile p with
      | nil =>
        rw [Cursor.skipWhile, hrest] at hds
        rw [(Text.shares_nil Nat.one_pos).mp hds]
        exact ⟨rfl, rfl⟩
      | cons c cs =>
        rw [Cursor.skipWhile, hrest] at hds
        obtain ⟨d, rest, rfl, hd⟩ := hds.exists_next Nat.one_pos
        have hc : p c = false := by
          have hhead := List.head?_dropWhile_not p cursor.rest
          rwa [hrest, List.head?_cons] at hhead
        have hd : p d = false := by
          rcases hd with rfl | ⟨-, hd⟩
          · exact hc
          · exact hp d hd
        simp [hd]
    have htake : (cursor.takeWhile p ++ ds).takeWhile p = cursor.takeWhile p := by
      rw [List.takeWhile_append_of_pos hall, hstop.1, List.append_nil]
    have hdrop : (cursor.takeWhile p ++ ds).dropWhile p = ds := by
      rw [List.dropWhile_append_of_pos hall, hstop.2]
    change Except.ok (_, Cursor.skipWhile p _) = _
    simp only [Cursor.skipWhile, Cursor.takeWhile] at htake hdrop ⊢
    rw [htake, hdrop]
  · intro misreading herror
    cases herror

theorem local_peekPastBlanks (other : Reader α) (hend : Stays (next none))
    (hnext : ∀ c, Local (next (some c))) (hother : ∀ c, Foreign c → next (some c) = other) :
    Local (peekPastBlanks >>= next) := by
  have hsplit : (peekPastBlanks >>= next) = takeWhile isBlank >>= fun _ => peek >>= next := rfl
  have hblank : ∀ c, Foreign c → isBlank c = false := by
    intro c hc
    have hne (d : Char) (hd : ¬ Foreign d) : ¬ c = d := hc.ne hd
    simp [isBlank, hne ' ' (by decide), hne '\t' (by decide), hne '\n' (by decide),
      hne '\r' (by decide)]
  rw [hsplit]
  exact (local_takeWhile hblank).bind fun _ => local_peek other hend hnext hother

end

theorem local_letters {ls : List Char} (h : ∀ l ∈ ls, ¬ Foreign l) : Local (letters ls) := by
  induction ls with
  | nil => exact local_pure ()
  | cons l ls ih =>
    obtain ⟨hl, hls⟩ := List.forall_mem_cons.mp h
    refine local_peek _ (stays_failAfter _) (fun c => ?_) fun c hc => if_neg (hc.ne hl)
    dsimp only
    split
    · exact local_advance.bind fun _ => ih hls
    · exact local_failAt rfl

-- ---------------------------------------------------------------------------
-- Whole texts
-- ---------------------------------------------------------------------------

/-- A reader that wants nothing but blanks behind what it reads. -/
theorem Local.toEnd {reader : Reader α} (h : Local reader) :
    Local (do
      let a ← reader
      match ← peekPastBlanks with
      | none => return a
      | some _ => failAt .trailingCharacters) :=
  h.bind fun a => local_peekPastBlanks (failAt .trailingCharacters) (local_pure a).stays
    (fun _ => local_failAt rfl) fun _ _ => rfl

theorem Local.pinned_readAll {reader : Reader α} (h : Local reader) {text : String}
    {misreading : Misreading} (herror : readAll reader text = .error misreading) :
    misreading.position ≤ utf8Size text.toList ∧
      (misreading.cause.isEnd = true → misreading.position = utf8Size text.toList) ∧
      (misreading.cause.isEnd = false → ∀ other : String,
        Shares (misreading.position + 1) text.toList other.toList →
          readAll reader other = .error misreading) := by
  have herror_iff {x : Except Misreading (α × Cursor)} :
      x.map Prod.fst = .error misreading ↔ x = .error misreading := by
    cases x <;> simp [Except.map]
  have hpinned := (h.toEnd (.start text)).error (herror_iff.mp herror)
  obtain ⟨-, hupper, hend, hsettled⟩ := hpinned
  simp only [Cursor.start, Nat.zero_add, Nat.sub_zero] at hupper hend hsettled
  exact ⟨hupper, hend, fun hcause other hother =>
    herror_iff.mpr (hsettled hcause other.toList hother)⟩

end Reader

end JackScopes.Json
