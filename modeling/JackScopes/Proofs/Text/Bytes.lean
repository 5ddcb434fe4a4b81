import JackScopes.Text.Place
import Mathlib.Data.List.DropRight

/-!
# Bytes in common

Texts that start with the same bytes start with the same characters, as far as these bytes
reach. A byte further on, the next characters are the same or are both beyond ASCII: so
much a reader can tell that looks at the next byte. And what a place in a text is, said by
the bytes before it: `Place.after_eq`.
-/

namespace JackScopes.Text

/-- Two texts have so many bytes in common at their start, or are the same. -/
def Shares (n : Nat) (cs ds : List Char) : Prop :=
  cs = ds ∨ ∃ bytes, bytes.length = n ∧ bytes <+: utf8 cs ∧ bytes <+: utf8 ds

def Foreign (c : Char) : Prop :=
  127 < c.toNat

instance (c : Char) : Decidable (Foreign c) :=
  inferInstanceAs (Decidable (127 < c.toNat))

theorem Foreign.ne {c d : Char} (h : Foreign c) (hd : ¬ Foreign d) : c ≠ d := by
  rintro rfl
  exact hd h

theorem Foreign.some_ne {c d : Char} (h : Foreign c) (hd : ¬ Foreign d) : some c ≠ some d :=
  fun hsome => h.ne hd (Option.some.inj hsome)

-- ---------------------------------------------------------------------------
-- Characters by their bytes
-- ---------------------------------------------------------------------------

/-- No character's bytes start those of another one. -/
theorem utf8EncodeChar_prefix_free {c d : Char} {xs ys : List UInt8}
    (h : String.utf8EncodeChar c ++ xs = String.utf8EncodeChar d ++ ys) : c = d := by
  have hdecode (c : Char) (xs : List UInt8) :
      (String.utf8EncodeChar c ++ xs).toByteArray.utf8DecodeChar? 0 = some c := by
    rw [List.toByteArray_append]
    exact ByteArray.utf8DecodeChar?_utf8EncodeChar_append
  have hsame := (hdecode c xs).symm.trans (h ▸ hdecode d ys)
  exact Option.some.inj hsame

theorem utf8Size_of_not_foreign {c : Char} (h : ¬ Foreign c) : c.utf8Size = 1 := by
  rw [Char.utf8Size_eq_one_iff, UInt32.le_iff_toNat_le]
  exact Nat.not_lt.mp h

-- ---------------------------------------------------------------------------
-- Texts that share bytes
-- ---------------------------------------------------------------------------

variable {n : Nat} {c : Char} {cs ds : List Char}

theorem Shares.symm (h : Shares n cs ds) : Shares n ds cs := by
  rcases h with rfl | ⟨bytes, hlength, hcs, hds⟩
  · exact .inl rfl
  · exact .inr ⟨bytes, hlength, hds, hcs⟩

theorem Shares.mono (h : Shares n cs ds) {m : Nat} (hm : m ≤ n) : Shares m cs ds := by
  rcases h with rfl | ⟨bytes, rfl, hcs, hds⟩
  · exact .inl rfl
  · have htake := bytes.take_prefix m
    exact .inr ⟨_, List.length_take_of_le hm, htake.trans hcs, htake.trans hds⟩

theorem Shares.take_eq (h : Shares n cs ds) {m : Nat} (hm : m ≤ n) :
    (utf8 cs).take m = (utf8 ds).take m := by
  rcases h with rfl | ⟨bytes, rfl, hcs, hds⟩
  · rfl
  · have htake {l : List UInt8} (hl : bytes <+: l) : l.take m = bytes.take m := by
      obtain ⟨rest, rfl⟩ := hl
      exact List.take_append_of_le_length hm
    rw [htake hcs, htake hds]

theorem Shares.le_utf8Size (h : Shares n cs ds) (hn : n ≤ utf8Size cs) : n ≤ utf8Size ds := by
  rcases h with rfl | ⟨bytes, rfl, -, hds⟩
  · exact hn
  · exact length_utf8 ds ▸ hds.length_le

theorem shares_nil (hn : 0 < n) : Shares n [] ds ↔ ds = [] := by
  constructor
  · rintro (rfl | ⟨bytes, rfl, hnil, -⟩)
    · rfl
    · rw [List.prefix_nil.mp hnil] at hn
      cases hn
  · rintro rfl
    exact .inl rfl

/-- Two texts share a character all of whose bytes they share. -/
theorem Shares.exists_cons (h : Shares n (c :: cs) ds) (hn : c.utf8Size ≤ n) :
    ∃ rest, ds = c :: rest ∧ Shares (n - c.utf8Size) cs rest := by
  rcases h with rfl | ⟨bytes, rfl, hcs, hds⟩
  · exact ⟨cs, rfl, .inl rfl⟩
  · have hlength : (String.utf8EncodeChar c).length ≤ bytes.length := by
      rwa [String.length_utf8EncodeChar]
    obtain ⟨more, rfl⟩ := List.prefix_of_prefix_length_le (List.prefix_append ..) hcs hlength
    have hmore : more <+: utf8 cs := (List.prefix_append_right_inj _).mp hcs
    obtain ⟨behind, hbehind⟩ := hds
    rw [List.append_assoc] at hbehind
    cases ds with
    | nil => exact absurd (List.append_eq_nil_iff.mp hbehind).1 String.utf8EncodeChar_ne_nil
    | cons d rest =>
      obtain rfl := utf8EncodeChar_prefix_free hbehind
      have hrest : more <+: utf8 rest := ⟨behind, List.append_cancel_left hbehind⟩
      refine ⟨rest, rfl, .inr ⟨more, ?_, hmore, hrest⟩⟩
      rw [List.length_append, String.length_utf8EncodeChar, Nat.add_sub_cancel_left]

theorem Shares.exists_append {written : List Char} (h : Shares n (written ++ cs) ds)
    (hn : utf8Size written ≤ n) :
    ∃ rest, ds = written ++ rest ∧ Shares (n - utf8Size written) cs rest := by
  induction written generalizing n ds with
  | nil => exact ⟨ds, rfl, h⟩
  | cons c written ih =>
    rw [utf8Size] at hn
    obtain ⟨rest, rfl, hrest⟩ := Shares.exists_cons h (by omega)
    obtain ⟨last, rfl, hlast⟩ := ih hrest (by omega)
    exact ⟨last, rfl, by rwa [utf8Size, ← Nat.sub_sub]⟩

/-- Behind the characters they share, two texts go on alike, or both beyond ASCII. -/
theorem Shares.exists_next (h : Shares n (c :: cs) ds) (hn : 0 < n) :
    ∃ d rest, ds = d :: rest ∧ (d = c ∨ Foreign c ∧ Foreign d) := by
  cases ds with
  | nil => cases (shares_nil hn).mp h.symm
  | cons d rest =>
    refine ⟨d, rest, rfl, ?_⟩
    by_cases hc : Foreign c
    · by_cases hd : Foreign d
      · exact .inr ⟨hc, hd⟩
      · obtain ⟨_, hcons, -⟩ := h.symm.exists_cons (utf8Size_of_not_foreign hd ▸ hn)
        exact .inl (List.cons.inj hcons).1.symm
    · obtain ⟨_, hcons, -⟩ := h.exists_cons (utf8Size_of_not_foreign hc ▸ hn)
      exact .inl (List.cons.inj hcons).1

theorem Shares.append_left (h : Shares n cs ds) (written : List Char) :
    Shares (utf8Size written + n) (written ++ cs) (written ++ ds) := by
  rcases h with rfl | ⟨bytes, rfl, hcs, hds⟩
  · exact .inl rfl
  · refine .inr ⟨utf8 written ++ bytes, by rw [List.length_append, length_utf8], ?_, ?_⟩
    · rw [utf8, utf8, List.flatMap_append]
      exact (List.prefix_append_right_inj _).mpr hcs
    · rw [utf8, utf8, List.flatMap_append]
      exact (List.prefix_append_right_inj _).mpr hds

-- ---------------------------------------------------------------------------
-- Places
-- ---------------------------------------------------------------------------

/-- A place tells how many line feeds came before it, and how many bytes behind the last. -/
theorem Place.after_eq (bytes : List UInt8) :
    Place.after bytes = ⟨1 + bytes.count 10, (bytes.rtakeWhile (· ≠ 10)).length⟩ := by
  induction bytes using List.reverseRecOn with
  | nil => rfl
  | append_singleton bytes byte ih =>
    rw [Place.after, List.foldl_concat, ← Place.after, ih, Place.pass, List.rtakeWhile_concat]
    by_cases hb : byte = 10
    · simp [hb, Nat.add_assoc]
    · simp [hb]

end JackScopes.Text
