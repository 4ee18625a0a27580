import BulkTransfer.Text.Utf8

/-!
Lines of byte sequences. A line ends with its line feed, or where the bytes end.

- `takeLine_append`: a line and what stands behind it are all the bytes.
- `length_takeLine_lt`: there is no empty line, so taking lines comes to an end.
- `takeLine_ofText`: a text without line feeds is a line of its own.
-/

namespace BulkTransfer.Bytes

/-- The bytes of the first line with its line feed, and those behind it. -/
def takeLine : Bytes → Bytes × Bytes
  | [] => ([], [])
  | b :: rest =>
    if b = 10 then ([b], rest)
    else
      let (line, left) := takeLine rest
      (b :: line, left)

theorem takeLine_append (b : Bytes) : (takeLine b).1 ++ (takeLine b).2 = b := by
  induction b with
  | nil => rfl
  | cons c rest ih =>
    simp only [takeLine]
    split
    · simp
    · simpa using ih

theorem takeLine_ne_nil (c : UInt8) (rest : Bytes) : (takeLine (c :: rest)).1 ≠ [] := by
  simp only [takeLine]
  split <;> simp

theorem length_takeLine_lt (c : UInt8) (rest : Bytes) :
    (takeLine (c :: rest)).2.length < (c :: rest).length := by
  have h := congrArg List.length (takeLine_append (c :: rest))
  have hn := List.length_pos_iff.mpr (takeLine_ne_nil c rest)
  simp only [List.length_append] at h
  omega

theorem takeLine_cons {line : Bytes} (h : 10 ∉ line) (rest : Bytes) :
    takeLine (line ++ 10 :: rest) = (line ++ [10], rest) := by
  induction line with
  | nil => rfl
  | cons b line ih =>
    rw [List.mem_cons, not_or] at h
    rw [List.cons_append, takeLine, if_neg (Ne.symm h.1), ih h.2]
    rfl

/-- A byte below 128 is a character of its own. -/
theorem toNat_of_mem_utf8EncodeChar {c : Char} {b : UInt8} (hb : b.toNat < 128)
    (h : b ∈ String.utf8EncodeChar c) : c.toNat = b.toNat := by
  have htrail : ∀ n, 128 ≤ n % 256 → b ≠ UInt8.ofNat n := by
    rintro n hn rfl
    rw [UInt8.toNat_ofNat'] at hb
    omega
  rw [String.utf8EncodeChar.eq_1] at h
  split at h
  · next hle =>
    rw [List.mem_singleton.mp h, UInt8.toNat_ofNat']
    show c.toNat = c.toNat % 256
    rw [Nat.mod_eq_of_lt]
    exact Nat.lt_of_le_of_lt hle (by decide)
  · exfalso
    split at h
    · simp only [List.mem_cons, List.not_mem_nil, or_false] at h
      rcases h with h | h <;> exact htrail _ (by omega) h
    · split at h
      · simp only [List.mem_cons, List.not_mem_nil, or_false] at h
        rcases h with h | h | h <;> exact htrail _ (by omega) h
      · simp only [List.mem_cons, List.not_mem_nil, or_false] at h
        rcases h with h | h | h | h <;> exact htrail _ (by omega) h

/-- A text without line feeds is a line of its own. -/
theorem takeLine_ofText {s : List Char} (h : '\n' ∉ s) (rest : Bytes) :
    takeLine (ofText (String.ofList (s ++ ['\n'])) ++ rest) =
      (ofText (String.ofList (s ++ ['\n'])), rest) := by
  have hno : 10 ∉ s.flatMap String.utf8EncodeChar := by
    intro hmem
    obtain ⟨c, hc, hbyte⟩ := List.mem_flatMap.mp hmem
    have hcode : c.toNat = '\n'.toNat := toNat_of_mem_utf8EncodeChar (by decide) hbyte
    rw [← Char.ofNat_toNat c, hcode, Char.ofNat_toNat] at hc
    exact h hc
  have hline : ofText (String.ofList (s ++ ['\n'])) = s.flatMap String.utf8EncodeChar ++ [10] := by
    rw [ofText_ofList, List.flatMap_append]
    rfl
  rw [hline, List.append_assoc]
  exact takeLine_cons hno rest

end BulkTransfer.Bytes
