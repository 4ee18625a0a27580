import BulkTransfer.Delimited.Record

/-!
Records of delimited text are read back. A field is read up to the byte behind it, whether it stands
in quotes or not, and a record up to the end of its line, whatever its fields hold.

- `Dialect.IsPlain`: delimiter and quote can be told from each other and from line ends.
- `Dialect.readFields_encodeField`: where the reading stands behind a field.
- `Dialect.nextRecord?_encodeRecord`: the next record is the one that was written.
-/

namespace BulkTransfer.Delimited.Dialect

/-- The two bytes of a dialect differ from each other and from line ends, and none escapes. -/
structure IsPlain (d : Dialect) : Prop where
  escape : d.escape? = none
  distinct : d.delimiter ≠ d.quote
  delimiter : endsLine d.delimiter = false
  quote : endsLine d.quote = false

variable {d : Dialect}

/-! ## Fields -/

/-- Places at which a byte that is no quote does what it does outside quotes. -/
def IsBehind (d : Dialect) (stand : Stand) : Prop :=
  ∀ b, b ≠ d.quote → d.step stand b = d.plainStep b

theorem plainStep_of_not_needsQuotes {b : UInt8} (h : d.needsQuotes b = false) :
    d.plainStep b = .keep .inField := by
  unfold needsQuotes at h
  simp only [Bool.or_eq_false_iff, beq_eq_false_iff_ne] at h
  unfold plainStep
  rw [if_neg h.1.1.1, if_neg (by rw [h.1.2]; exact Bool.false_ne_true)]

theorem ne_quote_of_not_needsQuotes {b : UInt8} (h : d.needsQuotes b = false) : b ≠ d.quote := by
  unfold needsQuotes at h
  simp only [Bool.or_eq_false_iff, beq_eq_false_iff_ne] at h
  exact h.1.1.2

/-- Bytes that need no quotes are kept. -/
theorem readFields_inField {field : Bytes} (h : ∀ b ∈ field, d.needsQuotes b = false)
    (read rest : Bytes) :
    d.readFields .inField read (field ++ rest) =
      d.readFields .inField (field.reverse ++ read) rest := by
  induction field generalizing read with
  | nil => rfl
  | cons b more ih =>
    have hstep : d.step .inField b = .keep .inField :=
      plainStep_of_not_needsQuotes (h b List.mem_cons_self)
    rw [List.cons_append, readFields, hstep]
    dsimp only
    rw [ih fun c hc => h c (List.mem_cons_of_mem b hc), List.reverse_cons, List.append_assoc]
    rfl

/-- Bytes in quotes are kept, a doubled quote once. -/
theorem readFields_inQuotes (hd : d.escape? = none) (field read rest : Bytes) :
    d.readFields .inQuotes read (field.flatMap d.quotedByte ++ rest) =
      d.readFields .inQuotes (field.reverse ++ read) rest := by
  induction field generalizing read with
  | nil => rfl
  | cons b more ih =>
    rw [List.flatMap_cons, List.append_assoc, List.reverse_cons, List.append_assoc]
    have hnext := ih (b :: read)
    by_cases hb : b = d.quote
    · have hseen : d.step .inQuotes d.quote = .pass .quoteSeen := if_pos rfl
      have hkeep : d.step .quoteSeen d.quote = .keep .inQuotes := if_pos rfl
      have hbyte : d.quotedByte b = [d.quote, d.quote] := by
        unfold quotedByte
        rw [if_pos hb, hd, hb]
        rfl
      rw [hbyte, List.cons_append, readFields, hseen]
      dsimp only
      rw [List.cons_append, readFields, hkeep]
      dsimp only
      rw [← hb]
      exact hnext
    · have hkeep : d.step .inQuotes b = .keep .inQuotes := by
        unfold step
        dsimp only
        rw [if_neg hb, hd, if_neg (by simp)]
      have hbyte : d.quotedByte b = [b] := if_neg hb
      rw [hbyte, List.cons_append, readFields, hkeep]
      exact hnext

/-- Behind a written field the reading has kept the field, and the next byte ends it or not as it
does outside quotes. -/
theorem readFields_encodeField (hd : d.IsPlain) (field : Bytes) :
    ∃ stand, d.IsBehind stand ∧ ∀ rest,
      d.readFields .fieldStart [] (d.encodeField field ++ rest) =
        d.readFields stand field.reverse rest := by
  unfold encodeField
  split
  · refine ⟨.quoteSeen, fun b hb => if_neg hb, fun rest => ?_⟩
    have hopen : d.step .fieldStart d.quote = .pass .inQuotes := if_pos rfl
    have hclose : d.step .inQuotes d.quote = .pass .quoteSeen := if_pos rfl
    rw [List.append_assoc, List.cons_append, readFields, hopen]
    dsimp only
    rw [readFields_inQuotes hd.escape, List.append_nil, List.singleton_append, readFields, hclose]
  · next hplain =>
    have hbytes : ∀ b ∈ field, d.needsQuotes b = false := by
      intro b hb
      rw [Bool.eq_false_iff]
      intro hneeds
      exact hplain (List.any_eq_true.mpr ⟨b, hb, hneeds⟩)
    cases field with
    | nil => exact ⟨.fieldStart, fun b hb => if_neg hb, fun rest => rfl⟩
    | cons b more =>
      refine ⟨.inField, fun b _ => rfl, fun rest => ?_⟩
      have hfirst := hbytes b List.mem_cons_self
      have hstep : d.step .fieldStart b = .keep .inField :=
        (if_neg (ne_quote_of_not_needsQuotes hfirst)).trans (plainStep_of_not_needsQuotes hfirst)
      rw [List.cons_append, readFields, hstep]
      dsimp only
      rw [readFields_inField fun c hc => hbytes c (List.mem_cons_of_mem b hc), List.reverse_cons]

/-! ## Records -/

theorem readFields_delimiter (hd : d.IsPlain) (field rest : Bytes) :
    d.readFields .fieldStart [] (d.encodeField field ++ d.delimiter :: rest) =
      (field :: (d.readFields .fieldStart [] rest).1, (d.readFields .fieldStart [] rest).2) := by
  obtain ⟨stand, hstand, hread⟩ := readFields_encodeField hd field
  have hstep : d.step stand d.delimiter = .endField :=
    (hstand _ hd.distinct).trans (if_pos rfl)
  rw [hread, readFields, hstep]
  dsimp only
  rw [List.reverse_reverse]

/-- The end of a line ends the record behind every field. -/
theorem step_lineFeed (hd : d.IsPlain) {stand : Stand} (hstand : d.IsBehind stand) :
    d.step stand lineFeed = .endRecord := by
  have hends : endsLine lineFeed = true := rfl
  have hne : ∀ {b : UInt8}, endsLine b = false → lineFeed ≠ b := by
    rintro b hb rfl
    rw [hends] at hb
    nomatch hb
  exact (hstand _ (hne hd.quote)).trans ((if_neg (hne hd.delimiter)).trans (if_pos hends))

theorem readFields_lineFeed (hd : d.IsPlain) (field rest : Bytes) :
    d.readFields .fieldStart [] (d.encodeField field ++ lineFeed :: rest) = ([field], rest) := by
  obtain ⟨stand, hstand, hread⟩ := readFields_encodeField hd field
  rw [hread, readFields, step_lineFeed hd hstand]
  dsimp only
  rw [List.reverse_reverse]

/-- The fields of a line are read back, and nothing behind the line is touched. -/
theorem readFields_encodeFields (hd : d.IsPlain) {fields : List Bytes} (hne : fields ≠ [])
    (rest : Bytes) :
    d.readFields .fieldStart [] (d.encodeFields fields ++ lineFeed :: rest) = (fields, rest) := by
  induction fields with
  | nil => exact absurd rfl hne
  | cons field more ih =>
    cases more with
    | nil => exact readFields_lineFeed hd field rest
    | cons next more =>
      have hline : d.encodeFields (field :: next :: more) ++ lineFeed :: rest =
          d.encodeField field ++
            d.delimiter :: (d.encodeFields (next :: more) ++ lineFeed :: rest) := by
        rw [encodeFields, List.append_assoc, List.cons_append]
        simp
      rw [hline, readFields_delimiter hd, ih (List.cons_ne_nil _ _)]

/-- No line begins like its end. -/
theorem endsLine_encodeFields (hd : d.IsPlain) (fields : List Bytes) :
    ∀ b ∈ (d.encodeFields fields).head?, endsLine b = false := by
  have hfield : ∀ field : Bytes, ∀ b ∈ (d.encodeField field).head?, endsLine b = false := by
    intro field b hb
    unfold encodeField at hb
    split at hb
    · obtain rfl : d.quote = b := Option.some.inj hb
      exact hd.quote
    · next hplain =>
      have hmem := List.mem_of_mem_head? hb
      rw [Bool.eq_false_iff]
      intro hends
      refine hplain (List.any_eq_true.mpr ⟨b, hmem, ?_⟩)
      unfold needsQuotes
      rw [hends]
      simp
  intro b hb
  cases fields with
  | nil => nomatch hb
  | cons field more =>
    cases more with
    | nil => exact hfield field b hb
    | cons next more =>
      rw [encodeFields] at hb
      · cases hempty : d.encodeField field with
        | nil =>
          rw [hempty] at hb
          obtain rfl : d.delimiter = b := Option.some.inj hb
          exact hd.delimiter
        | cons c rest =>
          rw [hempty] at hb
          exact hfield field b (by rw [hempty]; exact hb)
      · simp

/-- The line of a record, and what is read of it. -/
theorem encodeRecord_eq (hd : d.IsPlain) {fields : List Bytes} (hne : fields ≠ []) :
    ∃ b line, d.encodeRecord fields = b :: line ∧ endsLine b = false ∧ ∀ rest,
      d.readFields .fieldStart [] (b :: line ++ rest) = (fields, rest) := by
  have hread := readFields_encodeFields hd hne
  have hfirst := endsLine_encodeFields hd fields
  unfold encodeRecord
  split
  · next hempty =>
    -- Only a single empty field leaves an empty line, and that one is written in quotes.
    refine ⟨d.quote, [d.quote, lineFeed], rfl, hd.quote, fun rest => ?_⟩
    have hbehind : d.IsBehind .quoteSeen ∧ d.IsBehind .fieldStart :=
      ⟨fun b hb => if_neg hb, fun b hb => if_neg hb⟩
    rw [hempty] at hread
    rw [← hread rest]
    have hopen : d.step .fieldStart d.quote = .pass .inQuotes := if_pos rfl
    have hclose : d.step .inQuotes d.quote = .pass .quoteSeen := if_pos rfl
    rw [List.cons_append, readFields, hopen]
    dsimp only
    rw [List.cons_append, readFields, hclose]
    dsimp only
    rw [List.cons_append, List.nil_append, List.nil_append, readFields, readFields,
      step_lineFeed hd hbehind.1, step_lineFeed hd hbehind.2]
  · next hline =>
    obtain ⟨b, line, hcons⟩ := List.exists_cons_of_ne_nil hline
    refine ⟨b, line ++ [lineFeed], by rw [hcons]; rfl, ?_, fun rest => ?_⟩
    · rw [hcons] at hfirst
      exact hfirst b rfl
    · have := hread rest
      rw [hcons] at this
      simpa using this

/-- The next record is the one that was written. -/
theorem nextRecord?_encodeRecord (hd : d.IsPlain) {fields : List Bytes} (hne : fields ≠ [])
    (rest : Bytes) : d.nextRecord? (d.encodeRecord fields ++ rest) = some (fields, rest) := by
  obtain ⟨b, line, hline, hb, hread⟩ := encodeRecord_eq hd hne
  have hdrop : (b :: (line ++ rest)).dropWhile endsLine = b :: (line ++ rest) :=
    List.dropWhile_cons_of_neg (by rw [hb]; exact Bool.false_ne_true)
  unfold nextRecord?
  rw [hline, List.cons_append, hdrop]
  dsimp only
  rw [← List.cons_append, hread]

theorem encodeRecord_ne_nil (fields : List Bytes) : d.encodeRecord fields ≠ [] := by
  unfold encodeRecord
  split
  · exact List.cons_ne_nil _ _
  · exact List.append_ne_nil_of_right_ne_nil _ (List.cons_ne_nil _ _)

end BulkTransfer.Delimited.Dialect
