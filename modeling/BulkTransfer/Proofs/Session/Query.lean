import BulkTransfer.Proofs.Session.Growth

/-!
The query for all of a table, and the names under which tables are found.

- `Statement.query?_select`: the pieces of the query.
- `Session.query_all`: the answer has every row of the table, with all of its columns.
- `Session.qualify_of_dot`: a name with its keyspace is found under itself.
-/

namespace BulkTransfer

open Text Text.Pattern

namespace Statement

theorem toList_select (table : String) :
    (select table [] none).toList =
      "SELECT".toList ++ (' ' :: '*' :: ' ' :: ("FROM".toList ++ (' ' :: table.toList))) := by
  simp only [select, List.isEmpty_nil, if_true, String.toList_append, List.append_assoc]
  rfl

/-- The query for all of a table is read as what it was made of. -/
theorem query?_select {table : String} (hne : table.toList ≠ [])
    (htable : ∀ c ∈ table.toList, Command.isTableChar c = true) :
    query? (select table [] none).toList = some ⟨['*'], table.toList, none⟩ := by
  have hselect : ∀ c ∈ "SELECT".toList, isKeyLetter c c = true := List.all_eq_true.mp (by decide)
  have hfrom : ∀ c ∈ "FROM".toList, isKeyLetter c c = true := List.all_eq_true.mp (by decide)
  have hfirst : ∀ c ∈ table.toList.head?, isBlank c = false := by
    intro c hc
    exact isBlank_of_isTableChar (htable c (List.mem_of_mem_head? hc))
  have htail : greedySome Command.isTableChar
      (fun t => matchLimit fun limit? => ⟨['*'], t, limit?⟩) table.toList =
        some ⟨['*'], table.toList, none⟩ := by
    have hall : greedySome Command.isTableChar
        (fun t => matchLimit fun limit? => ⟨['*'], t, limit?⟩) (table.toList ++ []) =
          some ⟨['*'], table.toList, none⟩ := greedySome_append hne htable (by simp) rfl
    rwa [List.append_nil] at hall
  rw [toList_select]
  unfold query?
  refine (greedy_of_stop (by simp; decide)).trans ?_
  rw [keyword_append hselect]
  refine someBlanks_space (by simp; decide) ?_
  refine fewest_of_next ?_
  refine someBlanks_space (by simp; decide) ?_
  rw [keyword_append hfrom]
  exact someBlanks_space hfirst htail

end Statement

namespace Session

/-- All rows of a table are found, with all of its columns, up to the failure that is asked for. -/
theorem query_all {s : Session} {table : String} (hne : table.toList ≠ [])
    (htable : ∀ c ∈ table.toList, Command.isTableChar c = true) {t : Table}
    (ht : s.tables.get? (s.qualify table) = some t) :
    s.query (Statement.select table [] none) =
      .ok ⟨t.columns, cutRows s.plan.queryAfter?
        (t.rows.map fun r => r.project (t.columns.map Column.name))⟩ := by
  have hall : projected t.columns ['*'] = .ok t.columns := by
    unfold projected
    rw [if_pos (by decide)]
  unfold query
  rw [Statement.query?_select hne htable]
  dsimp only
  rw [String.ofList_toList, table?_of_get? ht]
  dsimp only
  rw [hall]
  rfl

/-! ## Names of tables -/

theorem eq_of_splitTable {table keyspace name : String}
    (h : splitTable table = (some keyspace, name)) : table = keyspace ++ "." ++ name := by
  unfold splitTable at h
  split at h
  · next before after hcut =>
    obtain ⟨hkeyspace, hname⟩ := Prod.mk.inj h
    rw [← Option.some.inj hkeyspace, ← hname, ← String.toList_inj]
    rw [(cut?_eq_some hcut).1]
    simp
  · nomatch (Prod.mk.inj h).1

theorem eq_of_splitTable_none {table name : String} (h : splitTable table = (none, name)) :
    name = table := by
  unfold splitTable at h
  split at h
  · nomatch (Prod.mk.inj h).1
  · exact (Prod.mk.inj h).2.symm

/-- A name with its keyspace is found under itself, whatever the keyspace of the session. -/
theorem qualify_of_dot (s : Session) {table : String} (h : '.' ∈ table.toList) :
    s.qualify table = lowered table := by
  match hsplit : splitTable table with
  | (some keyspace, name) =>
    unfold qualify
    rw [hsplit]
    rw [eq_of_splitTable hsplit]
    rfl
  | (none, name) =>
    unfold splitTable at hsplit
    split at hsplit
    · nomatch (Prod.mk.inj hsplit).1
    · next hcut => exact absurd h (not_mem_of_cut?_eq_none hcut)

end Session

end BulkTransfer
