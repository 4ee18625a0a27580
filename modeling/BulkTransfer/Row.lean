import BulkTransfer.Value.Basic

/-!
Rows: values under column names, in column order.

- `get?_insert_self`, `get?_insert_of_ne`: an insertion is seen at its own name and nowhere else.
- `columns_project`, `getD_project`: a projection has exactly the columns asked for, with the values
  of the row.
- `ofFields_of_nodup`: fields of different names are the row's fields.
- `mem_ofFields`: a row made of fields has no others.
-/

namespace BulkTransfer

/-- One row of a table. -/
structure Row where
  fields : List (String × Value)
  deriving Repr, Inhabited

namespace Row

/-- The row without columns. -/
def empty : Row := ⟨[]⟩

/-- Replaces the value of a name, or puts it last. -/
def put (name : String) (value : Value) : List (String × Value) → List (String × Value)
  | [] => [(name, value)]
  | (n, v) :: rest => if n = name then (n, value) :: rest else (n, v) :: put name value rest

/-- Sets a column, in place of an earlier value of its name. -/
def insert (r : Row) (name : String) (value : Value) : Row := ⟨put name value r.fields⟩

/-- The value of a name in a list of fields. -/
def find? (name : String) : List (String × Value) → Option Value
  | [] => none
  | (n, v) :: rest => if n = name then some v else find? name rest

/-- The value of a column. -/
def get? (r : Row) (name : String) : Option Value := find? name r.fields

/-- The value of a column, absent columns being null. -/
def getD (r : Row) (name : String) : Value := (r.get? name).getD .null

/-- Whether the row has the column. -/
def contains (r : Row) (name : String) : Bool := (r.get? name).isSome

/-- The names of the columns in order. -/
def columns (r : Row) : List String := r.fields.map Prod.fst

/-- The row with exactly the given columns, in this order; missing ones are null. -/
def project (r : Row) (names : List String) : Row := ⟨names.map fun n => (n, r.getD n)⟩

/-- A row from fields, of which a later one of the same name replaces the earlier. -/
def ofFields (fields : List (String × Value)) : Row :=
  fields.foldl (fun r p => r.insert p.1 p.2) empty

@[simp]
theorem get?_insert_self (r : Row) (name : String) (value : Value) :
    (r.insert name value).get? name = some value := by
  simp only [get?, insert]
  induction r.fields with
  | nil => simp [put, find?]
  | cons p rest ih =>
    obtain ⟨n, v⟩ := p
    simp only [put]
    split
    · next h => simp [find?, h]
    · next h => simp [find?, h, ih]

theorem get?_insert_of_ne {name other : String} (h : other ≠ name) (r : Row) (value : Value) :
    (r.insert name value).get? other = r.get? other := by
  simp only [get?, insert]
  induction r.fields with
  | nil => simp [put, find?, Ne.symm h]
  | cons p rest ih =>
    obtain ⟨n, v⟩ := p
    simp only [put]
    split
    · next hn => subst hn; simp [find?, Ne.symm h]
    · simp [find?, ih]

@[simp]
theorem columns_project (r : Row) (names : List String) : (r.project names).columns = names := by
  simp [columns, project, Function.comp_def]

/-- A projection keeps the values of its columns. -/
theorem getD_project (r : Row) {names : List String} {name : String} (h : name ∈ names) :
    (r.project names).getD name = r.getD name := by
  have hfind : ∀ l : List String, name ∈ l →
      find? name (l.map fun n => (n, r.getD n)) = some (r.getD name) := by
    intro l
    induction l with
    | nil => exact fun hmem => (nomatch hmem)
    | cons n more ih =>
      intro hmem
      rw [List.map_cons, find?]
      split
      · next heq => rw [heq]
      · next hne =>
        exact ih ((List.mem_cons.mp hmem).resolve_left fun heq => hne heq.symm)
  unfold getD get? project
  dsimp only
  rw [hfind names h]
  rfl

theorem project_project (r : Row) (names : List String) :
    (r.project names).project names = r.project names := by
  show (⟨names.map fun n => (n, (r.project names).getD n)⟩ : Row) = r.project names
  rw [List.map_congr_left fun n hn => congrArg (Prod.mk n) (r.getD_project hn)]
  rfl

theorem put_of_not_mem {name : String} (value : Value) {fields : List (String × Value)}
    (h : name ∉ fields.map Prod.fst) : put name value fields = fields ++ [(name, value)] := by
  induction fields with
  | nil => rfl
  | cons p rest ih =>
    obtain ⟨n, v⟩ := p
    rw [List.map_cons, List.mem_cons, not_or] at h
    rw [put, if_neg (Ne.symm h.1), ih h.2]
    rfl

theorem foldl_insert_of_nodup {fields : List (String × Value)} (r : Row)
    (h : ((r.fields ++ fields).map Prod.fst).Nodup) :
    fields.foldl (fun r p => r.insert p.1 p.2) r = ⟨r.fields ++ fields⟩ := by
  induction fields generalizing r with
  | nil => rw [List.append_nil]; rfl
  | cons p rest ih =>
    have hnew : p.1 ∉ r.fields.map Prod.fst := by
      rw [List.map_append, List.nodup_append] at h
      intro hmem
      exact h.2.2 _ hmem _ (by simp) rfl
    have hput : r.insert p.1 p.2 = ⟨r.fields ++ [p]⟩ := by
      unfold insert
      rw [put_of_not_mem p.2 hnew]
    rw [List.foldl_cons, hput, ih]
    · simp
    · simpa using h

theorem ofFields_of_nodup {fields : List (String × Value)} (h : (fields.map Prod.fst).Nodup) :
    ofFields fields = ⟨fields⟩ := by
  unfold ofFields
  rw [foldl_insert_of_nodup]
  · rfl
  · exact h

theorem mem_put {name : String} {value : Value} {fields : List (String × Value)}
    {p : String × Value} (h : p ∈ put name value fields) : p = (name, value) ∨ p ∈ fields := by
  induction fields with
  | nil => exact .inl (List.mem_singleton.mp h)
  | cons q rest ih =>
    obtain ⟨n, v⟩ := q
    rw [put] at h
    split at h
    · next hn =>
      rcases List.mem_cons.mp h with rfl | hrest
      · exact .inl (by rw [hn])
      · exact .inr (List.mem_cons_of_mem _ hrest)
    · rcases List.mem_cons.mp h with rfl | hrest
      · exact .inr List.mem_cons_self
      · exact (ih hrest).imp_right (List.mem_cons_of_mem _)

/-- A row made of fields has no others. -/
theorem mem_ofFields {fields : List (String × Value)} {p : String × Value}
    (h : p ∈ (ofFields fields).fields) : p ∈ fields := by
  have hfold : ∀ (more : List (String × Value)) (r : Row),
      p ∈ (more.foldl (fun r q => r.insert q.1 q.2) r).fields → p ∈ r.fields ∨ p ∈ more := by
    intro more
    induction more with
    | nil => exact fun _ hp => .inl hp
    | cons q more ih =>
      intro r hp
      rcases ih (r.insert q.1 q.2) hp with hq | hmore
      · rcases mem_put hq with rfl | hr
        · exact .inr List.mem_cons_self
        · exact .inl hr
      · exact .inr (List.mem_cons_of_mem q hmore)
  exact (hfold fields empty h).resolve_left List.not_mem_nil

/-- Values under the names of columns make the projection on them. -/
theorem ofFields_zip (r : Row) {names : List String} (h : names.Nodup) :
    ofFields (names.zip (names.map r.getD)) = r.project names := by
  have hzip : names.zip (names.map r.getD) = names.map fun n => (n, r.getD n) := by
    induction names with
    | nil => rfl
    | cons n more ih => rw [List.map_cons, List.zip_cons_cons, ih h.of_cons, List.map_cons]
  rw [hzip, ofFields_of_nodup]
  · rfl
  · simpa [Function.comp_def] using h

end Row

end BulkTransfer
