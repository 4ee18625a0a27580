import BulkTransfer.Proofs.Partition.Cursor
import BulkTransfer.Proofs.Partition.Written

/-!
Finding a dataset that was written. Each part is found once, and its directories tell the columns
and values of its key; so a filter selects a part just when it selects the rows of its partition.

- `nodup_dataNames`, `mem_dataNames`: the files below a place, each found once.
- `matchesFilter_fileOf`: a filter selects parts by the keys of their rows.
- `IsDataset.discover`: the files found are the parts.
-/

namespace BulkTransfer.Partition

open Text FileTree

/-! ## Files below a place -/

/-- What is found of an entry below a place. -/
def foundNames? (root : Place) (e : Place × Node) : Option (List String) :=
  match e.2, below? root e.1 with
  | .file _, some names => if isDataName (names.getLastD "") then some names else none
  | _, _ => none

theorem dataNames_eq (tree : FileTree) (root : Place) :
    dataNames tree root = (tree.entries.filterMap (foundNames? root)).mergeSort isAtMost := rfl

theorem foundNames?_eq_some {root : Place} {e : Place × Node} {names : List String} :
    foundNames? root e = some names ↔ below? root e.1 = some names ∧
      isDataName (names.getLastD "") = true ∧ ∃ content, e.2 = .file content := by
  obtain ⟨place, node⟩ := e
  unfold foundNames?
  constructor
  · intro h
    split at h
    · next content names' hnode hplace =>
      split at h
      · next hname =>
        obtain rfl := Option.some.inj h
        exact ⟨hplace, hname, content, hnode⟩
      · cases h
    · cases h
  · rintro ⟨hplace, hname, content, hnode⟩
    dsimp only at hplace hnode ⊢
    rw [hnode, hplace]
    dsimp only
    rw [if_pos hname]

/-- A file below a place is found, if its name has the extension. -/
theorem mem_dataNames_of_below? {tree : FileTree} {root : Place} {names : List String}
    {content : Content} (hplace : below? root (root ++ names) = some names)
    (hname : isDataName (names.getLastD "") = true)
    (hnode : tree.node? (root ++ names) = some (.file content)) :
    names ∈ dataNames tree root := by
  rw [dataNames_eq, List.mem_mergeSort, List.mem_filterMap]
  rw [node?_of_below? hplace] at hnode
  exact ⟨_, FileTree.mem_of_find? hnode, foundNames?_eq_some.mpr ⟨hplace, hname, content, rfl⟩⟩

theorem mem_dataNames {tree : FileTree} {root : Place} (h : IsListed (isBelow root) tree)
    {names : List String} :
    names ∈ dataNames tree root ↔ below? root (root ++ names) = some names ∧
      isDataName (names.getLastD "") = true ∧
      ∃ content, tree.node? (root ++ names) = some (.file content) := by
  constructor
  · intro hmem
    rw [dataNames_eq, List.mem_mergeSort, List.mem_filterMap] at hmem
    obtain ⟨e, he, hfound⟩ := hmem
    obtain ⟨hplace, hname, content, hnode⟩ := foundNames?_eq_some.mp hfound
    obtain ⟨heq, -⟩ := below?_eq_some.mp hplace
    rw [← heq]
    refine ⟨hplace, hname, content, ?_⟩
    rw [node?_of_below? hplace, IsListed.find?_of_mem h he (by rw [isBelow, hplace]; rfl), hnode]
  · rintro ⟨hplace, hname, content, hnode⟩
    exact mem_dataNames_of_below? hplace hname hnode

/-- A file is found by the directories on the way to it and its name. -/
theorem mem_dataNames_of_node? {tree : FileTree} {root : Place} {directories : List String}
    {name : String} {content : Content} (hnames : ∀ n ∈ directories ++ [name], Path.IsName n)
    (hdata : isDataName name = true)
    (hnode : tree.node? (root ++ (directories ++ [name])) = some (.file content)) :
    directories ++ [name] ∈ dataNames tree root := by
  refine mem_dataNames_of_below? (below?_eq_some.mpr ⟨rfl, by simp, fun hhead => ?_⟩) ?_ hnode
  · exact (hnames "/" (List.mem_of_head? hhead)).slash (by decide)
  · rw [List.getLastD_eq_getLast?, List.getLast?_concat]
    exact hdata

theorem nodup_dataNames {tree : FileTree} {root : Place} (h : IsListed (isBelow root) tree) :
    (dataNames tree root).Nodup := by
  rw [dataNames_eq, (List.mergeSort_perm _ _).nodup_iff]
  unfold IsListed at h
  rw [List.nodup_iff_pairwise_ne, List.pairwise_filter, List.pairwise_map] at h
  unfold List.Nodup
  rw [List.pairwise_filterMap]
  refine h.imp fun {e e'} hne names hnames names' hnames' heq => ?_
  obtain ⟨hplace, -⟩ := foundNames?_eq_some.mp hnames
  obtain ⟨hplace', -⟩ := foundNames?_eq_some.mp hnames'
  have hbelow : isBelow root e.1 = true := by rw [isBelow, hplace]; rfl
  have hbelow' : isBelow root e'.1 = true := by rw [isBelow, hplace']; rfl
  refine hne hbelow hbelow' ?_
  rw [(below?_eq_some.mp hplace).1, (below?_eq_some.mp hplace').1, heq]

/-! ## What directories tell -/

/-- The name of a part has the extension of columnar files. -/
theorem isDataName_partName (n : Nat) : isDataName (Writer.partName n) = true := by
  have hreverse : (Writer.partName n).toList.reverse =
      "teuqrap".toList ++ '.' :: ("part-".toList ++ Integer.padded 5 n).reverse := by
    rw [toList_partName, ← List.append_assoc, List.reverse_append]
    rfl
  have hne : ("part-".toList ++ Integer.padded 5 n).reverse ≠ [] := by
    rw [ne_eq, List.reverse_eq_nil_iff]
    exact List.append_ne_nil_of_left_ne_nil (by decide) _
  obtain ⟨c, more, hcons⟩ := List.exists_cons_of_ne_nil hne
  have hextension : Path.extensionOf? (Writer.partName n) = some "parquet" := by
    unfold Path.extensionOf?
    rw [hreverse, cut?_append _ (by decide), hcons]
    rfl
  unfold isDataName
  rw [hextension]
  decide

/-- A directory of a key tells its column and its value. -/
theorem segmentValue?_segment {n v : String} (hne : n.toList ≠ []) (hequals : '=' ∉ n.toList) :
    segmentValue? (Key.segment (n, v)) = some (n, unescape? v) := by
  unfold segmentValue?
  rw [Key.toList_segment, cut?_append _ hequals]
  obtain ⟨c, more, hcons⟩ := List.exists_cons_of_ne_nil hne
  dsimp only
  rw [hcons]
  dsimp only
  rw [← hcons, String.ofList_toList, String.ofList_toList]

/-- Partition columns whose names a directory can tell. -/
structure AreTold (columns : List PartitionColumn) : Prop where
  ne_nil : ∀ c ∈ columns, c.name.toList ≠ []
  slash : ∀ c ∈ columns, '/' ∉ c.name.toList
  equals : ∀ c ∈ columns, '=' ∉ c.name.toList

/-- The columns and values that a key tells. -/
def Key.values (k : Key) : List (String × Option String) := k.map fun p => (p.1, unescape? p.2)

/-- The file of a part. -/
def fileOf (root : String) (p : Key × Nat) : DataFile := dataFile root (partNames p.1 p.2)

/-- The directories of a key tell its columns and values. -/
theorem filterMap_segments {columns : List PartitionColumn} (h : AreTold columns) {k : Key}
    (hk : IsKey columns k) : (k.map Key.segment).filterMap segmentValue? = k.values := by
  obtain ⟨row, rfl⟩ := hk
  have htold : ∀ p ∈ Key.ofRow columns row,
      segmentValue? (Key.segment p) = some (p.1, unescape? p.2) := by
    intro p hp
    obtain ⟨c, hc, rfl⟩ := List.mem_map.mp hp
    exact segmentValue?_segment (h.ne_nil c hc) (h.equals c hc)
  unfold Key.values
  generalize Key.ofRow columns row = k at htold
  induction k with
  | nil => rfl
  | cons p more ih =>
    rw [List.map_cons, List.filterMap_cons_some (htold p List.mem_cons_self), List.map_cons,
      ih fun q hq => htold q (List.mem_cons_of_mem p hq)]

/-- The directories of a part tell the columns and values of its key. -/
theorem values_fileOf {columns : List PartitionColumn} (h : AreTold columns) (root : String)
    {k : Key} (hk : IsKey columns k) (n : Nat) : (fileOf root (k, n)).values = k.values := by
  unfold fileOf dataFile partNames
  dsimp only
  rw [List.dropLast_concat, filterMap_segments h hk]

/-! ## Filters -/

/-- Whether a row has all partition values that a filter asks for. Values are compared as their
directories tell them. -/
def isSelected (columns : List PartitionColumn) (filter : List (String × String)) (row : Row) :
    Bool :=
  filter.all fun (name, wanted) => columns.any fun c =>
    c.name == name && (unescape? (escape (c.value row))).getD nullValue == wanted

/-- Whether a key has all values that a filter asks for. -/
def Key.isSelected (filter : List (String × String)) (k : Key) : Bool :=
  filter.all fun (name, wanted) => k.values.any fun (n, v) =>
    n == name && v.getD nullValue == wanted

theorem isSelected_ofRow (columns : List PartitionColumn) (filter : List (String × String))
    (row : Row) : (Key.ofRow columns row).isSelected filter = isSelected columns filter row := by
  unfold Key.isSelected isSelected Key.values Key.ofRow
  simp only [List.map_map, List.any_map, Function.comp_def]

/-- A filter selects a part by the key of its rows. -/
theorem matchesFilter_fileOf {columns : List PartitionColumn} (h : AreTold columns) (root : String)
    {k : Key} (hk : IsKey columns k) (n : Nat) (filter : List (String × String)) :
    (fileOf root (k, n)).matchesFilter filter = k.isSelected filter := by
  unfold DataFile.matchesFilter
  rw [values_fileOf h root hk n]
  rfl

theorem filter_fileOf {columns : List PartitionColumn} (h : AreTold columns) (root : String)
    {listing : List (Key × Nat)} (hkeys : ∀ p ∈ listing, IsKey columns p.1)
    (filter : List (String × String)) :
    (listing.map (fileOf root)).filter (fun f => f.matchesFilter filter) =
      (listing.filter fun p => p.1.isSelected filter).map (fileOf root) := by
  rw [List.filter_map]
  refine congrArg (List.map _) (List.filter_congr fun p hp => ?_)
  exact matchesFilter_fileOf h root (hkeys p hp) p.2 filter

/-! ## Columns that directories would add -/

/-- Names that add nothing to rows: derived ones, and those of columns that rows have. -/
def AddsNothing (columns : List Column) (name : String) : Prop :=
  isDotted name = true ∨ name ∈ columns.map Column.name

theorem isDotted_of_parse {spec : String} {c : PartitionColumn}
    (h : PartitionColumn.parse spec = .ok c) : isDotted c.name = true ∨ c.name = c.source := by
  unfold PartitionColumn.parse at h
  dsimp only at h
  split at h
  · obtain rfl := Except.ok.inj h
    exact .inr rfl
  · next source part hcut =>
    split at h
    · obtain rfl := Except.ok.inj h
      left
      unfold isDotted
      rw [String.toList_ofList, List.contains_iff_mem, (cut?_eq_some hcut).1]
      exact List.mem_append_right _ List.mem_cons_self
    · cases h

theorem mem_parseColumns {specs : List String} {columns : List PartitionColumn}
    (h : parseColumns specs = .ok columns) :
    ∀ c ∈ columns, ∃ spec, PartitionColumn.parse spec = .ok c := by
  unfold parseColumns at h
  induction specs generalizing columns with
  | nil =>
    obtain rfl := Except.ok.inj h
    exact List.forall_mem_nil _
  | cons spec more ih =>
    rw [List.mapM_cons] at h
    obtain ⟨c, hc, h⟩ := bind_eq_ok.mp h
    obtain ⟨rest, hrest, h⟩ := bind_eq_ok.mp h
    obtain rfl := Except.ok.inj h
    exact List.forall_mem_cons.mpr ⟨⟨spec, hc⟩, ih hrest⟩

/-- Partition columns are columns of the rows, or derived from one. -/
theorem addsNothing_of_columnsFor {columns : List Column} {options : Options}
    {partition : List PartitionColumn} (h : columnsFor columns options = .ok partition) :
    ∀ c ∈ partition, AddsNothing columns c.name := by
  unfold columnsFor at h
  split at h
  · cases h
  · cases h
  · next read hne hread =>
    split at h
    · cases h
    · next hmissing =>
      obtain rfl := Except.ok.inj h
      intro c hc
      obtain ⟨spec, hspec⟩ := mem_parseColumns hread c hc
      refine (isDotted_of_parse hspec).imp_right fun heq => ?_
      unfold missingSource? at hmissing
      rw [Option.map_eq_none_iff, List.find?_eq_none] at hmissing
      have hfound := hmissing c hc
      rw [Option.isNone_iff_eq_none] at hfound
      obtain ⟨column, hcolumn⟩ := Option.ne_none_iff_exists'.mp hfound
      unfold Column.find? at hcolumn
      have hsource := List.find?_some hcolumn
      rw [heq, ← beq_iff_eq.mp hsource]
      exact List.mem_map_of_mem (List.mem_of_find?_eq_some hcolumn)

theorem datasetColumns_eq {columns : List Column} {values : List (String × Option String)}
    (h : ∀ p ∈ values, AddsNothing columns p.1) : datasetColumns columns values = columns := by
  unfold datasetColumns
  induction values with
  | nil => rfl
  | cons p more ih =>
    have hskip : (isDotted p.1 || (Column.find? columns p.1).isSome) = true := by
      rw [Bool.or_eq_true]
      refine (h p List.mem_cons_self).imp_right fun hmem => ?_
      obtain ⟨c, hc, heq⟩ := List.mem_map.mp hmem
      exact List.find?_isSome.mpr ⟨c, hc, beq_iff_eq.mpr heq⟩
    rw [List.foldl_cons]
    dsimp only
    rw [if_pos hskip]
    exact ih fun q hq => h q (List.mem_cons_of_mem p hq)

theorem contains_project {names : List String} {name : String} (h : name ∈ names) (row : Row) :
    (row.project names).contains name = true := by
  unfold Row.contains Row.get? Row.project
  dsimp only
  induction names with
  | nil => cases h
  | cons n more ih =>
    rw [List.map_cons, Row.find?]
    by_cases hn : n = name
    · rw [if_pos hn]
      rfl
    · rw [if_neg hn]
      exact ih ((List.mem_cons.mp h).resolve_left (Ne.symm hn))

/-- Rows keep their values, and get no column. -/
theorem complete_project {columns : List Column} {f : DataFile}
    (h : ∀ p ∈ f.values, AddsNothing columns p.1) (row : Row) :
    complete f.extra (row.project (columns.map Column.name)) =
      row.project (columns.map Column.name) := by
  have hextra : ∀ p ∈ f.extra, p.1 ∈ columns.map Column.name := by
    intro p hp
    obtain ⟨q, hq, hsome⟩ := List.mem_filterMap.mp hp
    dsimp only at hsome
    split at hsome
    · cases hsome
    · next hdotted =>
      obtain rfl := Option.some.inj hsome
      exact (h q hq).resolve_left hdotted
  unfold complete
  generalize f.extra = extra at hextra
  induction extra with
  | nil => rfl
  | cons p more ih =>
    rw [List.foldl_cons]
    dsimp only
    rw [if_pos (contains_project (hextra p List.mem_cons_self) row)]
    exact ih fun q hq => hextra q (List.mem_cons_of_mem p hq)

/-! ## The parts of a dataset -/

/-- Names that all come from a function come from a list. -/
theorem exists_map_eq {α β : Type} {f : α → β} {p : α → Prop} {l : List β}
    (h : ∀ b ∈ l, ∃ a, p a ∧ b = f a) : ∃ l' : List α, l = l'.map f ∧ ∀ a ∈ l', p a := by
  induction l with
  | nil => exact ⟨[], rfl, List.forall_mem_nil _⟩
  | cons b more ih =>
    obtain ⟨a, ha, rfl⟩ := h b List.mem_cons_self
    obtain ⟨rest, rfl, hrest⟩ := ih fun c hc => h c (List.mem_cons_of_mem _ hc)
    exact ⟨a :: rest, rfl, List.forall_mem_cons.mpr ⟨ha, hrest⟩⟩

section Dataset

variable [Columnar.Platform] {start : Writer} {tree : FileTree} {rows : List Row}
  {parts : Key → List (List Row)}

/-- A dataset with rows has a part. -/
theorem IsDataset.exists_part (h : IsDataset start tree rows parts) (hne : rows ≠ []) :
    ∃ k, 0 < (parts k).length := by
  obtain ⟨row, more, rfl⟩ := List.exists_cons_of_ne_nil hne
  have hparts := (ne_nil_iff_exists (h.split _) (h.filled _)).mpr
    ⟨row, List.mem_cons_self, (rfl : Key.ofRow start.columns row = _)⟩
  exact ⟨_, List.length_pos_iff.mpr hparts⟩

variable (hnames : ∀ c ∈ start.columns, '/' ∉ c.name.toList)

include hnames

/-- The files that are found are the parts. -/
theorem IsDataset.mem_dataNames (h : IsDataset start tree rows parts) {names : List String} :
    names ∈ dataNames tree (placeOf start.root) ↔
      ∃ k i, i < (parts k).length ∧ names = partNames k i := by
  constructor
  · intro hmem
    obtain ⟨hplace, -, content, hnode⟩ := (Partition.mem_dataNames h.listed).mp hmem
    exact h.only _ names content hplace hnode
  · rintro ⟨k, i, hi, rfl⟩
    obtain ⟨row, rfl⟩ := h.isKey hi
    obtain ⟨f, hfile, -⟩ := h.finished _ i _ (List.getElem?_eq_getElem hi)
    have hnode := hfile.node
    rw [placeOf_partPath hnames start.root ⟨row, rfl⟩] at hnode
    exact mem_dataNames_of_node? (isName_of_mem_partNames hnames row i) (isDataName_partName i)
      hnode

/-- The root of a dataset with rows is a directory. -/
theorem IsDataset.look_root (h : IsDataset start tree rows parts) (hne : rows ≠ [])
    (hfault : pathFault? start.root = none) : tree.look start.root = .ok .directory := by
  obtain ⟨k, hk⟩ := h.exists_part hne
  obtain ⟨f, hfile, -⟩ := h.finished k 0 _ (List.getElem?_eq_getElem hk)
  obtain ⟨row, rfl⟩ := h.isKey hk
  have hway := hfile.way
  rw [partPath, Path.components_foldl_join _ (isName_of_mem_partNames hnames row 0),
    List.dropLast_append_of_ne_nil (by simp [partNames])] at hway
  exact look_of_wayFault? hfault (wayFault?_append hway).1

/-- The files that are found, as the parts that they are. -/
theorem IsDataset.exists_listing (h : IsDataset start tree rows parts) :
    ∃ listing : List (Key × Nat),
      dataNames tree (placeOf start.root) = listing.map (fun p => partNames p.1 p.2) ∧
      listing.Nodup ∧ ∀ k i, (k, i) ∈ listing ↔ i < (parts k).length := by
  have hparts : ∀ names ∈ dataNames tree (placeOf start.root),
      ∃ p : Key × Nat, p.2 < (parts p.1).length ∧ names = partNames p.1 p.2 := by
    intro names hmem
    obtain ⟨k, i, hi, heq⟩ := (h.mem_dataNames hnames).mp hmem
    exact ⟨(k, i), hi, heq⟩
  obtain ⟨listing, hlisting, hlengths⟩ := exists_map_eq hparts
  refine ⟨listing, hlisting, ?_, fun k i => ⟨fun hmem => hlengths _ hmem, fun hi => ?_⟩⟩
  · have hnodup := nodup_dataNames h.listed
    rw [hlisting] at hnodup
    refine (List.pairwise_map.mp hnodup).imp fun hne heq => hne ?_
    rw [heq]
  · have hmem := (h.mem_dataNames hnames).mpr ⟨k, i, hi, rfl⟩
    rw [hlisting] at hmem
    obtain ⟨⟨l, j⟩, hl, heq⟩ := List.mem_map.mp hmem
    obtain ⟨row, rfl⟩ := h.isKey hi
    obtain ⟨row', rfl⟩ := h.isKey (hlengths _ hl)
    obtain ⟨hkey, rfl⟩ := partNames_inj heq
    exact hkey ▸ hl

/-- All parts of a dataset are found, each once. -/
theorem IsDataset.discover (h : IsDataset start tree rows parts) (hne : rows ≠ [])
    (hfault : pathFault? start.root = none) :
    ∃ first others, Partition.discover tree start.root =
        .ok (fileOf start.root first :: others.map (fileOf start.root)) ∧
      (first :: others).Nodup ∧ ∀ k i, (k, i) ∈ first :: others ↔ i < (parts k).length := by
  obtain ⟨listing, hlisting, hnodup, hmem⟩ := h.exists_listing hnames
  obtain ⟨k, hk⟩ := h.exists_part hne
  obtain ⟨first, others, rfl⟩ :=
    List.exists_cons_of_ne_nil (List.ne_nil_of_mem ((hmem k 0).mpr hk))
  refine ⟨first, others, ?_, hnodup, hmem⟩
  unfold Partition.discover
  rw [h.look_root hnames hne hfault, hlisting, List.map_map]
  rfl

end Dataset

end BulkTransfer.Partition
