import BulkTransfer.Proofs.Partition.Discovery

/-!
Directories of keys. The components of a directory are the columns of its key, each with one equals
sign between name and value, so the key can be told from the directory. A file in the directory of
a key is found with the columns and values of this key and of no other.

- `Key.components_directory`: the components of the directory, in the order of the columns.
- `pairOf?_segment`: a component is taken apart at its first equals sign.
- `Key.not_prefix_of_ne`: the directories of different keys do not lie in one another.
- `Key.join_join_directory`: the path of a file in the directory, by the names on the way to it.
- `directories_tell_keys`: all of this together.
-/

namespace BulkTransfer.Partition

open Text

/-! ## Components -/

/-- The name and the value of a component, apart at its first equals sign. -/
def pairOf? (c : Path.Component) : Option (String × String) :=
  (cut? '=' c.text.toList).map fun (name, value) => (String.ofList name, String.ofList value)

/-- A value may have equals signs, but a name has none. -/
theorem pairOf?_segment {p : String × String} (h : '=' ∉ p.1.toList) :
    pairOf? (.name (Key.segment p)) = some p := by
  unfold pairOf?
  rw [Path.Component.text, Key.toList_segment, cut?_append _ h, Option.map_some]
  dsimp only
  rw [String.ofList_toList, String.ofList_toList]

namespace Key

variable {columns : List PartitionColumn}

/-- Joining keeps every directory of a key as one component. -/
theorem components_directory (hnames : ∀ c ∈ columns, '/' ∉ c.name.toList) (row : Row) :
    Path.components (ofRow columns row).directory =
      ((ofRow columns row).map segment).map .name := by
  rw [directory, Path.components_foldl_join "" (isName_of_mem_segments hnames row)]
  rfl

theorem map_pairOf?_components (h : AreTold columns) (row : Row) :
    (Path.components (ofRow columns row).directory).map pairOf? =
      (ofRow columns row).map some := by
  rw [components_directory h.slash, List.map_map, List.map_map]
  refine List.map_congr_left fun p hp => ?_
  obtain ⟨c, hc, rfl⟩ := List.mem_map.mp hp
  exact pairOf?_segment (h.equals c hc)

/-- Keys of the same columns have as many directories, so none lies in another. -/
theorem not_prefix_of_ne (hnames : ∀ c ∈ columns, '/' ∉ c.name.toList) {row row' : Row}
    (hne : ofRow columns row ≠ ofRow columns row') :
    ¬ Path.components (ofRow columns row).directory <+:
      Path.components (ofRow columns row').directory := by
  intro hbelow
  rw [components_directory hnames, components_directory hnames] at hbelow
  have hlength : (((ofRow columns row).map segment).map Path.Component.name).length =
      (((ofRow columns row').map segment).map Path.Component.name).length := by
    simp only [ofRow, List.length_map]
  have hsegments := (List.map_inj_right fun _ _ => Path.Component.name.inj).mp
    (hbelow.eq_of_length hlength)
  exact hne (ofRow_inj hsegments)

/-! ## Files in the directory of a key -/

/-- The path of a file in the directory of a key, by the names on the way to it. -/
theorem join_join_directory (hnames : ∀ c ∈ columns, '/' ∉ c.name.toList) (root : String)
    (row : Row) (name : String) :
    Path.join (Path.join root (ofRow columns row).directory) name =
      ((ofRow columns row).map segment ++ [name]).foldl Path.join root := by
  rw [List.foldl_append]
  by_cases hcolumns : columns = []
  · subst hcolumns
    exact Path.join_join_empty root name
  · rw [join_directory hnames hcolumns]
    rfl

end Key

/-- The files below a root that is a directory. -/
theorem discover_of_look {tree : FileTree} {root : String}
    (hroot : tree.look root = .ok .directory) :
    discover tree root =
      .ok ((dataNames tree (FileTree.placeOf root)).map (dataFile root)) := by
  unfold discover
  rw [hroot]

/-- A file in the directory of a key is found by the names on the way to it. -/
theorem mem_dataNames_of_look {columns : List PartitionColumn}
    (hnames : ∀ c ∈ columns, '/' ∉ c.name.toList) {row : Row} {tree : FileTree}
    {root name : String} {content : Content} (hname : Path.IsName name)
    (hdata : isDataName name = true)
    (hfile : tree.look (Path.join (Path.join root (Key.ofRow columns row).directory) name) =
      .ok (.file content)) :
    (Key.ofRow columns row).map Key.segment ++ [name] ∈
      dataNames tree (FileTree.placeOf root) := by
  have hway := Key.isName_of_mem_concat hnames row hname
  have hnode := FileTree.node?_of_look hfile
  rw [Key.join_join_directory hnames, FileTree.placeOf_foldl_join root hway] at hnode
  exact mem_dataNames_of_node? hway hdata hnode

/-- The values of a file are told by the directory that it is found in. -/
theorem values_dataFile {columns : List PartitionColumn} (h : AreTold columns) (root : String)
    (row : Row) {names : List String}
    (hnames : names.dropLast = (Key.ofRow columns row).map Key.segment) :
    (dataFile root names).values =
      columns.map fun c => (c.name, unescape? (escape (c.value row))) := by
  unfold dataFile
  dsimp only
  rw [hnames, filterMap_segments h ⟨row, rfl⟩, Key.values, Key.ofRow, List.map_map]
  rfl

/-- The components of a directory are the names and escaped values of its key, so the directories of
different keys are different, and none lies in another. Where a data file stands in the directory
of a key, reading the root finds it, and every file that is found there, with the names and values
of this key in the order of the columns. -/
theorem directories_tell_keys {columns : List PartitionColumn} (h : AreTold columns)
    (row row' : Row) :
    let key := Key.ofRow columns row
    let other := Key.ofRow columns row'
    let values := columns.map fun c => (c.name, unescape? (escape (c.value row)))
    (Path.components key.directory).map pairOf? = key.map some ∧
    (key ≠ other → key.directory ≠ other.directory ∧
      ¬ Path.components key.directory <+: Path.components other.directory ∧
      ¬ Path.components other.directory <+: Path.components key.directory) ∧
    ∀ (tree : FileTree) (root name : String) (content : Content),
      tree.look root = .ok .directory → Path.IsName name → isDataName name = true →
      tree.look (Path.join (Path.join root key.directory) name) = .ok (.file content) →
      ∃ files, discover tree root = .ok files ∧
        ⟨Path.join (Path.join root key.directory) name, key.map Key.segment ++ [name], values⟩
          ∈ files ∧
        ∀ f ∈ files, f.names.dropLast = key.map Key.segment → f.values = values := by
  intro key other values
  refine ⟨Key.map_pairOf?_components h row, fun hne => ?_, ?_⟩
  · have hdirectory := Key.not_prefix_of_ne h.slash hne
    refine ⟨fun heq => ?_, hdirectory, Key.not_prefix_of_ne h.slash hne.symm⟩
    rw [heq] at hdirectory
    exact hdirectory List.prefix_rfl
  · intro tree root name content hroot hname hdata hfile
    refine ⟨_, discover_of_look hroot, ?_, ?_⟩
    · refine List.mem_map.mpr ⟨_, mem_dataNames_of_look h.slash hname hdata hfile, ?_⟩
      have hvalues : (dataFile root (key.map Key.segment ++ [name])).values = values :=
        values_dataFile h root row (List.dropLast_concat ..)
      rw [Key.join_join_directory h.slash, ← hvalues]
      rfl
    · intro f hf hnames
      obtain ⟨names, -, rfl⟩ := List.mem_map.mp hf
      exact values_dataFile h root row hnames

/-- A value with a slash, an equals sign and a line feed is one directory, and comes back. -/
theorem directories_tell_keys_slash :
    let columns : List PartitionColumn := [⟨"k", "k", none⟩, ⟨"at.year", "at", some .year⟩]
    let row : Row := ⟨[("k", .text "../a=b\n"), ("at", .instant ⟨-1, 0⟩)]⟩
    let empty : Row := ⟨[("k", .text ""), ("at", .instant ⟨-1, 0⟩)]⟩
    let tree : FileTree := ⟨[(["d"], .directory), (["d", "k=..__SLASH__a__EQ__b\n"], .directory),
      (["d", "k=..__SLASH__a__EQ__b\n", "at.year=1969"], .directory),
      (["d", "k=..__SLASH__a__EQ__b\n", "at.year=1969", "x.Parquet"], .file (.bytes []))]⟩
    AreTold columns ∧
    (Path.components (Key.ofRow columns row).directory).map pairOf? =
      [some ("k", "..__SLASH__a__EQ__b\n"), some ("at.year", "1969")] ∧
    ¬ Path.components (Key.ofRow columns empty).directory <+:
      Path.components (Key.ofRow columns row).directory ∧
    ∃ files, discover tree "d" = .ok files ∧ ∃ f ∈ files,
      f.values = [("k", some "../a=b\n"), ("at.year", some "1969")] := by
  intro columns row empty tree
  have htold : AreTold columns := ⟨by decide, by decide, by decide⟩
  obtain ⟨hpairs, hother, hreport⟩ := directories_tell_keys htold row empty
  have hkey : Key.ofRow columns row = [("k", "..__SLASH__a__EQ__b\n"), ("at.year", "1969")] := by
    decide +kernel
  have hne : Key.ofRow columns row ≠ Key.ofRow columns empty := by decide +kernel
  have hpath : Path.join (Path.join "d" (Key.ofRow columns row).directory) "x.Parquet" =
      "d/k=..__SLASH__a__EQ__b\n/at.year=1969/x.Parquet" := by decide +kernel
  have hplace : FileTree.placeOf "d/k=..__SLASH__a__EQ__b\n/at.year=1969/x.Parquet" =
      ["d", "k=..__SLASH__a__EQ__b\n", "at.year=1969", "x.Parquet"] := by decide +kernel
  have hroot : tree.look "d" = .ok .directory :=
    FileTree.look_of_wayFault? (by decide +kernel) (by decide +kernel)
  have hfile : tree.HasFile "d/k=..__SLASH__a__EQ__b\n/at.year=1969/x.Parquet" (.bytes []) := by
    refine ⟨by decide +kernel, by decide +kernel, ⟨"x.Parquet", ?_, ?_⟩, ?_, hplace ▸ rfl⟩
    · decide +kernel
    · decide +kernel
    · decide +kernel
  obtain ⟨files, hfiles, hmem, -⟩ := hreport tree "d" "x.Parquet" (.bytes []) hroot
    ⟨by decide, by decide, by decide, by decide⟩ (by decide +kernel) (hpath ▸ hfile.look)
  refine ⟨htold, ?_, (hother hne).2.2, files, hfiles, _, hmem, by decide +kernel⟩
  rw [hpairs, hkey]
  rfl

end BulkTransfer.Partition
