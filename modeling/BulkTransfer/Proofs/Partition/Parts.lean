import BulkTransfer.Partition.Reader
import BulkTransfer.Proofs.Columnar.Taken
import BulkTransfer.Proofs.FileTree.Growth
import BulkTransfer.Proofs.Partition.Entries
import BulkTransfer.Proofs.Partition.Key

/-!
The files of a dataset while it is being written. Each partition has parts, numbered from zero; of
these at most the last one is open, and all others are finished files. Below the root there is no
other file.

- `Stores`: the tree, the parts of all partitions and the open files agree.
- `Stores.finish`, `Stores.openPart`, `Stores.append`, `Stores.flush`: each change of the writer
  keeps this.
-/

namespace BulkTransfer.Partition

open FileTree

/-! ## Places below the root -/

theorem below?_eq_some {root place : Place} {names : List String} :
    below? root place = some names ↔
      place = root ++ names ∧ names ≠ [] ∧ names.head? ≠ some "/" := by
  unfold below?
  constructor
  · intro h
    split at h
    · cases h
    · next htake =>
      have hplace : place = root ++ place.drop root.length := by
        rw [ne_eq, Decidable.not_not] at htake
        exact (List.take_append_drop root.length place).symm.trans (by rw [htake])
      split at h
      · cases h
      · cases h
      · next hne hslash =>
        obtain rfl := Option.some.inj h
        refine ⟨hplace, hne, fun hhead => ?_⟩
        obtain ⟨more, hmore⟩ := List.head?_eq_some_iff.mp hhead
        exact hslash more hmore
  · rintro ⟨rfl, hne, hslash⟩
    rw [if_neg (by simp), List.drop_left]
    split
    · next heq => exact absurd rfl hne
    · exact absurd rfl hslash
    · rfl

/-- A place without any entry below it. -/
def IsBare (tree : FileTree) (place : Place) : Prop :=
  ∀ e ∈ tree.entries, below? place e.1 = none

instance (tree : FileTree) (place : Place) : Decidable (IsBare tree place) :=
  inferInstanceAs (Decidable (∀ e ∈ tree.entries, below? place e.1 = none))

/-- Whether a place is below another. -/
def isBelow (root place : Place) : Bool := (below? root place).isSome

theorem IsBare.isListed {tree : FileTree} {root : Place} (h : IsBare tree root) :
    IsListed (isBelow root) tree := by
  have hnone : (tree.entries.map Prod.fst).filter (isBelow root) = [] := by
    refine List.filter_eq_nil_iff.mpr fun place hplace => ?_
    obtain ⟨e, he, rfl⟩ := List.mem_map.mp hplace
    rw [isBelow, h e he]
    exact Bool.false_ne_true
  unfold IsListed
  rw [hnone]
  exact List.Pairwise.nil

/-- What stands at a place below another is its entry. -/
theorem node?_of_below? {root place : Place} {names : List String}
    (h : below? root place = some names) (tree : FileTree) :
    tree.node? place = FileTree.find? place tree.entries := by
  unfold FileTree.node?
  rw [if_neg]
  rintro (rfl | rfl)
  · cases root <;> cases h
  · obtain ⟨hroot, hne, hslash⟩ := below?_eq_some.mp h
    rcases List.append_eq_singleton_iff.mp hroot.symm with ⟨-, rfl⟩ | ⟨-, rfl⟩
    · exact hslash rfl
    · exact hne rfl

theorem IsBare.node? {tree : FileTree} {root place : Place} {names : List String}
    (h : IsBare tree root) (hplace : below? root place = some names) :
    tree.node? place = none := by
  rw [node?_of_below? hplace, FileTree.find?_eq_none]
  intro hmem
  obtain ⟨e, he, rfl⟩ := List.mem_map.mp hmem
  rw [h e he] at hplace
  cases hplace

/-! ## Paths of parts -/

/-- A key that a row can have. -/
def IsKey (columns : List PartitionColumn) (k : Key) : Prop := ∃ row, Key.ofRow columns row = k

section Paths

variable {columns : List PartitionColumn} (hnames : ∀ c ∈ columns, '/' ∉ c.name.toList)

include hnames

theorem placeOf_partPath (root : String) {k : Key} (hk : IsKey columns k) (n : Nat) :
    placeOf (partPath root k n) = placeOf root ++ partNames k n := by
  obtain ⟨row, rfl⟩ := hk
  exact placeOf_foldl_join root (isName_of_mem_partNames hnames row n)

/-- Different parts stand at different places. -/
theorem placeOf_partPath_inj {root : String} {k l : Key} {m n : Nat} (hk : IsKey columns k)
    (hl : IsKey columns l) (h : placeOf (partPath root k m) = placeOf (partPath root l n)) :
    k = l ∧ m = n := by
  rw [placeOf_partPath hnames root hk, placeOf_partPath hnames root hl] at h
  obtain ⟨row, rfl⟩ := hk
  obtain ⟨row', rfl⟩ := hl
  exact partNames_inj (List.append_cancel_left h)

/-- The names below the root on the way to the place of a part. -/
theorem names_of_below? {root : String} {k : Key} (hk : IsKey columns k) {n : Nat}
    {names : List String} (h : below? (placeOf root) (placeOf (partPath root k n)) = some names) :
    names = partNames k n := by
  rw [placeOf_partPath hnames root hk] at h
  exact (List.append_cancel_left (below?_eq_some.mp h).1).symm

end Paths

/-! ## Parts and their files -/

/-- The parts of all partitions, with other parts of one. -/
def withParts (parts : Key → List (List Row)) (k : Key) (l : List (List Row)) :
    Key → List (List Row) :=
  fun other => if other = k then l else parts other

@[simp]
theorem withParts_self (parts : Key → List (List Row)) (k : Key) (l : List (List Row)) :
    withParts parts k l k = l := if_pos rfl

theorem withParts_of_ne {k other : Key} (h : other ≠ k) (parts : Key → List (List Row))
    (l : List (List Row)) : withParts parts k l other = parts other := if_neg h

theorem withParts_withParts (parts : Key → List (List Row)) (k : Key) (l l' : List (List Row)) :
    withParts (withParts parts k l) k l' = withParts parts k l' := by
  funext other
  by_cases hother : other = k
  · rw [hother, withParts_self, withParts_self]
  · rw [withParts_of_ne hother, withParts_of_ne hother, withParts_of_ne hother]

/-- Another last part leaves the number of parts as it is. -/
theorem length_withParts_last {parts : Key → List (List Row)} {k : Key} {before : List (List Row)}
    {last : List Row} (h : parts k = before ++ [last]) (last' : List Row) (l : Key) :
    (withParts parts k (before ++ [last']) l).length = (parts l).length := by
  by_cases hl : l = k
  · rw [hl, withParts_self, h, List.length_append, List.length_append]
    rfl
  · rw [withParts_of_ne hl]

/-- One more part of a partition has the next number. -/
theorem lt_length_withParts_concat (parts : Key → List (List Row)) (k : Key) (part : List Row)
    (l : Key) (i : Nat) : i < (withParts parts k (parts k ++ [part]) l).length ↔
      i < (parts l).length ∨ l = k ∧ i = (parts k).length := by
  by_cases hl : l = k
  · subst hl
    rw [withParts_self, List.length_append, List.length_singleton, Nat.lt_succ_iff_lt_or_eq]
    exact or_congr_right ⟨fun h => ⟨rfl, h⟩, And.right⟩
  · rw [withParts_of_ne hl]
    exact ⟨.inl, fun h => h.resolve_right fun hk => hl hk.1⟩

theorem lt_length_concat {α : Type} (l : List α) (a : α) : l.length < (l ++ [a]).length := by
  rw [List.length_append, List.length_singleton]
  exact Nat.lt_succ_self _

variable [Columnar.Platform]

/-- An open file was handed the rows of the last part of its partition. -/
def Fills (start : Writer) (parts : List (List Row)) (k : Key) (f : OpenFile) : Prop :=
  ∃ before last, parts = before ++ [last] ∧
    f.path = partPath start.root k before.length ∧
    Columnar.Writer.Took start.dataColumns start.options last f.writer

/-- A finished file that was handed the rows of a part. -/
def IsFinished (start : Writer) (tree : FileTree) (k : Key) (i : Nat) (part : List Row) : Prop :=
  ∃ f, tree.HasFile (partPath start.root k i) (.columnar f) ∧
    Columnar.Writer.Makes start.dataColumns start.options part f

/-- Flushed files have their keys and paths, and their writers are flushed. -/
theorem flushFiles_eq_ok {files files' : List (Key × OpenFile)}
    (h : Writer.flushFiles files = (files', .ok ())) :
    files'.map Prod.fst = files.map Prod.fst ∧
      ∀ e' ∈ files', ∃ e ∈ files, e'.1 = e.1 ∧ e'.2.path = e.2.path ∧
        e.2.writer.flush = (e'.2.writer, .ok ()) := by
  induction files generalizing files' with
  | nil =>
    obtain ⟨rfl, -⟩ := Prod.mk.inj h
    exact ⟨rfl, List.forall_mem_nil _⟩
  | cons e more ih =>
    obtain ⟨key, f⟩ := e
    rw [Writer.flushFiles] at h
    split at h
    · cases h
    · next writer hwriter =>
      obtain ⟨rfl, hrest⟩ := Prod.mk.inj h
      obtain ⟨hkeys, hfiles⟩ := ih (Prod.ext rfl hrest)
      refine ⟨congrArg (key :: ·) hkeys, List.forall_mem_cons.mpr ⟨?_, fun e' he' => ?_⟩⟩
      · exact ⟨(key, f), List.mem_cons_self, rfl, rfl, hwriter⟩
      · obtain ⟨e, he, hflushed⟩ := hfiles e' he'
        exact ⟨e, List.mem_cons_of_mem _ he, hflushed⟩

/-- The tree, the parts of all partitions and the open files agree. -/
structure Stores (start : Writer) (tree : FileTree) (parts : Key → List (List Row))
    (files : List (Key × OpenFile)) : Prop where
  nodup : (files.map Prod.fst).Nodup
  fills : ∀ e ∈ files, Fills start (parts e.1) e.1 e.2
  unfinished : ∀ e ∈ files, tree.HasFile e.2.path (.bytes [])
  /-- A part is finished unless it is the last one and its partition has an open file. -/
  finished : ∀ k i part, (parts k)[i]? = some part →
    i + 1 < (parts k).length ∨ k ∉ files.map Prod.fst → IsFinished start tree k i part
  only : ∀ place names content, below? (placeOf start.root) place = some names →
    tree.node? place = some (.file content) →
      ∃ k i, i < (parts k).length ∧ names = partNames k i
  keys : ∀ k, parts k ≠ [] → IsKey start.columns k
  listed : IsListed (isBelow (placeOf start.root)) tree

/-- A bare root has no parts. -/
theorem IsBare.stores (start : Writer) {tree : FileTree} (h : IsBare tree (placeOf start.root)) :
    Stores start tree (fun _ => []) [] where
  nodup := List.Pairwise.nil
  fills := List.forall_mem_nil _
  unfinished := List.forall_mem_nil _
  finished := by rintro key i rows ⟨⟩
  only := fun place names content hplace hnode => by
    rw [h.node? hplace] at hnode
    cases hnode
  keys := fun _ hne => absurd rfl hne
  listed := h.isListed

namespace Stores

variable {start : Writer} {tree : FileTree} {parts : Key → List (List Row)}
  {files : List (Key × OpenFile)}

theorem ne_nil (h : Stores start tree parts files) {e : Key × OpenFile} (he : e ∈ files) :
    parts e.1 ≠ [] := by
  obtain ⟨before, last, hparts, -⟩ := h.fills e he
  rw [hparts]
  exact List.append_ne_nil_of_right_ne_nil _ (List.cons_ne_nil last [])

/-- More directories leave all files as they are. -/
theorem grown (h : Stores start tree parts files) {tree' : FileTree}
    (hgrown : FileTree.Grown tree tree')
    (hlisted : IsListed (isBelow (placeOf start.root)) tree') :
    Stores start tree' parts files where
  nodup := h.nodup
  fills := h.fills
  unfinished := fun e he => (h.unfinished e he).grown hgrown
  finished := fun k i part hpart hdone => by
    obtain ⟨f, hfile, hmakes⟩ := h.finished k i part hpart hdone
    exact ⟨f, hfile.grown hgrown, hmakes⟩
  only := fun place names content hplace hnode =>
    h.only place names content hplace ((hgrown.file_iff place content).mp hnode)
  keys := h.keys
  listed := hlisted

/-- A row that a file has taken is one more row of the last part. -/
theorem append (h : Stores start tree parts files) {k : Key} {f : OpenFile} (hf : (k, f) ∈ files)
    {before : List (List Row)} {last : List Row} (hparts : parts k = before ++ [last])
    {row : Row} {writer : Columnar.Writer} (hwrite : f.writer.write row = (writer, .ok ())) :
    Stores start tree (withParts parts k (before ++ [last ++ [row]]))
      ((k, { f with writer }) :: remove k files) := by
  have hmoved : ∀ l, l ∈ ((k, { f with writer }) :: remove k files).map Prod.fst ↔
      l ∈ files.map Prod.fst := by
    intro l
    rw [List.map_cons, List.mem_cons, mem_keys_remove]
    constructor
    · rintro (rfl | hmem)
      · exact List.mem_map_of_mem hf
      · exact hmem.1
    · intro hmem
      by_cases hl : l = k
      · exact .inl hl
      · exact .inr ⟨hmem, hl⟩
  have hlength := length_withParts_last hparts (last ++ [row])
  refine ⟨?_, ?_, ?_, ?_, ?_, ?_, h.listed⟩
  · refine List.nodup_cons.mpr ⟨fun hmem => ?_, nodup_remove k h.nodup⟩
    exact (mem_keys_remove.mp hmem).2 rfl
  · refine List.forall_mem_cons.mpr ⟨?_, fun e he => ?_⟩
    · obtain ⟨before', last', hparts', hpath, htook⟩ := h.fills (k, f) hf
      obtain ⟨rfl, hlast⟩ := List.append_inj' (hparts.symm.trans hparts') rfl
      obtain ⟨rfl, -⟩ := List.cons.inj hlast
      rw [withParts_self]
      exact ⟨before, last ++ [row], rfl, hpath, htook.write hwrite⟩
    · obtain ⟨hmem, hne⟩ := mem_remove.mp he
      rw [withParts_of_ne hne]
      exact h.fills e hmem
  · refine List.forall_mem_cons.mpr ⟨h.unfinished (k, f) hf, fun e he => ?_⟩
    exact h.unfinished e (mem_remove.mp he).1
  · intro l i part hpart hdone
    rw [hlength, hmoved] at hdone
    refine h.finished l i part ?_ hdone
    by_cases hl : l = k
    · subst hl
      have hi := hdone.resolve_right fun hnot => hnot (List.mem_map_of_mem hf)
      rw [hparts, List.length_append, List.length_singleton] at hi
      have hbefore : i < before.length := Nat.lt_of_succ_lt_succ hi
      rw [withParts_self, List.getElem?_append_left hbefore] at hpart
      rw [hparts, List.getElem?_append_left hbefore]
      exact hpart
    · rw [withParts_of_ne hl] at hpart
      exact hpart
  · intro place names content hplace hnode
    obtain ⟨l, i, hi, rfl⟩ := h.only place names content hplace hnode
    exact ⟨l, i, (hlength l).symm ▸ hi, rfl⟩
  · intro l hl
    refine h.keys l fun hnil => hl ?_
    rw [← List.length_eq_zero_iff, hlength, hnil]
    rfl

/-- Flushing the open files changes no part. -/
theorem flush (h : Stores start tree parts files) {files' : List (Key × OpenFile)}
    (hflush : Writer.flushFiles files = (files', .ok ())) : Stores start tree parts files' := by
  obtain ⟨hkeys, hfiles⟩ := flushFiles_eq_ok hflush
  refine ⟨hkeys ▸ h.nodup, ?_, ?_, ?_, h.only, h.keys, h.listed⟩
  · intro e' he'
    obtain ⟨e, he, hkey, hpath, hwriter⟩ := hfiles e' he'
    obtain ⟨before, last, hparts, hpath', htook⟩ := h.fills e he
    rw [hkey]
    exact ⟨before, last, hparts, hpath.trans hpath', htook.flush hwriter⟩
  · intro e' he'
    obtain ⟨e, he, -, hpath, -⟩ := hfiles e' he'
    exact hpath ▸ h.unfinished e he
  · rw [hkeys]
    exact h.finished

variable (hnames : ∀ c ∈ start.columns, '/' ∉ c.name.toList)

include hnames

/-- The files of parts stand at other places than that of any other part of a key. -/
theorem placeOf_ne (h : Stores start tree parts files) {k l : Key} {i n : Nat}
    (hk : IsKey start.columns k) (hi : i < (parts l).length) (hne : ¬ (l = k ∧ i = n)) :
    placeOf (partPath start.root l i) ≠ placeOf (partPath start.root k n) := by
  have hl := h.keys l (List.ne_nil_of_length_pos (Nat.zero_lt_of_lt hi))
  exact fun heq => hne (placeOf_partPath_inj hnames hl hk heq)

/-- A finished file has its content, and all others keep theirs. -/
theorem finish (h : Stores start tree parts files) {k : Key} {f : OpenFile} (hf : (k, f) ∈ files)
    {file : Columnar.File} (hfinish : f.writer.finish = .ok file) :
    Stores start (tree.fill f.path (.columnar file)) parts (remove k files) := by
  obtain ⟨before, last, hparts, hpath, htook⟩ := h.fills (k, f) hf
  dsimp only at hparts hpath
  have hopen := h.unfinished (k, f) hf
  have hk := h.keys k (h.ne_nil hf)
  refine ⟨nodup_remove k h.nodup, ?_, ?_, ?_, ?_, h.keys, h.listed.put _ _⟩
  · exact fun e he => h.fills e (mem_remove.mp he).1
  · intro e he
    obtain ⟨hmem, hne⟩ := mem_remove.mp he
    obtain ⟨before', last', hparts', hpath', -⟩ := h.fills e hmem
    refine (h.unfinished e hmem).put_of_ne hopen.hasDirectory ?_ _
    rw [hpath', hpath]
    exact h.placeOf_ne hnames hk (hparts' ▸ lt_length_concat before' last') fun heq => hne heq.1
  · intro l i part hpart hdone
    by_cases hlast : l = k ∧ i = before.length
    · obtain ⟨rfl, rfl⟩ := hlast
      rw [hparts, List.getElem?_concat_length] at hpart
      obtain rfl := Option.some.inj hpart
      rw [IsFinished, ← hpath]
      exact ⟨file, hopen.put _, f.writer, htook, hfinish⟩
    · have hi : i < (parts l).length := (List.getElem?_eq_some_iff.mp hpart).1
      have hbefore : i + 1 < (parts l).length ∨ l ∉ files.map Prod.fst := by
        by_cases hl : l = k
        · subst hl
          rw [hparts, List.length_append, List.length_singleton] at hi ⊢
          have hne : i ≠ before.length := fun heq => hlast ⟨rfl, heq⟩
          left
          omega
        · exact hdone.imp_right fun hmem hin => hmem (mem_keys_remove.mpr ⟨hin, hl⟩)
      obtain ⟨file', hfile', hmakes⟩ := h.finished l i part hpart hbefore
      have hother := h.placeOf_ne hnames hk hi hlast
      exact ⟨file', hfile'.put_of_ne hopen.hasDirectory (hpath ▸ hother) _, hmakes⟩
  · intro place names content hplace hnode
    by_cases heq : place = placeOf f.path
    · subst heq
      rw [hpath] at hplace
      exact ⟨k, before.length, hparts ▸ lt_length_concat before last,
        names_of_below? hnames hk hplace⟩
    · refine h.only place names content hplace ?_
      unfold FileTree.fill at hnode
      rw [node?_put_of_ne heq] at hnode
      exact hnode

/-- A new file is one more part, without rows, and nothing was at its place. -/
theorem openPart (h : Stores start tree parts files) {k : Key} (hk : IsKey start.columns k)
    (hclosed : k ∉ files.map Prod.fst) {made : FileTree}
    (hmade : tree.createFile (partPath start.root k (parts k).length) = .ok made)
    {outlet : Columnar.Outlet} {writer : Columnar.Writer}
    (hnew : Columnar.Writer.into outlet start.dataColumns start.options = .ok writer) :
    Stores start made (withParts parts k (parts k ++ [[]]))
      ((k, ⟨partPath start.root k (parts k).length, writer⟩) :: files) := by
  obtain ⟨hroom, hput⟩ := createFile_eq_ok hmade
  have hkeep : ∀ {l : Key} {i : Nat} {content : Content}, i < (parts l).length →
      tree.HasFile (partPath start.root l i) content →
        made.HasFile (partPath start.root l i) content := by
    intro l i content hi hfile
    have hother := h.placeOf_ne (n := (parts k).length) hnames hk hi fun ⟨hl, hn⟩ =>
      Nat.ne_of_lt (hl ▸ hi) hn
    rw [hput]
    exact hfile.put_of_ne hroom.free hother _
  have hne : ∀ e ∈ files, e.1 ≠ k := by
    rintro e he rfl
    exact hclosed (List.mem_map_of_mem he)
  refine ⟨?_, ?_, ?_, ?_, ?_, ?_, ?_⟩
  · exact List.nodup_cons.mpr ⟨hclosed, h.nodup⟩
  · refine List.forall_mem_cons.mpr ⟨?_, fun e he => ?_⟩
    · rw [withParts_self]
      exact ⟨parts k, [], rfl, rfl, .new hnew⟩
    · rw [withParts_of_ne (hne e he)]
      exact h.fills e he
  · refine List.forall_mem_cons.mpr ⟨hasFile_of_createFile hmade, fun e he => ?_⟩
    obtain ⟨before, last, hparts, hpath, -⟩ := h.fills e he
    have hfile := h.unfinished e he
    rw [hpath] at hfile ⊢
    exact hkeep (hparts ▸ lt_length_concat before last) hfile
  · intro l i part hpart hdone
    have hold : (parts l)[i]? = some part ∧
        (i + 1 < (parts l).length ∨ l ∉ files.map Prod.fst) := by
      by_cases hl : l = k
      · subst hl
        rw [withParts_self] at hpart hdone
        have hi : i + 1 < (parts l ++ [[]]).length :=
          hdone.resolve_right fun hmem => hmem List.mem_cons_self
        rw [List.length_append, List.length_singleton] at hi
        rw [List.getElem?_append_left (by omega)] at hpart
        exact ⟨hpart, .inr hclosed⟩
      · rw [withParts_of_ne hl] at hpart hdone
        exact ⟨hpart, hdone.imp_right fun hmem hin => hmem (List.mem_cons_of_mem _ hin)⟩
    obtain ⟨f, hfile, hmakes⟩ := h.finished l i part hold.1 hold.2
    exact ⟨f, hkeep (List.getElem?_eq_some_iff.mp hold.1).1 hfile, hmakes⟩
  · intro place names content hplace hnode
    by_cases heq : place = placeOf (partPath start.root k (parts k).length)
    · subst heq
      exact ⟨k, (parts k).length, (lt_length_withParts_concat ..).mpr (.inr ⟨rfl, rfl⟩),
        names_of_below? hnames hk hplace⟩
    · rw [hput, node?_put_of_ne heq] at hnode
      obtain ⟨l, i, hi, rfl⟩ := h.only place names content hplace hnode
      exact ⟨l, i, (lt_length_withParts_concat ..).mpr (.inl hi), rfl⟩
  · intro l hl
    by_cases heq : l = k
    · exact heq ▸ hk
    · rw [withParts_of_ne heq] at hl
      exact h.keys l hl
  · rw [hput]
    exact h.listed.put _ _

end Stores

end BulkTransfer.Partition
