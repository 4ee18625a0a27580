import BulkTransfer.Source

/-!
Files that were made. Putting a file at a place keeps every way through directories, so a file that
could be made is found again with the content it is given.

- `FileTree.createFile_eq_ok`: what is known of a path at which a file was made.
- `FileTree.look_fill`: the content of a file that was made is found at its path.
-/

namespace BulkTransfer

namespace FileTree

/-- The last component of a path whose name a directory can hold. -/
def EndsInName (path : String) : Prop :=
  ∃ s, (Path.components path).getLast? = some (.name s) ∧ s.utf8ByteSize ≤ maxName

/-- A path at which a file can be made or emptied: the way to it goes through directories, and no
directory stands there. -/
structure HasRoomAt (t : FileTree) (path : String) : Prop where
  fault : pathFault? path = none
  way : t.wayFault? [] (Path.components path).dropLast = none
  last : EndsInName path
  file : namesDirectory path = false
  free : t.hasDirectory (placeOf path) = false

theorem createFile_eq_ok {t made : FileTree} {path : String} (h : t.createFile path = .ok made) :
    t.HasRoomAt path ∧ made = t.put (placeOf path) (.file (.bytes [])) := by
  unfold createFile at h
  split at h
  · nomatch h
  · next hfault =>
    dsimp only at h
    split at h
    · nomatch h
    · next hway =>
      split at h
      · next s hlast =>
        split at h
        · nomatch h
        · next hshort =>
          split at h
          · nomatch h
          · next hfree =>
            rw [Bool.or_eq_true, not_or, Bool.not_eq_true, Bool.not_eq_true] at hfree
            exact ⟨⟨hfault, hway, ⟨s, hlast, Nat.le_of_not_lt hshort⟩, hfree.1, hfree.2⟩,
              (Except.ok.inj h).symm⟩
      · nomatch h

/-- A place without a directory is neither the working directory nor the root. -/
theorem ne_of_hasDirectory_eq_false {t : FileTree} {place : Place}
    (h : t.hasDirectory place = false) : place ≠ [] ∧ place ≠ ["/"] := by
  constructor
  · rintro rfl
    nomatch h
  · rintro rfl
    nomatch h

theorem hasDirectory_put {t : FileTree} {place : Place} (h : t.hasDirectory place = false)
    (content : Content) : (t.put place (.file content)).hasDirectory place = false := by
  obtain ⟨hne, hroot⟩ := ne_of_hasDirectory_eq_false h
  unfold hasDirectory
  rw [node?_put_self hne hroot]

/-- A file in the place of no directory lies on no way through directories. -/
theorem wayFault?_put {t : FileTree} {place : Place} (h : t.hasDirectory place = false)
    (node : Node) {passed : Place} {way : List Path.Component}
    (hway : t.wayFault? passed way = none) : (t.put place node).wayFault? passed way = none := by
  induction way generalizing passed with
  | nil => rfl
  | cons c rest ih =>
    cases c with
    | name s =>
      simp only [wayFault?] at hway ⊢
      split at hway
      · nomatch hway
      · next hshort =>
        rw [if_neg hshort]
        split at hway
        · nomatch hway
        · nomatch hway
        · next hnode =>
          have hne : follow passed (.name s) ≠ place := by
            intro heq
            unfold hasDirectory at h
            rw [← heq, hnode] at h
            nomatch h
          rw [node?_put_of_ne hne, hnode]
          exact ih hway
    | root => exact ih hway
    | here => exact ih hway
    | up => exact ih hway

theorem HasRoomAt.put {t : FileTree} {path : String} (h : t.HasRoomAt path) (content : Content) :
    (t.put (placeOf path) (.file content)).HasRoomAt path :=
  ⟨h.fault, wayFault?_put h.free _ h.way, h.last, h.file, hasDirectory_put h.free content⟩

/-- A file is found where it was put. -/
theorem HasRoomAt.look_put {t : FileTree} {path : String} (h : t.HasRoomAt path)
    (content : Content) :
    (t.put (placeOf path) (.file content)).look path = .ok (.file content) := by
  obtain ⟨hne, hroot⟩ := ne_of_hasDirectory_eq_false h.free
  obtain ⟨s, hlast, hshort⟩ := h.last
  have hlong : ¬ decide (maxName < s.utf8ByteSize) = true := by
    rw [decide_eq_true_iff]
    exact Nat.not_lt.mpr hshort
  unfold look
  rw [h.fault]
  dsimp only
  rw [(h.put content).way, hlast]
  dsimp only
  rw [if_neg hlong, node?_put_self hne hroot]
  dsimp only
  rw [h.file, if_neg Bool.false_ne_true]

/-- A file that was made is found at its path with the content that it was given. -/
theorem look_fill {t made : FileTree} {path : String} (h : t.createFile path = .ok made)
    (content : Content) : (made.fill path content).look path = .ok (.file content) := by
  obtain ⟨hroom, rfl⟩ := createFile_eq_ok h
  exact (hroom.put _).look_put content

theorem isDirectory_fill {t made : FileTree} {path : String} (h : t.createFile path = .ok made)
    (content : Content) : (made.fill path content).isDirectory path = false := by
  unfold isDirectory
  rw [look_fill h]

end FileTree

theorem createFile_of_createExportFile {tree made : FileTree} {path : String}
    (h : createExportFile tree path = .ok made) : tree.createFile path = .ok made := by
  unfold createExportFile at h
  split at h
  · nomatch h
  · next hmade =>
    cases h
    exact hmade

end BulkTransfer
