import BulkTransfer.Proofs.FileTree

/-!
What steps on a tree leave as it is. Making directories adds directories and nothing else; making
or filling a file changes this file and nothing else. So files stay where they can be found.

- `FileTree.Grown`: a tree with more directories and the same files.
- `FileTree.grown_makeDirectories`: what making directories gives.
- `FileTree.HasFile`: a file that is found at its path, with its content.
- `FileTree.HasFile.put`: a file takes its new content, and every other file keeps its own.
- `FileTree.SameBut`: the files are the same but at some places.
- `FileTree.look_of_wayFault?`: at the end of a way through directories there is one.
- `FileTree.node?_of_look`: a file that is found stands at the place of its path.
- `FileTree.IsListed`: every place of a class has at most one entry.
-/

namespace BulkTransfer.FileTree

/-- The same nodes, and directories where nothing was. -/
def Grown (t t' : FileTree) : Prop :=
  ∀ p, t'.node? p = t.node? p ∨ t.node? p = none ∧ t'.node? p = some .directory

/-- Every directory is still there. -/
def KeepsDirectories (t t' : FileTree) : Prop :=
  ∀ p, t.node? p = some .directory → t'.node? p = some .directory

theorem Grown.refl (t : FileTree) : Grown t t := fun _ => .inl rfl

theorem Grown.trans {t t' t'' : FileTree} (h : Grown t t') (h' : Grown t' t'') :
    Grown t t'' := by
  intro p
  rcases h' p with heq' | ⟨hnone', hdir'⟩
  · rcases h p with heq | ⟨hnone, hdir⟩
    · exact .inl (heq'.trans heq)
    · exact .inr ⟨hnone, heq'.trans hdir⟩
  · rcases h p with heq | ⟨-, hdir⟩
    · exact .inr ⟨heq ▸ hnone', hdir'⟩
    · rw [hnone'] at hdir
      cases hdir

theorem Grown.keepsDirectories {t t' : FileTree} (h : Grown t t') : KeepsDirectories t t' := by
  intro p hp
  rcases h p with heq | ⟨hnone, -⟩
  · exact heq.trans hp
  · rw [hnone] at hp
    cases hp

/-- The files are the same. -/
theorem Grown.file_iff {t t' : FileTree} (h : Grown t t') (p : Place) (content : Content) :
    t'.node? p = some (.file content) ↔ t.node? p = some (.file content) := by
  rcases h p with heq | ⟨hnone, hdir⟩
  · rw [heq]
  · rw [hnone, hdir]
    constructor <;> intro hfile <;> cases hfile

theorem grown_put_directory {t : FileTree} {place : Place} (h : t.node? place = none) :
    Grown t (t.put place .directory) := by
  have hne : place ≠ [] ∧ place ≠ ["/"] := by
    constructor
    · rintro rfl
      cases h
    · rintro rfl
      cases h
  intro p
  by_cases hp : p = place
  · subst hp
    exact .inr ⟨h, node?_put_self hne.1 hne.2 t _⟩
  · exact .inl (node?_put_of_ne hp t _)

theorem grown_makeWay (t : FileTree) (passed : Place) (way : List Path.Component) :
    Grown t (t.makeWay passed way).1 := by
  induction way generalizing t passed with
  | nil => exact .refl t
  | cons c rest ih =>
    cases c with
    | name s =>
      simp only [makeWay]
      split
      · exact .refl t
      · split
        · exact ih t _
        · exact .refl t
        · next hnone => exact (grown_put_directory hnone).trans (ih _ _)
    | root => exact ih t _
    | here => exact ih t _
    | up => exact ih t _

/-- Making directories adds directories and nothing else. -/
theorem grown_makeDirectories (t : FileTree) (path : String) :
    Grown t (t.makeDirectories path).1 := by
  unfold makeDirectories
  split
  · exact .refl t
  · split
    · exact .refl t
    · exact grown_makeWay t _ _

/-- A way through directories stays one. -/
theorem KeepsDirectories.wayFault? {t t' : FileTree} (h : KeepsDirectories t t')
    {passed : Place} {way : List Path.Component} (hway : t.wayFault? passed way = none) :
    t'.wayFault? passed way = none := by
  induction way generalizing passed with
  | nil => rfl
  | cons c rest ih =>
    cases c with
    | name s =>
      simp only [FileTree.wayFault?] at hway ⊢
      split at hway
      · cases hway
      · next hshort =>
        rw [if_neg hshort]
        split at hway
        · cases hway
        · cases hway
        · next hnode =>
          rw [h _ hnode]
          exact ih hway
    | root => exact ih hway
    | here => exact ih hway
    | up => exact ih hway

/-- A file in the place of no directory takes none away. -/
theorem keepsDirectories_put {t : FileTree} {place : Place} (h : t.hasDirectory place = false)
    (node : Node) : KeepsDirectories t (t.put place node) := by
  intro p hp
  have hne : p ≠ place := by
    rintro rfl
    unfold hasDirectory at h
    rw [hp] at h
    cases h
  rw [node?_put_of_ne hne]
  exact hp

/-! ## Files -/

/-- A file that is found at its path. -/
structure HasFile (t : FileTree) (path : String) (content : Content) : Prop where
  fault : pathFault? path = none
  way : t.wayFault? [] (Path.components path).dropLast = none
  last : EndsInName path
  file : namesDirectory path = false
  node : t.node? (placeOf path) = some (.file content)

namespace HasFile

variable {t t' : FileTree} {path : String} {content : Content}

theorem hasDirectory (h : HasFile t path content) : t.hasDirectory (placeOf path) = false := by
  unfold FileTree.hasDirectory
  rw [h.node]

theorem keep (h : HasFile t path content) (hdirs : KeepsDirectories t t') {content' : Content}
    (hnode : t'.node? (placeOf path) = some (.file content')) : HasFile t' path content' :=
  ⟨h.fault, hdirs.wayFault? h.way, h.last, h.file, hnode⟩

theorem grown (h : HasFile t path content) (hgrown : Grown t t') : HasFile t' path content :=
  h.keep hgrown.keepsDirectories ((hgrown.file_iff _ _).mpr h.node)

/-- A file takes its new content. -/
theorem put (h : HasFile t path content) (content' : Content) :
    HasFile (t.put (placeOf path) (.file content')) path content' := by
  obtain ⟨hne, hroot⟩ := ne_of_hasDirectory_eq_false h.hasDirectory
  exact h.keep (keepsDirectories_put h.hasDirectory _) (node?_put_self hne hroot t _)

/-- Every other file keeps its content. -/
theorem put_of_ne (h : HasFile t path content) {place : Place}
    (hplace : t.hasDirectory place = false) (hne : placeOf path ≠ place) (node : Node) :
    HasFile (t.put place node) path content :=
  h.keep (keepsDirectories_put hplace node) ((node?_put_of_ne hne t node).trans h.node)

theorem look (h : HasFile t path content) : t.look path = .ok (.file content) := by
  obtain ⟨s, hlast, hshort⟩ := h.last
  have hlong : ¬ decide (maxName < s.utf8ByteSize) = true := by
    rw [decide_eq_true_iff]
    exact Nat.not_lt.mpr hshort
  unfold FileTree.look
  rw [h.fault]
  dsimp only
  rw [h.way, hlast]
  dsimp only
  rw [if_neg hlong, h.node]
  dsimp only
  rw [h.file, if_neg Bool.false_ne_true]

end HasFile

/-- A file that was made is there, and is empty. -/
theorem hasFile_of_createFile {t made : FileTree} {path : String}
    (h : t.createFile path = .ok made) : made.HasFile path (.bytes []) := by
  obtain ⟨hroom, rfl⟩ := createFile_eq_ok h
  obtain ⟨hne, hroot⟩ := ne_of_hasDirectory_eq_false hroom.free
  exact ⟨hroom.fault, wayFault?_put hroom.free _ hroom.way, hroom.last, hroom.file,
    node?_put_self hne hroot t _⟩

/-! ## Files of other places -/

/-- No directory is gone, and the files are the same but at some places. -/
structure SameBut (places : List Place) (t t' : FileTree) : Prop where
  directories : KeepsDirectories t t'
  file_iff : ∀ p, p ∉ places → ∀ content,
    t'.node? p = some (.file content) ↔ t.node? p = some (.file content)

theorem Grown.sameBut {t t' : FileTree} (h : Grown t t') (places : List Place) :
    SameBut places t t' :=
  ⟨h.keepsDirectories, fun p _ content => h.file_iff p content⟩

theorem sameBut_put {t : FileTree} {place : Place} (h : t.hasDirectory place = false)
    (node : Node) : SameBut [place] t (t.put place node) := by
  refine ⟨keepsDirectories_put h node, fun p hp content => ?_⟩
  rw [node?_put_of_ne (fun heq => hp (List.mem_singleton.mpr heq))]

theorem SameBut.mono {places places' : List Place} {t t' : FileTree} (h : SameBut places t t')
    (hsubset : places ⊆ places') : SameBut places' t t' :=
  ⟨h.directories, fun p hp => h.file_iff p fun hmem => hp (hsubset hmem)⟩

theorem SameBut.trans {places : List Place} {t t' t'' : FileTree} (h : SameBut places t t')
    (h' : SameBut places t' t'') : SameBut places t t'' :=
  ⟨fun p hp => h'.directories p (h.directories p hp),
    fun p hp content => (h'.file_iff p hp content).trans (h.file_iff p hp content)⟩

theorem SameBut.hasFile {places : List Place} {t t' : FileTree} (h : SameBut places t t')
    {path : String} {content : Content} (hfile : t.HasFile path content)
    (hplace : placeOf path ∉ places) : t'.HasFile path content :=
  hfile.keep h.directories ((h.file_iff _ hplace content).mpr hfile.node)

/-! ## Ways through directories -/

theorem wayFault?_append {t : FileTree} {passed : Place} {way more : List Path.Component}
    (h : t.wayFault? passed (way ++ more) = none) :
    t.wayFault? passed way = none ∧ t.wayFault? (way.foldl follow passed) more = none := by
  induction way generalizing passed with
  | nil => exact ⟨rfl, h⟩
  | cons c rest ih =>
    cases c with
    | name s =>
      simp only [List.cons_append, FileTree.wayFault?] at h ⊢
      split at h
      · cases h
      · next hshort =>
        rw [if_neg hshort]
        split at h
        · cases h
        · cases h
        · exact ih h
    | root => exact ih h
    | here => exact ih h
    | up => exact ih h

/-- A way through directories ends at one, and so do all the names on it. -/
theorem node?_of_wayFault? {t : FileTree} {passed : Place} {way : List Path.Component}
    (hpassed : ∀ n, t.node? (passed.take n) = some .directory)
    (h : t.wayFault? passed way = none) (n : Nat) :
    t.node? ((way.foldl follow passed).take n) = some .directory := by
  induction way generalizing passed with
  | nil => exact hpassed n
  | cons c rest ih =>
    cases c with
    | name s =>
      simp only [FileTree.wayFault?] at h
      split at h
      · cases h
      · split at h
        · cases h
        · cases h
        · next hnode =>
          refine ih (fun m => ?_) h
          rcases Nat.lt_or_ge passed.length m with hlt | hge
          · rw [List.take_of_length_le (by rw [follow, List.length_append]; exact hlt)]
            exact hnode
          · rw [follow, List.take_append_of_le_length hge]
            exact hpassed m
    | root =>
      refine ih (fun m => ?_) h
      cases m with
      | zero => rfl
      | succ m =>
        rw [follow, List.take_succ_cons, List.take_nil]
        rfl
    | here => exact ih hpassed h
    | up =>
      refine ih (fun m => ?_) h
      rw [follow, List.dropLast_eq_take, List.take_take]
      exact hpassed _

/-- At the end of a way through directories there is a directory. -/
theorem look_of_wayFault? {t : FileTree} {path : String} (hfault : pathFault? path = none)
    (h : t.wayFault? [] (Path.components path) = none) : t.look path = .ok .directory := by
  have hnode : t.node? (placeOf path) = some .directory := by
    have htake := node?_of_wayFault? (fun n => by rw [List.take_nil]; rfl) h (placeOf path).length
    rw [← placeOf, List.take_length] at htake
    exact htake
  unfold look
  rw [hfault]
  dsimp only
  rcases List.eq_nil_or_concat (Path.components path) with hnil | ⟨before, last, hlast⟩
  · rw [hnil, List.dropLast_nil, hnode]
    rfl
  · rw [List.concat_eq_append] at hlast
    rw [hlast] at h
    obtain ⟨hway, hend⟩ := wayFault?_append h
    rw [hlast, List.dropLast_concat, hway, List.getLast?_concat, hnode]
    dsimp only
    rw [if_neg]
    split
    · next s hname =>
      obtain rfl := Option.some.inj hname
      simp only [FileTree.wayFault?] at hend
      rw [decide_eq_true_iff]
      intro hlong
      rw [if_pos hlong] at hend
      cases hend
    · exact Bool.false_ne_true

/-- A file that is found stands at the place of its path. -/
theorem node?_of_look {t : FileTree} {path : String} {content : Content}
    (h : t.look path = .ok (.file content)) :
    t.node? (placeOf path) = some (.file content) := by
  unfold look at h
  split at h
  · cases h
  · dsimp only at h
    split at h
    · cases h
    · -- The last component is a name or none, and then its length is looked at.
      split at h
      all_goals
        split at h
        · cases h
        · split at h
          · cases h
          · next hnode =>
            split at h
            · cases h
            · rw [hnode, Except.ok.inj h]
          · cases h

/-! ## Entries -/

/-- Every place of a class has at most one entry. -/
def IsListed (p : Place → Bool) (t : FileTree) : Prop :=
  ((t.entries.map Prod.fst).filter p).Nodup

theorem map_fst_set (place : Place) (node : Node) (l : List (Place × Node)) :
    (set place node l).map Prod.fst =
      if place ∈ l.map Prod.fst then l.map Prod.fst else l.map Prod.fst ++ [place] := by
  induction l with
  | nil => rfl
  | cons e rest ih =>
    obtain ⟨p, n⟩ := e
    rw [set]
    by_cases hp : p = place
    · subst hp
      simp
    · rw [if_neg hp, List.map_cons, ih]
      simp only [List.map_cons, List.mem_cons, Ne.symm hp, false_or]
      split <;> rfl

variable {p : Place → Bool}

theorem IsListed.put {t : FileTree} (h : IsListed p t) (place : Place) (node : Node) :
    IsListed p (t.put place node) := by
  unfold IsListed FileTree.put
  rw [map_fst_set]
  split
  · exact h
  · next hnew =>
    rw [List.filter_append, List.nodup_append]
    refine ⟨h, (List.pairwise_singleton _ place).sublist List.filter_sublist, ?_⟩
    rintro q hq _ hplace rfl
    rw [List.mem_filter, List.mem_singleton] at hplace
    exact hnew (hplace.1 ▸ (List.mem_filter.mp hq).1)

theorem IsListed.makeWay {t : FileTree} (h : IsListed p t) (passed : Place)
    (way : List Path.Component) : IsListed p (t.makeWay passed way).1 := by
  induction way generalizing t passed with
  | nil => exact h
  | cons c rest ih =>
    cases c with
    | name s =>
      simp only [FileTree.makeWay]
      split
      · exact h
      · split
        · exact ih h _
        · exact h
        · exact ih (h.put _ _) _
    | root => exact ih h _
    | here => exact ih h _
    | up => exact ih h _

theorem IsListed.makeDirectories {t : FileTree} (h : IsListed p t) (path : String) :
    IsListed p (t.makeDirectories path).1 := by
  unfold FileTree.makeDirectories
  split
  · exact h
  · split
    · exact h
    · exact h.makeWay _ _

theorem mem_of_find? {place : Place} {node : Node} {l : List (Place × Node)}
    (h : find? place l = some node) : (place, node) ∈ l := by
  induction l with
  | nil => cases h
  | cons e rest ih =>
    obtain ⟨q, n⟩ := e
    rw [find?] at h
    split at h
    · next heq =>
      obtain rfl := Option.some.inj h
      subst heq
      exact List.mem_cons_self
    · exact List.mem_cons_of_mem _ (ih h)

theorem find?_eq_none {place : Place} {l : List (Place × Node)} :
    find? place l = none ↔ place ∉ l.map Prod.fst := by
  induction l with
  | nil => simp [find?]
  | cons e rest ih =>
    obtain ⟨q, n⟩ := e
    rw [find?, List.map_cons, List.mem_cons, not_or]
    split
    · next heq => exact ⟨fun h => absurd h (Option.some_ne_none n), fun h => absurd heq.symm h.1⟩
    · next hne => exact ih.trans ⟨fun h => ⟨Ne.symm hne, h⟩, fun h => h.2⟩

/-- An entry of the class is what stands at its place. -/
theorem IsListed.find?_of_mem {l : List (Place × Node)}
    (h : ((l.map Prod.fst).filter p).Nodup) {e : Place × Node} (he : e ∈ l) (hp : p e.1 = true) :
    find? e.1 l = some e.2 := by
  induction l with
  | nil => cases he
  | cons f rest ih =>
    obtain ⟨q, n⟩ := f
    rw [List.map_cons] at h
    rw [find?]
    rcases List.mem_cons.mp he with rfl | hmem
    · exact if_pos rfl
    · have hrest : e.1 ∈ (rest.map Prod.fst).filter p :=
        List.mem_filter.mpr ⟨List.mem_map_of_mem hmem, hp⟩
      have hne : q ≠ e.1 := by
        rintro rfl
        rw [List.filter_cons_of_pos hp, List.nodup_cons] at h
        exact h.1 hrest
      rw [if_neg hne]
      refine ih (h.sublist ?_) hmem
      exact (List.sublist_cons_self _ _).filter p

end BulkTransfer.FileTree
