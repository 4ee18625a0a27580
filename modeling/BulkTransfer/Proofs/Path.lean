import BulkTransfer.FileTree

/-!
Paths that are put together from names. A name below a path is one more component of the path,
whatever the path is, so it leads to a place one step further down.

- `Path.components_join`: the components of a path with a name below it.
- `FileTree.placeOf_foldl_join`: the place that a path with several names below it leads to.
- `Path.join_foldl_join`: the names may be joined with each other first.
-/

namespace BulkTransfer

open Text

namespace Path

/-- A text that is one component of a path, and not a mark for a directory. -/
structure IsName (s : String) : Prop where
  slash : '/' ∉ s.toList
  ne_nil : s.toList ≠ []
  ne_here : s.toList ≠ ['.']
  ne_up : s.toList ≠ ['.', '.']

theorem splitAll_append_sep (sep : Char) (s t : List Char) :
    splitAll sep (s ++ sep :: t) = splitAll sep s ++ splitAll sep t := by
  induction s with
  | nil =>
    show splitAll sep (sep :: t) = [[]] ++ splitAll sep t
    rw [splitAll, if_pos rfl]
    rfl
  | cons c s ih =>
    rw [List.cons_append, splitAll, splitAll]
    by_cases hc : c = sep
    · rw [if_pos hc, if_pos hc, ih]
      rfl
    · rw [if_neg hc, if_neg hc, ih]
      cases hs : splitAll sep s with
      | nil => exact absurd hs (splitAll_ne_nil sep s)
      | cons piece more => rfl

/-! ## Components -/

/-- What stands in front of the names of a path. -/
def lead (absolute : Bool) (pieces : List (List Char)) : List Component :=
  if absolute then [.root]
  else match pieces with
    | ['.'] :: _ => [.here]
    | _ => []

theorem lead_false_of_ne {pieces : List (List Char)} (h : ∀ more, pieces ≠ ['.'] :: more) :
    lead false pieces = [] := by
  unfold lead
  rw [if_neg Bool.false_ne_true]
  split
  · exact absurd rfl (h _)
  · rfl

theorem components_eq (path : String) :
    components path = lead (isAbsolute path) (splitAll '/' path.toList) ++
      (splitAll '/' path.toList).filterMap component? := by
  unfold components
  dsimp only
  generalize splitAll '/' path.toList = pieces
  by_cases habsolute : isAbsolute path = true
  · rw [if_pos habsolute, habsolute]
    rfl
  · rw [if_neg habsolute, Bool.eq_false_iff.mpr habsolute]
    split
    · rfl
    · next hne =>
      rw [lead_false_of_ne fun more heq => hne more heq]
      rfl

theorem lead_append (absolute : Bool) {pieces : List (List Char)} (h : pieces ≠ [])
    (more : List (List Char)) : lead absolute (pieces ++ more) = lead absolute pieces := by
  obtain ⟨piece, rest, rfl⟩ := List.exists_cons_of_ne_nil h
  unfold lead
  split
  · rfl
  · rw [List.cons_append]
    split
    · next heq =>
      obtain ⟨rfl, -⟩ := List.cons.inj heq
      rfl
    · next hne =>
      split
      · next heq =>
        obtain ⟨rfl, -⟩ := List.cons.inj heq
        exact absurd rfl (hne _)
      · rfl

namespace IsName

variable {s : String}

theorem component? (h : IsName s) : Path.component? s.toList = some (.name s) := by
  unfold Path.component?
  rw [List.isEmpty_eq_false_iff.mpr h.ne_nil, beq_eq_false_iff_ne.mpr h.ne_here,
    beq_eq_false_iff_ne.mpr h.ne_up, String.ofList_toList]
  rfl

theorem isAbsolute (h : IsName s) : Path.isAbsolute s = false := by
  unfold Path.isAbsolute
  split
  · next heq =>
    have hslash := h.slash
    rw [heq] at hslash
    exact absurd List.mem_cons_self hslash
  · rfl

theorem endsInSlash (h : IsName s) : Path.endsInSlash s = false := by
  unfold Path.endsInSlash
  split
  · next c hlast =>
    rw [beq_eq_false_iff_ne]
    rintro rfl
    exact h.slash (List.mem_of_getLast? hlast)
  · rfl

theorem components (h : IsName s) : Path.components s = [.name s] := by
  rw [components_eq, splitAll_of_not_mem h.slash, h.isAbsolute,
    List.filterMap_cons_some h.component?, List.filterMap_nil,
    lead_false_of_ne fun more heq => h.ne_here (List.cons.inj heq).1]
  rfl

end IsName

theorem isAbsolute_append {s t : String} (h : s.toList ≠ []) :
    isAbsolute (s ++ t) = isAbsolute s := by
  obtain ⟨c, more, hcons⟩ := List.exists_cons_of_ne_nil h
  unfold isAbsolute
  rw [String.toList_append, hcons, List.cons_append]
  split <;> split <;> simp_all

theorem isEmpty_eq_false {s : String} (h : s.toList ≠ []) : s.isEmpty = false := by
  rw [Bool.eq_false_iff]
  intro hempty
  exact h (String.toList_eq_nil_iff.mpr (String.isEmpty_iff.mp hempty))

theorem exists_of_endsInSlash {s : String} (h : endsInSlash s = true) :
    ∃ before, s.toList = before ++ ['/'] := by
  unfold endsInSlash at h
  split at h
  · next c hlast =>
    obtain ⟨before, hbefore⟩ := List.getLast?_eq_some_iff.mp hlast
    obtain rfl := beq_iff_eq.mp h
    exact ⟨before, hbefore⟩
  · cases h

/-- A name below a path is one more component. -/
theorem components_join (base : String) {s : String} (h : IsName s) :
    components (join base s) = components base ++ [.name s] := by
  unfold join
  rw [h.isAbsolute, if_neg Bool.false_ne_true]
  by_cases hempty : base.toList = []
  · obtain rfl : base = "" := String.toList_eq_nil_iff.mp hempty
    exact h.components
  rw [isEmpty_eq_false hempty, Bool.false_or]
  split
  · next hslash =>
    obtain ⟨before, hbefore⟩ := exists_of_endsInSlash hslash
    have hbase : splitAll '/' base.toList = splitAll '/' before ++ [[]] := by
      rw [hbefore, splitAll_append_sep]
      rfl
    have hjoin : splitAll '/' (base ++ s).toList = splitAll '/' before ++ [s.toList] := by
      rw [String.toList_append, hbefore, List.append_assoc, List.singleton_append,
        splitAll_append_sep, splitAll_of_not_mem h.slash]
    rw [components_eq, components_eq base, hjoin, hbase, isAbsolute_append hempty,
      lead_append _ (splitAll_ne_nil _ _), lead_append _ (splitAll_ne_nil _ _),
      List.filterMap_append, List.filterMap_append, List.filterMap_cons_some h.component?,
      List.filterMap_nil, List.append_assoc, List.append_assoc]
    rfl
  · have hjoin : splitAll '/' (base ++ "/" ++ s).toList =
        splitAll '/' base.toList ++ [s.toList] := by
      rw [String.toList_append, String.toList_append, List.append_assoc,
        ← splitAll_of_not_mem h.slash]
      exact splitAll_append_sep '/' base.toList s.toList
    rw [components_eq, components_eq base, hjoin, String.append_assoc, isAbsolute_append hempty,
      lead_append _ (splitAll_ne_nil _ _), List.filterMap_append,
      List.filterMap_cons_some h.component?, List.filterMap_nil, List.append_assoc]

theorem components_foldl_join (base : String) {names : List String}
    (h : ∀ n ∈ names, IsName n) :
    components (names.foldl join base) = components base ++ names.map .name := by
  induction names generalizing base with
  | nil => exact (List.append_nil _).symm
  | cons n names ih =>
    rw [List.foldl_cons, ih _ fun m hm => h m (List.mem_cons_of_mem n hm),
      components_join base (h n List.mem_cons_self), List.append_assoc, List.map_cons,
      List.singleton_append]

/-! ## Joining -/

/-- A relative path to which a name is joined with a slash. -/
structure IsStem (s : String) : Prop where
  ne_nil : s.toList ≠ []
  relative : isAbsolute s = false
  no_slash : endsInSlash s = false

theorem IsName.isStem {s : String} (h : IsName s) : IsStem s :=
  ⟨h.ne_nil, h.isAbsolute, h.endsInSlash⟩

theorem endsInSlash_append {s t : String} (h : t.toList ≠ []) :
    endsInSlash (s ++ t) = endsInSlash t := by
  have hlast : (s ++ t).toList.getLast? = t.toList.getLast? := by
    rw [String.toList_append, List.getLast?_append, List.getLast?_eq_some_getLast h,
      Option.some_or]
  unfold endsInSlash
  rw [hlast]

theorem join_of_no_slash {s n : String} (hs : s.toList ≠ []) (hslash : endsInSlash s = false)
    (hn : isAbsolute n = false) : join s n = s ++ ("/" ++ n) := by
  unfold join
  rw [hn, if_neg Bool.false_ne_true, isEmpty_eq_false hs, hslash, Bool.or_self,
    if_neg Bool.false_ne_true, String.append_assoc]

theorem IsStem.join {s : String} (h : IsStem s) {n : String} (hn : IsName n) :
    IsStem (Path.join s n) := by
  rw [join_of_no_slash h.ne_nil h.no_slash hn.isAbsolute]
  refine ⟨?_, ?_, ?_⟩
  · rw [String.toList_append]
    exact List.append_ne_nil_of_left_ne_nil h.ne_nil _
  · rw [isAbsolute_append h.ne_nil, h.relative]
  · have hne : ("/" ++ n).toList ≠ [] := by
      rw [String.toList_append]
      exact List.cons_ne_nil _ _
    rw [endsInSlash_append hne, endsInSlash_append hn.ne_nil, hn.endsInSlash]

/-- What is put in front of a relative path below another. -/
theorem exists_join_eq (base : String) :
    ∃ start, ∀ s, isAbsolute s = false → join base s = start ++ s := by
  by_cases hbase : (base.isEmpty || endsInSlash base) = true
  · refine ⟨base, fun s hs => ?_⟩
    unfold join
    rw [hs, if_neg Bool.false_ne_true, if_pos hbase]
  · refine ⟨base ++ "/", fun s hs => ?_⟩
    unfold join
    rw [hs, if_neg Bool.false_ne_true, if_neg hbase]

/-- Names may be joined with each other before they are joined with what stands before them. -/
theorem join_foldl_join (base : String) {s : String} (hs : IsStem s) {names : List String}
    (h : ∀ n ∈ names, IsName n) :
    join base (names.foldl join s) = names.foldl join (join base s) := by
  induction names generalizing s with
  | nil => rfl
  | cons n names ih =>
    have hn := h n List.mem_cons_self
    obtain ⟨start, hstart⟩ := exists_join_eq base
    have hjoin : join base (join s n) = join (join base s) n := by
      have hne : (start ++ s).toList ≠ [] := by
        rw [String.toList_append]
        exact List.append_ne_nil_of_right_ne_nil _ hs.ne_nil
      have hslash : endsInSlash (start ++ s) = false := by
        rw [endsInSlash_append hs.ne_nil, hs.no_slash]
      rw [hstart _ (hs.join hn).relative, hstart s hs.relative,
        join_of_no_slash hs.ne_nil hs.no_slash hn.isAbsolute,
        join_of_no_slash hne hslash hn.isAbsolute, String.append_assoc]
    rw [List.foldl_cons, List.foldl_cons, ← hjoin]
    exact ih (hs.join hn) fun m hm => h m (List.mem_cons_of_mem n hm)

/-- The empty path below another changes nothing of what stands below it. -/
theorem join_join_empty (base name : String) : join (join base "") name = join base name := by
  have hempty : isAbsolute "" = false := rfl
  unfold join
  rw [hempty, if_neg Bool.false_ne_true]
  by_cases habsolute : isAbsolute name = true
  · rw [if_pos habsolute, if_pos habsolute]
  rw [if_neg habsolute, if_neg habsolute]
  by_cases hbase : (base.isEmpty || endsInSlash base) = true
  · rw [if_pos hbase, String.append_empty, if_pos hbase]
  · have hslash : endsInSlash (base ++ "/") = true := by
      rw [endsInSlash_append (by decide)]
      rfl
    rw [if_neg hbase, String.append_empty, hslash, Bool.or_true, if_pos rfl, if_neg hbase]

end Path

namespace FileTree

theorem foldl_follow_names (place : Place) (names : List String) :
    (names.map Path.Component.name).foldl follow place = place ++ names := by
  induction names generalizing place with
  | nil => exact (List.append_nil place).symm
  | cons n names ih =>
    rw [List.map_cons, List.foldl_cons, ih]
    exact List.append_assoc place [n] names

/-- Names below a path lead to a place below its place. -/
theorem placeOf_foldl_join (base : String) {names : List String}
    (h : ∀ n ∈ names, Path.IsName n) :
    placeOf (names.foldl Path.join base) = placeOf base ++ names := by
  unfold placeOf
  rw [Path.components_foldl_join base h, List.foldl_append, foldl_follow_names]

end FileTree

end BulkTransfer
