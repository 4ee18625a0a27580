import BulkTransfer.Session.Statement

/-!
Names in statements. A name that has neither quotes nor commas is read back from the list in which
it stands, quoted or plain; a name with either is not.

- `Statement.nameIn?_quoteName_iff`: which names are read back for themselves.
- `Statement.names_nameList_iff`: which names are read back from a list.
-/

namespace BulkTransfer

open Text

namespace Statement

/-- A name that a list with commas in brackets can carry. -/
structure IsListable (name : String) : Prop where
  ne_nil : name.toList ≠ []
  no_quote : '"' ∉ name.toList
  no_comma : ',' ∉ name.toList
  no_close : ')' ∉ name.toList

instance (name : String) : Decidable (IsListable name) :=
  decidable_of_iff
    (name.toList ≠ [] ∧ '"' ∉ name.toList ∧ ',' ∉ name.toList ∧ ')' ∉ name.toList)
    ⟨fun h => ⟨h.1, h.2.1, h.2.2.1, h.2.2.2⟩, fun h => ⟨h.1, h.2, h.3, h.4⟩⟩

/-- A name that a list with commas can carry. -/
structure IsSelectable (name : String) : Prop where
  ne_nil : name.toList ≠ []
  no_quote : '"' ∉ name.toList
  no_comma : ',' ∉ name.toList

theorem IsListable.isSelectable {name : String} (h : IsListable name) : IsSelectable name :=
  ⟨h.ne_nil, h.no_quote, h.no_comma⟩

/-! ## One name -/

theorem mem_doubleQuote {quote c : Char} {s : List Char} : c ∈ doubleQuote quote s ↔ c ∈ s := by
  unfold doubleQuote
  rw [List.mem_flatMap]
  constructor
  · rintro ⟨d, hd, hc⟩
    split at hc <;> simp_all
  · intro hc
    exact ⟨c, hc, by split <;> simp⟩

theorem mem_quoteName {c : Char} (hquote : c ≠ '"') {name : List Char} :
    c ∈ quoteName name ↔ c ∈ name := by
  unfold quoteName
  split
  · rfl
  · simp [mem_doubleQuote, hquote]

/-- Quotes that are doubled make a text longer. -/
theorem not_mem_of_doubleQuote_eq {quote : Char} {s : List Char} (h : doubleQuote quote s = s) :
    quote ∉ s := by
  have hlength : (doubleQuote quote s).length = s.length + s.count quote := by
    clear h
    induction s with
    | nil => rfl
    | cons c rest ih =>
      have hcons : doubleQuote quote (c :: rest) =
          (if c = quote then [c, c] else [c]) ++ doubleQuote quote rest := rfl
      rw [hcons, List.length_append, ih, List.count_cons, List.length_cons]
      split
      · next hc => simp [hc]; omega
      · next hc => simp [hc]; omega
  rw [h] at hlength
  exact List.count_eq_zero.mp (by omega)

theorem head?_doubleQuote (quote : Char) (s : List Char) :
    (doubleQuote quote s).head? = s.head? := by
  cases s with
  | nil => rfl
  | cons c rest =>
    rw [doubleQuote, List.flatMap_cons]
    split <;> rfl

theorem getLast?_doubleQuote (quote : Char) (s : List Char) :
    (doubleQuote quote s).getLast? = s.getLast? := by
  have hreverse : (doubleQuote quote s).reverse = doubleQuote quote s.reverse := by
    unfold doubleQuote
    rw [List.reverse_flatMap]
    congr 1
    funext c
    dsimp only [Function.comp]
    split <;> rfl
  rw [← List.head?_reverse, hreverse, head?_doubleQuote, List.head?_reverse]

/-- A plain name stands without quotes, and any other between them. -/
theorem dropEnds_quoteName (name : List Char) :
    dropEnds (· == '"') (trim (quoteName name)) = dropEnds (· == '"') (doubleQuote '"' name) := by
  have hmark : isBlank '"' = false := by decide
  unfold quoteName
  split
  · next hplain =>
    have hchars : ∀ c ∈ name, isBlank c = false :=
      fun c hc => isBlank_of_isPlainNameChar (isPlainNameChar_of_mem hplain c hc)
    have hquote : '"' ∉ name := fun hmem =>
      absurd (isPlainNameChar_of_mem hplain '"' hmem) (by decide)
    rw [trim_eq_dropEnds, dropEnds_eq_self hchars, doubleQuote_of_not_mem hquote]
  · have htrim : trim ('"' :: doubleQuote '"' name ++ ['"']) =
        '"' :: doubleQuote '"' name ++ ['"'] := by
      refine trim_eq_self (fun c hc => ?_) fun c hc => ?_
      · rw [List.cons_append, List.head?_cons, Option.mem_some] at hc
        exact hc ▸ hmark
      · rw [List.getLast?_concat, Option.mem_some] at hc
        exact hc ▸ hmark
    have hquotes : ∀ c ∈ ['"'], (c == '"') = true := List.all_eq_true.mp (by decide)
    rw [htrim]
    exact dropEnds_append_class hquotes hquotes (doubleQuote '"' name)

/-- A name is read back just when it is not empty and has no quotes. -/
theorem nameIn?_quoteName_iff (name : String) :
    Command.nameIn? (quoteName name.toList) = some name ↔
      name.toList ≠ [] ∧ '"' ∉ name.toList := by
  unfold Command.nameIn?
  rw [dropEnds_quoteName]
  constructor
  · intro h
    split at h
    · nomatch h
    · next hne =>
      have hname : dropEnds (· == '"') (doubleQuote '"' name.toList) = name.toList := by
        have htext := congrArg String.toList (Option.some.inj h)
        rwa [String.toList_ofList] at htext
      have hsome : name.toList ≠ [] := fun hnil => hne (hname.trans hnil)
      -- The name has no quotes at its ends, so nothing was dropped at those of its doubled form.
      have hends := ends_dropEnds (· == '"') (doubleQuote '"' name.toList)
      rw [hname] at hends
      have hdoubled : doubleQuote '"' name.toList ≠ [] := by
        intro hnil
        rw [← List.head?_eq_none_iff, head?_doubleQuote, List.head?_eq_none_iff] at hnil
        exact hsome hnil
      have hkept : dropEnds (· == '"') (doubleQuote '"' name.toList) =
          doubleQuote '"' name.toList := by
        have hdrop := dropEnds_append (p := (· == '"')) (s := doubleQuote '"' name.toList)
          (List.forall_mem_nil _) (List.forall_mem_nil _)
          (fun c hc => hends.1 c (by rwa [head?_doubleQuote] at hc))
          (fun c hc => hends.2 c (by rwa [getLast?_doubleQuote] at hc))
          hdoubled
        rwa [List.nil_append, List.append_nil] at hdrop
      exact ⟨hsome, not_mem_of_doubleQuote_eq (hkept.symm.trans hname)⟩
  · rintro ⟨hne, hquote⟩
    obtain ⟨c, rest, hcons⟩ := List.exists_cons_of_ne_nil hne
    have hchars : ∀ d ∈ name.toList, (d == '"') = false := by
      intro d hd
      rw [beq_eq_false_iff_ne]
      rintro rfl
      exact hquote hd
    rw [doubleQuote_of_not_mem hquote, dropEnds_eq_self hchars, hcons]
    dsimp only
    rw [← hcons, String.ofList_toList]

/-! ## Lists of names -/

theorem toList_nameList (list : List String) :
    (nameList list).toList = joinWith [',', ' '] (list.map fun n => quoteName n.toList) := by
  unfold nameList joined
  rw [String.toList_ofList, List.map_map]
  simp [Function.comp_def]

/-- Where no name has commas, the pieces between commas are the names of the list. -/
theorem names_nameList_eq {list : List String} (h : ∀ n ∈ list, ',' ∉ n.toList) :
    names (nameList list).toList =
      (list.map fun n => quoteName n.toList).filterMap Command.nameIn? := by
  unfold names Command.splitNames
  rw [toList_nameList]
  cases list with
  | nil => decide
  | cons first more =>
    have hpieces : ∀ s ∈ (first :: more).map (fun n => quoteName n.toList), ',' ∉ s := by
      intro s hs
      obtain ⟨n, hn, rfl⟩ := List.mem_map.mp hs
      rw [mem_quoteName (by decide)]
      exact h n hn
    rw [List.map_cons] at hpieces ⊢
    rw [splitAll_joinWith hpieces, List.filterMap_cons, List.filterMap_cons, List.filterMap_map]
    rfl

/-- No name that is read from a list has a comma, nor a character that the list lacks. -/
theorem not_mem_of_names {c : Char} {list : List Char} (hc : c = ',' ∨ c ∉ list) {n : String}
    (hn : n ∈ names list) : c ∉ n.toList := by
  obtain ⟨piece, hpiece, hname⟩ := List.mem_filterMap.mp hn
  unfold Command.nameIn? at hname
  split at hname
  · nomatch hname
  · rw [← Option.some.inj hname, String.toList_ofList]
    intro hmem
    have hin : c ∈ piece := mem_of_mem_dropEnds (mem_of_mem_dropEnds hmem)
    obtain ⟨hcomma, hsub⟩ := mem_of_mem_splitAll hpiece
    rcases hc with rfl | hc
    · exact hcomma hin
    · exact hc (hsub c hin)

theorem filterMap_eq_self_iff {α : Type} {f : α → Option α} {l : List α} :
    l.filterMap f = l ↔ ∀ a ∈ l, f a = some a := by
  induction l with
  | nil => simp
  | cons a l ih =>
    rw [List.filterMap_cons, List.forall_mem_cons]
    split
    · next hnone =>
      have hlength := List.length_filterMap_le f l
      constructor
      · intro h
        rw [h, List.length_cons] at hlength
        omega
      · intro h
        rw [hnone] at h
        nomatch h.1
    · next b hb => rw [List.cons.injEq, ih, hb, Option.some.injEq]

/-- Names are read back from the list in which they stand just when the list can carry them. -/
theorem names_nameList_iff {list : List String} :
    names (nameList list).toList = list ↔ ∀ n ∈ list, IsSelectable n := by
  have hread : (∀ n ∈ list, ',' ∉ n.toList) →
      (names (nameList list).toList = list ↔
        ∀ n ∈ list, n.toList ≠ [] ∧ '"' ∉ n.toList) := by
    intro hcomma
    rw [names_nameList_eq hcomma, List.filterMap_map, filterMap_eq_self_iff]
    exact forall₂_congr fun n _ => nameIn?_quoteName_iff n
  constructor
  · intro h
    have hcomma : ∀ n ∈ list, ',' ∉ n.toList := by
      intro n hn
      rw [← h] at hn
      exact not_mem_of_names (.inl rfl) hn
    intro n hn
    obtain ⟨hne, hquote⟩ := (hread hcomma).mp h n hn
    exact ⟨hne, hquote, hcomma n hn⟩
  · intro h
    exact (hread fun n hn => (h n hn).no_comma).mpr fun n hn => ⟨(h n hn).ne_nil, (h n hn).no_quote⟩

theorem close_not_mem_nameList {list : List String} (h : ∀ n ∈ list, ')' ∉ n.toList) :
    ')' ∉ (nameList list).toList := by
  rw [toList_nameList]
  induction list with
  | nil => simp [joinWith]
  | cons first more ih =>
    have hfirst : ')' ∉ quoteName first.toList := by
      rw [mem_quoteName (by decide)]
      exact h first List.mem_cons_self
    have hmore := ih fun n hn => h n (List.mem_cons_of_mem _ hn)
    cases more with
    | nil => exact hfirst
    | cons second rest =>
      rw [List.map_cons, List.map_cons, joinWith]
      · rw [List.map_cons] at hmore
        simp [hfirst, hmore]
      · simp

end Statement

end BulkTransfer
