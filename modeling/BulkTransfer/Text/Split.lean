import BulkTransfer.Text.Blank

/-!
Cutting texts at separators.

- `cut?_eq_some`: a cut gives back the text before and after the first separator.
- `join_splitAll`: pieces and separators together are the text.
- `splitAll_joinWith`: the pieces of a list with commas are read back, with the blanks before them.
-/

namespace BulkTransfer.Text

/-- The text before and after the first `sep`, if there is one. -/
def cut? (sep : Char) : List Char → Option (List Char × List Char)
  | [] => none
  | c :: rest =>
    if c = sep then some ([], rest)
    else match cut? sep rest with
      | some (before, after) => some (c :: before, after)
      | none => none

/-- The pieces between separators; a text without one is a single piece. -/
def splitAll (sep : Char) : List Char → List (List Char)
  | [] => [[]]
  | c :: rest =>
    if c = sep then [] :: splitAll sep rest
    else match splitAll sep rest with
      | piece :: more => (c :: piece) :: more
      | [] => [[c]]

/-- Pieces with a separator between each two. -/
def joinWith (sep : List Char) : List (List Char) → List Char
  | [] => []
  | [piece] => piece
  | piece :: more => piece ++ sep ++ joinWith sep more

/-- The rest of a text after a given start, if it starts so. -/
def dropStart? : List Char → List Char → Option (List Char)
  | [], s => some s
  | _ :: _, [] => none
  | p :: ps, c :: cs => if p = c then dropStart? ps cs else none

/-- The text before a given end, if it ends so. -/
def dropEnd? (tail s : List Char) : Option (List Char) :=
  (dropStart? tail.reverse s.reverse).map List.reverse

/-- Puts a text in place of every occurrence of a character. -/
def replaceChar (c : Char) (text : List Char) (s : List Char) : List Char :=
  s.flatMap fun d => if d = c then text else [d]

/-- Puts a character in place of every occurrence of a text, from the left. Each step passes at
least one character, so as many steps as characters suffice. -/
def replaceTextIn (part : List Char) (c : Char) : Nat → List Char → List Char
  | 0, s => s
  | _, [] => []
  | steps + 1, d :: rest => match dropStart? part (d :: rest) with
    | some after => c :: replaceTextIn part c steps after
    | none => d :: replaceTextIn part c steps rest

/-- Puts a character in place of every occurrence of a text, from the left. -/
def replaceText (part : List Char) (c : Char) (s : List Char) : List Char :=
  replaceTextIn part c s.length s

/-- Whether a text occurs inside another. -/
def occursIn (part : List Char) : List Char → Bool
  | [] => part.isEmpty
  | c :: rest => (dropStart? part (c :: rest)).isSome || occursIn part rest

/-- Strings joined with a separator. -/
def joined (sep : String) (parts : List String) : String :=
  String.ofList (joinWith sep.toList (parts.map String.toList))

theorem cut?_eq_some {sep : Char} {s before after : List Char}
    (h : cut? sep s = some (before, after)) : s = before ++ sep :: after ∧ sep ∉ before := by
  induction s generalizing before with
  | nil => simp [cut?] at h
  | cons c rest ih =>
    simp only [cut?] at h
    split at h
    · next hc => simp only [Option.some.injEq, Prod.mk.injEq] at h; simp [← h.1, ← h.2, hc]
    · next hc =>
      split at h
      · next b a hr =>
        simp only [Option.some.injEq, Prod.mk.injEq] at h
        obtain ⟨rfl, rfl⟩ := h
        have := ih hr
        refine ⟨by simp [← this.1], ?_⟩
        simp [this.2, Ne.symm hc]
      · simp at h

theorem cut?_append {sep : Char} {before : List Char} (after : List Char) (h : sep ∉ before) :
    cut? sep (before ++ sep :: after) = some (before, after) := by
  induction before with
  | nil => simp [cut?]
  | cons c rest ih =>
    simp only [List.mem_cons, not_or] at h
    simp [cut?, Ne.symm h.1, ih h.2]

theorem cut?_of_not_mem {sep : Char} {s : List Char} (h : sep ∉ s) : cut? sep s = none := by
  induction s with
  | nil => rfl
  | cons c rest ih =>
    rw [List.mem_cons, not_or] at h
    rw [cut?, if_neg (Ne.symm h.1), ih h.2]

theorem not_mem_of_cut?_eq_none {sep : Char} {s : List Char} (h : cut? sep s = none) :
    sep ∉ s := by
  induction s with
  | nil => exact List.not_mem_nil
  | cons c rest ih =>
    simp only [cut?] at h
    split at h
    · nomatch h
    · next hc =>
      split at h
      · nomatch h
      · next hrest =>
        rw [List.mem_cons, not_or]
        exact ⟨Ne.symm hc, ih hrest⟩

theorem splitAll_ne_nil (sep : Char) (s : List Char) : splitAll sep s ≠ [] := by
  cases s with
  | nil => simp [splitAll]
  | cons c rest =>
    simp only [splitAll]
    split
    · simp
    · split <;> simp

theorem join_splitAll (sep : Char) (s : List Char) : joinWith [sep] (splitAll sep s) = s := by
  induction s with
  | nil => rfl
  | cons c rest ih =>
    simp only [splitAll]
    split
    · next hc =>
      match hs : splitAll sep rest with
      | [] => exact absurd hs (splitAll_ne_nil sep rest)
      | piece :: more => rw [← ih, hs, hc]; rfl
    · split
      · next piece more hs =>
        rw [← ih, hs]
        cases more <;> rfl
      · next hs => exact absurd hs (splitAll_ne_nil sep rest)

/-- A piece has the characters of the text and no separator. -/
theorem mem_of_mem_splitAll {sep : Char} {s piece : List Char} (h : piece ∈ splitAll sep s) :
    sep ∉ piece ∧ ∀ c ∈ piece, c ∈ s := by
  induction s generalizing piece with
  | nil =>
    rw [splitAll, List.mem_singleton] at h
    subst h
    exact ⟨List.not_mem_nil, List.forall_mem_nil _⟩
  | cons d rest ih =>
    have hrest : ∀ piece ∈ splitAll sep rest, sep ∉ piece ∧ ∀ c ∈ piece, c ∈ d :: rest :=
      fun piece hp => ⟨(ih hp).1, fun c hc => List.mem_cons_of_mem d ((ih hp).2 c hc)⟩
    rw [splitAll] at h
    split at h
    · rcases List.mem_cons.mp h with rfl | h
      · exact ⟨List.not_mem_nil, List.forall_mem_nil _⟩
      · exact hrest piece h
    · next hd =>
      split at h
      · next first more hsplit =>
        rw [hsplit] at hrest
        rcases List.mem_cons.mp h with rfl | h
        · obtain ⟨hsep, hmem⟩ := hrest first List.mem_cons_self
          refine ⟨?_, List.forall_mem_cons.mpr ⟨List.mem_cons_self, hmem⟩⟩
          rw [List.mem_cons, not_or]
          exact ⟨Ne.symm hd, hsep⟩
        · exact hrest piece (List.mem_cons_of_mem _ h)
      · next hnil => exact absurd hnil (splitAll_ne_nil sep rest)

theorem splitAll_of_not_mem {sep : Char} {s : List Char} (h : sep ∉ s) :
    splitAll sep s = [s] := by
  induction s with
  | nil => rfl
  | cons c rest ih =>
    rw [List.mem_cons, not_or] at h
    rw [splitAll, if_neg (Ne.symm h.1), ih h.2]

theorem splitAll_append {sep : Char} {s : List Char} (rest : List Char) (h : sep ∉ s) :
    splitAll sep (s ++ sep :: rest) = s :: splitAll sep rest := by
  induction s with
  | nil => rw [List.nil_append, splitAll, if_pos rfl]
  | cons c more ih =>
    rw [List.mem_cons, not_or] at h
    rw [List.cons_append, splitAll, if_neg (Ne.symm h.1), ih h.2]

/-- Behind each comma of a list the piece starts with a blank. -/
theorem splitAll_joinWith {first : List Char} {more : List (List Char)}
    (h : ∀ s ∈ first :: more, ',' ∉ s) :
    splitAll ',' (joinWith [',', ' '] (first :: more)) = first :: more.map (' ' :: ·) := by
  have hblank : ∀ s : List Char, ',' ∉ s → ',' ∉ ' ' :: s := by
    intro s hs hmem
    rcases List.mem_cons.mp hmem with heq | htail
    · exact absurd heq (by decide)
    · exact hs htail
  induction more generalizing first with
  | nil => exact splitAll_of_not_mem (h first List.mem_cons_self)
  | cons second rest ih =>
    have hpieces : ∀ s ∈ (' ' :: second) :: rest, ',' ∉ s := by
      intro s hs
      rcases List.mem_cons.mp hs with rfl | htail
      · exact hblank second (h second (List.mem_cons_of_mem _ List.mem_cons_self))
      · exact h s (List.mem_cons_of_mem _ (List.mem_cons_of_mem _ htail))
    have hrest := ih hpieces
    have hsplit : joinWith [',', ' '] (first :: second :: rest) =
        first ++ ',' :: joinWith [',', ' '] ((' ' :: second) :: rest) := by
      cases rest <;> simp [joinWith]
    rw [hsplit, splitAll_append _ (h first List.mem_cons_self), hrest, List.map_cons]

theorem dropStart?_append (start s : List Char) : dropStart? start (start ++ s) = some s := by
  induction start with
  | nil => rfl
  | cons c rest ih => simp [dropStart?, ih]

theorem dropStart?_eq_some {start s rest : List Char} (h : dropStart? start s = some rest) :
    s = start ++ rest := by
  induction start generalizing s with
  | nil => simpa [dropStart?] using h
  | cons p ps ih =>
    cases s with
    | nil => simp [dropStart?] at h
    | cons c cs =>
      simp only [dropStart?] at h
      split at h
      · next hp => simp [hp, ih h]
      · simp at h

end BulkTransfer.Text
