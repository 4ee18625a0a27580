import BulkTransfer.ColumnType.Reader

/-!
Spellings of column types are read as the type. The brackets of a spelling match, so that only the
commas between its own arguments cut it into pieces, and letter case, blanks and `frozen<…>` change
nothing.

- `ColumnType.isNameable`: types that their written form tells.
- `ColumnType.Spells`: the texts that spell a type.
- `ColumnType.spells_render`: the written form of a type spells it.
- `ColumnType.Spells.isRead`: a text that spells a type is read as the type.
- `ColumnType.ofString?_render`: the written form of a type is read as the type.
-/

namespace BulkTransfer.ColumnType

open Text

mutual

/-- Whether a type is told by its written form: no part is a type that the user defined, tuples have
items, and dimensions are numbers of 64 bits. -/
def isBuiltIn : ColumnType → Bool
  | list e | set e => e.isBuiltIn
  | map k v => k.isBuiltIn && v.isBuiltIn
  | tuple items => !items.isEmpty && areBuiltIn items
  | vector e n => e.isBuiltIn && decide (n ≤ Integer.maxUnsigned64)
  | userDefined _ => false
  | _ => true

/-- Whether all types are told by their written forms. -/
def areBuiltIn : List ColumnType → Bool
  | [] => true
  | t :: more => t.isBuiltIn && areBuiltIn more

end

/-- Whether a name tells a type that the user defined: it has no brackets, commas, quotes or blanks
around it, and is no name of another type in any case. -/
def isUserName (name : List Char) : Bool :=
  name.all (fun c => !List.contains ['<', '>', ',', '"'] c) && trim name == name &&
    !("varchar" :: scalarNames.map Prod.fst).contains (String.ofList (lower name))

theorem isUserName_iff {name : List Char} : isUserName name = true ↔
    (∀ c ∈ name, c ∉ ['<', '>', ',', '"']) ∧ trim name = name ∧
      String.ofList (lower name) ∉ "varchar" :: scalarNames.map Prod.fst := by
  simp only [isUserName, Bool.and_eq_true, List.all_eq_true, Bool.not_eq_true',
    List.contains_eq_mem, decide_eq_false_iff_not, beq_iff_eq, and_assoc]

mutual

/-- Whether a type is told by its written form: names that the user gave are told from others, tuples
have items, and dimensions are numbers of 64 bits. -/
def isNameable : ColumnType → Bool
  | list e | set e => e.isNameable
  | map k v => k.isNameable && v.isNameable
  | tuple items => !items.isEmpty && areNameable items
  | vector e n => e.isNameable && decide (n ≤ Integer.maxUnsigned64)
  | userDefined name => isUserName name.toList
  | _ => true

/-- Whether all types are told by their written forms. -/
def areNameable : List ColumnType → Bool
  | [] => true
  | t :: more => t.isNameable && areNameable more

end

theorem isNameable_of_mem {types : List ColumnType} (h : areNameable types = true) :
    ∀ t ∈ types, t.isNameable = true := by
  induction types with
  | nil => exact List.forall_mem_nil _
  | cons t more ih =>
    rw [areNameable, Bool.and_eq_true] at h
    exact List.forall_mem_cons.mpr ⟨h.1, ih h.2⟩

mutual

theorem isNameable_of_isBuiltIn : ∀ t : ColumnType, t.isBuiltIn = true → t.isNameable = true
  | list e, h | set e, h => isNameable_of_isBuiltIn e h
  | map k v, h => by
    rw [isBuiltIn, Bool.and_eq_true] at h
    rw [isNameable, isNameable_of_isBuiltIn k h.1, isNameable_of_isBuiltIn v h.2]
    rfl
  | tuple items, h => by
    rw [isBuiltIn, Bool.and_eq_true] at h
    rw [isNameable, h.1, areNameable_of_areBuiltIn items h.2]
    rfl
  | vector e n, h => by
    rw [isBuiltIn, Bool.and_eq_true] at h
    rw [isNameable, isNameable_of_isBuiltIn e h.1, h.2]
    rfl
  | userDefined _, h => absurd h Bool.false_ne_true
  | ascii, _ | text, _ | bigint, _ | int, _ | smallint, _ | tinyint, _ | varint, _ | counter, _
  | float, _ | double, _ | decimal, _ | boolean, _ | blob, _ | timestamp, _ | date, _ | time, _
  | duration, _ | uuid, _ | timeuuid, _ | inet, _ => rfl

theorem areNameable_of_areBuiltIn :
    ∀ types : List ColumnType, areBuiltIn types = true → areNameable types = true
  | [], _ => rfl
  | t :: more, h => by
    rw [areBuiltIn, Bool.and_eq_true] at h
    rw [areNameable, isNameable_of_isBuiltIn t h.1, areNameable_of_areBuiltIn more h.2]
    rfl

end

/-! ## Matching brackets -/

theorem splitArguments_open (depth : Nat) (rest : List Char) :
    splitArguments depth ('<' :: rest) = (splitArguments (depth + 1) rest).map (consFirst '<') := by
  rw [splitArguments.eq_def]
  exact if_pos rfl

theorem splitArguments_close (depth : Nat) (rest : List Char) :
    splitArguments (depth + 1) ('>' :: rest) = (splitArguments depth rest).map (consFirst '>') := by
  rw [splitArguments.eq_def]
  rfl

/-- Characters other than brackets, and commas inside them, cut nothing. -/
theorem splitArguments_kept {depth : Nat} {c : Char} (hopen : c ≠ '<') (hclose : c ≠ '>')
    (hcomma : ¬ (c = ',' ∧ depth = 0)) (rest : List Char) :
    splitArguments depth (c :: rest) = (splitArguments depth rest).map (consFirst c) := by
  rw [splitArguments.eq_def]
  exact (if_neg hopen).trans ((if_neg hclose).trans (if_neg hcomma))

theorem splitArguments_comma (rest : List Char) :
    splitArguments 0 (',' :: rest) = (splitArguments 0 rest).map ([] :: ·) := by
  rw [splitArguments.eq_def]
  rfl

/-- Puts a text in front of the first piece. -/
def prepend (s : List Char) (pieces : List (List Char)) : List (List Char) :=
  s.foldr consFirst pieces

/-- A text that stays in one piece at the given depths of brackets. -/
def IsClosed (least : Nat) (s : List Char) : Prop :=
  ∀ depth, least ≤ depth → ∀ rest,
    splitArguments depth (s ++ rest) = (splitArguments depth rest).map (prepend s)

theorem IsClosed.nil (least : Nat) : IsClosed least [] := by
  intro depth _ rest
  exact Option.map_id'.symm

theorem IsClosed.append {least : Nat} {s t : List Char} (hs : IsClosed least s)
    (ht : IsClosed least t) : IsClosed least (s ++ t) := by
  intro depth hdepth rest
  have hboth : prepend (s ++ t) = prepend s ∘ prepend t := by
    funext pieces
    exact List.foldr_append
  rw [List.append_assoc, hs depth hdepth, ht depth hdepth, Option.map_map, hboth]

theorem IsClosed.of_chars {s : List Char} (h : ∀ c ∈ s, c ≠ '<' ∧ c ≠ '>' ∧ c ≠ ',') :
    IsClosed 0 s := by
  induction s with
  | nil => exact .nil 0
  | cons c more ih =>
    obtain ⟨hopen, hclose, hcomma⟩ := h c List.mem_cons_self
    intro depth hdepth rest
    rw [List.cons_append, splitArguments_kept hopen hclose fun hc => hcomma hc.1,
      ih (fun d hd => h d (List.mem_cons_of_mem c hd)) depth hdepth, Option.map_map]
    rfl

theorem IsClosed.mono {s : List Char} (h : IsClosed 0 s) (least : Nat) : IsClosed least s :=
  fun depth _ => h depth (Nat.zero_le depth)

/-- A comma inside brackets cuts nothing. -/
theorem IsClosed.comma : IsClosed 1 [','] := by
  intro depth hdepth rest
  have hinside : ¬ (',' = ',' ∧ depth = 0) := by omega
  exact splitArguments_kept (by decide) (by decide) hinside rest

/-- A text in brackets stays in one piece if it does so inside brackets. -/
theorem IsClosed.brackets {s : List Char} (h : IsClosed 1 s) : IsClosed 0 ('<' :: s ++ ['>']) := by
  intro depth _ rest
  have hboth : prepend ('<' :: s ++ ['>']) = consFirst '<' ∘ prepend s ∘ consFirst '>' := by
    funext pieces
    unfold prepend
    rw [List.cons_append, List.foldr_cons, List.foldr_append]
    rfl
  rw [List.append_assoc, List.cons_append, splitArguments_open,
    h (depth + 1) (Nat.le_add_left 1 depth), List.singleton_append, splitArguments_close,
    Option.map_map, Option.map_map, hboth]
  rfl

/-- Texts with commas between are cut at these commas. -/
theorem splitArguments_joinWith {first : List Char} {more : List (List Char)}
    (h : ∀ s ∈ first :: more, IsClosed 0 s) :
    splitArguments 0 (joinWith [','] (first :: more)) = some (first :: more) := by
  have hcons : ∀ (s : List Char) (pieces : List (List Char)),
      prepend s ([] :: pieces) = s :: pieces := by
    intro s pieces
    induction s with
    | nil => rfl
    | cons c rest ih => exact congrArg (consFirst c) ih
  induction more generalizing first with
  | nil =>
    have hclosed := h first List.mem_cons_self 0 (Nat.le_refl 0) []
    rw [List.append_nil] at hclosed
    rw [joinWith, hclosed, splitArguments, if_pos rfl, Option.map_some, hcons]
  | cons second rest ih =>
    have hnext := ih fun s hs => h s (List.mem_cons_of_mem first hs)
    have hsplit : joinWith [','] (first :: second :: rest) =
        first ++ (',' :: joinWith [','] (second :: rest)) := by
      simp [joinWith]
    rw [hsplit, h first List.mem_cons_self 0 (Nat.le_refl 0), splitArguments_comma, hnext,
      Option.map_some, Option.map_some, hcons]

theorem isClosed_joinWith {arguments : List (List Char)} (h : ∀ s ∈ arguments, IsClosed 0 s) :
    IsClosed 1 (joinWith [','] arguments) := by
  induction arguments with
  | nil => exact .nil 1
  | cons first more ih =>
    have hfirst := (h first List.mem_cons_self).mono 1
    have hmore := ih fun s hs => h s (List.mem_cons_of_mem first hs)
    cases more with
    | nil => exact hfirst
    | cons second rest =>
      rw [joinWith]
      · exact (hfirst.append .comma).append hmore
      · simp

/-! ## Spellings -/

/-- A text of blanks alone. -/
def IsGap (s : List Char) : Prop := ∀ c ∈ s, isBlank c = true

instance (s : List Char) : Decidable (IsGap s) := List.decidableBAll _ s

/-- The text before the bracket: the name of a constructor in either case, and blanks. -/
def IsHead (constructor : String) (head : List Char) : Prop :=
  ∃ name gap, head = name ++ gap ∧
    equalsIgnoringAsciiCase name constructor.toList = true ∧ IsGap gap

/-- What stands before the bracket, with arguments in brackets. -/
def written (head : List Char) (arguments : List (List Char)) : List Char :=
  head ++ '<' :: (joinWith [','] arguments ++ ['>'])

/-- The texts that spell a type: names of constructors and of types without parameters stand in
either case, blanks may surround each part, and each part may stand in `frozen<…>`. -/
inductive Spells : ColumnType → List Char → Prop
  | scalar {t : ColumnType} {s : List Char} : t.isComposite = false →
      equalsIgnoringAsciiCase s (render t).toList = true → Spells t s
  | userDefined (name : String) : Spells (userDefined name) name.toList
  | blanks {t : ColumnType} {before s after : List Char} : IsGap before → IsGap after →
      Spells t s → Spells t (before ++ (s ++ after))
  | frozen {t : ColumnType} {head s : List Char} : IsHead "frozen" head → Spells t s →
      Spells t (written head [s])
  | list {e : ColumnType} {head s : List Char} : IsHead "list" head → Spells e s →
      Spells (list e) (written head [s])
  | set {e : ColumnType} {head s : List Char} : IsHead "set" head → Spells e s →
      Spells (set e) (written head [s])
  | map {k v : ColumnType} {head x y : List Char} : IsHead "map" head → Spells k x → Spells v y →
      Spells (map k v) (written head [x, y])
  | tuple {parts : List (ColumnType × List Char)} {head : List Char} : IsHead "tuple" head →
      (∀ p ∈ parts, Spells p.1 p.2) →
      Spells (tuple (parts.map Prod.fst)) (written head (parts.map Prod.snd))
  | vector {e : ColumnType} {n : Nat} {head s before after : List Char} : IsHead "vector" head →
      Spells e s → IsGap before → IsGap after →
      Spells (vector e n) (written head [s, before ++ (Integer.digits n ++ after)])

theorem isHead_self (constructor : String) : IsHead constructor constructor.toList :=
  ⟨constructor.toList, [], (List.append_nil _).symm, beq_self_eq_true _, List.forall_mem_nil _⟩

theorem Spells.blank {t : ColumnType} {s : List Char} (h : Spells t s) : Spells t (' ' :: s) := by
  have hgap : Spells t ([' '] ++ (s ++ [])) := .blanks (by decide) (by decide) h
  rw [List.append_nil] at hgap
  exact hgap

/-- Items are written with a blank after each comma, which counts to the item behind it. -/
theorem toList_renderItems (t : ColumnType) (more : List ColumnType) :
    (renderItems (t :: more)).toList =
      joinWith [','] ((render t).toList :: more.map fun u => ' ' :: (render u).toList) := by
  induction more generalizing t with
  | nil => rfl
  | cons next more ih =>
    have hsplit : renderItems (t :: next :: more) =
        render t ++ ", " ++ renderItems (next :: more) := by
      rw [renderItems]
      simp
    rw [hsplit, String.toList_append, String.toList_append, ih]
    cases more <;> simp [joinWith]

/-- The written form of a type spells it. -/
theorem spells_render (t : ColumnType) : Spells t (render t).toList := by
  cases t with
  | list e =>
    have hrender : (render (list e)).toList = written "list".toList [(render e).toList] := by
      simp [render, written, joinWith]
    rw [hrender]
    exact .list (isHead_self _) (spells_render e)
  | set e =>
    have hrender : (render (set e)).toList = written "set".toList [(render e).toList] := by
      simp [render, written, joinWith]
    rw [hrender]
    exact .set (isHead_self _) (spells_render e)
  | map k v =>
    have hrender : (render (map k v)).toList =
        written "map".toList [(render k).toList, ' ' :: (render v).toList] := by
      simp [render, written, joinWith]
    rw [hrender]
    exact .map (isHead_self _) (spells_render k) (spells_render v).blank
  | vector e n =>
    have hrender : (render (vector e n)).toList =
        written "vector".toList [(render e).toList, [' '] ++ (Integer.digits n ++ [])] := by
      simp [render, written, joinWith, Integer.natText]
    rw [hrender]
    exact .vector (isHead_self _) (spells_render e) (by decide) (List.forall_mem_nil _)
  | tuple items =>
    have hitems : ∀ t ∈ items, Spells t (render t).toList := by
      intro t ht
      have hsmaller := List.sizeOf_lt_of_mem ht
      exact spells_render t
    cases items with
    | nil => exact @Spells.tuple [] _ (isHead_self _) (List.forall_mem_nil _)
    | cons first more =>
      let parts : List (ColumnType × List Char) :=
        (first, (render first).toList) :: more.map fun t => (t, ' ' :: (render t).toList)
      have hparts : ∀ p ∈ parts, Spells p.1 p.2 := by
        refine List.forall_mem_cons.mpr ⟨hitems first List.mem_cons_self, fun p hp => ?_⟩
        obtain ⟨t, ht, rfl⟩ := List.mem_map.mp hp
        exact (hitems t (List.mem_cons_of_mem first ht)).blank
      have htypes : parts.map Prod.fst = first :: more := by
        simp [parts, Function.comp_def]
      have hrender : (render (tuple (first :: more))).toList =
          written "tuple".toList (parts.map Prod.snd) := by
        simp [render, written, toList_renderItems, parts, Function.comp_def]
      rw [hrender, ← htypes]
      exact .tuple (isHead_self _) hparts
  | userDefined name => exact .userDefined name
  | _ => exact .scalar rfl (beq_self_eq_true _)
termination_by sizeOf t
decreasing_by
  all_goals subst_vars
  all_goals simp only [list.sizeOf_spec, set.sizeOf_spec, map.sizeOf_spec, vector.sizeOf_spec,
    tuple.sizeOf_spec]
  all_goals omega

/-! ## Reading -/

theorem isClosed_of_isGap {s : List Char} (h : IsGap s) : IsClosed 0 s := by
  refine .of_chars fun c hc => ⟨?_, ?_, ?_⟩
  all_goals
    rintro rfl
    exact absurd (h _ hc) (by decide)

/-- What a name with arguments stands for, when the arguments are read by the given reader. -/
def combine (read : List Char → Option ColumnType) (a : Applied) : Option ColumnType :=
  if a.name = "tuple" then
    if a.arguments.isEmpty then none else (a.arguments.mapM read).map tuple
  else match a.arguments with
    | [x] =>
      if a.name = "frozen" then read x
      else if a.name = "list" then (read x).map list
      else if a.name = "set" then (read x).map set
      else none
    | [x, y] =>
      if a.name = "map" then do
        let k ← read x
        let v ← read y
        some (map k v)
      else if a.name = "vector" then do
        let e ← read x
        let n ← Integer.readUnsigned? (trim y)
        some (vector e n)
      else none
    | _ => none

/-- A text without a bracket is read as a name, another one by its name and arguments. -/
theorem parse?_eq (s : List Char) :
    parse? s = match cut? '<' (trim s) with
      | none => some (ofName (trim s))
      | some (name, inner) => (applied? name inner).bind (combine parse?) := by
  have hattach : ∀ l : List (List Char), (l.attach.mapM fun p => parse? p.1) = l.mapM parse? := by
    intro l
    have hmap := List.mapM_map (m := Option) (f := Subtype.val) (g := parse?) (l := l.attach)
    rw [List.attach_map_subtype_val] at hmap
    exact hmap.symm
  rw [parse?]
  split
  · next hc => rw [hc]
  · next name inner hc =>
    split
    · next ha => rw [hc]; dsimp only; rw [ha, Option.bind_none]
    · next a ha =>
      dsimp only
      rw [hattach, hc]
      dsimp only
      rw [ha, Option.bind_some]
      unfold combine
      split
      · rfl
      · split
        · next heq => rw [heq]
        · next heq => rw [heq]
        · next hone htwo =>
          split
          · next x heq => exact absurd heq (hone x)
          · next x y heq => exact absurd heq (htwo x y)
          · rfl

/-- Only the trimmed text is read. -/
theorem parse?_congr {s t : List Char} (h : trim s = trim t) : parse? s = parse? t := by
  rw [parse?_eq, parse?_eq, h]

theorem parse?_trim (s : List Char) : parse? (trim s) = parse? s := parse?_congr (trim_trim s)

/-- A name of small letters. -/
def IsTypeName (name : List Char) : Prop := name ≠ [] ∧ ∀ c ∈ name, 97 ≤ c.toNat ∧ c.toNat ≤ 122

instance (name : List Char) : Decidable (IsTypeName name) :=
  @instDecidableAnd _ _ _ (List.decidableBAll _ name)

/-- Whether a character is an ASCII letter. -/
def IsLetter (c : Char) : Prop := 65 ≤ c.toNat ∧ c.toNat ≤ 90 ∨ 97 ≤ c.toNat ∧ c.toNat ≤ 122

instance (c : Char) : Decidable (IsLetter c) := inferInstanceAs (Decidable (_ ∨ _))

/-- Only a letter becomes a small letter. -/
theorem isLetter_of_toLower {c : Char} (h : 97 ≤ c.toLower.toNat ∧ c.toLower.toNat ≤ 122) :
    IsLetter c := by
  unfold Char.toLower at h
  split at h
  · next hupper =>
    exact .inl ⟨UInt32.le_iff_toNat_le.mp hupper.1, UInt32.le_iff_toNat_le.mp hupper.2⟩
  · exact .inr h

theorem IsLetter.isBlank {c : Char} (h : IsLetter c) : isBlank c = false := by
  unfold IsLetter at h
  simp only [Text.isBlank, Bool.or_eq_false_iff, Bool.and_eq_false_iff, beq_eq_false_iff_ne,
    decide_eq_false_iff_not]
  omega

theorem map_toLower_typeName {name : List Char} (h : IsTypeName name) :
    name.map Char.toLower = name := by
  refine (List.map_congr_left fun c hc => ?_).trans (List.map_id _)
  have hsmall := h.2 c hc
  have hupper : ¬ c.val ≤ 90 := by
    rw [UInt32.le_iff_toNat_le]
    show ¬ c.toNat ≤ 90
    omega
  unfold Char.toLower
  simp [hupper]

/-- A text that is a name in lower case. -/
structure IsWord (name s : List Char) : Prop where
  ne_nil : s ≠ []
  letters : ∀ c ∈ s, IsLetter c
  lower_eq : lower s = name

/-- A name in another case is the name in lower case. -/
theorem isWord_of_case {name s : List Char} (hname : IsTypeName name)
    (hcase : equalsIgnoringAsciiCase s name = true) : IsWord name s := by
  have hlower : s.map Char.toLower = name :=
    (beq_iff_eq.mp hcase).trans (map_toLower_typeName hname)
  have hletters : ∀ c ∈ s, IsLetter c := by
    intro c hc
    apply isLetter_of_toLower
    apply hname.2
    rw [← hlower]
    exact List.mem_map_of_mem hc
  have hascii : ∀ c ∈ s, c.toNat < 0x80 := by
    intro c hc
    have hletter := hletters c hc
    unfold IsLetter at hletter
    omega
  refine ⟨?_, hletters, (lower_ascii s hascii).trans hlower⟩
  rintro rfl
  exact hname.1 hlower.symm

theorem IsWord.closed {name s : List Char} (h : IsWord name s) : IsClosed 0 s := by
  refine .of_chars fun c hc => ⟨?_, ?_, ?_⟩
  all_goals
    rintro rfl
    exact absurd (h.letters _ hc) (by decide)

theorem IsWord.not_mem_open {name s : List Char} (h : IsWord name s) : '<' ∉ s := by
  intro hmem
  exact absurd (h.letters _ hmem) (by decide)

theorem IsWord.trim_eq {name s : List Char} (h : IsWord name s) : trim s = s :=
  trim_eq_self (fun c hc => (h.letters c (List.mem_of_mem_head? hc)).isBlank)
    fun c hc => (h.letters c (List.mem_of_getLast? hc)).isBlank

/-- Trimmed arguments stand for the same type. -/
theorem combine_trim (name : String) (arguments : List (List Char)) :
    combine parse? ⟨name, arguments.map trim⟩ = combine parse? ⟨name, arguments⟩ := by
  have hread : (arguments.map trim).mapM parse? = arguments.mapM parse? := by
    rw [List.mapM_map]
    exact congrArg (arguments.mapM ·) (funext parse?_trim)
  unfold combine
  dsimp only
  rw [hread, List.isEmpty_map]
  match arguments with
  | [] => rfl
  | [x] => simp only [List.map_cons, List.map_nil, parse?_trim]
  | [x, y] => simp only [List.map_cons, List.map_nil, parse?_trim, trim_trim]
  | _ :: _ :: _ :: _ => rfl

section Written

variable {constructor : String} (hname : IsTypeName constructor.toList) {head : List Char}
  (hhead : IsHead constructor head) {arguments : List (List Char)}
  (hclosed : ∀ s ∈ arguments, IsClosed 0 s)

include hname hhead hclosed

theorem isClosed_written : IsClosed 0 (written head arguments) := by
  obtain ⟨name, gap, rfl, hcase, hgap⟩ := hhead
  have hword := isWord_of_case hname hcase
  exact (hword.closed.append (isClosed_of_isGap hgap)).append (isClosed_joinWith hclosed).brackets

/-- A text with brackets is read by its name and arguments. -/
theorem parse?_written (hne : arguments ≠ []) :
    parse? (written head arguments) = combine parse? ⟨constructor, arguments⟩ := by
  obtain ⟨name, gap, rfl, hcase, hgap⟩ := hhead
  obtain ⟨first, more, rfl⟩ := List.exists_cons_of_ne_nil hne
  have hword := isWord_of_case hname hcase
  have htrim : trim (written (name ++ gap) (first :: more)) =
      written (name ++ gap) (first :: more) := by
    apply trim_eq_self
    · obtain ⟨c, rest, rfl⟩ := List.exists_cons_of_ne_nil hword.ne_nil
      intro d hd
      obtain rfl : c = d := Option.some.inj hd
      exact (hword.letters c List.mem_cons_self).isBlank
    · intro c hc
      unfold written at hc
      rw [← List.cons_append, ← List.append_assoc, List.getLast?_concat, Option.mem_some] at hc
      subst hc
      decide
  have hopen : '<' ∉ name ++ gap := by
    rw [List.mem_append, not_or]
    exact ⟨hword.not_mem_open, fun hmem => absurd (hgap _ hmem) (by decide)⟩
  have hbody : dropEnd? ['>'] (joinWith [','] (first :: more) ++ ['>']) =
      some (joinWith [','] (first :: more)) := by
    unfold dropEnd?
    rw [List.reverse_append, List.reverse_singleton, dropStart?_append, Option.map_some,
      List.reverse_reverse]
  have hlower : lower (trim (name ++ gap)) = constructor.toList := by
    have hgaps := trim_append_blanks (List.forall_mem_nil _) hgap name
    rw [List.nil_append, hword.trim_eq] at hgaps
    rw [hgaps, hword.lower_eq]
  rw [parse?_eq, htrim, written, cut?_append _ hopen]
  dsimp only
  unfold applied?
  rw [hbody]
  dsimp only
  rw [splitArguments_joinWith hclosed, Option.map_some, Option.bind_some, hlower,
    String.ofList_toList, combine_trim]

end Written

/-- A text that stays in one piece and is read as a type. -/
structure IsRead (t : ColumnType) (s : List Char) : Prop where
  closed : IsClosed 0 s
  parse_eq : parse? s = some t

/-- A text with brackets is read as the type that its name and arguments stand for. -/
theorem isRead_written {t : ColumnType} {constructor : String}
    (hname : IsTypeName constructor.toList) {head : List Char} (hhead : IsHead constructor head)
    {arguments : List (List Char)} (hclosed : ∀ s ∈ arguments, IsClosed 0 s)
    (hne : arguments ≠ []) (hcombine : combine parse? ⟨constructor, arguments⟩ = some t) :
    IsRead t (written head arguments) :=
  ⟨isClosed_written hname hhead hclosed, (parse?_written hname hhead hclosed hne).trans hcombine⟩

theorem IsRead.blanks {t : ColumnType} {before s after : List Char} (hbefore : IsGap before)
    (hafter : IsGap after) (h : IsRead t s) : IsRead t (before ++ (s ++ after)) := by
  refine ⟨?_, ?_⟩
  · exact (isClosed_of_isGap hbefore).append (h.closed.append (isClosed_of_isGap hafter))
  · rw [parse?_congr (trim_append_blanks hbefore hafter s), h.parse_eq]

theorem toNat_of_mem_digits {n : Nat} {c : Char} (h : c ∈ Integer.digits n) :
    48 ≤ c.toNat ∧ c.toNat ≤ 57 :=
  Integer.toNat_of_isDigit (Integer.isDigit_digits n c h)

theorem isClosed_digits (n : Nat) : IsClosed 0 (Integer.digits n) := by
  refine .of_chars fun c hc => ⟨?_, ?_, ?_⟩
  all_goals
    rintro rfl
    exact absurd (toNat_of_mem_digits hc) (by decide)

theorem trim_digits (n : Nat) : trim (Integer.digits n) = Integer.digits n := by
  have hblank : ∀ c ∈ Integer.digits n, isBlank c = false := by
    intro c hc
    have := toNat_of_mem_digits hc
    simp only [Text.isBlank, Bool.or_eq_false_iff, Bool.and_eq_false_iff, beq_eq_false_iff_ne,
      decide_eq_false_iff_not]
    omega
  exact trim_eq_self (fun c hc => hblank c (List.mem_of_mem_head? hc))
    fun c hc => hblank c (List.mem_of_getLast? hc)

theorem isRead_name {t : ColumnType} {s : List Char} (hclosed : IsClosed 0 s) (hopen : '<' ∉ s)
    (htrim : trim s = s) (hof : ofName s = t) : IsRead t s := by
  refine ⟨hclosed, ?_⟩
  rw [parse?_eq, htrim, cut?_of_not_mem hopen]
  exact congrArg some hof

theorem render_scalar {t : ColumnType} (h : t.isComposite = false) :
    IsTypeName (render t).toList ∧ scalarNames.lookup (render t) = some t := by
  cases t
  case list | set | map | tuple | vector | userDefined => nomatch h
  all_goals exact ⟨by decide, rfl⟩

theorem isRead_scalar {t : ColumnType} (h : t.isComposite = false) {s : List Char}
    (hcase : equalsIgnoringAsciiCase s (render t).toList = true) : IsRead t s := by
  obtain ⟨hname, hlookup⟩ := render_scalar h
  have hword := isWord_of_case hname hcase
  have hvarchar : render t ≠ "varchar" := by
    intro heq
    rw [heq] at hlookup
    nomatch hlookup
  refine isRead_name hword.closed hword.not_mem_open hword.trim_eq ?_
  unfold ofName
  rw [hword.lower_eq, String.ofList_toList]
  dsimp only
  rw [if_neg hvarchar, hlookup]

theorem isRead_userDefined {name : String} (h : isUserName name.toList = true) :
    IsRead (userDefined name) name.toList := by
  obtain ⟨hmarks, htrim, hother⟩ := isUserName_iff.mp h
  have hfree : ∀ mark ∈ ['<', '>', ',', '"'], mark ∉ name.toList := fun mark hmark hmem =>
    hmarks mark hmem hmark
  have hclosed : IsClosed 0 name.toList := by
    refine .of_chars fun c hc => ⟨?_, ?_, ?_⟩
    all_goals
      rintro rfl
      exact absurd hc (hfree _ (by decide))
  have hquotes : dropEnds (· == '"') name.toList = name.toList := by
    apply dropEnds_eq_self
    intro c hc
    rw [beq_eq_false_iff_ne]
    rintro rfl
    exact absurd hc (hfree _ (by decide))
  rw [List.mem_cons, not_or] at hother
  have hlookup : scalarNames.lookup (String.ofList (lower name.toList)) = none := by
    rw [List.lookup_eq_none_iff]
    intro p hp
    rw [bne_iff_ne]
    intro heq
    exact hother.2 (heq ▸ List.mem_map_of_mem hp)
  refine isRead_name hclosed (hfree _ (by decide)) htrim ?_
  unfold ofName
  dsimp only
  rw [if_neg hother.1, hlookup, hquotes, String.ofList_toList]

theorem mapM_parse? {parts : List (ColumnType × List Char)} (h : ∀ p ∈ parts, IsRead p.1 p.2) :
    (parts.map Prod.snd).mapM parse? = some (parts.map Prod.fst) := by
  induction parts with
  | nil => rfl
  | cons p more ih =>
    rw [List.map_cons, List.mapM_cons, (h p List.mem_cons_self).parse_eq,
      ih fun q hq => h q (List.mem_cons_of_mem p hq)]
    rfl

/-- A text that spells a type is read as the type. -/
theorem Spells.isRead {t : ColumnType} {s : List Char} (h : Spells t s)
    (hnameable : t.isNameable = true) : IsRead t s := by
  induction h with
  | scalar hscalar hcase => exact isRead_scalar hscalar hcase
  | userDefined name => exact isRead_userDefined hnameable
  | blanks hbefore hafter _ ih => exact (ih hnameable).blanks hbefore hafter
  | frozen hhead _ ih =>
    have hs := ih hnameable
    refine isRead_written (by decide) hhead (by simpa using hs.closed) (by simp) ?_
    simp [combine, hs.parse_eq]
  | list hhead _ ih =>
    have hs := ih hnameable
    refine isRead_written (by decide) hhead (by simpa using hs.closed) (by simp) ?_
    simp [combine, hs.parse_eq]
  | set hhead _ ih =>
    have hs := ih hnameable
    refine isRead_written (by decide) hhead (by simpa using hs.closed) (by simp) ?_
    simp [combine, hs.parse_eq]
  | map hhead _ _ ihk ihv =>
    rw [isNameable, Bool.and_eq_true] at hnameable
    have hk := ihk hnameable.1
    have hv := ihv hnameable.2
    refine isRead_written (by decide) hhead (by simpa using ⟨hk.closed, hv.closed⟩) (by simp) ?_
    simp [combine, hk.parse_eq, hv.parse_eq]
  | @tuple parts head hhead _ ih =>
    rw [isNameable, Bool.and_eq_true] at hnameable
    have hparts : ∀ p ∈ parts, IsRead p.1 p.2 := fun p hp =>
      ih p hp (isNameable_of_mem hnameable.2 p.1 (List.mem_map_of_mem hp))
    have hne : parts ≠ [] := by simpa using hnameable.1
    have hread := mapM_parse? hparts
    refine isRead_written (by decide) hhead ?_ (by simpa using hne) ?_
    · rintro s hs
      obtain ⟨p, hp, rfl⟩ := List.mem_map.mp hs
      exact (hparts p hp).closed
    · simp [combine, hread, hne]
  | @vector e n head s before after hhead _ hbefore hafter ih =>
    rw [isNameable, Bool.and_eq_true, decide_eq_true_iff] at hnameable
    have hs := ih hnameable.1
    have hclosed : IsClosed 0 (before ++ (Integer.digits n ++ after)) :=
      (isClosed_of_isGap hbefore).append
        ((isClosed_digits n).append (isClosed_of_isGap hafter))
    refine isRead_written (by decide) hhead (by simpa using ⟨hs.closed, hclosed⟩) (by simp) ?_
    simp [combine, hs.parse_eq, trim_append_blanks hbefore hafter, trim_digits,
      Integer.readUnsigned?_digits hnameable.2]

/-- The written form of a built-in type is read as the type. -/
theorem ofString?_render {t : ColumnType} (h : t.isBuiltIn = true) :
    ofString? (render t) = some t :=
  ((spells_render t).isRead (isNameable_of_isBuiltIn t h)).parse_eq

/-- The written form of a type is read as the type, and so is each text that spells it. -/
theorem spellings_are_read {t : ColumnType} (h : t.isNameable = true) :
    ofString? (render t) = some t ∧ ∀ s : String, Spells t s.toList → ofString? s = some t := by
  have hall : ∀ s : String, Spells t s.toList → ofString? s = some t := fun s hs =>
    (hs.isRead h).parse_eq
  exact ⟨hall (render t) (spells_render t), hall⟩

/-- A map to a list, in capitals, with blanks, and frozen twice. -/
theorem spellings_are_read_frozen :
    isNameable (map text (list (userDefined "Point"))) = true ∧
      ofString? "Frozen <MAP<text,frozen<List\t<Point >> >>" =
        some (map text (list (userDefined "Point"))) := by
  have hpoint : Spells (userDefined "Point") "Point ".toList :=
    .blanks (List.forall_mem_nil _) (by decide) (.userDefined "Point")
  have hlist : Spells (list (userDefined "Point")) "List\t<Point >".toList :=
    .list ⟨"List".toList, ['\t'], rfl, by decide, by decide⟩ hpoint
  have hfrozen : Spells (list (userDefined "Point")) "frozen<List\t<Point >> ".toList :=
    .blanks (List.forall_mem_nil _) (by decide) (.frozen (isHead_self "frozen") hlist)
  have hmap : Spells (map text (list (userDefined "Point")))
      "MAP<text,frozen<List\t<Point >> >".toList :=
    .map ⟨"MAP".toList, [], rfl, by decide, by decide⟩ (spells_render text) hfrozen
  have hwhole : Spells (map text (list (userDefined "Point")))
      "Frozen <MAP<text,frozen<List\t<Point >> >>".toList :=
    .frozen ⟨"Frozen".toList, [' '], rfl, by decide, by decide⟩ hmap
  have hnameable : isNameable (map text (list (userDefined "Point"))) = true := by decide +kernel
  exact ⟨hnameable, (spellings_are_read hnameable).2 _ hwhole⟩

end BulkTransfer.ColumnType
