import BulkTransfer.Literal.Scalar

/-!
Identifiers and their hyphenated form. The form has four hyphens between hexadecimal digits, so it
is neither a word with a meaning of its own nor a number, and stands for itself where it is bare.

- `Uuid.parse?_render`: the written form of an identifier reads back.
- `Uuid.isValid_of_parse?`: what is read has 32 hexadecimal digits.
- `Uuid.Hyphenated`: what the characters of any hyphenated form are.
- `Value.ofBareWord_hyphenated`: such a form as a bare word is a text.
-/

namespace BulkTransfer.Uuid

/-- Whether the character is a hexadecimal digit of either case. -/
def isHexDigit (c : Char) : Bool := (digitValue? c).isSome

/-- An identifier has 32 digits, each below sixteen. -/
structure IsValid (u : Uuid) : Prop where
  length_digits : u.digits.length = 32
  digit_lt : ∀ d ∈ u.digits, d < 16

/-! ## Reading back -/

theorem digitValue?_digit {d : Nat} (h : d < 16) : digitValue? (Hex.digit d) = some d := by
  have all : ∀ m ∈ List.range 16, digitValue? (Hex.digit m) = some m := by decide
  exact all d (List.mem_range.mpr h)

theorem takeDigits?_digits {ds : List Nat} (h : ∀ d ∈ ds, d < 16) (rest : List Char) :
    takeDigits? ds.length (ds.map Hex.digit ++ rest) = some (ds, rest) := by
  induction ds with
  | nil => rfl
  | cons d ds ih =>
    have hd := digitValue?_digit (h d (by simp))
    have ih' := ih fun e he => h e (by simp [he])
    simp only [List.length_cons, List.map_cons, List.cons_append, takeDigits?, hd, ih',
      Option.bind_eq_bind, Option.bind_some]

theorem takeGroups?_renderGroups {gs ds : List Nat} (hlen : ds.length = gs.sum)
    (h : ∀ d ∈ ds, d < 16) (rest : List Char) :
    takeGroups? gs (renderGroups gs ds ++ rest) = some (ds, rest) := by
  induction gs generalizing ds with
  | nil =>
    have hnil : ds = [] := List.length_eq_zero_iff.mp (by simpa using hlen)
    rw [hnil]
    rfl
  | cons n more ih =>
    simp only [List.sum_cons] at hlen
    have htake : (ds.take n).length = n := by
      rw [List.length_take]
      omega
    have hlt : ∀ d ∈ ds.take n, d < 16 := fun d hd => h d (List.mem_of_mem_take hd)
    have hfirst := takeDigits?_digits hlt
    rw [htake] at hfirst
    cases more with
    | nil =>
      simp only [List.sum_nil, Nat.add_zero] at hlen
      have hall : ds.take n = ds := List.take_of_length_le (by omega)
      rw [renderGroups, takeGroups?, hfirst, hall]
    | cons m more =>
      have hdrop : (ds.drop n).length = (m :: more).sum := by
        rw [List.length_drop]
        omega
      have ih' := ih hdrop fun d hd => h d (List.mem_of_mem_drop hd)
      simp only [renderGroups, takeGroups?, List.append_assoc, List.cons_append, hfirst,
        Option.bind_eq_bind, Option.bind_some]
      rw [ih']
      simp only [Option.bind_some, List.take_append_drop]

theorem parseHyphenated?_render {u : Uuid} (h : u.IsValid) :
    parseHyphenated? u.render = some u := by
  have hlen : u.digits.length = groups.sum := by
    rw [h.length_digits]
    rfl
  have hread := takeGroups?_renderGroups hlen h.digit_lt []
  rw [List.append_nil] at hread
  rw [parseHyphenated?, render, hread]
  rfl

/-! ## What is read -/

theorem digitValue?_lt {c : Char} {d : Nat} (h : digitValue? c = some d) : d < 16 := by
  unfold digitValue? at h
  dsimp only at h
  split at h
  · obtain rfl := Option.some.inj h
    omega
  · split at h
    · obtain rfl := Option.some.inj h
      omega
    · split at h
      · obtain rfl := Option.some.inj h
        omega
      · nomatch h

/-- So many digits are read as so many numbers below sixteen. -/
theorem takeDigits?_eq_some {n : Nat} {s rest : List Char} {ds : List Nat}
    (h : takeDigits? n s = some (ds, rest)) :
    ∃ first : List Char, s = first ++ rest ∧ first.length = n ∧
      (∀ c ∈ first, isHexDigit c = true) ∧ ds.length = n ∧ ∀ d ∈ ds, d < 16 := by
  induction n generalizing s ds with
  | zero =>
    simp only [takeDigits?, Option.some.injEq, Prod.mk.injEq] at h
    obtain ⟨rfl, rfl⟩ := h
    exact ⟨[], rfl, rfl, List.forall_mem_nil _, rfl, List.forall_mem_nil _⟩
  | succ n ih =>
    cases s with
    | nil => simp [takeDigits?] at h
    | cons c s =>
      simp only [takeDigits?, Option.bind_eq_bind, Option.bind_eq_some_iff] at h
      obtain ⟨d, hd, ⟨es, r⟩, hes, heq⟩ := h
      simp only [Option.some.injEq, Prod.mk.injEq] at heq
      obtain ⟨rfl, rfl⟩ := heq
      obtain ⟨first, rfl, hlen, hall, hlen', hlt⟩ := ih hes
      refine ⟨c :: first, rfl, by rw [List.length_cons, hlen], List.forall_mem_cons.mpr ⟨?_, hall⟩,
        by rw [List.length_cons, hlen'], List.forall_mem_cons.mpr ⟨digitValue?_lt hd, hlt⟩⟩
      simp [isHexDigit, hd]

theorem count_hyphen_eq_zero {s : List Char} (h : ∀ c ∈ s, isHexDigit c = true) :
    s.count '-' = 0 := by
  rw [List.count_eq_zero]
  intro hm
  exact absurd (h '-' hm) (by decide)

/-- Groups of digits are read as the numbers of all of them, with a hyphen between each two. -/
theorem takeGroups?_eq_some {gs : List Nat} {s rest : List Char} {ds : List Nat}
    (h : takeGroups? gs s = some (ds, rest)) :
    ∃ first : List Char, s = first ++ rest ∧ first.count '-' = gs.length - 1 ∧
      (∀ c ∈ first, isHexDigit c = true ∨ c = '-') ∧ ds.length = gs.sum ∧ ∀ d ∈ ds, d < 16 := by
  induction gs generalizing s ds with
  | nil =>
    simp only [takeGroups?, Option.some.injEq, Prod.mk.injEq] at h
    obtain ⟨rfl, rfl⟩ := h
    exact ⟨[], rfl, rfl, List.forall_mem_nil _, rfl, List.forall_mem_nil _⟩
  | cons n more ih =>
    cases more with
    | nil =>
      obtain ⟨first, hs, -, hall, hlen, hlt⟩ := takeDigits?_eq_some h
      exact ⟨first, hs, count_hyphen_eq_zero hall, fun c hc => .inl (hall c hc), hlen, hlt⟩
    | cons m more =>
      simp only [takeGroups?, Option.bind_eq_bind, Option.bind_eq_some_iff] at h
      obtain ⟨⟨es, r⟩, hes, h⟩ := h
      obtain ⟨first, hs, -, hall, hlen, hlt⟩ := takeDigits?_eq_some hes
      simp only at h
      split at h
      · next r' =>
        obtain ⟨⟨fs, q⟩, hfs, heq⟩ := Option.bind_eq_some_iff.mp h
        simp only [Option.some.injEq, Prod.mk.injEq] at heq
        obtain ⟨rfl, rfl⟩ := heq
        obtain ⟨second, hr, hcount, hall', hlen', hlt'⟩ := ih hfs
        refine ⟨first ++ '-' :: second, ?_, ?_, ?_, ?_, List.forall_mem_append.mpr ⟨hlt, hlt'⟩⟩
        · rw [hs, hr]
          simp
        · rw [List.count_append, count_hyphen_eq_zero hall, List.count_cons_self, hcount]
          simp
        · intro c hc
          simp only [List.mem_append, List.mem_cons] at hc
          rcases hc with hc | rfl | hc
          · exact .inl (hall c hc)
          · exact .inr rfl
          · exact hall' c hc
        · rw [List.length_append, hlen, hlen', ← List.sum_cons]
      · simp at h

theorem complete?_eq_some {read : Option (List Nat × List Char)} {u : Uuid}
    (h : complete? read = some u) : read = some (u.digits, []) := by
  unfold complete? at h
  split at h
  · obtain rfl := Option.some.inj h
    rfl
  · nomatch h

theorem isValid_of_parseHyphenated? {s : List Char} {u : Uuid}
    (h : parseHyphenated? s = some u) : u.IsValid := by
  obtain ⟨-, -, -, -, hlen, hlt⟩ := takeGroups?_eq_some (complete?_eq_some h)
  exact ⟨hlen, hlt⟩

/-- What is read as an identifier has 32 hexadecimal digits. -/
theorem isValid_of_parse? {s : List Char} {u : Uuid} (h : parse? s = some u) : u.IsValid := by
  unfold parse? at h
  split at h
  · split at h
    · exact isValid_of_parseHyphenated? h
    · nomatch h
  · exact isValid_of_parseHyphenated? h
  · split at h
    · next hread =>
      obtain rfl := Option.some.inj h
      exact isValid_of_parseHyphenated? hread
    · obtain ⟨-, -, -, -, hlen, hlt⟩ := takeDigits?_eq_some (complete?_eq_some h)
      exact ⟨hlen, hlt⟩

/-! ## The characters of the hyphenated form -/

/-- The characters of a hyphenated form: digits, which come first, and four hyphens. -/
structure Hyphenated (s : List Char) : Prop where
  chars : ∀ c ∈ s, isHexDigit c = true ∨ c = '-'
  hyphens : s.count '-' = 4
  start : ∃ a b rest, s = a :: b :: rest ∧ isHexDigit a = true ∧ isHexDigit b = true

theorem hyphenated_of_isHyphenated {s : List Char} (h : isHyphenated s = true) : Hyphenated s := by
  obtain ⟨u, hu⟩ := Option.isSome_iff_exists.mp h
  rw [parseHyphenated?] at hu
  match hg : takeGroups? groups s with
  | none => rw [hg] at hu; simp [complete?] at hu
  | some (ds, c :: rest) => rw [hg] at hu; simp [complete?] at hu
  | some (ds, []) =>
    obtain ⟨first, hs, hcount, hall, -⟩ := takeGroups?_eq_some hg
    rw [List.append_nil] at hs
    subst hs
    refine ⟨hall, hcount, ?_⟩
    rw [groups, takeGroups?] at hg
    · obtain ⟨⟨es, r⟩, hes, -⟩ := Option.bind_eq_some_iff.mp hg
      obtain ⟨front, hs, hlen, hhex, -⟩ := takeDigits?_eq_some hes
      match front, hlen with
      | a :: b :: more, _ =>
        exact ⟨a, b, more ++ r, by simp [hs], hhex a (by simp), hhex b (by simp)⟩
    · simp

theorem isHexDigit_toNat {c : Char} (h : isHexDigit c = true) :
    48 ≤ c.toNat ∧ c.toNat ≤ 57 ∨ 97 ≤ c.toNat ∧ c.toNat ≤ 102 ∨ 65 ≤ c.toNat ∧ c.toNat ≤ 70 := by
  simp only [isHexDigit, digitValue?] at h
  split at h
  · next hc => exact .inl hc
  · split at h
    · next hc => exact .inr (.inl hc)
    · split at h
      · next hc => exact .inr (.inr hc)
      · simp at h

theorem Hyphenated.mem_hyphen {s : List Char} (h : Hyphenated s) : '-' ∈ s :=
  List.count_pos_iff.mp (by rw [h.hyphens]; decide)

theorem Hyphenated.ne_of_mem {s : List Char} (h : Hyphenated s) {c d : Char} (hc : c ∈ s)
    (hd : isHexDigit d = false) (hd' : d ≠ '-') : c ≠ d := by
  rintro rfl
  rcases h.chars c hc with h1 | h1
  · rw [hd] at h1
    exact absurd h1 (by decide)
  · exact hd' h1

theorem hyphenated_render {u : Uuid} (h : u.IsValid) : Hyphenated u.render :=
  hyphenated_of_isHyphenated (by rw [isHyphenated, parseHyphenated?_render h]; rfl)

/-- The written form of an identifier reads back. -/
theorem parse?_render {u : Uuid} (h : u.IsValid) : parse? u.render = some u := by
  obtain ⟨a, b, rest, hs, ha, -⟩ := (hyphenated_render h).start
  have hhead : ∀ c tail, u.render = c :: tail → isHexDigit c = true := by
    intro c tail heq
    rw [← (List.cons.inj (hs.symm.trans heq)).1]
    exact ha
  unfold parse?
  split
  · next tail heq => exact absurd (hhead _ _ heq) (by decide)
  · next tail heq => exact absurd (hhead _ _ heq) (by decide)
  · rw [parseHyphenated?_render h]

end BulkTransfer.Uuid

namespace BulkTransfer.Value

open Uuid Text

/-! ## Identifiers as bare words -/

theorem sameWord_eq_false {token : List Char} (h : '-' ∈ token) (word : String)
    (hw : '-' ∉ word.toList.map Char.toLower) : sameWord token word = false := by
  rw [sameWord, equalsIgnoringAsciiCase, beq_eq_false_iff_ne]
  intro heq
  rw [← heq] at hw
  exact hw (List.mem_map.mpr ⟨'-', h, by decide⟩)

theorem readInt?_of_hyphens {s : List Char} (h : 2 ≤ s.count '-') : Integer.readInt? s = none := by
  have hmem : ∀ r : List Char, 1 ≤ r.count '-' → Integer.readNatural? r = none := by
    intro r hr
    exact Integer.readNatural?_eq_none (List.count_pos_iff.mp hr) (by decide)
  unfold Integer.readInt?
  split
  · next r =>
    rw [List.count_cons_self] at h
    rw [hmem r (by omega)]
    rfl
  · next r =>
    rw [List.count_cons_of_ne (by decide)] at h
    rw [hmem r (by omega)]
    rfl
  · rw [hmem s (by omega)]
    rfl

theorem readSigned?_hyphenated {s : List Char} (h : Hyphenated s) :
    Integer.readSigned? s = none := by
  rw [Integer.readSigned?, Integer.read?, readInt?_of_hyphens (by rw [h.hyphens]; decide)]

theorem readExponent?_hyphenated {s : List Char} (h : 3 ≤ s.count '-') :
    Binary64.readExponent? s = none := by
  cases s with
  | nil => simp at h
  | cons c rest =>
    rw [Binary64.readExponent?]
    split
    · next hc =>
      have hne : c ≠ '-' := by
        rcases hc with rfl | rfl <;> decide
      rw [List.count_cons_of_ne hne] at h
      exact readInt?_of_hyphens (by omega)
    · rfl

theorem readUnsigned?_hyphenated {s : List Char} (h : Hyphenated s) :
    Binary64.readUnsigned? s = none := by
  have hcount : (s.dropWhile Integer.isDigit).count '-' = 4 := by
    have hsplit : (s.takeWhile Integer.isDigit ++ s.dropWhile Integer.isDigit).count '-' = 4 := by
      rw [List.takeWhile_append_dropWhile, h.hyphens]
    have hzero : (s.takeWhile Integer.isDigit).count '-' = 0 := by
      rw [List.count_eq_zero]
      intro hm
      exact absurd (List.all_eq_true.mp List.all_takeWhile '-' hm) (by decide)
    rw [List.count_append, hzero] at hsplit
    omega
  have hpoint : ∀ more, s.dropWhile Integer.isDigit ≠ '.' :: more := by
    intro more heq
    have hmem : '.' ∈ s := List.dropWhile_subset _ (by rw [heq]; simp)
    exact h.ne_of_mem hmem (d := '.') (by decide) (by decide) rfl
  have hexponent := readExponent?_hyphenated (s := s.dropWhile Integer.isDigit) (by omega)
  unfold Binary64.readUnsigned?
  simp only [hexponent, Option.map_none, ite_self]

theorem read?_hyphenated {s : List Char} (h : Hyphenated s) : Binary64.read? s = none := by
  obtain ⟨a, b, rest, rfl, ha, -⟩ := h.start
  have hword : ∀ word : String, '-' ∉ word.toList →
      (a :: b :: rest).map Char.toLower ≠ word.toList := by
    intro word hw heq
    rw [← heq] at hw
    exact hw (List.mem_map.mpr ⟨'-', h.mem_hyphen, by decide⟩)
  have hmag : Binary64.readMagnitude? false (a :: b :: rest) = none := by
    simp only [Binary64.readMagnitude?, hword "inf" (by decide), hword "infinity" (by decide),
      hword "nan" (by decide), or_self, if_false, readUnsigned?_hyphenated h]
  unfold Binary64.read?
  split
  · next r heq => exact absurd ((List.cons.inj heq).1 ▸ ha) (by decide)
  · next r heq => exact absurd ((List.cons.inj heq).1 ▸ ha) (by decide)
  · exact hmag

/-- A hyphenated identifier that stands bare is read as its text. -/
theorem ofBareWord_hyphenated {s : List Char} (h : Hyphenated s) :
    ofBareWord s = .ok (text (String.ofList s)) := by
  obtain ⟨a, b, rest, hs, ha, hb⟩ := h.start
  have hnull := sameWord_eq_false h.mem_hyphen "null" (by decide)
  have htrue := sameWord_eq_false h.mem_hyphen "true" (by decide)
  have hfalse := sameWord_eq_false h.mem_hyphen "false" (by decide)
  have hx : ∀ r, s ≠ '0' :: 'x' :: r := by
    intro r heq
    have : b = 'x' := (List.cons.inj (List.cons.inj (hs.symm.trans heq)).2).1
    rw [this] at hb
    exact absurd hb (by decide)
  have hX : ∀ r, s ≠ '0' :: 'X' :: r := by
    intro r heq
    have : b = 'X' := (List.cons.inj (List.cons.inj (hs.symm.trans heq)).2).1
    rw [this] at hb
    exact absurd hb (by decide)
  unfold ofBareWord
  rw [hnull, htrue, hfalse]
  -- `hx` and `hX` rule out the marks of bytes.
  simp only [Bool.false_eq_true, if_false]
  rw [readSigned?_hyphenated h, read?_hyphenated h]

end BulkTransfer.Value
