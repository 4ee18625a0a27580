import BulkTransfer.ColumnType.Basic
import BulkTransfer.Text.Case
import BulkTransfer.Text.Split

/-!
Reading of column types. Names have no case, blanks may surround every part, and `frozen<t>` is
the same type as `t`. A name that is no known type is one that the user defined.

- `length_of_mem_splitArguments`: an argument is no longer than the text it was cut from, on which
  the recursion rests.
-/

namespace BulkTransfer.ColumnType

open Text

/-- Puts a character in front of the first piece. -/
def consFirst (c : Char) : List (List Char) → List (List Char)
  | [] => [[c]]
  | piece :: more => (c :: piece) :: more

/-- Splits at the commas outside of brackets, of which `depth` are open. Brackets that do not
match give `none`. -/
def splitArguments (depth : Nat) : List Char → Option (List (List Char))
  | [] => if depth = 0 then some [[]] else none
  | c :: rest =>
    if c = '<' then (splitArguments (depth + 1) rest).map (consFirst c)
    else if c = '>' then
      match depth with
      | 0 => none
      | d + 1 => (splitArguments d rest).map (consFirst c)
    else if c = ',' ∧ depth = 0 then (splitArguments 0 rest).map ([] :: ·)
    else (splitArguments depth rest).map (consFirst c)

theorem length_of_mem_consFirst {c : Char} {pieces : List (List Char)} {n : Nat}
    (h : ∀ p ∈ pieces, p.length ≤ n) : ∀ p ∈ consFirst c pieces, p.length ≤ n + 1 := by
  intro p hp
  cases pieces with
  | nil => simp only [consFirst, List.mem_singleton] at hp; simp [hp]
  | cons q more =>
    simp only [consFirst, List.mem_cons] at hp
    rcases hp with rfl | hp
    · have := h q (by simp); simp; omega
    · have := h p (by simp [hp]); omega

theorem length_of_mem_splitArguments {depth : Nat} {s : List Char} {pieces : List (List Char)}
    (h : splitArguments depth s = some pieces) : ∀ p ∈ pieces, p.length ≤ s.length := by
  induction s generalizing depth pieces with
  | nil =>
    simp only [splitArguments] at h
    split at h
    · simp only [Option.some.injEq] at h; subst h; simp
    · simp at h
  | cons c rest ih =>
    simp only [splitArguments] at h
    split at h
    · obtain ⟨q, hq, rfl⟩ := Option.map_eq_some_iff.mp h
      exact length_of_mem_consFirst (ih hq)
    · split at h
      · split at h
        · simp at h
        · obtain ⟨q, hq, rfl⟩ := Option.map_eq_some_iff.mp h
          exact length_of_mem_consFirst (ih hq)
      · split at h
        · obtain ⟨q, hq, rfl⟩ := Option.map_eq_some_iff.mp h
          intro p hp
          simp only [List.mem_cons] at hp
          rcases hp with rfl | hp
          · simp
          · have := ih hq p hp; simp; omega
        · obtain ⟨q, hq, rfl⟩ := Option.map_eq_some_iff.mp h
          exact length_of_mem_consFirst (ih hq)

/-- The type that a name without parameters stands for; quotes around a user's name are dropped. -/
def ofName (name : List Char) : ColumnType :=
  let folded := String.ofList (lower name)
  if folded = "varchar" then text
  else match scalarNames.lookup folded with
    | some t => t
    | none => userDefined (String.ofList (dropEnds (· == '"') name))

/-- A text split into the name before the brackets and the arguments between them. -/
structure Applied where
  name : String
  arguments : List (List Char)

/-- Splits `name<a, b>`, if the text has this shape. -/
def applied? (name inner : List Char) : Option Applied :=
  match dropEnd? ['>'] inner with
  | none => none
  | some body => (splitArguments 0 body).map fun arguments =>
      ⟨String.ofList (lower (trim name)), arguments.map trim⟩

theorem length_dropEnd? {tail s rest : List Char} (h : dropEnd? tail s = some rest) :
    rest.length ≤ s.length := by
  simp only [dropEnd?] at h
  obtain ⟨r, hr, rfl⟩ := Option.map_eq_some_iff.mp h
  have := congrArg List.length (dropStart?_eq_some hr)
  simp at this
  simp
  omega

theorem length_of_mem_applied {name inner : List Char} {a : Applied}
    (h : applied? name inner = some a) : ∀ p ∈ a.arguments, p.length ≤ inner.length := by
  simp only [applied?] at h
  split at h
  · simp at h
  · next body hb =>
    obtain ⟨pieces, hp, rfl⟩ := Option.map_eq_some_iff.mp h
    intro p hmem
    obtain ⟨q, hq, rfl⟩ := List.mem_map.mp hmem
    have h1 := length_of_mem_splitArguments hp q hq
    have h2 := length_dropEnd? hb
    have h3 := length_trim_le q
    omega

/-- Reads a type. -/
def parse? (s : List Char) : Option ColumnType :=
  match hc : cut? '<' (trim s) with
  | none => some (ofName (trim s))
  | some (name, inner) =>
    match ha : applied? name inner with
    | none => none
    | some a =>
      have shorter : ∀ p ∈ a.arguments, p.length < s.length := by
        intro p hp
        have h1 := length_of_mem_applied ha p hp
        have h2 := congrArg List.length (cut?_eq_some hc).1
        have h3 := length_trim_le s
        simp at h2
        omega
      if a.name = "tuple" then
        if a.arguments.isEmpty then none
        else (a.arguments.attach.mapM fun p => parse? p.1).map tuple
      else match hargs : a.arguments with
        | [x] =>
          if a.name = "frozen" then parse? x
          else if a.name = "list" then (parse? x).map list
          else if a.name = "set" then (parse? x).map set
          else none
        | [x, y] =>
          if a.name = "map" then do
            let k ← parse? x
            let v ← parse? y
            some (map k v)
          else if a.name = "vector" then do
            let e ← parse? x
            let n ← Integer.readUnsigned? (trim y)
            some (vector e n)
          else none
        | _ => none
termination_by s.length
decreasing_by
  all_goals first
    | exact shorter _ p.2
    | exact shorter _ (by rw [hargs]; simp)

/-- Reads a type from a string. -/
def ofString? (s : String) : Option ColumnType := parse? s.toList

end BulkTransfer.ColumnType
