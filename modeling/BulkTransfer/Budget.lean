import BulkTransfer.Options.Threshold

/-!
The error budget of an import: parse and insert errors are counted against two ceilings. The first
count that goes past its ceiling trips the budget, and what tripped it is kept.

- `isTripped_note`: a tripped budget stays tripped.
- `isTripped_of_abort`: the verdict to abort comes with a tripped budget.
-/

namespace BulkTransfer

/-- The kinds of errors that an import counts. -/
inductive ErrorKind where
  | parse
  | insert
  deriving DecidableEq, Repr, Inhabited

/-- The name of a kind. -/
def ErrorKind.name : ErrorKind → String
  | parse => "parse"
  | insert => "insert"

/-- A kept error message and the record it belongs to. -/
structure ErrorSample where
  record : Nat
  message : String
  deriving DecidableEq, Repr

/-- What tripped a budget: the kind and the count past its ceiling. -/
structure Trip where
  kind : ErrorKind
  count : Nat
  deriving DecidableEq, Repr

/-- What to do after an error. -/
inductive Verdict where
  | goOn
  | abort
  deriving DecidableEq, Repr, Inhabited

/-- Counts of errors, their ceilings, the first messages, and the trip. -/
structure Budget where
  parseLimit : Threshold
  insertLimit : Threshold
  parseErrors : Nat := 0
  insertErrors : Nat := 0
  samples : List ErrorSample := []
  trip? : Option Trip := none
  deriving Repr

namespace Budget

/-- How many messages are kept. -/
def sampleLimit : Nat := 5

/-- A budget of which nothing is spent. -/
def new (parseLimit insertLimit : Threshold) : Budget := ⟨parseLimit, insertLimit, 0, 0, [], none⟩

/-- The ceiling of a kind. -/
def limit (b : Budget) : ErrorKind → Threshold
  | .parse => b.parseLimit
  | .insert => b.insertLimit

/-- The count of a kind. -/
def errors (b : Budget) : ErrorKind → Nat
  | .parse => b.parseErrors
  | .insert => b.insertErrors

/-- Counts an error, which is the first half of recording it. -/
def increment (b : Budget) : ErrorKind → Budget
  | .parse => { b with parseErrors := b.parseErrors + 1 }
  | .insert => { b with insertErrors := b.insertErrors + 1 }

/-- Keeps the message of an error and judges its count, which is the second half. -/
def note (b : Budget) (kind : ErrorKind) (count : Nat) (sample : ErrorSample) : Budget × Verdict :=
  let samples :=
    if b.samples.length < sampleLimit then b.samples ++ [sample] else b.samples
  if (b.limit kind).isExceededBy count then
    ({ b with samples := samples, trip? := some (b.trip?.getD ⟨kind, count⟩) }, .abort)
  else ({ b with samples := samples }, .goOn)

/-- Records an error. -/
def record (b : Budget) (kind : ErrorKind) (sample : ErrorSample) : Budget × Verdict :=
  let counted := b.increment kind
  counted.note kind (counted.errors kind) sample

/-- Whether the budget is exhausted. -/
def isTripped (b : Budget) : Bool := b.trip?.isSome

@[simp]
theorem parseErrors_note (b : Budget) (kind : ErrorKind) (count : Nat) (sample : ErrorSample) :
    (b.note kind count sample).1.parseErrors = b.parseErrors := by
  unfold note
  dsimp only
  split <;> rfl

@[simp]
theorem insertErrors_note (b : Budget) (kind : ErrorKind) (count : Nat) (sample : ErrorSample) :
    (b.note kind count sample).1.insertErrors = b.insertErrors := by
  unfold note
  dsimp only
  split <;> rfl

theorem isTripped_note {b : Budget} (h : b.isTripped = true) (kind : ErrorKind) (count : Nat)
    (sample : ErrorSample) : (b.note kind count sample).1.isTripped = true := by
  unfold note
  dsimp only
  split
  · rfl
  · exact h

theorem isTripped_of_abort {b : Budget} {kind : ErrorKind} {count : Nat} {sample : ErrorSample}
    (h : (b.note kind count sample).2 = .abort) :
    (b.note kind count sample).1.isTripped = true := by
  unfold note at h ⊢
  dsimp only at h ⊢
  split
  · rfl
  · next hle =>
    rw [if_neg hle] at h
    nomatch h

/-- One kept message as a line of a summary. -/
def sampleLine (s : ErrorSample) : String :=
  "\n  - Row " ++ Integer.natText s.record ++ ": " ++ s.message

/-- The kept messages for a summary; a last line counts the errors not shown. -/
def renderSamples (samples : List ErrorSample) (total : Nat) : String :=
  if samples.isEmpty then ""
  else
    let lines := samples.foldl (fun out s => out ++ sampleLine s) "\n\nFirst errors encountered:"
    if samples.length < total then
      lines ++ "\n  ... and " ++ Integer.natText (total - samples.length) ++ " more errors"
    else lines

end Budget

end BulkTransfer
