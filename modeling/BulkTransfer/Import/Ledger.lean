import BulkTransfer.Budget
import BulkTransfer.Import.Batch
import BulkTransfer.Session.Basic

/-!
What the maker of statements and the workers share: the session, the error budget and the counts of
writes.

- `attempt_cases`: what an attempt does when the write succeeds and when it fails.
-/

namespace BulkTransfer.Import

/-- The session, the error budget and the counts of writes. -/
structure Ledger (σ : Type) where
  session : σ
  budget : Budget
  /-- Statements sent to the session. -/
  attempted : Nat
  /-- Statements that succeeded. -/
  succeeded : Nat

namespace Ledger

variable {σ : Type}

/-- The message under which a failed write is kept. -/
def writeMessage : Failure → String
  | .execution fault => fault.message
  | e => e.message

/-- A failed write that is counted and still to be judged. -/
structure CountedError where
  /-- How many writes have failed with this one. -/
  count : Nat
  sample : ErrorSample
  deriving DecidableEq, Repr

/-- Executes a statement and counts it, and counts the error if it fails. -/
def attempt [WriteSession σ] (l : Ledger σ) (s : WriteStatement) :
    Ledger σ × Option CountedError :=
  let counted := { l with attempted := l.attempted + 1 }
  match WriteSession.execute l.session s.text with
  | (session, .ok ()) =>
    ({ counted with session := session, succeeded := l.succeeded + 1 }, none)
  | (session, .error e) =>
    let budget := l.budget.increment .insert
    ({ counted with session := session, budget := budget },
      some ⟨budget.insertErrors, s.record, writeMessage e⟩)

/-- A write is counted as attempted, and then as succeeded or as an error. -/
theorem attempt_cases [WriteSession σ] (l : Ledger σ) (s : WriteStatement) :
    (∃ session, WriteSession.execute l.session s.text = (session, .ok ()) ∧
      l.attempt s =
        (⟨session, l.budget, l.attempted + 1, l.succeeded + 1⟩, none)) ∨
    (∃ session e error, WriteSession.execute l.session s.text = (session, .error e) ∧
      l.attempt s =
        (⟨session, l.budget.increment .insert, l.attempted + 1, l.succeeded⟩, some error)) := by
  unfold attempt
  dsimp only
  match WriteSession.execute l.session s.text with
  | (session, .ok ()) => exact .inl ⟨session, rfl, rfl⟩
  | (session, .error e) => exact .inr ⟨session, e, _, rfl, rfl⟩

/-- Keeps the message of a counted error and judges its count. -/
def judge (l : Ledger σ) (e : CountedError) : Ledger σ :=
  { l with budget := (l.budget.note .insert e.count e.sample).1 }

/-- Executes a statement and judges the error if it fails. -/
def execute [WriteSession σ] (l : Ledger σ) (s : WriteStatement) : Ledger σ :=
  match l.attempt s with
  | (l, none) => l
  | (l, some e) => l.judge e

/-- Executes all statements of a batch; a tripped budget does not stop it. -/
def executeBatch [WriteSession σ] (l : Ledger σ) (b : Batch) : Ledger σ :=
  b.statements.foldl execute l

end Ledger

end BulkTransfer.Import
