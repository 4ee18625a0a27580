/-!
Write statements in batches, and the queue between the one who makes them and the workers.
-/

namespace BulkTransfer.Import

/-- A write statement and the number of the record it comes from. -/
structure WriteStatement where
  record : Nat
  text : String
  deriving DecidableEq, Repr

/-- Statements that one worker executes one after the other. -/
structure Batch where
  /-- The number of statements that makes the batch full, at least one. -/
  capacity : Nat
  statements : List WriteStatement
  deriving DecidableEq, Repr

namespace Batch

/-- An empty batch. -/
def withCapacity (n : Nat) : Batch := ⟨max 1 n, []⟩

/-- Adds a statement. -/
def push (b : Batch) (s : WriteStatement) : Batch := { b with statements := b.statements ++ [s] }

/-- Whether the batch has as many statements as it should. -/
def isFull (b : Batch) : Bool := b.capacity ≤ b.statements.length

/-- Whether the batch has no statement. -/
def isEmpty (b : Batch) : Bool := b.statements.isEmpty

/-- An empty batch of the same capacity. -/
def emptied (b : Batch) : Batch := { b with statements := [] }

/-- The numbers of the records that the statements come from. -/
def records (b : Batch) : List Nat := b.statements.map WriteStatement.record

end Batch

/-- Workers, of which there is at least one. -/
structure Pool where
  workers : Nat
  deriving DecidableEq, Repr

namespace Pool

/-- A pool of so many workers. -/
def new (n : Nat) : Pool := ⟨max 1 n⟩

/-- The number of batches that may wait. -/
def queueCapacity (p : Pool) : Nat := p.workers * 2

end Pool

/-- Cuts statements into the batches that are handed to workers: each one when it is full, and what
is left at the end. -/
def batchesOf (b : Batch) : List WriteStatement → List Batch
  | [] => if b.isEmpty then [] else [b]
  | s :: more =>
    let b := b.push s
    if b.isFull then b :: batchesOf b.emptied more else batchesOf b more

end BulkTransfer.Import
