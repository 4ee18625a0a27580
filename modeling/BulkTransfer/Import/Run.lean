import BulkTransfer.Import.Ledger
import BulkTransfer.Reader

/-!
Importing rows into a table: records are passed over, read in chunks, turned into statements and
handed to the workers in batches. Parse errors and failed writes are counted against the budget;
once it is tripped no further batch is handed over, and every batch that was is executed.
-/

namespace BulkTransfer.Import

/-- What an import writes and how. -/
structure Job where
  /-- The table as statements name it. -/
  table : String
  columns : List Column
  options : Options

/-- How far an import has come. -/
structure Progress where
  /-- Records read behind those passed over. -/
  read : Nat
  skipped : Nat
  parseErrors : Nat
  deriving DecidableEq, Repr

/-- The outcome of an import. -/
structure Report where
  succeeded : Nat
  /-- Records passed over, parse errors and attempted writes. -/
  processed : Nat
  skipped : Nat
  parseErrors : Nat
  insertErrors : Nat
  attempted : Nat
  samples : List ErrorSample
  /-- What stopped the import early. -/
  aborted? : Option Trip
  /-- The size of a source of several files. -/
  dataset? : Option DatasetSize

/-- The state of the maker of statements, with what it shares. -/
structure Producer (σ : Type) where
  ledger : Ledger σ
  batch : Batch
  read : Nat
  /-- The progress reported, last one first. -/
  progress : List Progress
  /-- Whether it has stopped before the source ended. -/
  stopped : Bool

namespace Producer

variable {σ : Type}

/-- The state before the first record is read. -/
def start (job : Job) (session : σ) : Producer σ :=
  let o := job.options
  { ledger := ⟨session, Budget.new o.maxParseErrors o.maxInsertErrors, 0, 0⟩
    batch := Batch.withCapacity o.maxBatchSize
    read := 0
    progress := []
    stopped := false }

/-- Reports progress where a chunk is complete. -/
def noteProgress (chunk skipped : Nat) (p : Producer σ) : Producer σ :=
  if p.read % chunk = 0 then
    { p with progress := ⟨p.read, skipped, p.ledger.budget.parseErrors⟩ :: p.progress }
  else p

/-- Only the progress reported changes. -/
theorem noteProgress_eq (chunk skipped : Nat) (p : Producer σ) :
    ∃ progress, p.noteProgress chunk skipped = { p with progress := progress } := by
  unfold noteProgress
  split
  · exact ⟨_, rfl⟩
  · exact ⟨p.progress, rfl⟩

@[simp]
theorem ledger_noteProgress (chunk skipped : Nat) (p : Producer σ) :
    (p.noteProgress chunk skipped).ledger = p.ledger := by
  obtain ⟨progress, hnote⟩ := p.noteProgress_eq chunk skipped
  rw [hnote]

@[simp]
theorem stopped_noteProgress (chunk skipped : Nat) (p : Producer σ) :
    (p.noteProgress chunk skipped).stopped = p.stopped := by
  obtain ⟨progress, hnote⟩ := p.noteProgress_eq chunk skipped
  rw [hnote]

/-- Hands over the batch, which a worker executes at once; an empty one is dropped. -/
def submit [WriteSession σ] (p : Producer σ) : Producer σ :=
  { p with ledger := p.ledger.executeBatch p.batch, batch := p.batch.emptied }

/-- Hands over the batch if it is full, unless the budget is tripped. -/
def submitFull [WriteSession σ] (p : Producer σ) : Producer σ :=
  if p.batch.isFull then
    if p.ledger.budget.isTripped then { p with stopped := true } else p.submit
  else p

/-- Takes one record: a row becomes a statement, a failure is counted. -/
def take (job : Job) (skipped : Nat) (p : Producer σ) (record : Record) : Producer σ :=
  let p := { p with read := p.read + 1 }
  match record with
  | .ok row =>
    let start := Statement.insertStart job.table job.columns
    let statement := ⟨skipped + p.read, Statement.insert start job.columns row⟩
    { p with batch := p.batch.push statement }
  | .error failure =>
    let (budget, verdict) := p.ledger.budget.record .parse ⟨failure.record, failure.message⟩
    { p with ledger := { p.ledger with budget := budget }, stopped := verdict == .abort }

/-- Takes one record and does what follows from it, unless the import has stopped. -/
def step [WriteSession σ] (job : Job) (skipped : Nat) (p : Producer σ) (record : Record) :
    Producer σ :=
  if p.stopped then p
  else
    let p := p.take job skipped record
    if p.stopped then p
    else
      let p := p.submitFull
      if p.stopped then p else p.noteProgress job.options.chunkSize skipped

/-- How many records to read next. -/
def wanted (job : Job) (p : Producer σ) : Nat :=
  match job.options.maxRows? with
  | some max => min job.options.chunkSize (max - p.read)
  | none => job.options.chunkSize

/-- Reads and takes records until the source ends or the import stops, in at most so many
readings. -/
def consume [WriteSession σ] (job : Job) (skipped : Nat) :
    Nat → Reader → Producer σ → Producer σ × Reader × Except Failure Unit
  | 0, reader, p => (p, reader, .ok ())
  | steps + 1, reader, p =>
    if p.wanted job = 0 then (p, reader, .ok ())
    else match reader.readBatch (p.wanted job) with
      | (reader, .error e) => (p, reader, .error e)
      | (reader, .ok batch) =>
        let p := batch.records.foldl (step job skipped) p
        if p.stopped || batch.isLast then (p, reader, .ok ())
        else consume job skipped steps reader p

end Producer

/-- The rows of a columnar file in a tree. -/
def rowsAt (tree : FileTree) (path : String) : Nat :=
  match tree.look path with
  | .ok (.file (.columnar f)) => (f.groups.map Columnar.RowGroup.size).sum
  | _ => 0

/-- No reader has more records than this. -/
def recordBound : Reader → Nat
  | .delimited r => r.rest.length
  | .json r => r.items.length + r.pending.length + r.rest.length
  | .columnar r => r.buffered.length + (r.chunks.map List.length).sum
  | .partitioned r =>
    let current := match r.current? with
      | some c => c.reader.buffered.length + (c.reader.chunks.map List.length).sum
      | none => 0
    current + (r.pending.map fun f => rowsAt r.tree f.path).sum
  | .listed _ records => records.length

/-- The report of what was done. -/
def reportOf {σ : Type} (skipped : Nat) (dataset? : Option DatasetSize) (l : Ledger σ) : Report :=
  { succeeded := l.succeeded
    processed := skipped + l.budget.parseErrors + l.attempted
    skipped := skipped
    parseErrors := l.budget.parseErrors
    insertErrors := l.budget.insertErrors
    attempted := l.attempted
    samples := l.budget.samples
    aborted? := l.budget.trip?
    dataset? := dataset? }

/-- What an import leaves: the session, the reader, the progress reported, and the report. -/
structure Outcome (σ : Type) where
  session : σ
  reader : Reader
  progress : List Progress
  result : Except Failure Report

/-- Imports the records of a reader. -/
def run {σ : Type} [WriteSession σ] (job : Job) (session : σ) (reader : Reader) : Outcome σ :=
  match reader.skip job.options.skipRows with
  | (reader, .error e) => ⟨session, reader, [], .error e⟩
  | (reader, .ok skipped) =>
    match Producer.consume job skipped (recordBound reader + 1) reader (.start job session) with
    | (p, reader, .error e) => ⟨p.ledger.session, reader, p.progress.reverse, .error e⟩
    | (p, reader, .ok ()) =>
      let p := if p.ledger.budget.isTripped then p else p.submit
      ⟨p.ledger.session, reader, p.progress.reverse,
        .ok (reportOf skipped reader.dataset? p.ledger)⟩

end BulkTransfer.Import
