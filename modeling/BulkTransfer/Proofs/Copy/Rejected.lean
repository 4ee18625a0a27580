import BulkTransfer.Columnar.Storage
import BulkTransfer.Copy
import BulkTransfer.Proofs.Delimited.Cursor
import BulkTransfer.Proofs.FileTree
import BulkTransfer.Proofs.JsonLines.Cursor
import BulkTransfer.Proofs.Partition.Cursor

/-!
What a rejected transfer leaves. A transfer is rejected for its input when nothing has been done
yet: failures that come later, of readings and of files, are failures of operations. One rejection
comes too late. A columnar file is made before it turns out that there are no columns for it.

- `Reader.readBatch_error`, `Reader.skip_error`: readings fail as operations.
- `Import.run_error`: so does an import that has begun.
- `Writer.create_rejected`: what a writer that is rejected has made.
- `Copy.rejected_transfer_leaves_world`: the session, the output and, but for this file, the tree
  are as they were.
- `Copy.LeavesFile`, `Copy.rejected_export_leaves_file`: the file that is left.
-/

namespace BulkTransfer

/-! ## Importing -/

theorem Failure.IsOperation.ne_invalidInput {e : Failure} (h : e.IsOperation) (fault : InputFault) :
    e ≠ .invalidInput fault := by
  obtain ⟨name, cause, rfl⟩ := h
  intro heq
  nomatch heq

namespace Reader

theorem readBatch_error {r after : Reader} {max : Nat} {e : Failure}
    (h : r.readBatch max = (after, .error e)) : e.IsOperation := by
  cases r with
  | delimited r => exact Delimited.Reader.isSource.readBatch_error Delimited.Reader.take_error h
  | json r => exact JsonLines.Reader.isSource.readBatch_error JsonLines.Reader.take_error h
  | columnar r => exact Columnar.Reader.readBatch_error (eq_of_lift h)
  | partitioned r => exact Partition.Reader.readBatch_error (eq_of_lift h)
  | listed columns records => nomatch h

theorem skip_error {r after : Reader} {n : Nat} {e : Failure}
    (h : r.skip n = (after, .error e)) : e.IsOperation := by
  cases r with
  | delimited r => exact Delimited.Reader.isSource.skip_error Delimited.Reader.pass_error h
  | json r => exact JsonLines.Reader.isSource.skip_error JsonLines.Reader.pass_error h
  | columnar r => exact Columnar.Reader.skip_error (eq_of_lift h)
  | partitioned r => exact Partition.Reader.skip_error (eq_of_lift h)
  | listed columns records => nomatch h

end Reader

namespace Import

variable {σ : Type} [WriteSession σ]

theorem Producer.consume_error {job : Job} {skipped steps : Nat} {reader rest : Reader}
    {p final : Producer σ} {e : Failure}
    (h : consume job skipped steps reader p = (final, rest, .error e)) : e.IsOperation := by
  induction steps generalizing reader p with
  | zero => nomatch h
  | succ steps ih =>
    unfold consume at h
    split at h
    · nomatch h
    · split at h
      · next hread =>
        cases h
        exact Reader.readBatch_error hread
      · dsimp only at h
        split at h
        · nomatch h
        · exact ih h

/-- An import that has begun fails as an operation; failed writes are counted. -/
theorem run_error {job : Job} {session : σ} {reader : Reader} {e : Failure}
    (h : (run job session reader).result = .error e) : e.IsOperation := by
  unfold run at h
  split at h
  · next hskip =>
    cases h
    exact Reader.skip_error hskip
  · split at h
    · next hconsume =>
      cases h
      exact Producer.consume_error hconsume
    · nomatch h

end Import

/-! ## Exporting -/

theorem createExportFile_error {tree : FileTree} {path : String} {e : Failure}
    (h : createExportFile tree path = .error e) : e.IsOperation := by
  unfold createExportFile at h
  split at h
  · cases h
    exact ⟨_, _, rfl⟩
  · nomatch h

/-- The columns of a dataset are judged before its root is made. -/
theorem Partition.Writer.create_rejected {tree after : FileTree} {root : String}
    {columns : List Column} {options : Options} {fault : InputFault}
    (h : Partition.Writer.create tree root columns options =
      (after, .error (.invalidInput fault))) : after = tree := by
  unfold Partition.Writer.create at h
  split at h
  · cases h
    rfl
  · split at h
    · nomatch h
    · nomatch h

namespace Writer

theorem prepare_error {tree : FileTree} {sink : Sink} {e : Failure}
    (h : prepare tree sink = .error e) : e.IsOperation := by
  cases sink with
  | stream => nomatch h
  | path path => exact createExportFile_error h

/-- A writer of one columnar file is rejected when the file is already made, for want of columns. -/
theorem createColumnar_rejected {tree after : FileTree} {path : String} {columns : List Column}
    {options : Options} {fault : InputFault}
    (h : createColumnar tree path columns options = (after, .error (.invalidInput fault))) :
    fault = .noColumnarColumns ∧ columns = [] ∧ tree.createFile path = .ok after := by
  unfold createColumnar at h
  split at h
  · next hfile =>
    cases h
    exact absurd rfl ((createExportFile_error hfile).ne_invalidInput fault)
  · next hfile =>
    unfold Columnar.Writer.new Columnar.Writer.into at h
    -- By now the file is there, whatever the columns are.
    by_cases hempty : columns.isEmpty = true
    · rw [if_pos hempty] at h
      cases h
      exact ⟨rfl, List.isEmpty_iff.mp hempty, createFile_of_createExportFile hfile⟩
    · rw [if_neg hempty] at h
      nomatch h

/-- A writer that is rejected has made nothing, but for the columnar file that has no columns. -/
theorem create_rejected {tree after : FileTree} {format : FileFormat} {sink : Sink}
    {columns : List Column} {options : Options} {fault : InputFault}
    (h : create tree format sink columns options = (after, .error (.invalidInput fault))) :
    after = tree ∨ fault = .noColumnarColumns ∧ format = .columnar ∧ columns = [] ∧
      options.partitionColumns = [] ∧ ∃ path, sink = .path path ∧
        tree.createFile path = .ok after := by
  unfold create at h
  split at h
  · cases h
    exact .inl rfl
  · next path =>
    split at h
    · next hnone =>
      obtain ⟨hfault, hcolumns, hfile⟩ := createColumnar_rejected h
      exact .inr ⟨hfault, rfl, hcolumns, List.isEmpty_iff.mp hnone, path, rfl, hfile⟩
    · split at h
      · nomatch h
      · next hcreate =>
        cases h
        exact .inl (Partition.Writer.create_rejected hcreate)
  · split at h
    · next hprepare =>
      cases h
      exact absurd rfl ((prepare_error hprepare).ne_invalidInput fault)
    · nomatch h
  · split at h
    · next hprepare =>
      cases h
      exact absurd rfl ((prepare_error hprepare).ne_invalidInput fault)
    · nomatch h

end Writer

/-- A rejected export has written nothing to its stream and, but for the file of an answer without
columns, made nothing. -/
theorem Export.run_rejected [Columnar.Platform] {job : Job} {session : Session}
    {tree : FileTree} {sink : Sink} {fault : InputFault}
    (h : (run job session tree sink).result = .error (.invalidInput fault)) :
    (run job session tree sink).stream = [] ∧
      ((run job session tree sink).tree = tree ∨
        fault = .noColumnarColumns ∧ job.format = .columnar ∧
          job.options.partitionColumns = [] ∧ ∃ path found, sink = .path path ∧
            session.query job.statement = .ok found ∧ found.columns = [] ∧
            tree.createFile path = .ok (run job session tree sink).tree) := by
  unfold run at h ⊢
  split at h
  · exact ⟨rfl, .inl rfl⟩
  · next found hquery =>
    split at h
    · next after e hcreate =>
      cases h
      refine ⟨rfl, (Writer.create_rejected hcreate).imp_right ?_⟩
      rintro ⟨hfault, hformat, hcolumns, hpartition, path, hsink, hfile⟩
      exact ⟨hfault, hformat, hpartition, path, found, hsink, hquery, hcolumns, hfile⟩
    · nomatch h

/-! ## Transfers -/

namespace Copy

/-- The file that a rejected export leaves: the query was answered, its answer has no columns, and
the columnar file for it was made or emptied. -/
def LeavesFile (w : World) (t : Transfer) (options : Options) (after : FileTree) : Prop :=
  t.direction = .exporting ∧ ∃ path found, t.target = .path path ∧
    w.session.query (Export.Job.statement
      ⟨qualifiedTable w.session t, t.columns, options, .columnar⟩) = .ok found ∧
    found.columns = [] ∧ w.tree.createFile (exportPath path .columnar false) = .ok after

theorem error_of_map {ε α β : Type} {x : Except ε α} {f : α → β} {e : ε}
    (h : x.map f = .error e) : x = .error e := by
  cases x with
  | ok a => nomatch h
  | error e' => exact congrArg _ (Except.error.inj h)

theorem runExport_rejected [Columnar.Platform] {w : World} {t : Transfer}
    {format : FileFormat} {input : Bytes} {fault : InputFault} (hdirection : t.direction = .exporting)
    (h : (runExport w t format (qualifiedTable w.session t) input).result =
      .error (.invalidInput fault)) :
    let done := runExport w t format (qualifiedTable w.session t) input
    done.output = [] ∧ done.world.session = w.session ∧
      (done.world.tree = w.tree ∨
        fault = .noColumnarColumns ∧ LeavesFile w t t.options done.world.tree) := by
  intro done
  obtain ⟨hstream, htree⟩ := Export.run_rejected (error_of_map h)
  refine ⟨hstream, rfl, htree.imp_right ?_⟩
  rintro ⟨hfault, hformat, hpartition, path, found, hsink, hquery, hcolumns, hfile⟩
  dsimp only at hformat hpartition hquery
  rw [hformat] at hquery hsink
  refine ⟨hfault, hdirection, ?_⟩
  split at hsink
  · next target htarget =>
    have hsingle : t.isPartitioned = false := by
      unfold Transfer.isPartitioned
      rw [hpartition]
      rfl
    rw [hsingle] at hsink
    obtain rfl := Sink.path.inj hsink
    exact ⟨target, found, htarget, hquery, hcolumns, hfile⟩
  · nomatch hsink

theorem runImport_rejected {w : World} {t : Transfer} {format : FileFormat} {table : String}
    {known? : Option (List Column)} {input : Bytes} {fault : InputFault}
    (h : (runImport w t format table known? input).result = .error (.invalidInput fault)) :
    (runImport w t format table known? input).output = [] ∧
      (runImport w t format table known? input).world = w := by
  unfold runImport at h ⊢
  dsimp only at h ⊢
  split at h
  · exact ⟨rfl, rfl⟩
  · split at h
    · exact ⟨rfl, rfl⟩
    · exact absurd rfl ((Import.run_error (error_of_map h)).ne_invalidInput fault)

/-- A transfer that is rejected for its input has written nothing to the output and changed nothing
of the session; nor has it made or emptied a file or a directory, but for the columnar file of an
export whose query is answered without columns. This is so whatever is known of the table. -/
theorem rejected_transfer_leaves_world [Columnar.Platform] {defaults : Options}
    {known? : Option (List Column)} {w : World} {t : Transfer} {input : Bytes}
    {fault : InputFault}
    (h : (runKnowing defaults known? w t input).result = .error (.invalidInput fault)) :
    let done := runKnowing defaults known? w t input
    done.output = [] ∧ done.world.session = w.session ∧
      (done.world.tree = w.tree ∨ fault = .noColumnarColumns ∧
        LeavesFile w t (t.options.withDefaults defaults) done.world.tree) := by
  unfold runKnowing at h ⊢
  dsimp only at h ⊢
  split at h
  · exact ⟨rfl, rfl, .inl rfl⟩
  · split at h
    · exact ⟨rfl, rfl, .inl rfl⟩
    · split at h
      · next hdirection => exact runExport_rejected hdirection h
      · obtain ⟨houtput, hworld⟩ := runImport_rejected h
        rw [hworld]
        exact ⟨houtput, rfl, .inl rfl⟩

/-- An export that is partitioned by a column that the table lacks: its root is not made. -/
theorem rejected_transfer_leaves_world_no_root :
    let w : World := ⟨(Session.new none).createTable "t" [⟨"k", some .text⟩], .empty⟩
    let t : Transfer := ⟨"t", [], .exporting, .path "d",
      .ofPairs [("PARTITION", "x"), ("FORMAT", "parquet")]⟩
    (runKnowing .empty none w t []).result = .error (.invalidInput (.partitionColumnMissing "x")) ∧
      (runKnowing .empty none w t []).output = [] ∧
      (runKnowing .empty none w t []).world.session = w.session ∧
      (runKnowing .empty none w t []).world.tree = w.tree := by
  intro w t
  have hresult : (runKnowing .empty none w t []).result =
      .error (.invalidInput (.partitionColumnMissing "x")) := by
    simp only [w, t]
    rfl
  obtain ⟨houtput, hsession, htree⟩ := rejected_transfer_leaves_world hresult
  refine ⟨hresult, houtput, hsession, htree.resolve_right ?_⟩
  rintro ⟨hfault, -⟩
  nomatch hfault

/-- A table without columns cannot be exported to a columnar file, and yet the file is there after
the export was rejected. -/
theorem rejected_export_leaves_file :
    let w : World := ⟨(Session.new none).createTable "t" [], .empty⟩
    let t : Transfer := ⟨"t", [], .exporting, .path "out.parquet", .empty⟩
    let done := run ⟨.empty, true⟩ w t []
    done.result = .error (.invalidInput .noColumnarColumns) ∧
      w.tree.look "out.parquet" = .error .notFound ∧
      done.world.tree.look "out.parquet" = .ok (.file (.bytes [])) :=
  ⟨rfl, rfl, rfl⟩

end Copy

end BulkTransfer
