import Mathlib.Data.List.Forall2
import TileWalk.Proofs.Number.Places
import TileWalk.Proofs.Trace.Calls
import TileWalk.Proofs.Trace.Reading

/-!
# The tables of a trace

A writer of tables is told by what its files and buffers hold together: the header, and a record for
each row in the order of the calls (`CsvTables.Holds`). Every call keeps this, whichever bytes go on
to the files by themselves, and so do all the calls of a list. When the writer is gone nothing waits
any more, and reading the two files gives these records, which say what the rows say
(`CsvTables.parse_ofCalls`).
-/

namespace TileWalk.Trace

/-! ### What rows say -/

/-- The text is what a state says under a name. -/
def SnapshotRow.Shows (r : SnapshotRow) (name text : String) : Prop :=
  match name with
  | "tick" => text = toString r.tick.toNat
  | "agent_id" => text = toString r.agentId.toNat
  | "x" => text = toString r.x.toInt
  | "y" => text = toString r.y.toInt
  | "fx" => Number.IsFourPlaces r.fx.toBits.toBitVec text
  | "fy" => Number.IsFourPlaces r.fy.toBits.toBitVec text
  | "facing" => text = toString r.facing
  | "front" => text = if r.front then "1" else "0"
  | "right" => text = if r.right then "1" else "0"
  | "back" => text = if r.back then "1" else "0"
  | "left" => text = if r.left then "1" else "0"
  | "phase" => text = r.phase
  | "remain_frames" => text = toString r.remainFrames.toNat
  | _ => False

/-- The text is what a happening says under a name. -/
def EventRow.Shows (r : EventRow) (name text : String) : Prop :=
  match name with
  | "tick" => text = toString r.tick.toNat
  | "agent_id" => text = toString r.agentId.toNat
  | "event" => text = r.event
  | "detail" => text = r.detail
  | _ => False

/-- The fields of a state stand in the order of the header. -/
theorem SnapshotRow.forall₂_shows (r : SnapshotRow) :
    List.Forall₂ r.Shows Csv.snapshotHeader (Csv.snapshotFields r) := by
  have hfx := Number.isFourPlaces_fixedText r.fx.toBits.toBitVec
  have hfy := Number.isFourPlaces_fixedText r.fy.toBits.toBitVec
  exact .cons rfl (.cons rfl (.cons rfl (.cons rfl (.cons rfl (.cons rfl (.cons rfl (.cons hfx
    (.cons hfy (.cons rfl (.cons rfl (.cons rfl (.cons rfl .nil))))))))))))

/-- The fields of a happening stand in the order of the header. -/
theorem EventRow.forall₂_shows (r : EventRow) :
    List.Forall₂ r.Shows Csv.eventHeader (Csv.eventFields r) :=
  .cons rfl (.cons rfl (.cons rfl (.cons rfl .nil)))

/-! ### Calls -/

/-- The rows about states that a call brings. -/
def Call.snapshotRows : Call → List SnapshotRow
  | .snapshots rows => rows
  | .event _ => []
  | .finish => []

/-- The rows about happenings that a call brings. -/
def Call.eventRows : Call → List EventRow
  | .snapshots _ => []
  | .event row => [row]
  | .finish => []

/-- The call only brings what was written to its place. -/
def Call.isFinish : Call → Bool
  | .finish => true
  | _ => false

theorem Call.flatMap_filter_isFinish {α : Type} {rows : Call → List α} (h : rows .finish = [])
    (calls : List Call) :
    (calls.filter fun call => !call.isFinish).flatMap rows = calls.flatMap rows := by
  induction calls with
  | nil => rfl
  | cons call calls ih =>
    cases call with
    | finish => rw [List.filter_cons_of_neg (by decide), ih, List.flatMap_cons, h, List.nil_append]
    | snapshots _ => rw [List.filter_cons_of_pos rfl, List.flatMap_cons, ih, List.flatMap_cons]
    | event _ => rw [List.filter_cons_of_pos rfl, List.flatMap_cons, ih, List.flatMap_cons]

/-! ### Records in a file -/

namespace Buffered

variable {b : Buffered} {table : List (List String)}

/-- The records of the file, as a reader of comma-separated values finds them. -/
def records? (b : Buffered) : Option (List (List String)) :=
  b.text?.bind Csv.parse

/-- The file is a table: a header, and for each row one record that says under each name of the
header what the row says under it. -/
def IsTable {ρ : Type} (b : Buffered) (header : List String) (shows : ρ → String → String → Prop)
    (rows : List ρ) : Prop :=
  ∃ table, b.records? = some (header :: table) ∧
    List.Forall₂ (fun r fields => List.Forall₂ (shows r) header fields) rows table

/-- File and buffer together hold these records. -/
def Holds (b : Buffered) (table : List (List String)) : Prop :=
  b.written = (String.ofList (table.map Csv.record).flatten).toUTF8

theorem Holds.writeRecord (h : b.Holds table) (fields : List String) :
    (Csv.writeRecord fields b).Holds (table ++ [fields]) := by
  unfold Holds at h ⊢
  rw [Csv.writeRecord, written_write, h]
  simp [String.toUTF8]

theorem Holds.writeSnapshots (h : b.Holds table) (rows : List SnapshotRow) :
    (CsvTables.writeSnapshots rows b).Holds (table ++ rows.map Csv.snapshotFields) := by
  induction rows generalizing b table with
  | nil => simpa [CsvTables.writeSnapshots] using h
  | cons r rows ih =>
    rw [List.map_cons, List.append_cons]
    exact ih (h.writeRecord (Csv.snapshotFields r))

theorem Holds.flush (h : b.Holds table) : b.flush.Holds table :=
  (written_flush b).trans h

theorem Holds.records?_flush (h : b.Holds table) (hne : ∀ fields ∈ table, fields ≠ []) :
    b.flush.records? = some table := by
  have htext : b.flush.text? = some (String.ofList (table.map Csv.record).flatten) := by
    rw [text?, file_flush, h]
    exact dif_pos (String.isValidUTF8 _)
  rw [records?, htext, Option.bind_some, Csv.parse_records hne]

/-- What holds the records of some rows is a table of them once nothing waits any more. -/
theorem Holds.isTable {ρ : Type} {header : List String} {fields : ρ → List String}
    {shows : ρ → String → String → Prop} {rows : List ρ}
    (h : b.Holds (header :: rows.map fields)) (hheader : header ≠ [])
    (hshows : ∀ r, List.Forall₂ (shows r) header (fields r)) :
    b.flush.IsTable header shows rows := by
  refine ⟨rows.map fields, h.records?_flush fun record hrecord => ?_, ?_⟩
  · obtain rfl | hrecord := List.mem_cons.mp hrecord
    · exact hheader
    · obtain ⟨r, -, rfl⟩ := List.mem_map.mp hrecord
      intro hnil
      have hlength := (hshows r).length_eq
      rw [hnil] at hlength
      exact hheader (List.eq_nil_of_length_eq_zero hlength)
  · rw [List.forall₂_map_right_iff]
    exact List.forall₂_same.mpr fun r _ => hshows r

end Buffered

namespace CsvTables

variable {t : CsvTables} {states : List SnapshotRow} {happenings : List EventRow}

/-! ### What the writer holds -/

/-- Files and buffers together hold the headers and the records of these rows. -/
structure Holds (t : CsvTables) (states : List SnapshotRow) (happenings : List EventRow) :
    Prop where
  snapshots : t.snapshots.Holds (Csv.snapshotHeader :: states.map Csv.snapshotFields)
  events : t.events.Holds (Csv.eventHeader :: happenings.map Csv.eventFields)

theorem holds_ofSpills (snapshotSpill eventSpill : Nat → Nat) :
    (ofSpills snapshotSpill eventSpill).Holds [] [] := by
  have hnew : ∀ spill, (Buffered.ofSpill spill).Holds [] := fun spill =>
    Buffered.written_ofSpill spill
  exact ⟨(hnew _).writeRecord _, (hnew _).writeRecord _⟩

theorem finish_eq (t : CsvTables) : Writer.finish t =
    if t.finished then (t, .ok ()) else ({ t.close with finished := true }, .ok ()) :=
  rfl

/-- A call writes its rows behind the others, and never fails. -/
theorem Holds.perform (h : t.Holds states happenings) (call : Call) :
    (call.perform t).1.Holds (states ++ call.snapshotRows) (happenings ++ call.eventRows) ∧
      (call.perform t).2 = .ok () := by
  cases call with
  | snapshots rows =>
    rw [Call.snapshotRows, Call.eventRows, List.append_nil]
    have hwritten := h.snapshots.writeSnapshots rows
    rw [List.cons_append, ← List.map_append] at hwritten
    exact ⟨⟨hwritten, h.events⟩, rfl⟩
  | event row =>
    rw [Call.snapshotRows, Call.eventRows, List.append_nil]
    have hwritten := h.events.writeRecord (Csv.eventFields row)
    rw [List.cons_append, ← List.map_singleton, ← List.map_append] at hwritten
    exact ⟨⟨h.snapshots, hwritten⟩, rfl⟩
  | finish =>
    rw [Call.snapshotRows, Call.eventRows, List.append_nil, List.append_nil, Call.perform, finish_eq]
    split
    · exact ⟨h, rfl⟩
    · exact ⟨⟨h.snapshots.flush, h.events.flush⟩, rfl⟩

theorem Holds.performAll (h : t.Holds states happenings) (calls : List Call) :
    (Call.performAll calls t).1.Holds (states ++ calls.flatMap Call.snapshotRows)
        (happenings ++ calls.flatMap Call.eventRows) ∧
      ∀ result ∈ (Call.performAll calls t).2, result = .ok () := by
  induction calls generalizing t states happenings with
  | nil =>
    rw [List.flatMap_nil, List.flatMap_nil, List.append_nil, List.append_nil]
    exact ⟨h, fun _ hresult => absurd hresult List.not_mem_nil⟩
  | cons call calls ih =>
    obtain ⟨hcall, hok⟩ := h.perform call
    obtain ⟨hcalls, hoks⟩ := ih hcall
    rw [Call.performAll, List.flatMap_cons, List.flatMap_cons, ← List.append_assoc,
      ← List.append_assoc]
    refine ⟨hcalls, fun result hresult => ?_⟩
    obtain rfl | hresult := List.mem_cons.mp hresult
    · exact hok
    · exact hoks result hresult

/-- What is in the two files. -/
def files (t : CsvTables) : ByteArray × ByteArray :=
  (t.snapshots.file, t.events.file)

/-- Tables with the same rows have the same files when their writers are gone. -/
theorem Holds.files_close_eq {u : CsvTables} (h : t.Holds states happenings)
    (hu : u.Holds states happenings) : t.close.files = u.close.files := by
  have hsnapshots : t.snapshots.flush.file = u.snapshots.flush.file := by
    rw [Buffered.file_flush, Buffered.file_flush, h.snapshots, hu.snapshots]
  have hevents : t.events.flush.file = u.events.flush.file := by
    rw [Buffered.file_flush, Buffered.file_flush, h.events, hu.events]
  exact Prod.ext hsnapshots hevents

/-! ### What is in the files before the end -/

/-- What was in the files is still in front of everything else that is in them. -/
def KeepsFiles (before after : CsvTables) : Prop :=
  before.snapshots.KeepsFile after.snapshots ∧ before.events.KeepsFile after.events

theorem KeepsFiles.refl (t : CsvTables) : t.KeepsFiles t :=
  ⟨.refl t.snapshots, .refl t.events⟩

theorem KeepsFiles.trans {t u v : CsvTables} (h : t.KeepsFiles u) (h' : u.KeepsFiles v) :
    t.KeepsFiles v :=
  ⟨h.1.trans h'.1, h.2.trans h'.2⟩

theorem keepsFiles_close (t : CsvTables) : t.KeepsFiles t.close :=
  ⟨t.snapshots.keepsFile_flush, t.events.keepsFile_flush⟩

theorem keepsFile_writeSnapshots (rows : List SnapshotRow) (b : Buffered) :
    b.KeepsFile (writeSnapshots rows b) := by
  induction rows generalizing b with
  | nil => exact .refl b
  | cons r rows ih => exact (b.keepsFile_write _).trans (ih _)

theorem keepsFiles_perform (call : Call) (t : CsvTables) : t.KeepsFiles (call.perform t).1 := by
  cases call with
  | snapshots rows => exact ⟨keepsFile_writeSnapshots rows t.snapshots, .refl t.events⟩
  | event row => exact ⟨.refl t.snapshots, t.events.keepsFile_write _⟩
  | finish =>
    rw [Call.perform, finish_eq]
    split
    · exact .refl t
    · exact t.keepsFiles_close

theorem keepsFiles_performAll (calls : List Call) (t : CsvTables) :
    t.KeepsFiles (Call.performAll calls t).1 := by
  induction calls generalizing t with
  | nil => exact .refl t
  | cons call calls ih => exact (keepsFiles_perform call t).trans (ih _)

theorem finished_perform (call : Call) (t : CsvTables) :
    (call.perform t).1.finished = (t.finished || call.isFinish) := by
  cases call with
  | finish =>
    rw [Call.perform, finish_eq, Call.isFinish, Bool.or_true]
    split
    · assumption
    · rfl
  | snapshots _ | event _ => exact (Bool.or_false t.finished).symm

/-- A writer has finished when one of the calls was a call of `finish`. -/
theorem finished_performAll (calls : List Call) (t : CsvTables) :
    (Call.performAll calls t).1.finished = (t.finished || calls.any Call.isFinish) := by
  induction calls generalizing t with
  | nil => exact (Bool.or_false t.finished).symm
  | cons call calls ih =>
    rw [List.any_cons, ← Bool.or_assoc, ← finished_perform]
    exact ih _

/-- The first call of `finish` brings to the files what the end of the writer would bring there. -/
theorem files_finish (h : t.finished = false) : (Writer.finish t).1.files = t.close.files := by
  rw [finish_eq, h]
  rfl

/-! ### Reading the tables -/

/-- The tables after calls to a new writer. -/
def ofCalls (snapshotSpill eventSpill : Nat → Nat) (calls : List Call) : CsvTables :=
  (Call.performAll calls (ofSpills snapshotSpill eventSpill)).1

theorem ofCalls_append (snapshotSpill eventSpill : Nat → Nat) (calls more : List Call) :
    ofCalls snapshotSpill eventSpill (calls ++ more) =
      (Call.performAll more (ofCalls snapshotSpill eventSpill calls)).1 := by
  rw [ofCalls, Call.performAll_append, ofCalls]

/-- Whatever rows are written, in whatever order, whatever texts they contain and whatever bytes go
on to the files by themselves: no call fails, and when the writer is gone, reading the two files
gives the headers and, in the order of the calls, one record for each row, which under each name of
the header says what the row says under that name.

Calls of `finish`, be it in between, again or not at all, make no difference to these files. The
first one brings to the files at once what has been written so far, and a later one does nothing.
What is in the files while the writer is still there stays in front of what comes later. -/
theorem parse_ofCalls (snapshotSpill eventSpill : Nat → Nat) (calls more : List Call) :
    let written := ofCalls snapshotSpill eventSpill
    let unfinished := calls.filter fun call => !call.isFinish
    createWith snapshotSpill eventSpill true = .ok (written []) ∧
      (∀ result ∈ (Call.performAll calls (written [])).2, result = .ok ()) ∧
      (written calls).close.snapshots.IsTable Csv.snapshotHeader SnapshotRow.Shows
        (calls.flatMap Call.snapshotRows) ∧
      (written calls).close.events.IsTable Csv.eventHeader EventRow.Shows
        (calls.flatMap Call.eventRows) ∧
      Csv.snapshotHeader.Nodup ∧ Csv.snapshotHeader.length = 13 ∧
      Csv.eventHeader.Nodup ∧ Csv.eventHeader.length = 4 ∧
      (written unfinished).close.files = (written calls).close.files ∧
      (written (unfinished ++ [.finish])).files = (written calls).close.files ∧
      written (calls ++ .finish :: more ++ [.finish]) = written (calls ++ .finish :: more) ∧
      (written calls).KeepsFiles (written (calls ++ more)).close := by
  intro written unfinished
  have hnew := holds_ofSpills snapshotSpill eventSpill
  obtain ⟨hholds, hok⟩ := hnew.performAll calls
  have hbare := (hnew.performAll unfinished).1
  rw [Call.flatMap_filter_isFinish rfl, Call.flatMap_filter_isFinish rfl] at hbare
  have hsame : (written unfinished).close.files = (written calls).close.files :=
    hbare.files_close_eq hholds
  refine ⟨rfl, hok, ?_, ?_, by decide, rfl, by decide, rfl, hsame, ?_, ?_, ?_⟩
  · exact hholds.snapshots.isTable (List.cons_ne_nil _ _) SnapshotRow.forall₂_shows
  · exact hholds.events.isTable (List.cons_ne_nil _ _) EventRow.forall₂_shows
  · have hany : unfinished.any Call.isFinish = false := by simp [unfinished]
    have hfinished : (written unfinished).finished = false :=
      (finished_performAll unfinished _).trans hany
    rw [← hsame, ← files_finish hfinished]
    exact congrArg files (ofCalls_append snapshotSpill eventSpill unfinished [.finish])
  · have hany : (calls ++ .finish :: more).any Call.isFinish = true := by simp [Call.isFinish]
    have hfinished : (written (calls ++ .finish :: more)).finished = true :=
      (finished_performAll (calls ++ .finish :: more) _).trans hany
    calc written (calls ++ .finish :: more ++ [.finish])
        = (Writer.finish (written (calls ++ .finish :: more))).1 :=
          ofCalls_append snapshotSpill eventSpill _ [.finish]
      _ = written (calls ++ .finish :: more) := by rw [finish_eq, if_pos hfinished]
  · have hlater := keepsFiles_performAll more (written calls)
    rw [← ofCalls_append] at hlater
    exact hlater.trans (keepsFiles_close _)

end CsvTables

end TileWalk.Trace
