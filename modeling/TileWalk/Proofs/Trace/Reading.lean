import TileWalk.Trace.Csv

/-!
# Reading comma-separated values

A reader of comma-separated values goes through a text character by character (`Csv.Reader.step`).
A field begins with a quote or does not contain one. Between quotes commas and ends of lines belong
to the field and two quotes stand for one; otherwise a comma ends the field, and a line feed ends
the record, with or without a carriage return in front of it. Anything else is refused.

Records that were written one after the other are read as they were written
(`Csv.parse_records`).
-/

namespace TileWalk.Trace

namespace Csv

/-! ### Readers -/

/-- Where a reader is. -/
inductive Place
  /-- In front of a field. -/
  | start
  /-- In a field that does not stand between quotes. -/
  | bare
  /-- Between quotes. -/
  | quoted
  /-- Behind a quote that ends the field, unless a second one follows. -/
  | quote
  /-- Behind a carriage return that ends the record, if a line feed follows. -/
  | carriageReturn
  deriving DecidableEq, Repr

/-- A reader in the middle of a text. -/
@[ext]
structure Reader where
  place : Place
  /-- The field so far. -/
  text : List Char
  /-- The fields of the record before this one. -/
  fields : List String
  /-- The records before this one. -/
  records : List (List String)
  deriving DecidableEq, Repr

namespace Reader

/-- The beginning of a record. -/
def ofRecords (records : List (List String)) : Reader :=
  ⟨.start, [], [], records⟩

/-- The field is complete. -/
def endField (r : Reader) : Reader :=
  ⟨.start, [], r.fields ++ [String.ofList r.text], r.records⟩

/-- The field and the record are complete. -/
def endRecord (r : Reader) : Reader :=
  ofRecords (r.records ++ [r.endField.fields])

/-- What ends a field. -/
def separate (r : Reader) (c : Char) : Option Reader :=
  if c = ',' then some r.endField
  else if c = '\n' then some r.endRecord
  else if c = '\r' then some { r with place := .carriageReturn }
  else none

/-- A character in a field that does not stand between quotes. -/
def stepBare (r : Reader) (c : Char) : Option Reader :=
  if c = '\"' then none
  else (r.separate c).or (some { r with place := .bare, text := r.text ++ [c] })

/-- Reads one character. -/
def step (r : Reader) (c : Char) : Option Reader :=
  match r.place with
  | .start => if c = '\"' then some { r with place := .quoted } else r.stepBare c
  | .bare => r.stepBare c
  | .quoted =>
    if c = '\"' then some { r with place := .quote } else some { r with text := r.text ++ [c] }
  | .quote =>
    if c = '\"' then some { r with place := .quoted, text := r.text ++ [c] } else r.separate c
  | .carriageReturn => if c = '\n' then some r.endRecord else none

/-- The records, when the text has ended; the last of them may lack the end of its line. -/
def close (r : Reader) : Option (List (List String)) :=
  match r.place with
  | .start => if r.fields = [] then some r.records else some r.endRecord.records
  | .bare => some r.endRecord.records
  | .quoted => none
  | .quote => some r.endRecord.records
  | .carriageReturn => none

end Reader

/-- The records of a text. -/
def parse (s : String) : Option (List (List String)) := do
  let r ← s.toList.foldlM Reader.step (.ofRecords [])
  r.close

example : parse "a,\"x\"\"y\",\r\n,\"1,\n2\"\n" = some [["a", "x\"y", ""], ["", "1,\n2"]] := by
  decide

/-! ### Reading fields and records -/

/-- The field can end here. -/
def Place.IsEnd (p : Place) : Prop :=
  p = .start ∨ p = .bare ∨ p = .quote

namespace Reader

variable {r : Reader} {cs : List Char}

theorem step_comma (h : r.place.IsEnd) : r.step ',' = some r.endField := by
  obtain ⟨place, text, fields, records⟩ := r
  obtain rfl | rfl | rfl := h <;> rfl

theorem step_lineFeed (h : r.place.IsEnd) : r.step '\n' = some r.endRecord := by
  obtain ⟨place, text, fields, records⟩ := r
  obtain rfl | rfl | rfl := h <;> rfl

/-- A field that needs no quotes is read as it stands. -/
theorem foldlM_step_bare (hcs : needsQuotes cs = false)
    (hplace : r.place = .start ∨ r.place = .bare) :
    ∃ place : Place, place.IsEnd ∧
      cs.foldlM step r = some { r with place, text := r.text ++ cs } := by
  induction cs generalizing r with
  | nil =>
    refine ⟨r.place, hplace.imp_right .inl, ?_⟩
    rw [List.append_nil]
    rfl
  | cons c cs ih =>
    rw [needsQuotes, List.any_cons, Bool.or_eq_false_iff] at hcs
    obtain ⟨hc, hcs⟩ := hcs
    simp only [Bool.or_eq_false_iff, decide_eq_false_iff_not] at hc
    obtain ⟨⟨⟨hcomma, hquote⟩, hreturn⟩, hfeed⟩ := hc
    have hstep : r.step c = some { r with place := .bare, text := r.text ++ [c] } := by
      have hbare : r.stepBare c = some { r with place := .bare, text := r.text ++ [c] } := by
        rw [stepBare, if_neg hquote, separate, if_neg hcomma, if_neg hfeed, if_neg hreturn,
          Option.none_or]
      unfold step
      cases hplace with
      | inl hstart =>
        rw [hstart]
        dsimp only
        rw [if_neg hquote, hbare]
      | inr hbare' =>
        rw [hbare']
        exact hbare
    obtain ⟨place, hend, hread⟩ := ih (r := { r with place := .bare, text := r.text ++ [c] }) hcs
      (Or.inr rfl)
    refine ⟨place, hend, ?_⟩
    rw [List.foldlM_cons, hstep, Option.bind_eq_bind, Option.bind_some, hread]
    simp

/-- Between quotes everything belongs to the field, and a quote stands twice. -/
theorem foldlM_step_quoted (hplace : r.place = .quoted) :
    (cs.flatMap fun c => if c = '\"' then ['\"', '\"'] else [c]).foldlM step r =
      some { r with text := r.text ++ cs } := by
  induction cs generalizing r with
  | nil =>
    rw [List.append_nil]
    rfl
  | cons c cs ih =>
    have hstep : (if c = '\"' then ['\"', '\"'] else [c]).foldlM step r =
        some { r with text := r.text ++ [c] } := by
      obtain ⟨place, text, fields, records⟩ := r
      obtain rfl : place = .quoted := hplace
      split
      · next hc =>
        subst hc
        rfl
      · next hc =>
        rw [List.foldlM_cons, step]
        dsimp only
        rw [if_neg hc]
        rfl
    rw [List.flatMap_cons, List.foldlM_append, hstep, Option.bind_eq_bind, Option.bind_some,
      ih (r := { r with text := r.text ++ [c] }) hplace]
    simp

/-- What was written as a field is read as that field. -/
theorem foldlM_step_field (cs : List Char) (fields : List String) (records : List (List String)) :
    ∃ place : Place, place.IsEnd ∧
      (field cs).foldlM step ⟨.start, [], fields, records⟩ = some ⟨place, cs, fields, records⟩ := by
  unfold field
  split
  · refine ⟨.quote, Or.inr (Or.inr rfl), ?_⟩
    rw [List.foldlM_append, List.foldlM_append]
    have hopen : ['\"'].foldlM step ⟨.start, [], fields, records⟩ =
        some ⟨.quoted, [], fields, records⟩ := rfl
    rw [hopen, Option.bind_eq_bind, Option.bind_some, foldlM_step_quoted rfl]
    rfl
  · next hcs => exact foldlM_step_bare (Bool.not_eq_true _ ▸ hcs) (Or.inl rfl)

/-- What was written as a record is read as that record. -/
theorem foldlM_step_record {fields : List String} (h : fields ≠ []) (records : List (List String)) :
    (record fields).foldlM step (.ofRecords records) = some (.ofRecords (records ++ [fields])) := by
  -- the fields before are generalised, for they grow with the record
  have key : ∀ before : List String, (record fields).foldlM step ⟨.start, [], before, records⟩ =
      some (.ofRecords (records ++ [before ++ fields])) := by
    induction fields with
    | nil => exact absurd rfl h
    | cons s fields ih =>
      intro before
      obtain ⟨place, hend, hread⟩ := foldlM_step_field s.toList before records
      cases fields with
      | nil =>
        have hrecord : record [s] = field s.toList ++ ['\n'] := by simp [record]
        rw [hrecord, List.foldlM_append, hread, Option.bind_eq_bind, Option.bind_some,
          List.foldlM_cons, step_lineFeed hend]
        simp [endRecord, endField, ofRecords]
      | cons t fields =>
        have hrecord : record (s :: t :: fields) =
            field s.toList ++ ',' :: record (t :: fields) := by
          simp [record, List.intercalate]
        rw [hrecord, List.foldlM_append, hread, Option.bind_eq_bind, Option.bind_some,
          List.foldlM_cons, step_comma hend, Option.bind_eq_bind, Option.bind_some, endField,
          ih (List.cons_ne_nil t fields)]
        simp
  exact key []

theorem foldlM_step_records {table : List (List String)} (h : ∀ fields ∈ table, fields ≠ [])
    (records : List (List String)) :
    (table.map record).flatten.foldlM step (.ofRecords records) =
      some (.ofRecords (records ++ table)) := by
  induction table generalizing records with
  | nil =>
    rw [List.append_nil]
    rfl
  | cons fields table ih =>
    rw [List.map_cons, List.flatten_cons, List.foldlM_append,
      foldlM_step_record (h fields List.mem_cons_self), Option.bind_eq_bind, Option.bind_some,
      ih fun f hf => h f (List.mem_cons_of_mem _ hf), List.append_assoc, List.singleton_append]

end Reader

/-- Records that were written one after the other are read as they were written. -/
theorem parse_records {table : List (List String)} (h : ∀ fields ∈ table, fields ≠ []) :
    parse (String.ofList (table.map record).flatten) = some table := by
  rw [parse, String.toList_ofList, Reader.foldlM_step_records h, List.nil_append]
  rfl

end Csv

end TileWalk.Trace
