import TileWalk.Json.Record
import TileWalk.Proofs.Json.Skipping

/-!
# Readers and the texts they read

A reader reads a text as a value if it takes the text off the front of every payload, past the
blanks before it and up to where a value may end (`Json.Reads`). Said in this way, readers compose:
an object whose members are read one after the other is read as a record
(`Json.reads_record`), whatever the order of its members and whatever else they say
(`Json.Draws`).
-/

namespace TileWalk.Json

variable {α β δ : Type} {p : Payload}

/-! ### Reading -/

/-- The reader reads the text as the value, whatever stands around it, if so many brackets may be
opened inside each other. -/
def Reads (reader : Reader α) (levels : Nat) (text : List Char) (a : α) : Prop :=
  ∀ depth, levels ≤ depth → ∀ blanks, IsBlanks blanks → ∀ p, EndsValue p →
    reader depth (blanks.map some ++ (text.map some ++ p)) = .ok (a, p)

theorem Reads.mono {reader : Reader α} {levels levels' : Nat} {text : List Char} {a : α}
    (h : Reads reader levels text a) (hle : levels ≤ levels') : Reads reader levels' text a :=
  fun depth hdepth => h depth (Nat.le_trans hle hdepth)

theorem Reads.map {reader : Reader α} {levels : Nat} {text : List Char} {a : α}
    (h : Reads reader levels text a) (f : α → β) :
    Reads (fun depth p => do
      let (a, p) ← reader depth p
      return (f a, p)) levels text (f a) := by
  intro depth hdepth blanks hblanks p hp
  dsimp only
  rw [h depth hdepth blanks hblanks p hp]
  rfl

/-- A text that is read is a document, with blanks around it. -/
theorem Reads.document_eq {reader : Reader α} {levels : Nat} {text : List Char} {a : α}
    (h : Reads reader levels text a) (hlevels : levels ≤ nestingLimit) {before after : List Char}
    (hbefore : IsBlanks before) (hafter : IsBlanks after) :
    document reader ((before ++ text ++ after).map some) = .ok a := by
  have hread := h nestingLimit hlevels before hbefore (after.map some) (by
    have hends := hafter.endsValue endsValue_nil
    rwa [List.append_nil] at hends)
  have hrest : dropBlank (after.map some) = [] := by
    have hdrop := dropBlank_append hafter []
    rwa [List.append_nil] at hdrop
  rw [document, List.map_append, List.map_append, List.append_assoc, hread]
  simp [bind, Except.bind, hrest, pure, Except.pure]

/-! ### Single values -/

open Text.Decimal (IsNumeral isNumeral_iff)

theorem reads_natural {digits : List Char} {n : Nat} (h : IsNumeral digits n)
    (hn : n < UInt64.size) {low high : Int} (hlow : low ≤ n) (hhigh : (n : Int) < high) :
    Reads (integer low high) 0 digits n := by
  intro depth _ blanks hblanks p hp
  have hread := Number.read_append h hn false hp
  obtain ⟨c, rest, rfl⟩ := List.exists_cons_of_ne_nil h.ne_nil
  have hdigit : c.isDigit = true := h.isDigit c List.mem_cons_self
  rw [List.map_cons, List.cons_append] at hread ⊢
  rw [integer, dropBlank_append hblanks, dropBlank_cons (isBlank_of_isDigit hdigit)]
  split
  · next heq => cases heq
  · next heq => cases heq; exact absurd hdigit (by decide)
  · next heq =>
    cases heq
    rw [if_pos hdigit, hread]
    simp [bind, Except.bind, Number.ofDigits, hlow, hhigh, pure, Except.pure]
  · next hne => exact absurd rfl (hne _ _)

theorem reads_negative {digits : List Char} {n : Nat} (h : IsNumeral digits n) (hpos : n ≠ 0)
    (hn : n ≤ 2 ^ 63) {low high : Int} (hlow : low ≤ -n) (hhigh : -(n : Int) < high) :
    Reads (integer low high) 0 ('-' :: digits) (-n) := by
  intro depth _ blanks hblanks p hp
  have hread := Number.read_append h (Nat.lt_of_le_of_lt hn (by decide)) true hp
  have hnumber : Number.ofDigits true n = .int (-n) := by
    have hmin : ¬-(n : Int) < Int64.minValue.toInt := by
      rw [show Int64.minValue.toInt = -2 ^ 63 from rfl]
      omega
    rw [Number.ofDigits, if_pos rfl, if_neg (by simp only [hpos, hmin, or_self, not_false_eq_true])]
  rw [integer, dropBlank_append hblanks, List.map_cons, List.cons_append,
    dropBlank_cons (by decide)]
  simp only [hread, hnumber]
  simp [bind, Except.bind, hlow, hhigh, pure, Except.pure]

/-- A whole number is read from what it is printed as. -/
theorem reads_toString {low high i : Int} (hlow : low ≤ i) (hhigh : i < high)
    (hmin : -2 ^ 63 ≤ i) (hmax : i < 2 ^ 64) :
    Reads (integer low high) 0 (toString i).toList i := by
  cases i with
  | ofNat n =>
    have hn : n < UInt64.size := Int.ofNat_lt.mp hmax
    exact reads_natural (isNumeral_iff.mpr rfl) hn hlow hhigh
  | negSucc n =>
    have htext : (toString (Int.negSucc n)).toList = '-' :: (toString (n + 1)).toList := by
      show ("-" ++ toString (n + 1)).toList = _
      rw [String.toList_append]
      rfl
    rw [htext]
    rw [Int.negSucc_eq] at hlow hhigh hmin ⊢
    exact reads_negative (isNumeral_iff.mpr rfl) (Nat.succ_ne_zero n) (by omega) hlow hhigh

theorem reads_truth (b : Bool) :
    Reads truth 0 (if b then "true" else "false").toList b := by
  intro depth _ blanks hblanks p hp
  rw [truth, dropBlank_append hblanks]
  cases b <;> rfl

theorem reads_choice {cases : List (String × α)} {text : List Char} {name : String} {a : α}
    (htext : Spells text name.toList) (ha : cases.lookup name = some a) :
    Reads (choice cases) 0 ('\"' :: text ++ ['\"']) a := by
  intro depth _ blanks hblanks p hp
  have hread := readString_append htext p
  rw [choice, dropBlank_append hblanks, List.cons_append, List.map_cons, List.cons_append,
    dropBlank_cons (by decide), List.map_append, List.append_assoc, List.map_singleton,
    List.singleton_append]
  simp only [hread, caseNamed]
  simp [bind, Except.bind, ha, pure, Except.pure]

/-! ### Members -/

/-- What a member of an object does to a draft: its value is read into the field of its name, or
passed over if no field has that name, whatever it is then. -/
inductive Draws (fields : List (RecordField δ)) (levels : Nat) (m : Member) (draft : δ) : δ → Prop
  | field {name : String} {f : RecordField δ} {next : δ} (hname : Spells m.name name.toList)
      (hfield : fields.find? (fun f => f.name = name) = some f)
      (hunset : f.isSet draft = false)
      (hvalue : Reads (f.read draft) levels m.item.value next) : Draws fields levels m draft next
  | skipped {name : String} (hname : Spells m.name name.toList)
      (hnone : ∀ f ∈ fields, f.name ≠ name) (hvalue : IsValue m.item.value) :
      Draws fields levels m draft draft

/-- What members do to a draft one after the other. -/
inductive DrawsAll (fields : List (RecordField δ)) (levels : Nat) : List Member → δ → δ → Prop
  | nil {draft : δ} : DrawsAll fields levels [] draft draft
  | cons {m : Member} {ms : List Member} {draft next last : δ}
      (hm : Draws fields levels m draft next) (hms : DrawsAll fields levels ms next last) :
      DrawsAll fields levels (m :: ms) draft last

/-- What stands before a member: nothing before the first one, and a comma before the others. -/
inductive IsLead : Bool → List Char → Prop
  | first : IsLead true []
  | comma {blanks : List Char} (h : IsBlanks blanks) : IsLead false (blanks ++ [','])

theorem nextName_append {first : Bool} {lead before text : List Char} {name : String}
    (hlead : IsLead first lead) (hbefore : IsBlanks before) (hname : Spells text name.toList)
    (p : Payload) :
    nextName first (lead.map some ++
        (before.map some ++ some '\"' :: (text.map some ++ some '\"' :: p))) =
      .ok (some (name, p)) := by
  have hread := readString_append hname p
  cases hlead with
  | first =>
    rw [List.map_nil, List.nil_append, nextName, dropBlank_append hbefore,
      dropBlank_cons (by decide)]
    simp only [hread]
    rfl
  | comma h =>
    rw [List.map_append, List.append_assoc, nextName, dropBlank_append h, List.map_singleton,
      List.singleton_append, dropBlank_cons (by decide)]
    simp only [dropBlank_append hbefore, dropBlank_cons (by decide : isBlank (some '\"') = false),
      hread]
    rfl

namespace Record

variable {fields : List (RecordField δ)} {levels depth : Nat}

theorem members_closing {blanks : List Char} (h : IsBlanks blanks) (first : Bool) (draft : δ)
    {bound : Payload} (hbound : 0 < bound.length) (p : Payload) :
    members depth fields bound first draft (blanks.map some ++ some '\x7d' :: p) =
      .ok (draft, blanks.map some ++ some '\x7d' :: p) := by
  obtain ⟨u, bound, rfl⟩ := List.exists_cons_of_length_pos hbound
  have hnext : nextName first (blanks.map some ++ some '\x7d' :: p) = .ok none := by
    rw [nextName, dropBlank_append h, dropBlank_cons (by decide)]
    rfl
  rw [members, hnext]
  rfl

/-- One member is read. -/
theorem members_member {m : Member} {draft next : δ} (hm : Draws fields levels m draft next)
    (hpadded : m.IsPadded) (hdepth : levels ≤ depth) {first : Bool} {lead : List Char}
    (hlead : IsLead first lead) (hp : EndsValue p) (u : Option Char) (bound : Payload) :
    members depth fields (u :: bound) first draft (lead.map some ++ (m.text.map some ++ p)) =
      members depth fields bound false next (m.item.after.map some ++ p) := by
  have hends := hpadded.item.after.endsValue hp
  have hcolon := colon_append hpadded.after (m.item.text.map some ++ p)
  rw [Member.text, members]
  cases hm with
  | field hname hfield hunset hvalue =>
    have hnext := nextName_append hlead hpadded.before hname
      (m.after.map some ++ some ':' :: (m.item.text.map some ++ p))
    have hread := hvalue depth hdepth m.item.before hpadded.item.before _ hends
    simp only [Item.text, List.map_append, List.map_cons, List.cons_append, List.append_assoc]
      at hnext hcolon ⊢
    rw [hnext]
    simp [bind, Except.bind, hfield, hunset, hcolon, hread]
  | @skipped name hname hnone hvalue =>
    have hnext := nextName_append hlead hpadded.before hname
      (m.after.map some ++ some ':' :: (m.item.text.map some ++ p))
    have hread := skipValue_append hpadded.item.before hvalue hends
    have hfind : fields.find? (fun f => f.name = name) = none :=
      List.find?_eq_none.mpr fun f hf => decide_eq_true_iff.not.mpr (hnone f hf)
    simp only [Item.text, List.map_append, List.map_cons, List.cons_append, List.append_assoc]
      at hnext hcolon ⊢
    rw [hnext]
    simp [bind, Except.bind, hfind, hcolon, hread]

/-- The members behind the first one are read, up to the brace that closes. -/
theorem members_append {ms : List Member} {draft last : δ}
    (hms : DrawsAll fields levels ms draft last) (hpadded : ∀ m ∈ ms, m.IsPadded)
    (hdepth : levels ≤ depth) {blanks : List Char} (hblanks : IsBlanks blanks) (p : Payload)
    {bound : Payload} (hbound : ms.length < bound.length) :
    ∃ after, IsBlanks after ∧
      members depth fields bound false draft
          (blanks.map some ++
            (((ms.map Member.text).flatMap (',' :: ·)).map some ++ some '\x7d' :: p)) =
        .ok (last, after.map some ++ some '\x7d' :: p) := by
  induction hms generalizing bound blanks with
  | nil => exact ⟨blanks, hblanks, members_closing hblanks false _ hbound p⟩
  | @cons m ms draft next last hm _ ih =>
    obtain ⟨u, bound, rfl⟩ := List.exists_cons_of_length_pos (Nat.zero_lt_of_lt hbound)
    obtain ⟨hfirst, hrest⟩ := List.forall_mem_cons.mp hpadded
    rw [List.length_cons, List.length_cons, Nat.succ_lt_succ_iff] at hbound
    -- the blanks behind the value are those before the next comma
    obtain ⟨after, hafter, hread⟩ := ih hrest hfirst.item.after hbound
    have hmember := members_member hm hfirst hdepth (.comma hblanks)
      (endsValue_parts .object (ms.map Member.text) p) u bound
    simp only [Bracket.closing, List.map_cons, List.flatMap_cons, List.map_append,
      List.cons_append, List.append_assoc, List.map_nil, List.nil_append] at hmember ⊢
    exact ⟨after, hafter, hmember.trans hread⟩

theorem length_le_flatMap (parts : List (List Char)) :
    parts.length ≤ (parts.flatMap (',' :: ·)).length := by
  induction parts with
  | nil => exact Nat.le_refl _
  | cons part parts ih =>
    rw [List.flatMap_cons, List.length_append, List.length_cons, List.length_cons]
    omega

/-- The members of an object are read, from behind the brace that opens to the one that closes. -/
theorem members_encloses {ms : List Member} {text : List Char} {draft last : δ}
    (htext : Encloses '\x7b' '\x7d' (ms.map Member.text) text) (hpadded : ∀ m ∈ ms, m.IsPadded)
    (hms : DrawsAll fields levels ms draft last) (hdepth : levels ≤ depth) (p : Payload) :
    ∃ inner after, text.map some ++ p = some '\x7b' :: inner ∧ IsBlanks after ∧
      members depth fields inner true draft inner =
        .ok (last, after.map some ++ some '\x7d' :: p) := by
  cases hms with
  | nil =>
    rw [List.map_nil] at htext
    cases htext with
    | none hblanks =>
      refine ⟨_, _, ?_, hblanks, members_closing hblanks true draft (by simp) p⟩
      simp
  | @cons m ms _ next _ hm hms =>
    rw [List.map_cons] at htext
    cases htext
    obtain ⟨hfirst, hrest⟩ := List.forall_mem_cons.mp hpadded
    -- every member takes something off the text, which is therefore a bound for their number
    have hlength : ms.length + 1 < (m.text.map some ++
        (((ms.map Member.text).flatMap (',' :: ·)).map some ++ some '\x7d' :: p)).length := by
      have hrest := length_le_flatMap (ms.map Member.text)
      simp only [Member.text, List.length_append, List.length_map, List.length_cons] at hrest ⊢
      omega
    obtain ⟨u, bound, hcons⟩ := List.exists_cons_of_length_pos (Nat.zero_lt_of_lt hlength)
    rw [hcons, List.length_cons, Nat.succ_lt_succ_iff] at hlength
    obtain ⟨after, hafter, hread⟩ :=
      members_append hms hrest hdepth hfirst.item.after p hlength
    have hmember := members_member hm hfirst hdepth .first
      (endsValue_parts .object (ms.map Member.text) p) u bound
    refine ⟨u :: bound, after, ?_, hafter, ?_⟩
    · rw [← hcons]
      simp
    · rw [Bracket.closing, List.map_nil, List.nil_append, hcons] at hmember
      exact hmember.trans hread

end Record

/-- An object is read as a record, if its members one after the other lead from the empty draft to
one that can be completed. -/
theorem reads_record {fields : List (RecordField δ)} {levels : Nat} {ms : List Member}
    {text : List Char} {empty last : δ} {complete : δ → Option α} {a : α}
    (htext : Encloses '\x7b' '\x7d' (ms.map Member.text) text) (hpadded : ∀ m ∈ ms, m.IsPadded)
    (hms : DrawsAll fields levels ms empty last) (ha : complete last = some a) :
    Reads (Record.read fields empty complete) (levels + 1) text a := by
  intro depth hdepth blanks hblanks p hp
  obtain ⟨depth, rfl⟩ : ∃ d, depth = d + 1 := ⟨depth - 1, by omega⟩
  obtain ⟨inner, after, htext, hafter, hmembers⟩ :=
    Record.members_encloses htext hpadded hms (Nat.le_of_succ_le_succ hdepth) p
  have hclose : closeObject (after.map some ++ some '\x7d' :: p) = .ok p := by
    rw [closeObject, dropBlank_append hafter, dropBlank_cons (by decide)]
    rfl
  rw [Record.read, dropBlank_append hblanks, htext, dropBlank_cons (by decide)]
  simp [bind, Except.bind, hmembers, ha, hclose, pure, Except.pure]

/-! ### Objects in print -/

theorem intercalate_comma (part : List Char) (parts : List (List Char)) :
    List.intercalate [','] (part :: parts) = part ++ parts.flatMap (',' :: ·) := by
  induction parts generalizing part with
  | nil => simp [List.intercalate]
  | cons next parts ih =>
    rw [List.intercalate_cons_of_ne_nil (List.cons_ne_nil _ _), ih next, List.flatMap_cons]
    simp

theorem encloses_intercalate (opening closing : Char) (parts : List (List Char)) :
    Encloses opening closing parts (opening :: List.intercalate [','] parts ++ [closing]) := by
  cases parts with
  | nil => exact .none isBlanks_nil
  | cons part parts =>
    rw [intercalate_comma]
    exact .some part parts

/-- A member as it is printed. -/
def Member.printed (name text : String) : Member :=
  ⟨[], name.toList.flatMap escapeChar, [], ⟨[], text.toList, []⟩⟩

theorem Member.isPadded_printed (name text : String) : (printed name text).IsPadded :=
  ⟨isBlanks_nil, isBlanks_nil, ⟨isBlanks_nil, isBlanks_nil⟩⟩

theorem encloses_braced (members : List (String × String)) :
    Encloses '\x7b' '\x7d' ((members.map fun m => Member.printed m.1 m.2).map Member.text)
      (braced members).toList := by
  have hprinted : (braced members).toList = '\x7b' :: List.intercalate [',']
      ((members.map fun m => Member.printed m.1 m.2).map Member.text) ++ ['\x7d'] := by
    have htext : ∀ m : String × String,
        (quote m.1 ++ ":" ++ m.2).toList = (Member.printed m.1 m.2).text := by
      intro m
      simp [quote, Member.printed, Member.text, Item.text]
    simp [braced, String.toList_intercalate, Function.comp_def, htext]
  rw [hprinted]
  exact encloses_intercalate _ _ _

theorem Draws.printed {fields : List (RecordField δ)} {levels : Nat} {name text : String}
    {draft next : δ} {f : RecordField δ}
    (hfield : fields.find? (fun f => f.name = name) = some f) (hunset : f.isSet draft = false)
    (hvalue : Reads (f.read draft) levels text.toList next) :
    Draws fields levels (Member.printed name text) draft next :=
  .field (spells_escape name.toList) hfield hunset hvalue

/-- A printed object is read as a record. -/
theorem reads_braced {fields : List (RecordField δ)} {levels : Nat}
    {members : List (String × String)} {empty last : δ} {complete : δ → Option α} {a : α}
    (hms : DrawsAll fields levels (members.map fun m => Member.printed m.1 m.2) empty last)
    (ha : complete last = some a) :
    Reads (Record.read fields empty complete) (levels + 1) (braced members).toList a := by
  refine reads_record (encloses_braced members) ?_ hms ha
  intro m hm
  obtain ⟨⟨name, text⟩, -, rfl⟩ := List.mem_map.mp hm
  exact Member.isPadded_printed name text

end TileWalk.Json
