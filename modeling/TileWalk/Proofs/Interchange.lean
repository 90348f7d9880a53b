import Mathlib.Data.List.ReduceOption
import TileWalk.Interchange
import TileWalk.Proofs.Json.Records

/-!
# Values that are read back

Whatever is written as a document is read back as what it was (`Interchange.ReadsBack`): words of
every size and sign, choices by their names, and records, one inside the other.

A configuration is read from every object whose members set some of its numbers, each at most once,
whatever the order of the members, the blanks between them and other members with other names
(`Interchange.IsConfigText`).
-/

namespace TileWalk.Interchange

open Json
open Text.Decimal (IsNumeral isNumeral_iff)

/-! ### Words -/

/-- Every value is read back from its text, if so many brackets may be opened inside each other. -/
def ReadsBack (α : Type) [Interchange α] (levels : Nat) : Prop :=
  ∀ a : α, Reads read levels (write a).toList a

theorem ReadsBack.mono {α : Type} [Interchange α] {m n : Nat} (h : ReadsBack α m) (hle : m ≤ n) :
    ReadsBack α n :=
  fun a => (h a).mono hle

/-- A numeral is read as a word of 32 bits. -/
theorem reads_uint32 {digits : List Char} {n : UInt32} (h : IsNumeral digits n.toNat) :
    Reads read 0 digits n := by
  have hlt : n.toNat < UInt32.size := n.toNat_lt
  have hread := (reads_natural h (Nat.lt_trans hlt (by decide)) (Int.natCast_nonneg _)
    (Int.ofNat_lt.mpr hlt)).map fun n => UInt32.ofNat n.toNat
  rwa [Int.toNat_natCast, UInt32.ofNat_toNat] at hread

/-- A numeral is read as a word of 64 bits. -/
theorem reads_uint64 {digits : List Char} {n : UInt64} (h : IsNumeral digits n.toNat) :
    Reads read 0 digits n := by
  have hlt : n.toNat < UInt64.size := n.toNat_lt
  have hread := (reads_natural h hlt (Int.natCast_nonneg _) (Int.ofNat_lt.mpr hlt)).map
    fun n => UInt64.ofNat n.toNat
  rwa [Int.toNat_natCast, UInt64.ofNat_toNat] at hread

theorem readsBack_uint32 : ReadsBack UInt32 0 :=
  fun _ => reads_uint32 (isNumeral_iff.mpr rfl)

theorem readsBack_uint64 : ReadsBack UInt64 0 :=
  fun _ => reads_uint64 (isNumeral_iff.mpr rfl)

theorem readsBack_int32 : ReadsBack Int32 0 := by
  intro n
  have hlow : Int32.minValue.toInt ≤ n.toInt := Int32.minValue_le_toInt n
  have hhigh : n.toInt ≤ Int32.maxValue.toInt := Int32.toInt_le n
  have hmin : Int32.minValue.toInt = -2 ^ 31 := rfl
  have hmax : Int32.maxValue.toInt = 2 ^ 31 - 1 := rfl
  have hread := (reads_toString hlow (Int.lt_add_one_of_le hhigh) (by omega) (by omega)).map
    Int32.ofInt
  rwa [Int32.ofInt_toInt] at hread

theorem readsBack_bool : ReadsBack Bool 0 :=
  reads_truth

/-! ### Numbers with a meaning -/

theorem readsBack_tick : ReadsBack Tick 0 :=
  fun t => (readsBack_uint64 t.count).map fun n => (⟨n⟩ : Tick)

theorem readsBack_ident (r : Realm) : ReadsBack (Ident r) 0 :=
  fun i => (readsBack_uint32 i.val).map fun n => (⟨n⟩ : Ident r)

theorem readsBack_cell : ReadsBack Cell 0 :=
  fun c => (readsBack_uint32 c.bits).map fun n => (⟨n⟩ : Cell)

/-! ### Choices -/

/-- A name is read as the value that has it, if no two values have one name. -/
theorem reads_name {α : Type} {name : α → String} {all : List α} {a : α}
    (h : (all.map fun a => (name a, a)).lookup (name a) = some a) :
    Reads (choice (all.map fun a => (name a, a))) 0 (quote (name a)).toList a := by
  rw [quote, String.toList_ofList, List.singleton_append]
  exact reads_choice (spells_escape (name a).toList) h

theorem readsBack_facing : ReadsBack Facing 0 := by
  intro f
  exact reads_name (by cases f <;> decide)

theorem readsBack_side : ReadsBack Side 0 := by
  intro s
  exact reads_name (by cases s <;> decide)

/-! ### Records -/

/-- The printed value of a field is drawn into the field that is found by its name, as long as the
draft does not have it. -/
theorem ReadsBack.draws {α δ : Type} [Interchange α] {levels : Nat} (h : ReadsBack α levels)
    (a : α) {name : String} {get : δ → Option α} {set : δ → α → δ} {fields : List (RecordField δ)}
    {draft : δ} (hfield : fields.find? (fun f => f.name = name) = some (field name get set))
    (hunset : (get draft).isSome = false) :
    Draws fields levels (Member.printed name (write a)) draft (set draft a) :=
  .printed hfield hunset ((h a).map (set draft))

theorem readsBack_vec : ReadsBack Vec 1 := fun v =>
  reads_braced
    (.cons (readsBack_int32.draws v.x rfl rfl) (.cons (readsBack_int32.draws v.y rfl rfl) .nil))
    rfl

theorem readsBack_pos : ReadsBack Pos 1 := fun p =>
  reads_braced
    (.cons (readsBack_int32.draws p.x rfl rfl) (.cons (readsBack_int32.draws p.y rfl rfl) .nil))
    rfl

theorem readsBack_spawn : ReadsBack Spawn 2 := fun s =>
  reads_braced
    (.cons (readsBack_pos.draws s.pos rfl rfl)
      (.cons ((readsBack_facing.mono (Nat.zero_le 1)).draws s.facing rfl rfl) .nil))
    rfl

theorem readsBack_openings : ReadsBack Openings 1 := fun o =>
  reads_braced
    (.cons (readsBack_bool.draws o.front rfl rfl)
      (.cons (readsBack_bool.draws o.left rfl rfl)
        (.cons (readsBack_bool.draws o.back rfl rfl)
          (.cons (readsBack_bool.draws o.right rfl rfl) .nil))))
    rfl

theorem readsBack_motion : ReadsBack Motion 2 := fun m =>
  reads_braced
    (.cons (readsBack_pos.draws m.origin rfl rfl)
      (.cons (readsBack_vec.draws m.dir rfl rfl)
        (.cons ((readsBack_uint32.mono (Nat.zero_le 1)).draws m.total rfl rfl)
          (.cons ((readsBack_uint32.mono (Nat.zero_le 1)).draws m.remaining rfl rfl) .nil))))
    rfl

theorem readsBack_config : ReadsBack Config 1 := fun c =>
  reads_braced
    (.cons (readsBack_uint32.draws c.moveFrames rfl rfl)
      (.cons (readsBack_uint64.draws c.maxTicks rfl rfl)
        (.cons (readsBack_uint64.draws c.snapshotInterval rfl rfl) .nil)))
    rfl

/-! ### Configurations in other words -/

/-- A number of a configuration. -/
inductive Setting
  | moveFrames (n : UInt32)
  | maxTicks (n : UInt64)
  | snapshotInterval (n : UInt64)

namespace Setting

/-- The name under which a number stands in a document. -/
def name : Setting → String
  | moveFrames _ => "move_frames"
  | maxTicks _ => "max_ticks"
  | snapshotInterval _ => "snapshot_interval_ticks"

/-- The number itself. -/
def value : Setting → Nat
  | moveFrames n => n.toNat
  | maxTicks n => n.toNat
  | snapshotInterval n => n.toNat

/-- The configuration with this number in the place of its own. -/
def apply (c : Config) : Setting → Config
  | moveFrames n => { c with moveFrames := n }
  | maxTicks n => { c with maxTicks := n }
  | snapshotInterval n => { c with snapshotInterval := n }

/-- The draft with this number. -/
def put (d : ConfigDraft) : Setting → ConfigDraft
  | moveFrames n => { d with moveFrames := some n }
  | maxTicks n => { d with maxTicks := some n }
  | snapshotInterval n => { d with snapshotInterval := some n }

/-- The draft does not have this number yet. -/
def IsUnset (d : ConfigDraft) : Setting → Prop
  | moveFrames _ => d.moveFrames = none
  | maxTicks _ => d.maxTicks = none
  | snapshotInterval _ => d.snapshotInterval = none

theorem complete_put (d : ConfigDraft) (s : Setting) : (put d s).complete = apply d.complete s := by
  cases s <;> rfl

theorem IsUnset.put {d : ConfigDraft} {s t : Setting} (h : t.IsUnset d) (hname : s.name ≠ t.name) :
    t.IsUnset (Setting.put d s) := by
  cases s <;> cases t <;> simp_all [IsUnset, Setting.put, name]

end Setting

/-- What a member of an object gives to a configuration: a number under its name, and nothing under
any other name, whatever its value is. -/
inductive Gives (m : Member) : Option Setting → Prop
  | sets {s : Setting} (hname : Spells m.name s.name.toList)
      (hvalue : IsNumeral m.item.value s.value) : Gives m (some s)
  | nothing {name : String} (hname : Spells m.name name.toList)
      (hother : ∀ s : Setting, s.name ≠ name) (hvalue : IsValue m.item.value) : Gives m none

/-- The text is an object whose members give these settings, one after the other. -/
inductive IsConfigText (given : List (Option Setting)) : List Char → Prop
  | object {members : List Member} {before text after : List Char} (hbefore : IsBlanks before)
      (hafter : IsBlanks after)
      (htext : Encloses '\x7b' '\x7d' (members.map Member.text) text)
      (hpadded : ∀ m ∈ members, m.IsPadded) (hgives : List.Forall₂ Gives members given) :
      IsConfigText given (before ++ text ++ after)

theorem Gives.draws {m : Member} {s : Setting} (h : Gives m (some s)) {d : ConfigDraft}
    (hunset : s.IsUnset d) : Draws configFields 0 m d (s.put d) := by
  cases h with
  | sets hname hvalue =>
    cases s with
    | moveFrames n =>
      refine .field hname rfl ?_ ?_
      · exact congrArg Option.isSome hunset
      · exact (reads_uint32 hvalue).map fun n => { d with moveFrames := some n }
    | maxTicks n =>
      refine .field hname rfl ?_ ?_
      · exact congrArg Option.isSome hunset
      · exact (reads_uint64 hvalue).map fun n => { d with maxTicks := some n }
    | snapshotInterval n =>
      refine .field hname rfl ?_ ?_
      · exact congrArg Option.isSome hunset
      · exact (reads_uint64 hvalue).map fun n => { d with snapshotInterval := some n }

theorem Gives.draws_none {m : Member} (h : Gives m none) (d : ConfigDraft) :
    Draws configFields 0 m d d := by
  cases h with
  | nothing hname hother hvalue =>
    refine .skipped hname ?_ hvalue
    intro f hf
    simp only [configFields, List.mem_cons, List.not_mem_nil, or_false] at hf
    obtain rfl | rfl | rfl := hf
    · exact hother (.moveFrames 0)
    · exact hother (.maxTicks 0)
    · exact hother (.snapshotInterval 0)

/-- Members that set no number twice are drawn into every draft that has none of these numbers. -/
theorem drawsAll_of_gives {members : List Member} {given : List (Option Setting)}
    (hgives : List.Forall₂ Gives members given)
    (honce : (given.reduceOption.map Setting.name).Nodup) {d : ConfigDraft}
    (hunset : ∀ s ∈ given.reduceOption, s.IsUnset d) :
    DrawsAll configFields 0 members d (given.reduceOption.foldl Setting.put d) := by
  induction hgives generalizing d with
  | nil => exact .nil
  | @cons m given? members given hm _ ih =>
    cases given? with
    | none =>
      rw [List.reduceOption_cons_of_none] at honce hunset ⊢
      exact .cons (hm.draws_none d) (ih honce hunset)
    | some s =>
      rw [List.reduceOption_cons_of_some] at honce hunset ⊢
      rw [List.map_cons, List.nodup_cons] at honce
      obtain ⟨hs, hunset⟩ := List.forall_mem_cons.mp hunset
      -- the numbers that are still to come have other names, so they stay unset
      refine .cons (hm.draws hs) (ih honce.2 fun t ht => (hunset t ht).put ?_)
      intro hname
      exact honce.1 (hname ▸ List.mem_map_of_mem ht)

theorem complete_foldl_put (settings : List Setting) (d : ConfigDraft) :
    (settings.foldl Setting.put d).complete = settings.foldl Setting.apply d.complete := by
  induction settings generalizing d with
  | nil => rfl
  | cons s settings ih => rw [List.foldl_cons, List.foldl_cons, ih, Setting.complete_put]

/-! ### Whole documents -/

/-- What is written as a document is read back as what it was. -/
def RoundTrips (α : Type) [Interchange α] : Prop :=
  ∀ a : α, ofPayload (Payload.ofString (write a)) = .ok a

theorem ReadsBack.roundTrips {α : Type} [Interchange α] {levels : Nat} (h : ReadsBack α levels)
    (hlevels : levels ≤ nestingLimit) : RoundTrips α := by
  intro a
  have hdocument := (h a).document_eq hlevels isBlanks_nil isBlanks_nil
  rwa [List.nil_append, List.append_nil] at hdocument

theorem IsConfigText.ofPayload_eq {given : List (Option Setting)} {s : String}
    (h : IsConfigText given s.toList) (honce : (given.reduceOption.map Setting.name).Nodup) :
    ofPayload (Payload.ofString s) =
      .ok (given.reduceOption.foldl Setting.apply Config.standard) := by
  rw [Payload.ofString]
  generalize s.toList = text at h
  obtain ⟨hbefore, hafter, htext, hpadded, hgives⟩ := h
  have hunset : ∀ s ∈ given.reduceOption, s.IsUnset ⟨none, none, none⟩ := by
    intro s _
    cases s <;> rfl
  have hdraws := drawsAll_of_gives hgives honce hunset
  have hcomplete := complete_foldl_put given.reduceOption ⟨none, none, none⟩
  have hreads : Reads (read : Reader Config) 1 _ _ :=
    reads_record htext hpadded hdraws (congrArg some hcomplete)
  exact hreads.document_eq (by decide) hbefore hafter

/-- Every value is read back from the document that is written for it, and a configuration is read
from every object whose members set some of its numbers, each at most once, in any order and among
members of other names. What is not set keeps its standard value. -/
theorem roundTrips_and_ofPayload_config :
    (RoundTrips Config ∧ RoundTrips Tick ∧ RoundTrips Vec ∧ RoundTrips Pos ∧ RoundTrips Facing ∧
      RoundTrips Side ∧ RoundTrips AgentId ∧ RoundTrips Spawn ∧ RoundTrips Cell ∧
      RoundTrips Openings ∧ RoundTrips Motion) ∧
    ∀ (given : List (Option Setting)) (s : String), IsConfigText given s.toList →
      (given.reduceOption.map Setting.name).Nodup →
        ofPayload (Payload.ofString s) =
          .ok (given.reduceOption.foldl Setting.apply Config.standard) := by
  refine ⟨⟨?_, ?_, ?_, ?_, ?_, ?_, ?_, ?_, ?_, ?_, ?_⟩, fun given s h => h.ofPayload_eq⟩
  · exact readsBack_config.roundTrips (by decide)
  · exact readsBack_tick.roundTrips (by decide)
  · exact readsBack_vec.roundTrips (by decide)
  · exact readsBack_pos.roundTrips (by decide)
  · exact readsBack_facing.roundTrips (by decide)
  · exact readsBack_side.roundTrips (by decide)
  · exact (readsBack_ident .agent).roundTrips (by decide)
  · exact readsBack_spawn.roundTrips (by decide)
  · exact readsBack_cell.roundTrips (by decide)
  · exact readsBack_openings.roundTrips (by decide)
  · exact readsBack_motion.roundTrips (by decide)

/-- Members with blanks around them, the second of which no configuration has, while the third has
its name with an escape in it. -/
def mixedMembers : List Member :=
  [ ⟨[], "max_ticks".toList, [' '], ⟨[], ['7'], []⟩⟩,
    ⟨[' '], ['x'], [], ⟨[], ['[', '\x7b', '\x7d', ']'], [' ']⟩⟩,
    ⟨[], "move\\u005fframes".toList, [], ⟨[], ['3'], []⟩⟩ ]

theorem gives_mixedMembers :
    List.Forall₂ Gives mixedMembers [some (.maxTicks 7), none, some (.moveFrames 3)] := by
  have hunderscore : SpellsChar ['\\', 'u', '0', '0', '5', 'f'] '_' :=
    .code (.digits (isHexDigit_digitChar (n := 0) (by decide))
      (isHexDigit_digitChar (n := 0) (by decide)) (isHexDigit_digitChar (n := 5) (by decide))
      (isHexDigit_digitChar (n := 15) (by decide)))
  have hobject : IsValue ['\x7b', '\x7d'] := by
    have htext : Encloses '\x7b' '\x7d' (([] : List Member).map Member.text) ['\x7b', '\x7d'] :=
      .none isBlanks_nil
    exact .object htext (List.forall_mem_nil _) (List.forall_mem_nil _) (List.forall_mem_nil _)
  have harray : IsValue ['[', '\x7b', '\x7d', ']'] := by
    have htext : Encloses '[' ']' ([Json.Item.mk [] ['\x7b', '\x7d'] []].map Json.Item.text)
        ['[', '\x7b', '\x7d', ']'] := .some _ []
    refine .array htext ?_ ?_
    · exact List.forall_mem_singleton.mpr ⟨isBlanks_nil, isBlanks_nil⟩
    · exact List.forall_mem_singleton.mpr hobject
  refine .cons (.sets ?_ ?_) (.cons (@Gives.nothing _ "x" ?_ ?_ harray) (.cons (.sets ?_ ?_) .nil))
  · exact spells_escape "max_ticks".toList
  · exact Text.Decimal.isNumeral_toDigits 7
  · exact spells_escape "x".toList
  · intro s
    cases s <;> simp [Setting.name]
  · exact (spells_escape "move".toList).append (.cons hunderscore (spells_escape "frames".toList))
  · exact Text.Decimal.isNumeral_toDigits 3

theorem isPadded_mixedMembers : ∀ m ∈ mixedMembers, m.IsPadded := by
  have hspace : IsBlanks [' '] := List.forall_mem_singleton.mpr (Or.inl rfl)
  intro m hm
  simp only [mixedMembers, List.mem_cons, List.not_mem_nil, or_false] at hm
  obtain rfl | rfl | rfl := hm
  · exact ⟨isBlanks_nil, hspace, ⟨isBlanks_nil, isBlanks_nil⟩⟩
  · exact ⟨hspace, isBlanks_nil, ⟨isBlanks_nil, hspace⟩⟩
  · exact ⟨isBlanks_nil, isBlanks_nil, ⟨isBlanks_nil, isBlanks_nil⟩⟩

/-- The object of these members, on a line of its own. -/
def mixedText : String :=
  "\x7b\"max_ticks\" :7, \"x\":[\x7b\x7d] ,\"move\\u005fframes\":3\x7d\n"

/-- Two of the three numbers are set, in another order than that of the fields. -/
theorem roundTrips_and_ofPayload_config_mixed :
    IsConfigText [some (.maxTicks 7), none, some (.moveFrames 3)] mixedText.toList ∧
      (([some (.maxTicks 7), none, some (.moveFrames 3)] : List (Option Setting)).reduceOption.map
        Setting.name).Nodup ∧
      ofPayload (Payload.ofString mixedText) = .ok (⟨3, 7, 1⟩ : Config) := by
  have htext : IsConfigText [some (.maxTicks 7), none, some (.moveFrames 3)] mixedText.toList := by
    have hline : IsBlanks ['\n'] := List.forall_mem_singleton.mpr (by decide)
    have hobject : Encloses '\x7b' '\x7d' (mixedMembers.map Member.text) _ := .some _ _
    exact .object isBlanks_nil hline hobject isPadded_mixedMembers gives_mixedMembers
  have honce : (([some (.maxTicks 7), none, some (.moveFrames 3)] :
      List (Option Setting)).reduceOption.map Setting.name).Nodup := by decide
  exact ⟨htext, honce, roundTrips_and_ofPayload_config.2 _ _ htext honce⟩

end TileWalk.Interchange
