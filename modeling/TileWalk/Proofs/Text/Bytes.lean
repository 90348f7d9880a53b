import Mathlib.Data.List.TakeWhile
import Mathlib.Data.String.Basic
import Mathlib.Tactic.SplitIfs

/-!
# Texts as bytes

A text that is kept in bytes can only be cut between two characters (`Text.cut?`): the byte at
which it is cut must not lie inside one. A cut is safe at the end of a part of the text
(`Text.cut?_append`), such as the byte of the first character that fails a test
(`Text.findByte?_not`). It is also safe behind a first byte below 128, for such a byte is a
character on its own (`Text.toNat_eq_of_head?`).

A longest part at the front of a text whose characters pass a test is what `List.takeWhile` gives
(`Text.isLongestPrefix_iff`).
-/

namespace TileWalk.Text

/-! ### Longest prefixes -/

/-- The longest part at the front of a text of which all characters pass a test. -/
structure IsLongestPrefix (test : Char → Bool) (part cs : List Char) : Prop where
  isPrefix : part <+: cs
  passes : ∀ c ∈ part, test c = true
  longest : ∀ other, other <+: cs → (∀ c ∈ other, test c = true) → other.length ≤ part.length

theorem isLongestPrefix_iff {test : Char → Bool} {part cs : List Char} :
    IsLongestPrefix test part cs ↔ part = cs.takeWhile test := by
  have hlongest : IsLongestPrefix test (cs.takeWhile test) cs := by
    refine ⟨List.takeWhile_prefix test, fun c hc => List.mem_takeWhile_imp hc, ?_⟩
    rintro other ⟨rest, rfl⟩ hother
    rw [List.takeWhile_append_of_pos hother, List.length_append]
    omega
  constructor
  · intro h
    -- of two prefixes one is a prefix of the other, and these have the same length
    have hle := h.longest _ hlongest.isPrefix hlongest.passes
    have hge := hlongest.longest _ h.isPrefix h.passes
    exact (List.prefix_of_prefix_length_le h.isPrefix hlongest.isPrefix hge).eq_of_length
      (Nat.le_antisymm hge hle)
  · rintro rfl
    exact hlongest

/-! ### Cutting at a byte -/

/-- The two parts of a text at a byte. There are none if the byte lies inside a character or behind
the end of the text. -/
def cut? (s : String) (byte : Nat) : Option (String × String) :=
  if h : String.Pos.Raw.IsValid s ⟨byte⟩ then
    some ((s.sliceTo (s.pos ⟨byte⟩ h)).copy, (s.sliceFrom (s.pos ⟨byte⟩ h)).copy)
  else none

/-- A text can be cut behind each of its parts. -/
theorem cut?_append (s t : String) : cut? (s ++ t) s.utf8ByteSize = some (s, t) := by
  have hvalid : String.Pos.Raw.IsValid (s ++ t) ⟨s.utf8ByteSize⟩ :=
    String.Pos.Raw.isValid_iff_exists_append.mpr ⟨s, t, rfl, rfl⟩
  have hparts := (String.Pos.splits ((s ++ t).pos _ hvalid)).eq
    (String.Pos.splits_append_rawEndPos (s := s) (t := t))
  unfold cut?
  rw [dif_pos hvalid, hparts.1, hparts.2]

/-- A text can be cut behind a character of one byte. -/
theorem cut?_cons {c : Char} (hc : c.utf8Size = 1) (cs : List Char) :
    cut? (String.ofList (c :: cs)) 1 = some (String.ofList [c], String.ofList cs) := by
  have hsize : (String.ofList [c]).utf8ByteSize = 1 := by
    rw [String.utf8ByteSize_ofList, String.utf8Len_cons, String.utf8Len_nil, hc]
  have happend : String.ofList (c :: cs) = String.ofList [c] ++ String.ofList cs := by
    rw [← String.ofList_append, List.singleton_append]
  rw [happend, ← hsize]
  exact cut?_append _ _

/-! ### The first byte -/

/-- The first byte of a text. -/
def firstByte? (s : String) : Option UInt8 :=
  s.toByteArray.data[0]?

theorem firstByte?_cons (c : Char) (cs : List Char) :
    firstByte? (String.ofList (c :: cs)) = (String.utf8EncodeChar c).head? := by
  unfold firstByte?
  rw [String.toByteArray_ofList, List.utf8Encode, List.data_toByteArray, List.getElem?_toArray,
    List.flatMap_cons, List.head?_eq_getElem?,
    List.getElem?_append_left (List.length_pos_iff.mpr String.utf8EncodeChar_ne_nil)]

/-- A first byte below 128 is a character on its own. -/
theorem toNat_eq_of_head? {c : Char} {b : UInt8} (hb : b.toNat < 128)
    (h : (String.utf8EncodeChar c).head? = some b) : c.toNat = b.toNat := by
  unfold String.utf8EncodeChar at h
  dsimp only at h
  split_ifs at h with h1 h2 h3
  · have hval := congrArg UInt8.toNat (Option.some.inj h)
    rw [UInt8.toNat_ofNat', Nat.mod_eq_of_lt (by omega)] at hval
    exact hval
  -- in the other cases the first byte says how many bytes follow, and is at least 192
  all_goals
    have hval := congrArg UInt8.toNat (Option.some.inj h)
    rw [UInt8.toNat_ofNat'] at hval
    omega

/-! ### Finding a character -/

/-- The byte at which the first character stands that passes a test. -/
def findByte? (test : Char → Bool) : List Char → Option Nat
  | [] => none
  | c :: cs => if test c then some 0 else (findByte? test cs).map (c.utf8Size + ·)

/-- The first character that fails a test, or the end of the text, stands behind the longest part
whose characters pass it. -/
theorem findByte?_not (test : Char → Bool) (cs : List Char) :
    (findByte? (fun c => !test c) cs).getD (String.ofList cs).utf8ByteSize =
      (String.ofList (cs.takeWhile test)).utf8ByteSize := by
  simp only [String.utf8ByteSize_ofList]
  induction cs with
  | nil => rfl
  | cons c cs ih =>
    rw [findByte?]
    by_cases hc : test c = true
    · rw [List.takeWhile_cons_of_pos hc, String.utf8Len_cons, String.utf8Len_cons, ← ih]
      cases findByte? (fun c => !test c) cs with
      | none => simp [hc]
      | some byte => simp [hc, Nat.add_comm]
    · rw [List.takeWhile_cons_of_neg hc, String.utf8Len_nil]
      simp [hc]

end TileWalk.Text
