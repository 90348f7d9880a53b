import TileWalk.Agent.Decide
import TileWalk.Proofs.Program.Closed
import TileWalk.Proofs.Text.Bytes

/-!
# The text of a call

The argument of a call has four parts: white space, a sign, digits and the rest (`CallText`). Every
text has these parts in exactly one way (`CallText.isSplitOf_iff`), and a call calls the number of
its digits if there is no minus sign and the number is a positive one of 64 bits
(`Node.callTarget?_eq_some_iff`). A reader that keeps the text in bytes reads the same number, and
never cuts through a character (`Node.callTargetInBytes?_eq`).

A call goes to the first node that declares the number it calls. So a call with the text of a head
reaches the function of this head, unless the function is number zero, which no call reaches
(`Program.calls_reach`).
-/

namespace TileWalk

open Text (isBlank IsLongestPrefix cut? firstByte? findByte?)

/-! ### The parts of a text -/

/-- The parts of the argument of a call. -/
structure CallText where
  blanks : List Char
  sign : Option Char
  digits : List Char
  rest : List Char
  deriving DecidableEq, Repr

namespace CallText

/-- The character is a sign. -/
def isSign (c : Char) : Bool :=
  c = '+' || c = '-'

/-- What comes behind the white space. -/
def tail (t : CallText) : List Char :=
  t.sign.toList ++ t.digits ++ t.rest

/-- The text consists of these parts: all white space at its front, then a sign if one comes next,
then all digits that follow. -/
structure IsSplitOf (t : CallText) (cs : List Char) : Prop where
  append_eq : t.blanks ++ t.tail = cs
  blanks : IsLongestPrefix isBlank t.blanks cs
  sign : ∀ c, t.sign = some c ↔ t.tail.head? = some c ∧ isSign c = true
  digits : IsLongestPrefix Char.isDigit t.digits (t.digits ++ t.rest)

/-- The parts of a text. -/
def ofChars (cs : List Char) : CallText :=
  let tail := cs.dropWhile isBlank
  let sign := tail.head?.filter isSign
  let body := tail.drop sign.toList.length
  ⟨cs.takeWhile isBlank, sign, body.takeWhile Char.isDigit, body.dropWhile Char.isDigit⟩

theorem tail_ofChars (cs : List Char) : (ofChars cs).tail = cs.dropWhile isBlank := by
  unfold tail ofChars
  dsimp only
  rw [List.append_assoc, List.takeWhile_append_dropWhile]
  cases cs.dropWhile isBlank with
  | nil => rfl
  | cons c rest =>
    rw [List.head?_cons, Option.filter_some]
    by_cases hc : isSign c = true
    · rw [if_pos hc]
      rfl
    · rw [if_neg hc]
      rfl

/-- A text has its parts in exactly one way. -/
theorem isSplitOf_iff {t : CallText} {cs : List Char} : t.IsSplitOf cs ↔ t = ofChars cs := by
  constructor
  · rintro ⟨happend, hblanks, hsign, hdigits⟩
    rw [Text.isLongestPrefix_iff] at hblanks hdigits
    have htail : t.tail = cs.dropWhile isBlank := by
      rw [hblanks] at happend
      exact List.append_cancel_left (happend.trans List.takeWhile_append_dropWhile.symm)
    have hfilter : t.sign = (cs.dropWhile isBlank).head?.filter isSign := by
      apply Option.ext
      intro c
      rw [hsign, htail, Option.filter_eq_some_iff]
    have hbody : t.digits ++ t.rest = (cs.dropWhile isBlank).drop t.sign.toList.length := by
      rw [← htail, tail, List.append_assoc, List.drop_left]
    have hrest : t.rest = (t.digits ++ t.rest).dropWhile Char.isDigit := by
      have hparts : (t.digits ++ t.rest).takeWhile Char.isDigit ++
          (t.digits ++ t.rest).dropWhile Char.isDigit = t.digits ++ t.rest :=
        List.takeWhile_append_dropWhile
      rw [← hdigits] at hparts
      exact List.append_cancel_left hparts.symm
    obtain ⟨blanks, sign, digits, rest⟩ := t
    dsimp only at hblanks hfilter hbody hdigits hrest
    rw [hbody, hfilter] at hdigits hrest
    rw [hblanks, hdigits, hrest, hfilter]
    rfl
  · rintro rfl
    have htail := tail_ofChars cs
    constructor
    case append_eq => rw [htail]; exact List.takeWhile_append_dropWhile
    case blanks => exact Text.isLongestPrefix_iff.mpr rfl
    case sign =>
      intro c
      rw [htail]
      exact Option.filter_eq_some_iff
    case digits =>
      rw [Text.isLongestPrefix_iff]
      unfold ofChars
      dsimp only
      rw [List.takeWhile_append_dropWhile]

theorem not_isBlank_of_isDigit {c : Char} (h : c.isDigit = true) :
    isBlank c = false ∧ isSign c = false := by
  obtain ⟨hlow, hhigh⟩ := Char.isDigit_iff_toNat.mp h
  change 48 ≤ c.toNat at hlow
  change c.toNat ≤ 57 at hhigh
  constructor
  · unfold isBlank Text.blankRanges
    simp only [List.any_cons, List.any_nil, Bool.or_false, Bool.or_eq_false_iff,
      Bool.and_eq_false_imp, decide_eq_true_eq, decide_eq_false_iff_not, not_le]
    omega
  · unfold isSign
    simp only [← Char.toNat_inj, Char.reduceToNat, Bool.or_eq_false_iff, decide_eq_false_iff_not]
    omega

/-- A text of digits has no other parts. -/
theorem isSplitOf_of_isDigit {cs : List Char} (h : ∀ c ∈ cs, c.isDigit = true) :
    (CallText.mk [] none cs []).IsSplitOf cs := by
  have hhead : ∀ c, cs.head? = some c → isBlank c = false ∧ isSign c = false :=
    fun c hc => not_isBlank_of_isDigit (h c (List.mem_of_mem_head? hc))
  constructor
  case append_eq => exact List.append_nil cs
  case blanks =>
    rw [Text.isLongestPrefix_iff]
    cases cs with
    | nil => rfl
    | cons c cs =>
      rw [List.takeWhile_cons_of_neg (by rw [(hhead c rfl).1]; exact Bool.false_ne_true)]
  case sign =>
    intro c
    refine ⟨fun hc => (nomatch hc), fun hc => ?_⟩
    have htail : (CallText.mk [] none cs []).tail = cs := List.append_nil cs
    rw [htail] at hc
    exact absurd ((hhead c hc.1).2.symm.trans hc.2) Bool.false_ne_true
  case digits =>
    rw [Text.isLongestPrefix_iff, List.append_nil]
    exact (List.takeWhile_eq_self_iff.mpr h).symm

end CallText

/-! ### The number that is called -/

namespace Node

open CallText (ofChars isSign)

variable {n : Node} {t : CallText} {f : Nat}

theorem splitSign_eq (cs : List Char) : splitSign cs =
    (cs.head?.filter isSign == some '-', cs.drop (cs.head?.filter isSign).toList.length) := by
  unfold splitSign
  split
  · rfl
  · rfl
  · next hminus hplus =>
    cases cs with
    | nil => rfl
    | cons c cs =>
      have hc : isSign c = false := by
        unfold isSign
        simpa using ⟨fun h => hplus cs (h ▸ rfl), fun h => hminus cs (h ▸ rfl)⟩
      rw [List.head?_cons, Option.filter_some, hc]
      rfl

theorem callTarget?_eq (n : Node) : n.callTarget? =
    (Text.Decimal.below? functionLimit (ofChars n.argument.toList).digits).bind fun f =>
      if (ofChars n.argument.toList).sign ≠ some '-' ∧ 0 < f then some f else none := by
  unfold callTarget? ofChars
  rw [splitSign_eq]
  dsimp only
  generalize n.argument.toList.dropWhile isBlank = cs
  cases Text.Decimal.below? functionLimit
      ((cs.drop (cs.head?.filter isSign).toList.length).takeWhile Char.isDigit) with
  | none => rfl
  | some f => simp only [beq_eq_false_iff_ne, Option.bind_some]

theorem below?_eq_some_iff {bound : Nat} {digits : List Char} :
    Text.Decimal.below? bound digits = some f ↔
      digits ≠ [] ∧ Text.Decimal.value digits = f ∧ f < bound := by
  unfold Text.Decimal.below?
  split_ifs with h
  · rw [Option.some_inj]
    exact ⟨fun hf => ⟨h.1, hf, hf ▸ h.2⟩, fun hf => hf.2.1⟩
  · refine ⟨fun hf => (nomatch hf), ?_⟩
    rintro ⟨hne, rfl, hlt⟩
    exact absurd ⟨hne, hlt⟩ h

/-- A call calls the number of its digits, if there is no minus sign and the number is a positive
one that 64 bits hold. -/
theorem callTarget?_eq_some_iff (ht : t.IsSplitOf n.argument.toList) : n.callTarget? = some f ↔
    t.sign ≠ some '-' ∧ t.digits ≠ [] ∧ Text.Decimal.value t.digits = f ∧ 0 < f ∧ f < 2 ^ 64 := by
  obtain rfl := CallText.isSplitOf_iff.mp ht
  rw [callTarget?_eq, Option.bind_eq_some_iff]
  constructor
  · rintro ⟨g, hg, hf⟩
    obtain ⟨hne, hvalue, hlt⟩ := below?_eq_some_iff.mp hg
    split_ifs at hf with hpos
    obtain rfl := Option.some.inj hf
    exact ⟨hpos.1, hne, hvalue, hpos.2, hlt⟩
  · rintro ⟨hminus, hne, hvalue, hpos, hlt⟩
    exact ⟨f, below?_eq_some_iff.mpr ⟨hne, hvalue, hlt⟩, if_pos ⟨hminus, hpos⟩⟩

theorem callTarget?_eq_none_iff (ht : t.IsSplitOf n.argument.toList) : n.callTarget? = none ↔
    ¬ (t.sign ≠ some '-' ∧ t.digits ≠ [] ∧ 0 < Text.Decimal.value t.digits ∧
      Text.Decimal.value t.digits < 2 ^ 64) := by
  rw [Option.eq_none_iff_forall_ne_some]
  constructor
  · rintro h ⟨hminus, hne, hpos, hlt⟩
    exact h _ ((callTarget?_eq_some_iff ht).mpr ⟨hminus, hne, rfl, hpos, hlt⟩)
  · intro h f hf
    obtain ⟨hminus, hne, rfl, hpos, hlt⟩ := (callTarget?_eq_some_iff ht).mp hf
    exact h ⟨hminus, hne, hpos, hlt⟩

/-- The numeral of a function calls it, unless the function is number zero. -/
theorem callTarget?_of_isNumeral (hn : Text.Decimal.IsNumeral n.argument.toList f) (hpos : 0 < f)
    (hf : f < 2 ^ 64) : n.callTarget? = some f :=
  (callTarget?_eq_some_iff (CallText.isSplitOf_of_isDigit hn.isDigit)).mpr
    ⟨nofun, hn.ne_nil, hn.value_eq, hpos, hf⟩

/-! ### Reading bytes -/

/-- Splits off one sign, which is told by the first byte. There is no result if the text cannot be
cut behind this byte. -/
def splitSignInBytes? (s : String) : Option (Bool × String) :=
  match firstByte? s with
  | some 0x2D => (cut? s 1).map fun parts => (true, parts.2)
  | some 0x2B => (cut? s 1).map fun parts => (false, parts.2)
  | _ => some (false, s)

/-- The number of the function that a call reaches, read from a text that is kept in bytes. There is
no result if the text is cut inside a character. -/
def callTargetInBytes? (n : Node) : Option (Option Nat) := do
  let trimmed := String.ofList (n.argument.toList.dropWhile isBlank)
  let (negative, s) ← splitSignInBytes? trimmed
  let stop := (findByte? (fun c => !c.isDigit) s.toList).getD s.utf8ByteSize
  let (digits, _) ← cut? s stop
  return (Text.Decimal.lenient? functionLimit digits.toList).bind fun f =>
    if negative = false ∧ 0 < f then some f else none

theorem splitSignInBytes?_eq (cs : List Char) : splitSignInBytes? (String.ofList cs) =
    some ((splitSign cs).1, String.ofList (splitSign cs).2) := by
  cases cs with
  | nil => rfl
  | cons c cs =>
    unfold splitSignInBytes?
    rw [Text.firstByte?_cons]
    split
    · next hbyte =>
      obtain rfl : c = '-' := Char.toNat_inj.mp (Text.toNat_eq_of_head? (by decide) hbyte)
      rw [Text.cut?_cons (by decide)]
      rfl
    · next hbyte =>
      obtain rfl : c = '+' := Char.toNat_inj.mp (Text.toNat_eq_of_head? (by decide) hbyte)
      rw [Text.cut?_cons (by decide)]
      rfl
    · next hminus hplus =>
      have hsplit : splitSign (c :: cs) = (false, c :: cs) := by
        unfold splitSign
        split
        · next heq => exact absurd (by cases heq; decide) hminus
        · next heq => exact absurd (by cases heq; decide) hplus
        · rfl
      rw [hsplit]

/-- The text is never cut inside a character, and the number is the one that the characters give. -/
theorem callTargetInBytes?_eq (n : Node) : n.callTargetInBytes? = some n.callTarget? := by
  unfold callTargetInBytes? callTarget?
  generalize n.argument.toList.dropWhile isBlank = cs
  dsimp only
  rw [splitSignInBytes?_eq]
  obtain ⟨negative, body⟩ := splitSign cs
  have hcut : cut? (String.ofList body) (String.ofList (body.takeWhile Char.isDigit)).utf8ByteSize =
      some (String.ofList (body.takeWhile Char.isDigit),
        String.ofList (body.dropWhile Char.isDigit)) := by
    have happend : String.ofList body = String.ofList (body.takeWhile Char.isDigit) ++
        String.ofList (body.dropWhile Char.isDigit) := by
      rw [← String.ofList_append, List.takeWhile_append_dropWhile]
    rw [happend]
    exact Text.cut?_append _ _
  rw [Option.bind_eq_bind, Option.bind_some]
  dsimp only
  rw [String.toList_ofList, Text.findByte?_not, hcut, Option.bind_eq_bind, Option.bind_some]
  dsimp only
  rw [String.toList_ofList,
    Text.Decimal.lenient?_of_isDigit fun c hc => List.mem_takeWhile_imp hc]
  cases Text.Decimal.below? functionLimit (body.takeWhile Char.isDigit) <;> rfl

end Node

/-! ### Where calls go -/

namespace Program

variable {p : Program} {n m e : Node} {cursor id : NodeId} {f : Nat} {facing : Facing}
  {o : Openings}

theorem decide_of_callTarget? (hn : p.node? cursor = some n) (hkind : n.kind = .tail)
    (hf : n.callTarget? = some f) :
    p.decide (some cursor) facing o = .resume (p.functionEntry? f) := by
  unfold decide Node.decide
  rw [Option.bind_some, hn]
  dsimp only
  rw [hkind, hf]

/-- A call that goes on calls a function, and goes to its entry. -/
theorem exists_callTarget?_of_decide (hn : p.node? cursor = some n) (hkind : n.kind = .tail)
    (h : p.decide (some cursor) facing o = .resume (some id)) :
    ∃ f, n.callTarget? = some f ∧ p.functionEntry? f = some id := by
  cases hf : n.callTarget? with
  | some f =>
    rw [decide_of_callTarget? hn hkind hf] at h
    exact ⟨f, rfl, Sequel.resume.inj (congrArg Decision.sequel h)⟩
  | none =>
    unfold decide Node.decide at h
    rw [Option.bind_some, hn] at h
    dsimp only at h
    rw [hkind, hf] at h
    cases congrArg Decision.sequel h

/-- The entry of a function is the first node that declares it. -/
theorem IsClosed.isFirst_of_functionEntry? (h : p.IsClosed) (hf : f < 2 ^ 64)
    (hentry : p.functionEntry? f = some id) : IsFirst p.nodes (fun e => e.Declares f) id.index := by
  have hdeclares : ∀ {n : Node}, n.declared? = some f ↔ n.Declares f :=
    Node.declared?_eq_some_iff.trans (and_iff_right hf)
  rw [h.tables, functionEntry?_ofNodes, find?_map_id_eq_some_iff h.index_getElem] at hentry
  simpa only [hdeclares] using hentry

theorem IsClosed.exists_functionEntry? (h : p.IsClosed) (hm : m ∈ p.nodes)
    (hf : m.declared? = some f) : ∃ id, p.functionEntry? f = some id := by
  rw [← Option.ne_none_iff_exists', h.tables, functionEntry?_ofNodes, ne_eq,
    find?_map_id_eq_none_iff]
  exact fun hno => hno m hm hf

theorem decide_eq_find? (arena : Array Node) (hn : (ofNodes arena).node? cursor = some n)
    (hkind : n.kind = .tail) (hf : n.callTarget? = some f) (hlt : f < 2 ^ 64) :
    (ofNodes arena).decide (some cursor) facing o =
      .resume ((arena.toList.find? fun m =>
        m.command = .funcStart ∧ m.argument = toString f).map Node.id) := by
  have hdeclares : ∀ m : Node,
      m.declared? = some f ↔ m.command = .funcStart ∧ m.argument = toString f := by
    intro m
    rw [Node.declared?_eq_some_iff, Node.Declares, Text.Decimal.isNumeral_iff]
    exact and_iff_right hlt
  rw [decide_of_callTarget? hn hkind hf, functionEntry?_ofNodes]
  simp only [hdeclares]

/-- Two calls and three heads. -/
def callers : Program :=
  (Builder.ofCalls
    [ .add ⟨.entry, .funcStart, "0"⟩, .add ⟨.entry, .funcStart, "2"⟩,
      .add ⟨.tail, .other "CommandCall", "2"⟩,
      .add ⟨.tail, .other "CommandCall", "\u3000+002.5é"⟩,
      .add ⟨.entry, .funcStart, "2"⟩ ]).build

theorem isObtainable_callers : callers.IsObtainable :=
  .built _ rfl (by decide)

/-- The second of the calls. -/
def longCall : Node :=
  ⟨⟨3⟩, none, .tail, .other "CommandCall", "\u3000+002.5é", none, none⟩

/-- Every text splits in one way into white space, a sign, digits and a rest, and a call calls the
number of the digits if no minus sign stands in front of them and if the number is positive and has
64 bits; reading the text in bytes comes to the same and never cuts through a character. A call goes
to the first head whose argument is the numeral of the number, and nowhere if there is none. So a
call with the text of a head reaches the function of the head, except for function zero, which can
be declared and is reached by no call. -/
theorem calls_reach :
    (∀ n : Node, n.callTargetInBytes? = some n.callTarget? ∧
      (∃! t : CallText, t.IsSplitOf n.argument.toList) ∧
      ∀ t : CallText, t.IsSplitOf n.argument.toList →
        (∀ f, n.callTarget? = some f ↔ t.sign ≠ some '-' ∧ t.digits ≠ [] ∧
          Text.Decimal.value t.digits = f ∧ 0 < f ∧ f < 2 ^ 64) ∧
        (n.callTarget? = none ↔ ¬ (t.sign ≠ some '-' ∧ t.digits ≠ [] ∧
          0 < Text.Decimal.value t.digits ∧ Text.Decimal.value t.digits < 2 ^ 64))) ∧
    (∀ (arena : Array Node) (cursor : NodeId) (n : Node) (f : Nat) (facing : Facing) (o : Openings),
      (ofNodes arena).node? cursor = some n → n.kind = .tail → n.callTarget? = some f →
      (ofNodes arena).decide (some cursor) facing o =
        .resume ((arena.toList.find? fun m =>
          m.command = .funcStart ∧ m.argument = toString f).map Node.id)) ∧
    (∀ (p : Program) (cursor : NodeId) (n : Node) (facing : Facing) (o : Openings),
      p.IsObtainable → p.node? cursor = some n → n.kind = .tail →
      (∀ m ∈ p.nodes, ∀ f, 0 < f → m.declared? = some f → n.argument = m.argument →
        ∃ id, p.decide (some cursor) facing o = .resume (some id) ∧
          IsFirst p.nodes (fun e => e.Declares f) id.index) ∧
      ∀ id e, p.decide (some cursor) facing o = .resume (some id) → p.node? id = some e →
        e.declared? ≠ some 0) ∧
    ∃ p : Program, p.IsObtainable ∧ p.functionEntry? 0 ≠ none := by
  have hsplit : ∀ n : Node, (CallText.ofChars n.argument.toList).IsSplitOf n.argument.toList :=
    fun n => CallText.isSplitOf_iff.mpr rfl
  have hrange : ∀ {n : Node} {f : Nat}, n.callTarget? = some f → 0 < f ∧ f < 2 ^ 64 :=
    fun {n} {f} hf => ((Node.callTarget?_eq_some_iff (hsplit n)).mp hf).2.2.2
  refine ⟨fun n => ⟨n.callTargetInBytes?_eq, ?_, fun t ht => ⟨fun f => ?_, ?_⟩⟩, ?_, ?_, ?_⟩
  · exact ⟨_, hsplit n, fun t ht => CallText.isSplitOf_iff.mp ht⟩
  · exact Node.callTarget?_eq_some_iff ht
  · exact Node.callTarget?_eq_none_iff ht
  · intro arena cursor n f facing o hn hkind hf
    exact decide_eq_find? arena hn hkind hf (hrange hf).2
  · intro p cursor n facing o hp hn hkind
    have hclosed := hp.isClosed
    refine ⟨fun m hm f hpos hdeclared hargument => ?_, fun id e hgoes he hzero => ?_⟩
    · obtain ⟨hlt, -, hnumeral⟩ := Node.declared?_eq_some_iff.mp hdeclared
      rw [← hargument] at hnumeral
      obtain ⟨id, hid⟩ := hclosed.exists_functionEntry? hm hdeclared
      refine ⟨id, ?_, hclosed.isFirst_of_functionEntry? hlt hid⟩
      rw [decide_of_callTarget? hn hkind (Node.callTarget?_of_isNumeral hnumeral hpos hlt), hid]
    · obtain ⟨f, hf, hentry⟩ := exists_callTarget?_of_decide hn hkind hgoes
      obtain ⟨hpos, hlt⟩ := hrange hf
      obtain ⟨⟨e', he', -, hnumeral⟩, -⟩ := hclosed.isFirst_of_functionEntry? hlt hentry
      obtain rfl : e = e' := Option.some.inj (he.symm.trans he')
      -- the entry would have the numeral of zero and the numeral of a positive number
      obtain ⟨-, -, hnumeralZero⟩ := Node.declared?_eq_some_iff.mp hzero
      have hzero' := hnumeral.value_eq.symm.trans hnumeralZero.value_eq
      omega
  · exact ⟨callers, isObtainable_callers, by decide⟩

/-- The first call has the text of a head and reaches it. The text of the second call has four
parts; its digits are those of function two, so it goes to the same head. -/
theorem calls_reach_callers :
    (CallText.mk ['\u3000'] (some '+') ['0', '0', '2'] ['.', '5', 'é']).IsSplitOf
        longCall.argument.toList ∧
      callers.decide (some ⟨3⟩) .southEast ⟨true, true, true, true⟩ = .resume (some ⟨1⟩) ∧
      (∃ id, callers.decide (some ⟨2⟩) .southEast ⟨true, true, true, true⟩ = .resume (some id) ∧
        IsFirst callers.nodes (fun e => e.Declares 2) id.index) ∧
      ∀ e, callers.node? ⟨1⟩ = some e → e.declared? ≠ some 0 := by
  obtain ⟨hread, hgoes, hreach, -⟩ := calls_reach
  have hsplit : (CallText.mk ['\u3000'] (some '+') ['0', '0', '2'] ['.', '5', 'é']).IsSplitOf
      longCall.argument.toList := CallText.isSplitOf_iff.mpr (by decide)
  have htarget : longCall.callTarget? = some 2 :=
    (((hread longCall).2.2 _ hsplit).1 2).mpr (by decide)
  have hdecide : callers.decide (some ⟨3⟩) .southEast ⟨true, true, true, true⟩ =
      .resume (some ⟨1⟩) :=
    (hgoes callers.nodes ⟨3⟩ longCall 2 .southEast ⟨true, true, true, true⟩ rfl rfl htarget).trans
      (by decide)
  have hhead : (⟨⟨1⟩, none, .entry, .funcStart, "2", none, none⟩ : Node) ∈ callers.nodes :=
    Array.mem_of_getElem? (i := 1) rfl
  refine ⟨hsplit, hdecide, ?_, fun e he => ?_⟩
  · exact (hreach callers ⟨2⟩ ⟨⟨2⟩, none, .tail, .other "CommandCall", "2", none, none⟩ .southEast
      ⟨true, true, true, true⟩ isObtainable_callers rfl rfl).1 _ hhead 2 (by decide) (by decide) rfl
  · exact (hreach callers ⟨3⟩ longCall .southEast ⟨true, true, true, true⟩ isObtainable_callers rfl
      rfl).2 ⟨1⟩ e hdecide he

end Program

end TileWalk
