import TileWalk.Json.Reader
import TileWalk.Proofs.Json.Grammar
import TileWalk.Proofs.Text.Numeral

/-!
# Scanning

What the scanners of a document do with a text that the grammar allows, whatever follows it: blanks
are dropped (`Json.dropBlank_append`), numbers and strings are skipped
(`Json.Number.skip_append`, `Json.skipString_append`), a string that spells a text is read as that
text (`Json.readString_append`), and a numeral is read as its number
(`Json.Number.read_append`). Only for numbers it matters what follows, for they have no end of their
own (`Json.EndsValue`).
-/

namespace TileWalk.Json

variable {p : Payload}

/-! ### Blanks -/

theorem IsBlanks.isBlank {blanks : List Char} (h : IsBlanks blanks) :
    ∀ u ∈ blanks.map some, Json.isBlank u = true := by
  intro u hu
  obtain ⟨c, hc, rfl⟩ := List.mem_map.mp hu
  obtain rfl | rfl | rfl | rfl := h c hc <;> rfl

theorem dropBlank_append {blanks : List Char} (h : IsBlanks blanks) (p : Payload) :
    dropBlank (blanks.map some ++ p) = dropBlank p :=
  List.dropWhile_append_of_pos h.isBlank

theorem dropBlank_cons {c : Char} (h : isBlank (some c) = false) (p : Payload) :
    dropBlank (some c :: p) = some c :: p :=
  List.dropWhile_cons_of_neg (by rw [h]; exact Bool.false_ne_true)

theorem colon_append {blanks : List Char} (h : IsBlanks blanks) (p : Payload) :
    colon (blanks.map some ++ some ':' :: p) = .ok p := by
  rw [colon, dropBlank_append h, dropBlank_cons (by decide)]
  rfl

/-! ### Ends of values -/

/-- What may stand right behind a value. -/
def delimiters : List Char :=
  [' ', '\t', '\n', '\r', ',', ']', '\x7d']

/-- A value may end here: there is nothing more, or a blank, a comma or a bracket that closes. -/
def EndsValue (p : Payload) : Prop :=
  ∀ u ∈ p.head?, ∃ c ∈ delimiters, u = some c

theorem endsValue_nil : EndsValue [] := by
  intro u hu
  cases hu

theorem endsValue_cons {c : Char} (h : c ∈ delimiters) (p : Payload) :
    EndsValue (some c :: p) := by
  intro u hu
  exact ⟨c, h, (Option.some.inj hu).symm⟩

theorem IsBlanks.endsValue {blanks : List Char} (h : IsBlanks blanks) (hp : EndsValue p) :
    EndsValue (blanks.map some ++ p) := by
  cases blanks with
  | nil => exact hp
  | cons c blanks =>
    apply endsValue_cons
    obtain rfl | rfl | rfl | rfl := h c List.mem_cons_self <;> decide

theorem EndsValue.ne (h : EndsValue p) {c : Char} (hc : c ∉ delimiters) (q : Payload) :
    p ≠ some c :: q := by
  rintro rfl
  obtain ⟨d, hd, heq⟩ := h _ rfl
  exact hc (Option.some.inj heq ▸ hd)

/-! ### Digits -/

theorem isBlank_of_isDigit {c : Char} (h : c.isDigit = true) : isBlank (some c) = false := by
  rw [← Bool.not_eq_true]
  intro hblank
  have hc : c = ' ' ∨ c = '\t' ∨ c = '\n' ∨ c = '\r' := by simpa [isBlank, or_assoc] using hblank
  obtain rfl | rfl | rfl | rfl := hc <;> exact absurd h (by decide)

/-- The payload does not begin with a digit. -/
def StopsDigits (p : Payload) : Prop :=
  ∀ c q, p = some c :: q → c.isDigit = false

theorem stopsDigits_cons {c : Char} (h : c.isDigit = false) (p : Payload) :
    StopsDigits (some c :: p) := by
  intro d q heq
  obtain ⟨hcd, -⟩ := List.cons.inj heq
  exact Option.some.inj hcd ▸ h

theorem EndsValue.stopsDigits (h : EndsValue p) : StopsDigits p := by
  rintro c q rfl
  obtain ⟨d, hd, heq⟩ := h _ rfl
  obtain rfl := Option.some.inj heq
  have hall : delimiters.all (fun c => !c.isDigit) = true := rfl
  simpa using List.all_eq_true.mp hall c hd

theorem takeDigits_append {digits : List Char} (h : ∀ c ∈ digits, c.isDigit = true)
    (hp : StopsDigits p) : takeDigits (digits.map some ++ p) = (digits, p) := by
  induction digits with
  | nil =>
    rw [List.map_nil, List.nil_append]
    match p, hp with
    | [], _ => rfl
    | none :: _, _ => rfl
    | some c :: q, hp => rw [takeDigits, hp c q rfl, if_neg Bool.false_ne_true]
  | cons c digits ih =>
    rw [List.map_cons, List.cons_append, takeDigits, if_pos (h c List.mem_cons_self),
      ih fun d hd => h d (List.mem_cons_of_mem _ hd)]

theorem AreDigits.takeDigits_append {digits : List Char} (h : AreDigits digits)
    (hp : StopsDigits p) : takeDigits (digits.map some ++ p) = (digits, p) :=
  Json.takeDigits_append h.2 hp

theorem IsExponent.stopsDigits {exponent : List Char} (h : IsExponent exponent)
    (hp : EndsValue p) : StopsDigits (exponent.map some ++ p) := by
  cases h with
  | absent => exact hp.stopsDigits
  | digits hmark => obtain rfl | rfl := hmark <;> exact stopsDigits_cons (by decide) _

theorem IsFraction.stopsDigits {fraction : List Char} (h : IsFraction fraction)
    (hp : StopsDigits p) : StopsDigits (fraction.map some ++ p) := by
  cases h with
  | absent => exact hp
  | digits => exact stopsDigits_cons (by decide) _

theorem IsMagnitude.exists_cons {text : List Char} (h : IsMagnitude text) :
    ∃ c rest, text = c :: rest ∧ c.isDigit = true := by
  obtain ⟨⟨⟨hne, hdigits⟩, -⟩, -, -⟩ := h
  obtain ⟨c, rest, rfl⟩ := List.exists_cons_of_ne_nil hne
  exact ⟨c, _, rfl, hdigits c List.mem_cons_self⟩

/-! ### Numbers that are skipped -/

namespace Number

theorem skipExponent_append {sign digits : List Char}
    (hsign : sign = [] ∨ sign = ['+'] ∨ sign = ['-']) (h : AreDigits digits) (hp : EndsValue p) :
    skipExponent ((sign ++ digits).map some ++ p) = .ok p := by
  have htake := h.takeDigits_append hp.stopsDigits
  obtain ⟨c, rest, rfl⟩ := List.exists_cons_of_ne_nil h.1
  have hc : c.isDigit = true := h.2 c List.mem_cons_self
  obtain rfl | rfl | rfl := hsign
  · have hplus : c ≠ '+' := by rintro rfl; exact absurd hc (by decide)
    have hminus : c ≠ '-' := by rintro rfl; exact absurd hc (by decide)
    simp_all [skipExponent]
  · simp_all [skipExponent]
  · simp_all [skipExponent]

theorem skip_append {text : List Char} (h : IsMagnitude text) (hp : EndsValue p) :
    skip (text.map some ++ p) = .ok p := by
  obtain @⟨whole, fraction, exponent, ⟨hwhole, hzero⟩, hfraction, hexponent⟩ := h
  -- neither a point nor the mark of an exponent is a digit, so each run of digits ends before it
  have hstops := hexponent.stopsDigits hp
  have htake := hwhole.takeDigits_append (hfraction.stopsDigits hstops)
  rw [List.map_append, List.map_append, List.append_assoc, List.append_assoc, skip, htake]
  dsimp only
  split
  · exact absurd rfl hwhole.1
  · exact absurd (hzero rfl) (by simp)
  · cases hfraction with
    | absent =>
      cases hexponent with
      | absent =>
        rw [List.map_nil, List.nil_append, List.nil_append]
        split
        · exact absurd rfl (hp.ne (by decide) _)
        · exact absurd rfl (hp.ne (by decide) _)
        · exact absurd rfl (hp.ne (by decide) _)
        · rfl
      | digits hmark hsign hdigits =>
        obtain rfl | rfl := hmark
        · exact skipExponent_append hsign hdigits hp
        · exact skipExponent_append hsign hdigits hp
    | digits hfraction =>
      simp only [List.map_cons, List.cons_append, hfraction.takeDigits_append hstops]
      rw [if_neg (by rw [List.isEmpty_iff]; exact hfraction.1)]
      cases hexponent with
      | absent =>
        rw [List.map_nil, List.nil_append]
        split
        · exact absurd rfl (hp.ne (by decide) _)
        · exact absurd rfl (hp.ne (by decide) _)
        · rfl
      | digits hmark hsign hdigits =>
        obtain rfl | rfl := hmark
        · exact skipExponent_append hsign hdigits hp
        · exact skipExponent_append hsign hdigits hp

end Number

/-! ### Numbers that are read -/

theorem le_ofDigitChars (n : Nat) (digits : List Char) :
    n ≤ Nat.ofDigitChars 10 digits n := by
  induction digits generalizing n with
  | nil => rw [Nat.ofDigitChars_nil]
  | cons c digits ih =>
    rw [Nat.ofDigitChars_cons]
    have hrest := ih (10 * n + (c.toNat - '0'.toNat))
    omega

namespace Number

/-- All digits are kept of a number that a word holds. -/
theorem absorb_eq {n : Nat} {digits : List Char}
    (h : Nat.ofDigitChars 10 digits n < UInt64.size) :
    absorb n digits = (Nat.ofDigitChars 10 digits n, digits.length) := by
  induction digits generalizing n with
  | nil => rw [absorb, Nat.ofDigitChars_nil, List.length_nil]
  | cons c digits ih =>
    rw [Nat.ofDigitChars_cons, Nat.mul_comm] at h ⊢
    have hle := le_ofDigitChars (n * 10 + (c.toNat - '0'.toNat)) digits
    rw [absorb]
    dsimp only
    rw [if_pos (Nat.lt_of_le_of_lt hle h), ih h, List.length_cons]

theorem read_append {digits : List Char} {n : Nat} (h : Text.Decimal.IsNumeral digits n)
    (hn : n < UInt64.size) (negative : Bool) (hp : EndsValue p) :
    read negative (digits.map some ++ p) = .ok (ofDigits negative n, p) := by
  obtain ⟨hne, hdigits, hhead, rfl⟩ := h
  rw [read, takeDigits_append hdigits hp.stopsDigits]
  dsimp only
  split
  · exact absurd rfl hne
  · exact absurd rfl (hhead (by simp))
  · rw [absorb_eq hn]
    dsimp only
    split
    · exact absurd rfl (hp.ne (by decide) _)
    · exact absurd rfl (hp.ne (by decide) _)
    · exact absurd rfl (hp.ne (by decide) _)
    · rw [Int.sub_self, if_pos rfl]
      rfl

end Number

/-! ### Strings -/

theorem IsHexDigit.hexDigit?_eq {c : Char} {n : Nat} (h : IsHexDigit c n) :
    hexDigit? (some c) = some n := by
  obtain ⟨hn, rfl | rfl⟩ := h
  · interval_cases n <;> rfl
  · interval_cases n <;> rfl

theorem hexCode?_eq {a b c d : Char} {k l m n : Nat} (ha : IsHexDigit a k) (hb : IsHexDigit b l)
    (hc : IsHexDigit c m) (hd : IsHexDigit d n) :
    hexCode? (some a) (some b) (some c) (some d) = some (((k * 16 + l) * 16 + m) * 16 + n) := by
  rw [hexCode?, ha.hexDigit?_eq, hb.hexDigit?_eq, hc.hexDigit?_eq, hd.hexDigit?_eq]
  rfl

/-- The text is cut into these pieces, whatever follows it. -/
def Cuts (text : List Char) (parts : List Piece) : Prop :=
  ∀ p, pieces (text.map some ++ p) = (parts ++ (pieces p).1, (pieces p).2)

theorem cuts_nil : Cuts [] [] :=
  fun _ => rfl

theorem Cuts.append {s t : List Char} {first rest : List Piece} (hs : Cuts s first)
    (ht : Cuts t rest) : Cuts (s ++ t) (first ++ rest) := by
  intro p
  rw [List.map_append, List.append_assoc, hs, ht, List.append_assoc]

theorem cuts_plain {c : Char} (hc : ' ' ≤ c) (hquote : c ≠ '\"') (hslash : c ≠ '\\') :
    Cuts [c] [.unit (some c)] := by
  intro p
  rw [List.map_singleton, List.singleton_append, pieces.eq_def]
  have hnot : ¬c < ' ' := Char.not_lt.mpr hc
  -- no case is left but that of a character that stands for itself
  split <;> simp_all

theorem cuts_escape {letter c : Char} (h : (letter, c) ∈ escapes) :
    Cuts ['\\', letter] [.unit (some c)] := by
  intro p
  simp only [escapes, List.mem_cons, Prod.mk.injEq, List.not_mem_nil, or_false] at h
  obtain ⟨rfl, rfl⟩ | ⟨rfl, rfl⟩ | ⟨rfl, rfl⟩ | ⟨rfl, rfl⟩ | ⟨rfl, rfl⟩ | ⟨rfl, rfl⟩ |
    ⟨rfl, rfl⟩ | ⟨rfl, rfl⟩ := h <;> rfl

theorem cuts_code {digits : List Char} {n : Nat} (h : IsCode digits n) :
    Cuts ('\\' :: 'u' :: digits) [.code n] := by
  intro p
  obtain ⟨ha, hb, hc, hd⟩ := h
  have hcode := hexCode?_eq ha hb hc hd
  simp only [List.map_cons, List.map_nil, List.cons_append, List.nil_append]
  rw [pieces, hcode]

theorem IsUnit.exists_cuts {unit : List Char} (h : IsUnit unit) : ∃ parts, Cuts unit parts := by
  cases h with
  | plain hc hquote hslash => exact ⟨_, cuts_plain hc hquote hslash⟩
  | escape hletter => exact ⟨_, cuts_escape hletter⟩
  | code hcode => exact ⟨_, cuts_code hcode⟩

theorem IsQuotable.exists_cuts {text : List Char} (h : IsQuotable text) :
    ∃ parts, Cuts text parts := by
  induction h with
  | nil => exact ⟨[], cuts_nil⟩
  | cons hunit _ ih =>
    obtain ⟨first, hfirst⟩ := hunit.exists_cuts
    obtain ⟨rest, hrest⟩ := ih
    exact ⟨first ++ rest, hfirst.append hrest⟩

theorem skipString_append {text : List Char} (h : IsQuotable text) (p : Payload) :
    skipString (text.map some ++ some '\"' :: p) = .ok p := by
  obtain ⟨parts, hcuts⟩ := h.exists_cuts
  rw [skipString, hcuts, pieces]

/-! ### Strings that are read -/

/-- Pieces that stand for a character, whatever follows. -/
def StandFor (parts : List Piece) (c : Char) : Prop :=
  ∀ rest units, resolve rest = some units → resolve (parts ++ rest) = some (some c :: units)

theorem not_surrogate (c : Char) : isTrailing c.toNat = false ∧ isLeading c.toNat = false := by
  have hvalid : c.toNat.isValidChar := c.valid
  simp only [isTrailing, isLeading, Bool.and_eq_false_iff, decide_eq_false_iff_not]
  unfold Nat.isValidChar at hvalid
  omega

theorem standFor_unit (c : Char) : StandFor [.unit (some c)] c := by
  intro rest units h
  rw [List.singleton_append, resolve, h, Option.map_some]

theorem standFor_code (c : Char) : StandFor [.code c.toNat] c := by
  intro rest units h
  obtain ⟨htrailing, hleading⟩ := not_surrogate c
  -- a code is looked at together with what comes next
  match rest, h with
  | [], h =>
    obtain rfl := Option.some.inj h
    rw [List.singleton_append, resolve, htrailing, hleading, Char.ofNat_toNat]
    rfl
  | .code m :: rest, h =>
    rw [List.singleton_append, resolve, htrailing, hleading, h, Char.ofNat_toNat]
    rfl
  | .unit u :: rest, h =>
    rw [resolve, Option.map_eq_some_iff] at h
    obtain ⟨us, hus, rfl⟩ := h
    rw [List.singleton_append, resolve, htrailing, hleading, hus, Char.ofNat_toNat]
    rfl

theorem standFor_pair {m n : Nat} {c : Char} (hm : 0xD800 ≤ m ∧ m < 0xDC00)
    (hn : 0xDC00 ≤ n ∧ n < 0xE000)
    (hc : c.toNat = 0x10000 + (m - 0xD800) * 0x400 + (n - 0xDC00)) :
    StandFor [.code m, .code n] c := by
  intro rest units h
  have hchar : pairChar m n = c := by rw [pairChar, ← hc, Char.ofNat_toNat]
  have hmt : isTrailing m = false := by
    simp only [isTrailing, Bool.and_eq_false_iff, decide_eq_false_iff_not]; omega
  have hml : isLeading m = true := by
    simp only [isLeading, Bool.and_eq_true, decide_eq_true_iff]; omega
  have hnt : isTrailing n = true := by
    simp only [isTrailing, Bool.and_eq_true, decide_eq_true_iff]; omega
  rw [List.cons_append, List.singleton_append, resolve, hmt, hml, hnt, h, hchar]
  rfl

theorem SpellsChar.exists_cuts {part : List Char} {c : Char} (h : SpellsChar part c) :
    ∃ parts, Cuts part parts ∧ StandFor parts c := by
  cases h with
  | plain hc hquote hslash => exact ⟨_, cuts_plain hc hquote hslash, standFor_unit c⟩
  | escape hletter => exact ⟨_, cuts_escape hletter, standFor_unit c⟩
  | code hcode => exact ⟨_, cuts_code hcode, standFor_code c⟩
  | pair hm hn hleading htrailing hc =>
    exact ⟨_, (cuts_code hm).append (cuts_code hn), standFor_pair hleading htrailing hc⟩

theorem Spells.exists_cuts {text cs : List Char} (h : Spells text cs) :
    ∃ parts, Cuts text parts ∧ resolve parts = some (cs.map some) := by
  induction h with
  | nil => exact ⟨[], cuts_nil, rfl⟩
  | cons hpart _ ih =>
    obtain ⟨first, hfirst, hstands⟩ := hpart.exists_cuts
    obtain ⟨rest, hrest, hresolve⟩ := ih
    exact ⟨first ++ rest, hfirst.append hrest, hstands rest _ hresolve⟩

theorem readString_append {text : List Char} {s : String} (h : Spells text s.toList)
    (p : Payload) : readString (text.map some ++ some '\"' :: p) = .ok (s, p) := by
  obtain ⟨parts, hcuts, hresolve⟩ := h.exists_cuts
  rw [readString, hcuts, pieces]
  dsimp only
  have hall : (s.toList.map some).all Option.isSome = true := by simp
  have hfilter : (s.toList.map some).filterMap id = s.toList := by simp
  rw [List.append_nil, hresolve]
  dsimp only [bind, Except.bind]
  rw [if_pos hall, hfilter, String.ofList_toList]
  rfl

end TileWalk.Json
