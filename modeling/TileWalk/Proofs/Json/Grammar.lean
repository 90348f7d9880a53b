import Mathlib.Tactic.SplitIfs
import TileWalk.Json.Value

/-!
# The grammar of documents

Which texts are documents, said without a word about how they are read: blanks, numbers, strings,
arrays and objects (`Json.IsValue`). A string is made of units (`Json.IsUnit`); not every code of an
escape is a character, and those strings that are made of characters spell a text (`Json.Spells`).

A text that is printed spells what was printed (`Json.spells_escape`).
-/

namespace TileWalk.Json

/-! ### Blanks -/

/-- Spaces, tabs, line feeds and carriage returns. -/
def IsBlanks (blanks : List Char) : Prop :=
  ∀ c ∈ blanks, c = ' ' ∨ c = '\t' ∨ c = '\n' ∨ c = '\r'

theorem isBlanks_nil : IsBlanks [] :=
  List.forall_mem_nil _

/-! ### Strings -/

/-- The letters that may stand after a backslash, and what each of them means there. -/
def escapes : List (Char × Char) :=
  [ ('\"', '\"'), ('\\', '\\'), ('/', '/'), ('b', '\x08'), ('f', '\x0c'), ('n', '\n'), ('r', '\r'),
    ('t', '\t') ]

/-- A digit in base sixteen, small or capital. -/
def IsHexDigit (c : Char) (n : Nat) : Prop :=
  n < 16 ∧ (c = n.digitChar ∨ c = n.digitChar.toUpper)

/-- Four digits in base sixteen. -/
inductive IsCode : List Char → Nat → Prop
  | digits {a b c d : Char} {k l m n : Nat} (ha : IsHexDigit a k) (hb : IsHexDigit b l)
      (hc : IsHexDigit c m) (hd : IsHexDigit d n) :
      IsCode [a, b, c, d] (((k * 16 + l) * 16 + m) * 16 + n)

/-- A unit of a string: a character as it stands, a letter after a backslash, or a code. -/
inductive IsUnit : List Char → Prop
  | plain {c : Char} (hc : ' ' ≤ c) (hquote : c ≠ '\"') (hslash : c ≠ '\\') : IsUnit [c]
  | escape {letter c : Char} (h : (letter, c) ∈ escapes) : IsUnit ['\\', letter]
  | code {digits : List Char} {n : Nat} (h : IsCode digits n) : IsUnit ('\\' :: 'u' :: digits)

/-- What may stand between the quotes of a string. -/
inductive IsQuotable : List Char → Prop
  | nil : IsQuotable []
  | cons {unit text : List Char} (hunit : IsUnit unit) (htext : IsQuotable text) :
      IsQuotable (unit ++ text)

/-- How a character can be written in a string. Those that four digits do not hold are written as a
pair of codes. -/
inductive SpellsChar : List Char → Char → Prop
  | plain {c : Char} (hc : ' ' ≤ c) (hquote : c ≠ '\"') (hslash : c ≠ '\\') : SpellsChar [c] c
  | escape {letter c : Char} (h : (letter, c) ∈ escapes) : SpellsChar ['\\', letter] c
  | code {digits : List Char} {c : Char} (h : IsCode digits c.toNat) :
      SpellsChar ('\\' :: 'u' :: digits) c
  | pair {leading trailing : List Char} {m n : Nat} {c : Char} (hm : IsCode leading m)
      (hn : IsCode trailing n) (hleading : 0xD800 ≤ m ∧ m < 0xDC00)
      (htrailing : 0xDC00 ≤ n ∧ n < 0xE000)
      (hc : c.toNat = 0x10000 + (m - 0xD800) * 0x400 + (n - 0xDC00)) :
      SpellsChar ('\\' :: 'u' :: leading ++ '\\' :: 'u' :: trailing) c

/-- How the characters of a text can be written in a string. -/
inductive Spells : List Char → List Char → Prop
  | nil : Spells [] []
  | cons {part text : List Char} {c : Char} {cs : List Char} (hpart : SpellsChar part c)
      (htext : Spells text cs) : Spells (part ++ text) (c :: cs)

theorem Spells.append {s t cs ds : List Char} (hs : Spells s cs) (ht : Spells t ds) :
    Spells (s ++ t) (cs ++ ds) := by
  induction hs with
  | nil => exact ht
  | cons hpart _ ih =>
    rw [List.append_assoc]
    exact .cons hpart ih

theorem isHexDigit_digitChar {n : Nat} (h : n < 16) : IsHexDigit n.digitChar n :=
  ⟨h, Or.inl rfl⟩

/-- A printed character can be read as that character. -/
theorem spellsChar_escapeChar (c : Char) : SpellsChar (escapeChar c) c := by
  unfold escapeChar
  split_ifs with hquote hslash hb hf hn hr ht hcontrol
  · subst hquote
    exact .escape (by decide)
  · subst hslash
    exact .escape (by decide)
  · subst hb
    exact .escape (by decide)
  · subst hf
    exact .escape (by decide)
  · subst hn
    exact .escape (by decide)
  · subst hr
    exact .escape (by decide)
  · subst ht
    exact .escape (by decide)
  · have hlt : c.toNat < 32 := hcontrol
    have hvalue : c.toNat = ((0 * 16 + 0) * 16 + c.toNat / 16) * 16 + c.toNat % 16 := by omega
    refine .code ?_
    rw [hvalue]
    have hzero : IsHexDigit '0' 0 := isHexDigit_digitChar (by decide)
    have hcode := IsCode.digits hzero hzero (isHexDigit_digitChar (n := c.toNat / 16) (by omega))
      (isHexDigit_digitChar (n := c.toNat % 16) (by omega))
    rw [← hvalue] at hcode ⊢
    exact hcode
  · exact .plain (Char.not_lt.mp hcontrol) hquote hslash

/-- A printed text spells that text. -/
theorem spells_escape (cs : List Char) : Spells (cs.flatMap escapeChar) cs := by
  induction cs with
  | nil => exact .nil
  | cons c cs ih =>
    rw [List.flatMap_cons]
    exact .cons (spellsChar_escapeChar c) ih

/-! ### Numbers -/

/-- One digit or more. -/
def AreDigits (digits : List Char) : Prop :=
  digits ≠ [] ∧ ∀ c ∈ digits, c.isDigit = true

/-- Digits with no zero in front of others. -/
def IsWhole (digits : List Char) : Prop :=
  AreDigits digits ∧ (digits.head? = some '0' → digits = ['0'])

/-- Nothing, or a point and digits. -/
inductive IsFraction : List Char → Prop
  | absent : IsFraction []
  | digits {digits : List Char} (h : AreDigits digits) : IsFraction ('.' :: digits)

/-- Nothing, or a mark, perhaps a sign, and digits. -/
inductive IsExponent : List Char → Prop
  | absent : IsExponent []
  | digits {mark : Char} {sign digits : List Char} (hmark : mark = 'e' ∨ mark = 'E')
      (hsign : sign = [] ∨ sign = ['+'] ∨ sign = ['-']) (h : AreDigits digits) :
      IsExponent (mark :: sign ++ digits)

/-- A number without its sign. -/
inductive IsMagnitude : List Char → Prop
  | parts {whole fraction exponent : List Char} (hwhole : IsWhole whole)
      (hfraction : IsFraction fraction) (hexponent : IsExponent exponent) :
      IsMagnitude (whole ++ fraction ++ exponent)

/-! ### Items and members -/

/-- Parts between two brackets, with commas between them. Where there are no parts there may be
blanks. -/
inductive Encloses (opening closing : Char) : List (List Char) → List Char → Prop
  | none {blanks : List Char} (h : IsBlanks blanks) :
      Encloses opening closing [] (opening :: blanks ++ [closing])
  | some (part : List Char) (parts : List (List Char)) :
      Encloses opening closing (part :: parts)
        (opening :: (part ++ parts.flatMap (',' :: ·)) ++ [closing])

theorem Encloses.exists_cons {opening closing : Char} {parts : List (List Char)} {text : List Char}
    (h : Encloses opening closing parts text) : ∃ rest, text = opening :: rest := by
  cases h with
  | none => exact ⟨_, rfl⟩
  | some => exact ⟨_, rfl⟩

/-- A value of an array or an object, with what stands around it. -/
structure Item where
  before : List Char
  value : List Char
  after : List Char

/-- An item as it is written. -/
def Item.text (i : Item) : List Char :=
  i.before ++ i.value ++ i.after

/-- Nothing but blanks stands around the value. -/
structure Item.IsPadded (i : Item) : Prop where
  before : IsBlanks i.before
  after : IsBlanks i.after

/-- A member of an object: what stands between the quotes of its name, what stands around these, and
its value. -/
structure Member where
  before : List Char
  name : List Char
  after : List Char
  item : Item

/-- A member as it is written. -/
def Member.text (m : Member) : List Char :=
  m.before ++ '\"' :: m.name ++ '\"' :: m.after ++ ':' :: m.item.text

/-- Nothing but blanks stands around the name and around the value. -/
structure Member.IsPadded (m : Member) : Prop where
  before : IsBlanks m.before
  after : IsBlanks m.after
  item : m.item.IsPadded

/-! ### Values -/

/-- The values that are words. -/
def words : List (List Char) :=
  [['n', 'u', 'l', 'l'], ['t', 'r', 'u', 'e'], ['f', 'a', 'l', 's', 'e']]

/-- The text is a value. -/
inductive IsValue : List Char → Prop
  | word {text : List Char} (h : text ∈ words) : IsValue text
  | positive {text : List Char} (h : IsMagnitude text) : IsValue text
  | negative {text : List Char} (h : IsMagnitude text) : IsValue ('-' :: text)
  | string {text : List Char} (h : IsQuotable text) : IsValue ('\"' :: text ++ ['\"'])
  | array {items : List Item} {text : List Char}
      (htext : Encloses '[' ']' (items.map Item.text) text) (hpadded : ∀ i ∈ items, i.IsPadded)
      (hvalues : ∀ i ∈ items, IsValue i.value) : IsValue text
  | object {members : List Member} {text : List Char}
      (htext : Encloses '\x7b' '\x7d' (members.map Member.text) text)
      (hpadded : ∀ m ∈ members, m.IsPadded) (hnames : ∀ m ∈ members, IsQuotable m.name)
      (hvalues : ∀ m ∈ members, IsValue m.item.value) : IsValue text

end TileWalk.Json
