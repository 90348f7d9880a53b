import TileWalk.Proofs.Json.Scanning

/-!
# Skipping values

To skip a value no tree is kept, only what is awaited and which brackets are open. A value leads
from where a value is awaited to where a delimiter is, with the same brackets open
(`Json.IsValue.isSkipped`). So every value is skipped as a whole, however deep it is nested
(`Json.skipValue_append`).
-/

namespace TileWalk.Json

variable {p : Payload}

/-! ### Rounds -/

/-- A moment of skipping: what is awaited, the brackets that are open, and what is ahead. -/
structure Waiting where
  awaited : Awaited
  opened : List Bracket
  ahead : Payload

/-- Skipping comes from one moment to the other, if what is ahead has a bound. -/
def Leads (s t : Waiting) : Prop :=
  ∀ bound : Payload, s.ahead.length ≤ bound.length →
    ∃ bound' : Payload, t.ahead.length ≤ bound'.length ∧
      skipFrom bound s.awaited s.opened s.ahead = skipFrom bound' t.awaited t.opened t.ahead

theorem Leads.trans {s t u : Waiting} (hst : Leads s t) (htu : Leads t u) : Leads s u := by
  intro bound hbound
  obtain ⟨bound', hbound', hskip⟩ := hst bound hbound
  obtain ⟨bound'', hbound'', hskip'⟩ := htu bound' hbound'
  exact ⟨bound'', hbound'', hskip.trans hskip'⟩

/-- A round takes something off what is ahead, so there is a bound for the rest. -/
theorem Leads.of_round {s t : Waiting} (hlt : t.ahead.length < s.ahead.length)
    (h : ∀ u bound, skipFrom (u :: bound) s.awaited s.opened s.ahead =
      skipFrom bound t.awaited t.opened t.ahead) : Leads s t := by
  intro bound hbound
  match bound with
  | [] => exact absurd (Nat.lt_of_lt_of_le hlt hbound) (Nat.not_lt_zero _)
  | u :: bound =>
    rw [List.length_cons] at hbound
    exact ⟨bound, by omega, h u bound⟩

/-- A round that takes a text off what is ahead. -/
theorem Leads.of_text {text : List Char} (htext : text ≠ []) {a a' : Awaited}
    {opened opened' : List Bracket}
    (h : ∀ u bound, skipFrom (u :: bound) a opened (text.map some ++ p) =
      skipFrom bound a' opened' p) :
    Leads ⟨a, opened, text.map some ++ p⟩ ⟨a', opened', p⟩ := by
  refine Leads.of_round ?_ h
  have hpos := List.length_pos_iff.mpr htext
  dsimp only
  rw [List.length_append, List.length_map]
  omega

/-! ### Brackets -/

namespace Bracket

/-- The character that opens a bracket. -/
def opening : Bracket → Char
  | array => '['
  | object => '\x7b'

/-- The character that closes a bracket. -/
def closing : Bracket → Char
  | array => ']'
  | object => '\x7d'

/-- What is awaited after a bracket is opened, and after a comma in it. -/
def awaited : Bracket → Awaited
  | array => .value
  | object => .name

end Bracket

variable {b : Bracket} {opened : List Bracket}

/-- Blanks are passed wherever something is awaited. -/
theorem leads_blanks {blanks : List Char} (h : IsBlanks blanks) {a : Awaited}
    (opened : List Bracket) (hawaited : a = .delimiter → opened ≠ []) (p : Payload) :
    Leads ⟨a, opened, blanks.map some ++ p⟩ ⟨a, opened, p⟩ := by
  intro bound hbound
  refine ⟨bound, ?_, ?_⟩
  · dsimp only at hbound ⊢
    rw [List.length_append] at hbound
    omega
  · dsimp only
    match bound, a, opened, hawaited with
    | [], a, opened, hawaited => simp only [skipFrom]
    | _ :: _, .value, _, _ => rw [skipFrom, skipFrom, dropBlank_append h]
    | _ :: _, .name, _, _ => rw [skipFrom, skipFrom, dropBlank_append h]
    | _ :: _, .delimiter, [], hawaited => exact absurd rfl (hawaited rfl)
    | u :: bound, .delimiter, b :: opened, _ =>
      -- what the bracket does with a delimiter does not matter here, so its cases stay together
      rw [skipFrom.eq_def (u :: bound) _ _ (blanks.map some ++ p),
        skipFrom.eq_def (u :: bound) _ _ p]
      simp only [dropBlank_append h]

theorem leads_blanks_within {blanks : List Char} (h : IsBlanks blanks) (a : Awaited)
    (p : Payload) : Leads ⟨a, b :: opened, blanks.map some ++ p⟩ ⟨a, b :: opened, p⟩ :=
  leads_blanks h _ (fun _ => List.cons_ne_nil _ _) p

theorem leads_comma (p : Payload) :
    Leads ⟨.delimiter, b :: opened, some ',' :: p⟩ ⟨b.awaited, b :: opened, p⟩ := by
  apply Leads.of_round (Nat.lt_succ_self _)
  intro u bound
  have hcomma := dropBlank_cons (by decide : isBlank (some ',') = false) p
  cases b with
  | array => simp only [skipFrom, hcomma, Bracket.awaited]
  | object => simp only [skipFrom, hcomma, Bracket.awaited]

theorem leads_closing (p : Payload) :
    Leads ⟨.delimiter, b :: opened, some b.closing :: p⟩ ⟨.delimiter, opened, p⟩ := by
  apply Leads.of_round (Nat.lt_succ_self _)
  intro u bound
  cases b with
  | array =>
    have hclosing := dropBlank_cons (by decide : isBlank (some ']') = false) p
    simp only [skipFrom, Bracket.closing, hclosing]
  | object =>
    have hclosing := dropBlank_cons (by decide : isBlank (some '\x7d') = false) p
    simp only [skipFrom, Bracket.closing, hclosing]

theorem leads_empty {blanks : List Char} (h : IsBlanks blanks) (opened : List Bracket)
    (p : Payload) :
    Leads ⟨.value, opened, some b.opening :: (blanks.map some ++ some b.closing :: p)⟩
      ⟨.delimiter, opened, p⟩ := by
  apply Leads.of_round
  · simp only [List.length_append, List.length_cons]
    omega
  · intro u bound
    dsimp only
    rw [skipFrom]
    cases b with
    | array =>
      rw [Bracket.opening, Bracket.closing, dropBlank_cons (by decide)]
      simp only [dropBlank_append h, dropBlank_cons (by decide : isBlank (some ']') = false)]
    | object =>
      rw [Bracket.opening, Bracket.closing, dropBlank_cons (by decide)]
      simp only [dropBlank_append h, dropBlank_cons (by decide : isBlank (some '\x7d') = false)]

theorem leads_opening {blanks : List Char} (h : IsBlanks blanks) {c : Char}
    (hc : isBlank (some c) = false) (hclosing : c ≠ b.closing) (opened : List Bracket)
    (p : Payload) :
    Leads ⟨.value, opened, some b.opening :: (blanks.map some ++ some c :: p)⟩
      ⟨b.awaited, b :: opened, some c :: p⟩ := by
  apply Leads.of_round
  · simp only [List.length_append, List.length_cons]
    omega
  · intro u bound
    dsimp only
    rw [skipFrom]
    cases b with
    | array =>
      rw [Bracket.opening, Bracket.awaited, dropBlank_cons (by decide)]
      simp only [dropBlank_append h, dropBlank_cons hc]
      split
      · next heq => cases heq
      · next heq => cases heq; exact absurd rfl hclosing
      · rfl
    | object =>
      rw [Bracket.opening, Bracket.awaited, dropBlank_cons (by decide)]
      simp only [dropBlank_append h, dropBlank_cons hc]
      split
      · next heq => cases heq
      · next heq => cases heq; exact absurd rfl hclosing
      · rfl

/-! ### Values without brackets -/

/-- Where a value is awaited the text is passed, and the same brackets are open behind it. -/
def IsSkipped (text : List Char) : Prop :=
  ∀ (opened : List Bracket) (p : Payload), EndsValue p →
    Leads ⟨.value, opened, text.map some ++ p⟩ ⟨.delimiter, opened, p⟩

theorem isSkipped_word {text : List Char} (h : text ∈ words) : IsSkipped text := by
  intro opened p _
  simp only [words, List.mem_cons, List.not_mem_nil, or_false] at h
  obtain rfl | rfl | rfl := h
  · exact Leads.of_text (List.cons_ne_nil _ _) fun _ _ => rfl
  · exact Leads.of_text (List.cons_ne_nil _ _) fun _ _ => rfl
  · exact Leads.of_text (List.cons_ne_nil _ _) fun _ _ => rfl

theorem isSkipped_string {text : List Char} (h : IsQuotable text) :
    IsSkipped ('\"' :: text ++ ['\"']) := by
  intro opened p _
  refine Leads.of_text (by simp) fun u bound => ?_
  have hskip := skipString_append h p
  rw [skipFrom, List.cons_append, List.map_cons, List.cons_append, dropBlank_cons (by decide),
    List.map_append, List.append_assoc, List.map_singleton, List.singleton_append]
  simp only [hskip]

theorem isSkipped_negative {text : List Char} (h : IsMagnitude text) :
    IsSkipped ('-' :: text) := by
  intro opened p hp
  refine Leads.of_text (List.cons_ne_nil _ _) fun u bound => ?_
  rw [skipFrom, List.map_cons, List.cons_append, dropBlank_cons (by decide)]
  simp only [Number.skip_append h hp]

theorem isSkipped_positive {text : List Char} (h : IsMagnitude text) : IsSkipped text := by
  intro opened p hp
  have hskip := Number.skip_append h hp
  obtain ⟨c, rest, rfl, hdigit⟩ := h.exists_cons
  refine Leads.of_text (List.cons_ne_nil _ _) fun u bound => ?_
  rw [List.map_cons, List.cons_append] at hskip ⊢
  rw [skipFrom, dropBlank_cons (isBlank_of_isDigit hdigit)]
  -- a digit is none of the characters with which other values begin
  split <;> simp_all

/-! ### Values with brackets -/

/-- A part between two brackets: behind some blanks stands something that leads to the next
delimiter, and cannot be taken for the bracket that closes. -/
inductive IsPart (b : Bracket) : List Char → Prop
  | intro {blanks rest : List Char} {c : Char} (hblanks : IsBlanks blanks)
      (hc : isBlank (some c) = false) (hclosing : c ≠ b.closing)
      (hleads : ∀ opened p, EndsValue p →
        Leads ⟨b.awaited, b :: opened, (c :: rest).map some ++ p⟩ ⟨.delimiter, b :: opened, p⟩) :
      IsPart b (blanks ++ c :: rest)

theorem IsPart.leads {part : List Char} (h : IsPart b part) (opened : List Bracket)
    (hp : EndsValue p) :
    Leads ⟨b.awaited, b :: opened, part.map some ++ p⟩ ⟨.delimiter, b :: opened, p⟩ := by
  obtain ⟨hblanks, -, -, hleads⟩ := h
  rw [List.map_append, List.append_assoc]
  exact (leads_blanks_within hblanks _ _).trans (hleads opened p hp)

theorem Bracket.closing_mem (b : Bracket) : b.closing ∈ delimiters := by
  cases b <;> decide

/-- A part ends where the next one begins or the bracket closes. -/
theorem endsValue_parts (b : Bracket) (parts : List (List Char)) (p : Payload) :
    EndsValue ((parts.flatMap (',' :: ·)).map some ++ some b.closing :: p) := by
  cases parts with
  | nil => exact endsValue_cons b.closing_mem _
  | cons => exact endsValue_cons (by decide) _

/-- The parts behind the first one, up to the bracket that closes. -/
theorem leads_parts {parts : List (List Char)} (h : ∀ part ∈ parts, IsPart b part)
    (opened : List Bracket) (p : Payload) :
    Leads ⟨.delimiter, b :: opened,
        (parts.flatMap (',' :: ·)).map some ++ some b.closing :: p⟩
      ⟨.delimiter, opened, p⟩ := by
  induction parts with
  | nil => exact leads_closing p
  | cons part parts ih =>
    rw [List.flatMap_cons, List.cons_append, List.map_cons, List.cons_append, List.map_append,
      List.append_assoc]
    -- past the comma, past the part, and then to the parts that are left
    have hpart := (h part List.mem_cons_self).leads opened (endsValue_parts b parts p)
    have hrest := ih fun part hpart => h part (List.mem_cons_of_mem _ hpart)
    exact (leads_comma _).trans (hpart.trans hrest)

/-- What two brackets enclose is passed together with them. -/
theorem isSkipped_encloses {parts : List (List Char)} {text : List Char}
    (htext : Encloses b.opening b.closing parts text) (h : ∀ part ∈ parts, IsPart b part) :
    IsSkipped text := by
  intro opened p _
  cases htext with
  | none hblanks =>
    have hempty := leads_empty (b := b) hblanks opened p
    simpa using hempty
  | some part parts =>
    have hrest := leads_parts (fun part hpart => h part (List.mem_cons_of_mem _ hpart)) opened p
    obtain ⟨hblanks, hc, hclosing, hleads⟩ := h _ List.mem_cons_self
    have hfirst := hleads opened _ (endsValue_parts b parts p)
    have hopening := leads_opening (b := b) hblanks hc hclosing opened
    simp only [List.map_append, List.map_cons, List.map_nil, List.cons_append, List.nil_append,
      List.append_assoc] at hfirst hopening ⊢
    exact (hopening _).trans (hfirst.trans hrest)

/-- A value begins with something that is no blank and does not close an array. -/
theorem IsValue.exists_cons {text : List Char} (h : IsValue text) :
    ∃ c rest, text = c :: rest ∧ isBlank (some c) = false ∧ c ≠ ']' := by
  cases h with
  | word hword =>
    simp only [words, List.mem_cons, List.not_mem_nil, or_false] at hword
    obtain rfl | rfl | rfl := hword <;> exact ⟨_, _, rfl, by decide, by decide⟩
  | positive hnumber =>
    obtain ⟨c, rest, rfl, hdigit⟩ := hnumber.exists_cons
    refine ⟨c, rest, rfl, isBlank_of_isDigit hdigit, ?_⟩
    rintro rfl
    exact absurd hdigit (by decide)
  | negative => exact ⟨_, _, rfl, by decide, by decide⟩
  | string => exact ⟨_, _, rfl, by decide, by decide⟩
  | array htext =>
    obtain ⟨rest, rfl⟩ := htext.exists_cons
    exact ⟨_, rest, rfl, by decide, by decide⟩
  | object htext =>
    obtain ⟨rest, rfl⟩ := htext.exists_cons
    exact ⟨_, rest, rfl, by decide, by decide⟩

theorem Item.IsPadded.isPart {i : Item} (hpadded : i.IsPadded) (hvalue : IsValue i.value)
    (hskipped : IsSkipped i.value) : IsPart .array i.text := by
  obtain ⟨c, rest, hcons, hc, hclosing⟩ := hvalue.exists_cons
  rw [Item.text, List.append_assoc, hcons, List.cons_append]
  refine .intro hpadded.before hc hclosing fun opened p hp => ?_
  rw [← List.cons_append, ← hcons, List.map_append, List.append_assoc]
  exact (hskipped _ _ (hpadded.after.endsValue hp)).trans (leads_blanks_within hpadded.after _ _)

/-- The name of a member is skipped together with the colon behind it. -/
theorem leads_name {name blanks : List Char} (hname : IsQuotable name) (h : IsBlanks blanks)
    (opened : List Bracket) (p : Payload) :
    Leads ⟨.name, opened, ('\"' :: name ++ '\"' :: blanks ++ [':']).map some ++ p⟩
      ⟨.value, opened, p⟩ := by
  refine Leads.of_text (by simp) fun u bound => ?_
  have hskip := skipString_append hname (blanks.map some ++ some ':' :: p)
  simp only [List.map_append, List.map_cons, List.map_nil, List.cons_append, List.nil_append,
    List.append_assoc]
  rw [skipFrom, dropBlank_cons (by decide)]
  simp only [hskip, colon_append h]

theorem Member.IsPadded.isPart {m : Member} (hpadded : m.IsPadded) (hname : IsQuotable m.name)
    (hskipped : IsSkipped m.item.value) : IsPart .object m.text := by
  rw [Member.text, List.append_assoc, List.append_assoc, List.cons_append]
  refine .intro hpadded.before (by decide) (by decide) fun opened p hp => ?_
  have hcolon := leads_name hname hpadded.after (.object :: opened) (m.item.text.map some ++ p)
  have hvalue := hskipped (.object :: opened) _ (hpadded.item.after.endsValue hp)
  rw [Item.text, List.append_assoc] at hcolon ⊢
  simp only [List.map_append, List.map_cons, List.map_nil, List.cons_append, List.nil_append,
    List.append_assoc] at hcolon ⊢
  exact hcolon.trans ((leads_blanks_within hpadded.item.before _ _).trans
    (hvalue.trans (leads_blanks_within hpadded.item.after _ _)))

theorem IsValue.isSkipped {text : List Char} (h : IsValue text) : IsSkipped text := by
  induction h with
  | word hword => exact isSkipped_word hword
  | positive hnumber => exact isSkipped_positive hnumber
  | negative hnumber => exact isSkipped_negative hnumber
  | string hstring => exact isSkipped_string hstring
  | array htext hpadded hvalues ih =>
    refine isSkipped_encloses (b := .array) htext fun part hpart => ?_
    obtain ⟨i, hi, rfl⟩ := List.mem_map.mp hpart
    exact (hpadded i hi).isPart (hvalues i hi) (ih i hi)
  | object htext hpadded hnames hvalues ih =>
    refine isSkipped_encloses (b := .object) htext fun part hpart => ?_
    obtain ⟨m, hm, rfl⟩ := List.mem_map.mp hpart
    exact (hpadded m hm).isPart (hnames m hm) (ih m hm)

/-- A value is skipped as a whole, with the blanks before it. -/
theorem skipValue_append {blanks text : List Char} (hblanks : IsBlanks blanks) (h : IsValue text)
    (hp : EndsValue p) : skipValue (blanks.map some ++ (text.map some ++ p)) = .ok p := by
  have hbefore := leads_blanks (a := .value) hblanks [] (fun hvalue => nomatch hvalue)
  obtain ⟨bound, -, hskip⟩ := ((hbefore _).trans (h.isSkipped [] p hp)) _ (Nat.le_refl _)
  rw [skipValue, hskip, skipFrom_end]

end TileWalk.Json
