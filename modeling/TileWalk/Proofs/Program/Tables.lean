import TileWalk.Program.Basic
import TileWalk.Proofs.Text.Numeral
import Mathlib.Tactic.SplitIfs

/-!
# The tables of a program

The two tables of a program are made in one pass over its nodes, and what they answer is what a
search from the front would find: the root is the first node that marks a beginning
(`Program.root_ofNodes`), and a function begins at the first node that declares it
(`Program.functionEntry?_ofNodes`). Each function is listed once
(`Program.nodup_functions_ofNodes`).

A node declares a function by the numeral of its number and by no other text
(`Node.declared?_eq_some_iff`), so where every node stands at the place of its number the tables
are what a reader finds who looks through the nodes and compares texts (`Program.tables_eq_scan`).
-/

namespace TileWalk

namespace Node

/-- The node declares a function: its argument is the numeral of the function. -/
def Declares (n : Node) (f : Nat) : Prop :=
  n.command = .funcStart ∧ Text.Decimal.IsNumeral n.argument.toList f

theorem declared?_eq_some_iff {n : Node} {f : Nat} :
    n.declared? = some f ↔ f < functionLimit ∧ n.Declares f := by
  unfold declared? Declares
  rw [Text.Decimal.isNumeral_iff]
  split_ifs with h
  · rw [Text.Decimal.canonical?_eq_some_iff]
    exact ⟨fun hf => ⟨hf.1, h, hf.2⟩, fun hf => ⟨hf.1, hf.2.2⟩⟩
  · exact ⟨fun hf => (nomatch hf), fun hf => absurd hf.2.1 h⟩

/-- The node declares what is read from its argument if it is printed again as it was read. -/
theorem declared?_eq_filter (n : Node) : n.declared? =
    if n.command = .funcStart then
      (Text.Decimal.lenient? functionLimit n.argument.toList).filter fun f => toString f = n.argument
    else none := by
  unfold declared?
  rw [Text.Decimal.canonical?_eq_filter]

end Node

namespace Program

variable {ix : Index} {nodes : List Node} {n : Node} {f g : Nat}

/-! ### One more node -/

theorem root_add (ix : Index) (n : Node) :
    (ix.add n).root = ix.root.or (if n.command = .root then some n.id else none) := by
  unfold Index.add
  cases hr : ix.root with
  | none => rfl
  | some first => rfl

theorem lookup_add (ix : Index) (n : Node) (f : Nat) :
    (ix.add n).functions.lookup f =
      (ix.functions.lookup f).or (if n.declared? = some f then some n.id else none) := by
  unfold Index.add
  cases hd : n.declared? with
  | none => simp
  | some g =>
    -- a function that has an entry keeps it, whatever declares it again
    cases hl : ix.functions.lookup g with
    | none =>
      dsimp only
      rw [hl]
      dsimp only
      rw [List.lookup_append, List.lookup_cons, List.lookup_nil]
      by_cases h : f = g
      · simp [h]
      · have hg : (f == g) = false := beq_false_of_ne h
        rw [hg, if_neg (by simpa using fun he => h he.symm)]
    | some first =>
      dsimp only
      rw [hl]
      dsimp only
      by_cases h : g = f
      · subst h
        rw [hl, Option.some_or]
      · rw [if_neg (by simpa using h), Option.or_none]

/-! ### A list of nodes -/

theorem root_foldl_add (ix : Index) (nodes : List Node) :
    (nodes.foldl Index.add ix).root =
      ix.root.or ((nodes.find? fun n => n.command = .root).map Node.id) := by
  induction nodes generalizing ix with
  | nil => simp
  | cons n nodes ih =>
    rw [List.foldl_cons, ih, root_add, List.find?_cons, Option.or_assoc]
    by_cases h : n.command = .root
    · simp [h]
    · simp [h]

theorem lookup_foldl_add (ix : Index) (nodes : List Node) (f : Nat) :
    (nodes.foldl Index.add ix).functions.lookup f =
      (ix.functions.lookup f).or ((nodes.find? fun n => n.declared? = some f).map Node.id) := by
  induction nodes generalizing ix with
  | nil => simp
  | cons n nodes ih =>
    rw [List.foldl_cons, ih, lookup_add, List.find?_cons, Option.or_assoc]
    by_cases h : n.declared? = some f
    · simp [h]
    · simp [h]

/-! ### Programs -/

/-- A program begins at the first node that marks a beginning. -/
theorem root_ofNodes (nodes : Array Node) :
    (ofNodes nodes).root = (nodes.toList.find? fun n => n.command = .root).map Node.id := by
  show (nodes.toList.foldl Index.add ⟨none, []⟩).root = _
  rw [root_foldl_add, Option.none_or]

/-- A function begins at the first node that declares it. -/
theorem functionEntry?_ofNodes (nodes : Array Node) (f : Nat) :
    functionEntry? (ofNodes nodes) f =
      (nodes.toList.find? fun n => n.declared? = some f).map Node.id := by
  show (nodes.toList.foldl Index.add ⟨none, []⟩).functions.lookup f = _
  rw [lookup_foldl_add, List.lookup_nil, Option.none_or]

/-! ### Searching the nodes -/

/-- A table lists no function twice. -/
theorem nodup_functions_add (h : (ix.functions.map Prod.fst).Nodup) (n : Node) :
    ((ix.add n).functions.map Prod.fst).Nodup := by
  unfold Index.add
  cases n.declared? with
  | none => exact h
  | some f =>
    dsimp only
    cases hl : ix.functions.lookup f with
    | some first => exact h
    | none =>
      have hnew : f ∉ ix.functions.map Prod.fst := by
        intro hmem
        obtain ⟨entry, hentry, hf⟩ := List.mem_map.mp hmem
        have hne := List.lookup_eq_none_iff.mp hl entry hentry
        rw [hf] at hne
        simp at hne
      dsimp only
      rw [List.map_append, List.nodup_append]
      refine ⟨h, List.nodup_cons.mpr ⟨List.not_mem_nil, List.nodup_nil⟩, fun g hg f' hf' heq => ?_⟩
      obtain rfl := List.mem_singleton.mp hf'
      exact hnew (heq ▸ hg)

theorem nodup_functions_ofNodes (nodes : Array Node) :
    ((ofNodes nodes).functions.map Prod.fst).Nodup := by
  have hfold : ∀ (ix : Index) (nodes : List Node), (ix.functions.map Prod.fst).Nodup →
      ((nodes.foldl Index.add ix).functions.map Prod.fst).Nodup := by
    intro ix nodes
    induction nodes generalizing ix with
    | nil => exact id
    | cons n nodes ih => exact fun h => ih _ (nodup_functions_add h n)
  exact hfold ⟨none, []⟩ nodes.toList List.nodup_nil

/-- A function is listed exactly if it has an entry. -/
theorem mem_map_functions_iff {p : Program} :
    f ∈ p.functions.map Prod.fst ↔ p.functionEntry? f ≠ none := by
  unfold functionEntry?
  rw [Option.ne_none_iff_isSome, List.lookup_isSome_iff, List.mem_map]
  constructor
  · rintro ⟨entry, hentry, rfl⟩
    exact ⟨entry, hentry, beq_self_eq_true _⟩
  · rintro ⟨entry, hentry, heq⟩
    exact ⟨entry, hentry, (beq_iff_eq.mp heq).symm⟩

/-- The node in a place is the first one that is as asked for. -/
def IsFirst (nodes : Array Node) (asked : Node → Prop) (i : Nat) : Prop :=
  (∃ n, nodes[i]? = some n ∧ asked n) ∧ ∀ j < i, ∀ n, nodes[j]? = some n → ¬ asked n

section

variable {arena : Array Node} {asked : Node → Prop} [DecidablePred asked]

/-- Where every node stands at the place of its number, a search finds the number of the first
node. -/
theorem find?_map_id_eq_some_iff (hids : ∀ (i : Nat) (h : i < arena.size), arena[i].id.index = i)
    {id : NodeId} : (arena.toList.find? fun n => asked n).map Node.id = some id ↔
      IsFirst arena asked id.index := by
  rw [Option.map_eq_some_iff]
  constructor
  · rintro ⟨n, hn, rfl⟩
    obtain ⟨hasked, i, hi, hat, hbefore⟩ := List.find?_eq_some_iff_getElem.mp hn
    have hindex : n.id.index = i := by
      rw [← hat, Array.getElem_toList]
      exact hids i hi
    rw [hindex]
    refine ⟨⟨n, ?_, of_decide_eq_true hasked⟩, fun j hj m hm => ?_⟩
    · rw [← Array.getElem?_toList, List.getElem?_eq_getElem hi, hat]
    · rw [← Array.getElem?_toList, List.getElem?_eq_getElem (by omega)] at hm
      obtain rfl := Option.some.inj hm
      simpa using hbefore j hj
  · rintro ⟨⟨n, hn, hasked⟩, hbefore⟩
    obtain ⟨hi, hat⟩ := Array.getElem?_eq_some_iff.mp hn
    have hid : n.id = id := Ident.index_inj.mp (hat ▸ hids id.index hi)
    refine ⟨n, List.find?_eq_some_iff_getElem.mpr
      ⟨decide_eq_true hasked, id.index, hi, hat, fun j hj => ?_⟩, hid⟩
    have hlt : j < arena.size := Nat.lt_trans hj hi
    have hother := hbefore j hj arena[j] (Array.getElem?_eq_getElem hlt)
    simpa using hother

theorem find?_map_id_eq_none_iff : (arena.toList.find? fun n => asked n).map Node.id = none ↔
    ∀ n ∈ arena, ¬ asked n := by
  rw [Option.map_eq_none_iff, List.find?_eq_none]
  simp only [Array.mem_toList_iff, decide_eq_true_eq]

end

/-- The tables of nodes that stand at the places of their numbers are what a search from the front
finds: the first node that marks a beginning, and for each number that 64 bits hold the first node
whose argument is its numeral. As many functions are counted as have such a node. A text that is
read as a number but is not its numeral declares nothing. -/
theorem tables_eq_scan (arena : Array Node)
    (hids : ∀ (i : Nat) (h : i < arena.size), arena[i].id.index = i) :
    (∀ id, (ofNodes arena).root = some id ↔ IsFirst arena (fun n => n.command = .root) id.index) ∧
    ((ofNodes arena).root = none ↔ ∀ n ∈ arena, n.command ≠ .root) ∧
    (∀ f < 2 ^ 64, ∀ id, functionEntry? (ofNodes arena) f = some id ↔
      IsFirst arena (fun n => n.Declares f) id.index) ∧
    (∀ f < 2 ^ 64, functionEntry? (ofNodes arena) f = none ↔ ∀ n ∈ arena, ¬ n.Declares f) ∧
    (∃ declared : List Nat, declared.Nodup ∧
      (∀ f, f ∈ declared ↔ f < 2 ^ 64 ∧ ∃ n ∈ arena, n.Declares f) ∧
      (ofNodes arena).functionCount = declared.length) ∧
    ∀ n ∈ arena,
      (n.declared? = if n.command = .funcStart then
          (Text.Decimal.lenient? (2 ^ 64) n.argument.toList).filter
            fun f => toString f = n.argument
        else none) ∧
      ((∀ f < 2 ^ 64, ¬ Text.Decimal.IsNumeral n.argument.toList f) →
        n.declared? = none ∧ ∀ f, functionEntry? (ofNodes arena) f ≠ some n.id) := by
  have hdeclares : ∀ {n : Node} {f : Nat}, f < 2 ^ 64 → (n.declared? = some f ↔ n.Declares f) :=
    fun hf => Node.declared?_eq_some_iff.trans (and_iff_right hf)
  refine ⟨fun id => ?_, ?_, fun f hf id => ?_, fun f hf => ?_, ?_, fun n hn => ⟨?_, ?_⟩⟩
  · rw [root_ofNodes]
    exact find?_map_id_eq_some_iff hids
  · rw [root_ofNodes]
    exact find?_map_id_eq_none_iff
  · rw [functionEntry?_ofNodes, find?_map_id_eq_some_iff hids]
    simp only [hdeclares hf]
  · rw [functionEntry?_ofNodes, find?_map_id_eq_none_iff]
    simp only [hdeclares hf]
  · refine ⟨_, nodup_functions_ofNodes arena, fun f => ?_, (List.length_map _).symm⟩
    rw [mem_map_functions_iff, functionEntry?_ofNodes, ne_eq, find?_map_id_eq_none_iff]
    simp only [Node.declared?_eq_some_iff, not_forall, not_not]
    constructor
    · rintro ⟨n, hn, hf, hdeclares⟩
      exact ⟨hf, n, hn, hdeclares⟩
    · rintro ⟨hf, n, hn, hdeclares⟩
      exact ⟨n, hn, hf, hdeclares⟩
  · exact n.declared?_eq_filter
  · intro hno
    have hsilent : n.declared? = none := by
      rw [Option.eq_none_iff_forall_ne_some]
      intro f hdeclared
      obtain ⟨hf, -, hnumeral⟩ := Node.declared?_eq_some_iff.mp hdeclared
      exact hno f hf hnumeral
    refine ⟨hsilent, fun f hentry => ?_⟩
    rw [functionEntry?_ofNodes, find?_map_id_eq_some_iff hids] at hentry
    -- the entry stands at the place of the number of the node, so it is the node
    obtain ⟨⟨m, hm, hdeclared⟩, -⟩ := hentry
    obtain ⟨i, hi, rfl⟩ := Array.mem_iff_getElem.mp hn
    rw [hids i hi, Array.getElem?_eq_getElem hi] at hm
    obtain rfl := Option.some.inj hm
    exact nomatch hsilent.symm.trans hdeclared

/-- Seven heads of functions, and a beginning. -/
def heads : Array Node :=
  (#["02", "+2", " 2", "2.0", "18446744073709551616", "2", "2"].mapIdx fun i argument =>
    ⟨Ident.ofIndex i, none, .entry, .funcStart, argument, none, none⟩).push
      ⟨⟨7⟩, none, .entry, .root, "", none, none⟩

/-- Five of the heads have arguments that are no numerals of 64 bits, and declare nothing. The other
two declare function two, which begins at the first of them. -/
theorem tables_eq_scan_heads :
    (∀ (i : Nat) (h : i < heads.size), heads[i].id.index = i) ∧
      IsFirst heads (fun n => n.command = .root) 7 ∧ IsFirst heads (fun n => n.Declares 2) 5 ∧
      (ofNodes heads).functionCount = 1 ∧
      ∀ (i : Nat) (h : i < heads.size), i < 5 →
        heads[i].declared? = none ∧ ∀ f, functionEntry? (ofNodes heads) f ≠ some heads[i].id := by
  have hids : ∀ (i : Nat) (h : i < heads.size), heads[i].id.index = i := by decide
  obtain ⟨hroot, -, hentry, -, -, hsilent⟩ := tables_eq_scan heads hids
  refine ⟨hids, (hroot ⟨7⟩).mp (by decide), (hentry 2 (by decide) ⟨5⟩).mp (by decide),
    by decide, fun i h hi => (hsilent _ (Array.getElem_mem h)).2 fun f hf hnumeral => ?_⟩
  interval_cases i
  · change Text.Decimal.IsNumeral "02".toList f at hnumeral
    exact hnumeral.head_ne (by decide) (by decide)
  · change Text.Decimal.IsNumeral "+2".toList f at hnumeral
    exact absurd (hnumeral.isDigit '+' (by decide)) (by decide)
  · change Text.Decimal.IsNumeral " 2".toList f at hnumeral
    exact absurd (hnumeral.isDigit ' ' (by decide)) (by decide)
  · change Text.Decimal.IsNumeral "2.0".toList f at hnumeral
    exact absurd (hnumeral.isDigit '.' (by decide)) (by decide)
  · change Text.Decimal.IsNumeral "18446744073709551616".toList f at hnumeral
    have hvalue : Text.Decimal.value "18446744073709551616".toList = 2 ^ 64 := by decide
    exact absurd (hnumeral.value_eq.symm.trans hvalue) (Nat.ne_of_lt hf)

end Program

end TileWalk
