import Mathlib.Data.List.Forall2

/-!
# Outcomes of several steps

A computation that may stop in the middle is taken apart at its steps: it has a result exactly when
the first step has one and the rest goes on from there (`bind_eq_ok_iff`), and a list of
computations has results exactly when each of them has one (`mapM_eq_ok_iff`), in its own place
(`exists_getElem?_of_forall₂`).

What can go wrong is listed in the order in which it would be found (`FailsWith`), and the errors of
a computation in two steps are those of the first, and behind them those of the second.
-/

namespace TileWalk.Outcome

variable {ε α β : Type}

theorem bind_eq_ok_iff {x : Except ε α} {f : α → Except ε β} {b : β} :
    x >>= f = .ok b ↔ ∃ a, x = .ok a ∧ f a = .ok b := by
  cases x with
  | error e => simp [bind, Except.bind]
  | ok a => simp [bind, Except.bind]

@[simp]
theorem pure_eq_ok_iff {a b : α} : (pure a : Except ε α) = .ok b ↔ a = b := by
  simp [pure, Except.pure]

theorem map_eq_ok_iff {x : Except ε α} {f : α → β} {b : β} :
    x.map f = .ok b ↔ ∃ a, x = .ok a ∧ f a = b := by
  cases x with
  | error e => simp [Except.map]
  | ok a => simp [Except.map]

/-- A list of computations has results exactly when each of them has one. -/
theorem mapM_eq_ok_iff {f : α → Except ε β} {l : List α} {r : List β} :
    l.mapM f = .ok r ↔ List.Forall₂ (fun a b => f a = .ok b) l r := by
  induction l generalizing r with
  | nil =>
    rw [List.mapM_nil, pure_eq_ok_iff, List.forall₂_nil_left_iff]
    exact eq_comm
  | cons a l ih =>
    rw [List.mapM_cons, bind_eq_ok_iff, List.forall₂_cons_left_iff]
    constructor
    · rintro ⟨b, hb, hrest⟩
      obtain ⟨bs, hbs, hr⟩ := bind_eq_ok_iff.mp hrest
      exact ⟨b, bs, hb, ih.mp hbs, (pure_eq_ok_iff.mp hr).symm⟩
    · rintro ⟨b, bs, hb, hbs, rfl⟩
      exact ⟨b, hb, bind_eq_ok_iff.mpr ⟨bs, ih.mpr hbs, rfl⟩⟩

theorem exists_getElem?_of_forall₂ {R : α → β → Prop} {l : List α} {r : List β}
    (h : List.Forall₂ R l r) {i : Nat} {a : α} (ha : l[i]? = some a) :
    ∃ b, r[i]? = some b ∧ R a b := by
  obtain ⟨hi, rfl⟩ := List.getElem?_eq_some_iff.mp ha
  have hir : i < r.length := h.length_eq ▸ hi
  exact ⟨r[i], List.getElem?_eq_getElem hir, h.get hi hir⟩

theorem exists_mem_of_forall₂ {R : α → β → Prop} {l : List α} {r : List β}
    (h : List.Forall₂ R l r) {b : β} (hb : b ∈ r) : ∃ a ∈ l, R a b := by
  obtain ⟨i, hi⟩ := List.mem_iff_getElem?.mp hb
  obtain ⟨a, ha, hab⟩ := exists_getElem?_of_forall₂ h.flip hi
  exact ⟨a, List.mem_of_getElem? ha, hab⟩

/-! ### The first error -/

/-- The computation ends in the first of the errors, and has a result if there are none. -/
def FailsWith (x : Except ε α) (errors : List ε) : Prop :=
  ∀ e, x = .error e ↔ errors.head? = some e

namespace FailsWith

variable {x : Except ε α} {f : α → Except ε β} {errors rest : List ε}

theorem ok (a : α) : FailsWith (.ok a : Except ε α) [] :=
  fun _ => ⟨fun h => (nomatch h), fun h => (nomatch h)⟩

theorem error (e : ε) : FailsWith (.error e : Except ε α) [e] :=
  fun _ => ⟨fun h => congrArg some (Except.error.inj h), fun h => congrArg _ (Option.some.inj h)⟩

theorem bind (hx : FailsWith x errors) (hf : ∀ a, x = .ok a → FailsWith (f a) rest) :
    FailsWith (x >>= f) (errors ++ rest) := by
  intro e
  rw [List.head?_append, Option.or_eq_some_iff]
  cases hresult : x with
  | error first =>
    have hfirst := (hx first).mp hresult
    rw [hfirst]
    show Except.error first = Except.error e ↔ _
    simp
  | ok a =>
    have hnone : errors.head? = none := by
      rw [Option.eq_none_iff_forall_ne_some]
      intro e he
      rw [← hx, hresult] at he
      cases he
    rw [hnone, ← hf a hresult e]
    show f a = .error e ↔ _
    simp

theorem bind_pure (hx : FailsWith x errors) {g : α → β} :
    FailsWith (x >>= fun a => pure (g a)) errors := by
  rw [← List.append_nil errors]
  exact hx.bind fun a _ => ok (g a)

theorem map (hx : FailsWith x errors) (g : α → β) : FailsWith (x.map g) errors := by
  intro e
  rw [← hx e]
  cases x with
  | error first => rw [Except.map, Except.error.injEq, Except.error.injEq]
  | ok a => exact ⟨fun h => (nomatch h), fun h => (nomatch h)⟩

theorem exists_error_iff (hx : FailsWith x errors) :
    (∃ e, x = .error e) ↔ ∃ e, e ∈ errors := by
  simp only [hx _]
  cases errors with
  | nil => simp
  | cons e rest => exact ⟨fun _ => ⟨e, List.mem_cons_self⟩, fun _ => ⟨e, rfl⟩⟩

end FailsWith

end TileWalk.Outcome
