import Mathlib.Data.List.Forall2
/-!
# Computations that may fail

What it says that a computation in `Except` has a result: a sequence has one if every step
has one (`Except.bind_eq_ok`), and a step for each item of a list if every item has one
(`List.mapM_eq_ok`). What fails first fails the whole (`Except.bind_eq_error`,
`List.mapM_eq_error`).
-/

namespace Except

variable {ε δ α β : Type}

theorem bind_eq_ok {x : Except ε α} {f : α → Except ε β} {b : β} :
    (x >>= f) = .ok b ↔ ∃ a, x = .ok a ∧ f a = .ok b := by
  cases x <;> simp [bind, Except.bind]

theorem bind_eq_error {x : Except ε α} {f : α → Except ε β} {e : ε} :
    (x >>= f) = .error e ↔ x = .error e ∨ ∃ a, x = .ok a ∧ f a = .error e := by
  cases x <;> simp [bind, Except.bind]

theorem map_eq_ok {x : Except ε α} {f : α → β} {b : β} :
    x.map f = .ok b ↔ ∃ a, x = .ok a ∧ f a = b := by
  cases x <;> simp [Except.map]

theorem fmap_eq_ok {x : Except ε α} {f : α → β} {b : β} :
    (f <$> x) = .ok b ↔ ∃ a, x = .ok a ∧ f a = b := map_eq_ok

theorem pure_eq_ok {a b : α} : (pure a : Except ε α) = .ok b ↔ a = b := by
  simp [pure, Except.pure]

theorem mapError_eq_ok {x : Except ε α} {f : ε → δ} {a : α} :
    Except.mapError f x = .ok a ↔ x = .ok a := by
  cases x <;> simp [Except.mapError]

theorem toOption_eq_some {x : Except ε α} {a : α} : x.toOption = some a ↔ x = .ok a := by
  cases x <;> simp [Except.toOption]

theorem exists_of_isOk {x : Except ε α} (h : x.isOk = true) : ∃ a, x = .ok a := by
  cases x with
  | ok a => exact ⟨a, rfl⟩
  | error e => cases h

end Except

namespace List

variable {ε α β : Type}

/-- What stands in the second of two lists that correspond has a partner in the first. -/
theorem Forall₂.exists_left {R : α → β → Prop} {xs : List α} {ys : List β} (h : Forall₂ R xs ys)
    {y : β} (hy : y ∈ ys) : ∃ x ∈ xs, R x y := by
  induction h with
  | nil => cases hy
  | @cons x z xs ys hxz _ ih =>
    obtain rfl | hy := mem_cons.1 hy
    · exact ⟨x, mem_cons_self, hxz⟩
    · obtain ⟨w, hw, hR⟩ := ih hy
      exact ⟨w, mem_cons_of_mem x hw, hR⟩

theorem Forall₂.exists_right {R : α → β → Prop} {xs : List α} {ys : List β} (h : Forall₂ R xs ys)
    {x : α} (hx : x ∈ xs) : ∃ y ∈ ys, R x y :=
  h.flip.exists_left hx

/-- What is found in the second of two lists is made of what is found in the first. -/
theorem Forall₂.find?_eq {p : α → Bool} {q : β → Bool} {g : α → Option β} {xs : List α}
    {ys : List β} (h : Forall₂ (fun x y => g x = some y ∧ p x = q y) xs ys) :
    ys.find? q = (xs.find? p).bind g := by
  induction h with
  | nil => rfl
  | @cons x y xs ys hxy _ ih =>
    obtain ⟨hg, hp⟩ := hxy
    rw [find?_cons, find?_cons, hp, ih]
    cases q y with
    | true => exact hg.symm
    | false => rfl

theorem mapM_eq_ok {f : α → Except ε β} {xs : List α} {ys : List β} :
    xs.mapM f = .ok ys ↔ Forall₂ (fun x y => f x = .ok y) xs ys := by
  induction xs generalizing ys with
  | nil => rw [mapM_nil, Except.pure_eq_ok, forall₂_nil_left_iff, eq_comm]
  | cons x xs ih =>
    rw [mapM_cons, Except.bind_eq_ok]
    simp only [Except.bind_eq_ok, Except.pure_eq_ok, ih]
    constructor
    · rintro ⟨y, hy, ys', hys, rfl⟩
      exact .cons hy hys
    · rintro (_ | ⟨hy, hys⟩)
      exact ⟨_, hy, _, hys, rfl⟩

/-- A step for each item has results exactly if every item has one. -/
theorem exists_mapM_eq_ok {f : α → Except ε β} {xs : List α} :
    (∃ ys, xs.mapM f = .ok ys) ↔ ∀ x ∈ xs, ∃ y, f x = .ok y := by
  constructor
  · rintro ⟨ys, hys⟩ x hx
    obtain ⟨y, -, hy⟩ := (mapM_eq_ok.1 hys).exists_right hx
    exact ⟨y, hy⟩
  · intro h
    induction xs with
    | nil => exact ⟨[], mapM_eq_ok.2 .nil⟩
    | cons x xs ih =>
      obtain ⟨⟨y, hy⟩, hxs⟩ := forall_mem_cons.1 h
      obtain ⟨ys, hys⟩ := ih hxs
      exact ⟨y :: ys, mapM_eq_ok.2 (.cons hy (mapM_eq_ok.1 hys))⟩

/-- A step for each item fails with the error of the first item that has one. -/
theorem mapM_eq_error {f : α → Except ε β} {xs : List α} {e : ε} :
    xs.mapM f = .error e ↔ ∃ before x after, xs = before ++ x :: after ∧
      (∀ y ∈ before, ∃ b, f y = .ok b) ∧ f x = .error e := by
  induction xs with
  | nil => simp [pure, Except.pure]
  | cons x xs ih =>
    rw [mapM_cons, Except.bind_eq_error]
    constructor
    · rintro (hx | ⟨b, hb, hrest⟩)
      · exact ⟨[], x, xs, rfl, fun y hy => absurd hy not_mem_nil, hx⟩
      · obtain hxs | ⟨bs, -, hbs⟩ := Except.bind_eq_error.1 hrest
        · obtain ⟨before, y, after, rfl, hbefore, hy⟩ := ih.1 hxs
          exact ⟨x :: before, y, after, rfl, forall_mem_cons.2 ⟨⟨b, hb⟩, hbefore⟩, hy⟩
        · cases hbs
    · rintro ⟨before, y, after, hsplit, hbefore, hy⟩
      cases before with
      | nil =>
        obtain ⟨rfl, rfl⟩ := cons.inj hsplit
        exact .inl hy
      | cons z before =>
        obtain ⟨rfl, rfl⟩ := cons.inj hsplit
        obtain ⟨⟨b, hb⟩, hbefore⟩ := forall_mem_cons.1 hbefore
        have hxs := ih.2 ⟨before, y, after, rfl, hbefore, hy⟩
        exact .inr ⟨b, hb, Except.bind_eq_error.2 (.inl hxs)⟩

end List
