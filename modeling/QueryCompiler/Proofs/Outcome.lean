import Mathlib.Data.List.Forall2

/-! # What a successful computation ensures

`Ensures x P` says that the value of `x`, if there is one, satisfies `P`. Its rules follow the way in
which computations are put together, so that a fact about a function is proved along its text.
`Succeeds x` says that there is a value, and
`Yields x P` that there is one with `P`; a conjunction in `P` splits along the steps of `x`.
-/

namespace QueryCompiler
set_option autoImplicit false

/-- The value of a computation, if it has one, satisfies `P`. -/
def Ensures {ε α : Type} (x : Except ε α) (P : α → Prop) : Prop := ∀ a, x = .ok a → P a

/-- What a relation between lists says of the second one alone. -/
theorem forall₂_right {α β : Type} {R : α → β → Prop} {P : β → Prop} {as : List α} {bs : List β}
    (h : List.Forall₂ R as bs) (hP : ∀ a b, R a b → P b) : ∀ b ∈ bs, P b := by
  induction h with
  | nil => exact fun b hb => (List.not_mem_nil hb).elim
  | cons hhead _ ih => exact List.forall_mem_cons.2 ⟨hP _ _ hhead, ih⟩

namespace Ensures

variable {ε α β : Type} {P P' : α → Prop} {Q : β → Prop}

theorem ok {a : α} (h : P a) : Ensures (.ok a : Except ε α) P := by
  intro b hb
  cases hb
  exact h

theorem error {e : ε} : Ensures (.error e) P := by
  intro a ha
  cases ha

theorem mono {x : Except ε α} (hx : Ensures x P) (h : ∀ a, P a → P' a) : Ensures x P' :=
  fun a ha => h a (hx a ha)

theorem bind {x : Except ε α} {f : α → Except ε β} (hx : Ensures x P)
    (hf : ∀ a, P a → Ensures (f a) Q) : Ensures (x >>= f) Q := by
  cases x with
  | error e => exact error
  | ok a => exact hf a (hx a rfl)

/-- A value that nothing needs to be known of. -/
theorem bind_any {x : Except ε α} {f : α → Except ε β}
    (hf : ∀ a, x = .ok a → Ensures (f a) Q) : Ensures (x >>= f) Q := by
  cases x with
  | error e => exact error
  | ok a => exact hf a rfl

theorem map {x : Except ε α} {f : α → β} (hx : Ensures x P) (hf : ∀ a, P a → Q (f a)) :
    Ensures (x.map f) Q := by
  cases x with
  | error e => exact error
  | ok a => exact ok (hf a (hx a rfl))

theorem ite {c : Prop} [Decidable c] {x y : Except ε α} (hx : c → Ensures x P)
    (hy : ¬c → Ensures y P) : Ensures (if c then x else y) P := by
  by_cases h : c
  · rw [if_pos h]; exact hx h
  · rw [if_neg h]; exact hy h

/-- What holds of each step over a list holds of the results side by side. -/
theorem mapM {f : α → Except ε β} {R : α → β → Prop} :
    ∀ {as : List α}, (∀ a ∈ as, Ensures (f a) (R a)) → Ensures (as.mapM f) (List.Forall₂ R as)
  | [], _ => by
    rw [List.mapM_nil]
    exact ok .nil
  | a :: as, h => by
    rw [List.mapM_cons]
    have hhead := h a List.mem_cons_self
    have htail : Ensures (as.mapM f) (List.Forall₂ R as) :=
      mapM fun b hb => h b (List.mem_cons_of_mem a hb)
    exact hhead.bind fun b hb => htail.bind fun bs hbs => ok (.cons hb hbs)

/-- What holds of each result holds of all of them. -/
theorem mapM_all {f : α → Except ε β} {as : List α} (h : ∀ a ∈ as, Ensures (f a) Q) :
    Ensures (as.mapM f) fun bs => ∀ b ∈ bs, Q b := by
  exact (mapM (R := fun _ b => Q b) h).mono fun bs hbs => forall₂_right hbs fun _ _ hb => hb

/-- Steps with known results have these results. -/
theorem mapM_eq {f : α → Except ε β} {g : α → β} {as : List α}
    (h : ∀ a ∈ as, Ensures (f a) (g a = ·)) : Ensures (as.mapM f) (as.map g = ·) := by
  refine (mapM (R := fun a b => g a = b) h).mono fun bs hbs => ?_
  rwa [← List.forall₂_eq_eq_eq, List.forall₂_map_left_iff]

end Ensures

theorem ok_bind {ε α β : Type} (a : α) (f : α → Except ε β) : (Except.ok a >>= f) = f a := rfl

/-- Computations that go on alike from every value of the first step are alike. -/
theorem bind_congr_ok {ε α β : Type} {x : Except ε α} {f g : α → Except ε β}
    (h : ∀ a, x = .ok a → f a = g a) : x >>= f = x >>= g := by
  cases x with
  | error e => rfl
  | ok a => exact h a rfl

theorem bind_eq_ok_iff {ε α β : Type} {x : Except ε α} {f : α → Except ε β} {b : β} :
    x >>= f = .ok b ↔ ∃ a, x = .ok a ∧ f a = .ok b := by
  cases x with
  | error e => exact ⟨nofun, nofun⟩
  | ok a => simp [ok_bind]

theorem bind_pure_eq_ok_iff {ε α β : Type} {x : Except ε α} {f : α → β} {b : β} :
    (do let a ← x; return f a) = .ok b ↔ ∃ a, x = .ok a ∧ f a = b := by
  cases x with
  | error e => exact ⟨nofun, nofun⟩
  | ok a =>
    refine ⟨fun h => ⟨a, rfl, Except.ok.inj h⟩, ?_⟩
    rintro ⟨a', ha, rfl⟩
    cases ha
    rfl

/-- A last step that only returns cannot fail. -/
theorem bind_pure_eq_error_iff {ε α β : Type} {x : Except ε α} {f : α → β} {e : ε} :
    (do let a ← x; return f a) = .error e ↔ x = .error e := by
  cases x with
  | error e' => simp [bind, Except.bind]
  | ok a => exact iff_of_false (by rintro ⟨⟩) (by rintro ⟨⟩)

/-- The results of the steps over a list, side by side with the list. -/
theorem mapM_eq_ok_iff {ε α β : Type} {f : α → Except ε β} : ∀ {as : List α} {bs : List β},
    as.mapM f = .ok bs ↔ List.Forall₂ (fun a b => f a = .ok b) as bs
  | [], bs => by
    rw [List.mapM_nil, List.forall₂_nil_left_iff]
    exact ⟨fun h => (Except.ok.inj h).symm, fun h => h ▸ rfl⟩
  | a :: as, bs => by
    rw [List.mapM_cons, List.forall₂_cons_left_iff]
    cases f a with
    | error e => exact ⟨nofun, nofun⟩
    | ok b =>
      rw [ok_bind, bind_pure_eq_ok_iff]
      simp only [mapM_eq_ok_iff, Except.ok.injEq]
      constructor
      · rintro ⟨bs, hbs, rfl⟩
        exact ⟨b, bs, rfl, hbs, rfl⟩
      · rintro ⟨_, bs, rfl, hbs, rfl⟩
        exact ⟨bs, hbs, rfl⟩

/-- A computation that ends in a pure step has a value exactly if what comes before has one. -/
theorem exists_bind_pure_iff {ε α β : Type} {x : Except ε α} {f : α → β} :
    (∃ b, (do let a ← x; return f a) = .ok b) ↔ ∃ a, x = .ok a := by
  simp only [bind_pure_eq_ok_iff]
  exact ⟨fun ⟨_, a, h, _⟩ => ⟨a, h⟩, fun ⟨a, h⟩ => ⟨f a, a, h, rfl⟩⟩

/-! ## Lists side by side -/

theorem exists_forall₂_iff {α β : Type} {R : α → β → Prop} : ∀ {as : List α},
    (∃ bs, List.Forall₂ R as bs) ↔ ∀ a ∈ as, ∃ b, R a b
  | [] => by simp
  | a :: as => by
    rw [List.forall_mem_cons, ← exists_forall₂_iff]
    constructor
    · rintro ⟨bs, hbs⟩
      obtain ⟨b, bs, hhead, htail, -⟩ := List.forall₂_cons_left_iff.1 hbs
      exact ⟨⟨b, hhead⟩, bs, htail⟩
    · rintro ⟨⟨b, hhead⟩, bs, htail⟩
      exact ⟨b :: bs, .cons hhead htail⟩

/-- Two steps over a list, one after the other, are one step for each member. -/
theorem exists_forall₂_and_iff {α β γ : Type} {R : α → β → Prop} {S : β → γ → Prop} :
    ∀ {as : List α} {cs : List γ}, (∃ bs, List.Forall₂ R as bs ∧ List.Forall₂ S bs cs) ↔
      List.Forall₂ (fun a c => ∃ b, R a b ∧ S b c) as cs
  | [], cs => by simp
  | a :: as, cs => by
    rw [List.forall₂_cons_left_iff]
    constructor
    · rintro ⟨bs, hbs, hcs⟩
      obtain ⟨b, bs, hR, htailR, rfl⟩ := List.forall₂_cons_left_iff.1 hbs
      obtain ⟨c, cs, hS, htailS, rfl⟩ := List.forall₂_cons_left_iff.1 hcs
      exact ⟨c, cs, ⟨b, hR, hS⟩, exists_forall₂_and_iff.1 ⟨bs, htailR, htailS⟩, rfl⟩
    · rintro ⟨c, cs, ⟨b, hR, hS⟩, htail, rfl⟩
      obtain ⟨bs, htailR, htailS⟩ := exists_forall₂_and_iff.2 htail
      exact ⟨b :: bs, .cons hR htailR, .cons hS htailS⟩

theorem forall₂_zipIdx {α β : Type} {R : α → β → Prop} {as : List α} {bs : List β}
    (h : List.Forall₂ R as bs) (n : Nat) :
    List.Forall₂ (fun a b => R a.1 b.1 ∧ a.2 = b.2) (as.zipIdx n) (bs.zipIdx n) := by
  induction h generalizing n with
  | nil => exact .nil
  | cons hhead _ ih => exact .cons ⟨hhead, rfl⟩ (ih (n + 1))

theorem forall₂_getElem? {α β : Type} {R : α → β → Prop} {as : List α} {bs : List β}
    (h : List.Forall₂ R as bs) {i : Nat} {a : α} (ha : as[i]? = some a) :
    ∃ b, bs[i]? = some b ∧ R a b := by
  induction h generalizing i with
  | nil => simp at ha
  | cons hhead _ ih =>
    cases i with
    | zero =>
      rw [List.getElem?_cons_zero, Option.some.injEq] at ha
      subst ha
      exact ⟨_, rfl, hhead⟩
    | succ i => exact ih ha

/-- Steps that agree side by side have one result. -/
theorem mapM_congr_forall₂ {ε α β γ : Type} {f : α → Except ε γ} {g : β → Except ε γ} {as : List α}
    {bs : List β} (h : List.Forall₂ (fun a b => f a = g b) as bs) : as.mapM f = bs.mapM g := by
  induction h with
  | nil => rfl
  | cons hhead _ ih => rw [List.mapM_cons, List.mapM_cons, hhead, ih]

/-! ## Success -/

/-- The computation has a value. -/
def Succeeds {ε α : Type} (x : Except ε α) : Prop := ∃ a, x = .ok a

/-- The computation has a value, and that satisfies `P`. -/
def Yields {ε α : Type} (x : Except ε α) (P : α → Prop) : Prop := ∃ a, x = .ok a ∧ P a

section Success

variable {ε α β : Type} {x : Except ε α} {f : α → Except ε β} {P P' : α → Prop} {Q : β → Prop}
  {R : Prop}

@[simp] theorem succeeds_ok (a : α) : Succeeds (.ok a : Except ε α) := ⟨a, rfl⟩

@[simp] theorem succeeds_pure (a : α) : Succeeds (pure a : Except ε α) := ⟨a, rfl⟩

@[simp] theorem not_succeeds_error (e : ε) : ¬Succeeds (.error e : Except ε α) := by
  rintro ⟨a, h⟩
  cases h

@[simp] theorem yields_ok {a : α} : Yields (.ok a : Except ε α) P ↔ P a := by
  refine ⟨?_, fun h => ⟨a, rfl, h⟩⟩
  rintro ⟨a', ha, h⟩
  cases ha
  exact h

@[simp] theorem yields_pure {a : α} : Yields (pure a : Except ε α) P ↔ P a := yields_ok

@[simp] theorem not_yields_error (e : ε) : ¬Yields (.error e) P := by
  rintro ⟨a, h, -⟩
  cases h

@[simp] theorem succeeds_bind : Succeeds (x >>= f) ↔ Yields x fun a => Succeeds (f a) := by
  cases x with
  | error e => exact iff_of_false (not_succeeds_error e) (not_yields_error e)
  | ok a => rw [yields_ok, ok_bind]

@[simp] theorem yields_bind : Yields (x >>= f) Q ↔ Yields x fun a => Yields (f a) Q := by
  cases x with
  | error e => exact iff_of_false (not_yields_error e) (not_yields_error e)
  | ok a => rw [yields_ok, ok_bind]

@[simp] theorem succeeds_map {g : α → β} : Succeeds (g <$> x) ↔ Succeeds x := by
  cases x with
  | error e => exact iff_of_false (not_succeeds_error e) (not_succeeds_error e)
  | ok a => exact iff_of_true (succeeds_ok (g a)) (succeeds_ok a)

@[simp] theorem yields_map {g : α → β} : Yields (g <$> x) Q ↔ Yields x fun a => Q (g a) := by
  cases x with
  | error e => exact iff_of_false (not_yields_error e) (not_yields_error e)
  | ok a => rw [yields_ok]; exact yields_ok

/-! What does not depend on the value can be told apart from what does. -/

@[simp] theorem yields_const : (Yields x fun _ => R) ↔ Succeeds x ∧ R :=
  ⟨fun ⟨a, ha, h⟩ => ⟨⟨a, ha⟩, h⟩, fun ⟨⟨a, ha⟩, h⟩ => ⟨a, ha, h⟩⟩

@[simp] theorem yields_and_left : (Yields x fun a => R ∧ P a) ↔ R ∧ Yields x P :=
  ⟨fun ⟨a, ha, hR, h⟩ => ⟨hR, a, ha, h⟩, fun ⟨hR, a, ha, h⟩ => ⟨a, ha, hR, h⟩⟩

@[simp] theorem yields_and_right : (Yields x fun a => P a ∧ R) ↔ Yields x P ∧ R :=
  ⟨fun ⟨a, ha, h, hR⟩ => ⟨⟨a, ha, h⟩, hR⟩, fun ⟨⟨a, ha, h⟩, hR⟩ => ⟨a, ha, h, hR⟩⟩

theorem yields_congr (h : ∀ a, x = .ok a → (P a ↔ P' a)) : Yields x P ↔ Yields x P' := by
  refine exists_congr fun a => and_congr_right fun ha => h a ha

theorem Ensures.yields_iff (h : Ensures x P) : Yields x P ↔ Succeeds x :=
  ⟨fun ⟨a, ha, _⟩ => ⟨a, ha⟩, fun ⟨a, ha⟩ => ⟨a, ha, h a ha⟩⟩

/-- Steps that do not need each other can change places. -/
theorem yields_comm {y : Except ε β} {S : α → β → Prop} :
    (Yields x fun a => Yields y fun b => S a b) ↔ Yields y fun b => Yields x fun a => S a b :=
  ⟨fun ⟨a, ha, b, hb, h⟩ => ⟨b, hb, a, ha, h⟩, fun ⟨b, hb, a, ha, h⟩ => ⟨a, ha, b, hb, h⟩⟩

@[simp] theorem succeeds_mapM_iff :
    ∀ {as : List α}, Succeeds (as.mapM f) ↔ ∀ a ∈ as, Succeeds (f a)
  | [] => by simp
  | a :: as => by simp [List.mapM_cons, succeeds_mapM_iff]

@[simp] theorem yields_mapM_all :
    ∀ {as : List α}, (Yields (as.mapM f) fun bs => ∀ b ∈ bs, Q b) ↔ ∀ a ∈ as, Yields (f a) Q
  | [] => by simp
  | a :: as => by simp [List.mapM_cons, yields_mapM_all]

end Success

end QueryCompiler
