import Mathlib.Tactic

/-!
# Computations that may fail

Rules for reading an `Except` computation backwards: a chain of binds that ends well went well at every step, a check that
passed holds, an option that was required was there.
-/

namespace Outcome

variable {ε ε' α β : Type*}

/-- An early return with an error unless the condition holds. -/
def require (condition : Bool) (error : ε) : Except ε Unit := if condition then .ok () else .error error

/-- Rust's `Option::ok_or`. -/
def okOr (error : ε) : Option α → Except ε α
  | none => .error error
  | some a => .ok a

variable {error : ε} {a : α} {x : Except ε α} {b : β} {l : List α} {l' : List β}

@[simp] theorem require_eq_ok {condition : Bool} {u : Unit} :
    require condition error = .ok u ↔ condition = true := by
  cases condition <;> simp [require]

@[simp] theorem okOr_eq_ok {o : Option α} : okOr error o = .ok a ↔ o = some a := by
  cases o <;> simp [okOr]

theorem bind_eq_ok {f : α → Except ε β} :
    x.bind f = .ok b ↔ ∃ a, x = .ok a ∧ f a = .ok b := by
  cases x <;> simp [Except.bind]

theorem mapError_eq_ok {f : ε → ε'} : x.mapError f = .ok a ↔ x = .ok a := by
  cases x <;> simp [Except.mapError]

theorem map_eq_ok {f : α → β} : x.map f = .ok b ↔ ∃ a, x = .ok a ∧ f a = b := by
  cases x <;> simp [Except.map]

theorem mapM_eq_some_iff {f : α → Option β} : l.mapM f = some l' ↔ l.map f = l'.map some := by
  induction l generalizing l' with
  | nil => cases l' <;> simp [pure]
  | cons a rest ih =>
    rw [List.mapM_cons, List.map_cons]
    cases hfa : f a with
    | none => cases l' <;> simp [bind]
    | some b =>
      cases l' with
      | nil => cases hrest : rest.mapM f <;> simp [bind, pure]
      | cons b' rest' =>
        rw [List.map_cons, List.cons_eq_cons, ← ih]
        cases hrest : rest.mapM f <;> simp [bind, pure]

theorem exists_of_mapM_eq_ok {f : α → Except ε β} (h : l.mapM f = .ok l') (hb : b ∈ l') :
    ∃ a ∈ l, f a = .ok b := by
  induction l generalizing l' with
  | nil =>
    obtain rfl := Except.ok.inj h
    cases hb
  | cons a rest ih =>
    rw [List.mapM_cons] at h
    obtain ⟨b₁, hfa, hrest⟩ := bind_eq_ok.mp h
    obtain ⟨l₁, hl₁, hl'⟩ := bind_eq_ok.mp hrest
    obtain rfl := Except.ok.inj hl'
    rcases List.mem_cons.mp hb with rfl | hb
    · exact ⟨a, List.mem_cons_self, hfa⟩
    · obtain ⟨a', ha', hfa'⟩ := ih hl₁ hb
      exact ⟨a', List.mem_cons_of_mem _ ha', hfa'⟩

theorem mapM_eq_ok {f : α → Except ε β} {g : α → β} (h : ∀ a ∈ l, f a = .ok (g a)) :
    l.mapM f = .ok (l.map g) := by
  induction l with
  | nil => rfl
  | cons a rest ih =>
    obtain ⟨ha, hrest⟩ := List.forall_mem_cons.mp h
    rw [List.mapM_cons, ha, ih hrest]
    rfl

/-! ### Panics -/

/-- A computation that may panic instead of having an outcome. -/
abbrev Panicking (ε α : Type) := ExceptT ε Option α

section Panicking

variable {ε α β : Type}

def settled (x : Except ε α) : Panicking ε α := ExceptT.mk (some x)

def Panics (x : Panicking ε α) : Prop := x.run = none

/-- The computation panics or has this outcome, and it does not panic on the way to a success. -/
structure Follows (x : Panicking ε α) (y : Except ε α) : Prop where
  outcome : Panics x ∨ x.run = some y
  ok : ∀ a, y = .ok a → x.run = some (.ok a)

theorem follows_settled (y : Except ε α) : Follows (settled y) y := ⟨.inr rfl, fun _ h => congrArg some h⟩

theorem not_panics_settled (y : Except ε α) : ¬ Panics (settled y) := fun h => nomatch h

variable {x : Panicking ε α} {y : Except ε α} {f : α → Panicking ε β}

theorem Follows.bind {g : α → Except ε β} (hx : Follows x y) (hf : ∀ a, Follows (f a) (g a)) : Follows (x >>= f) (y >>= g) := by
  constructor
  · obtain hpanic | hsome := hx.outcome
    · exact .inl (show (x.run >>= ExceptT.bindCont f) = none by rw [hpanic]; rfl)
    · have hrun : (x >>= f).run = ExceptT.bindCont f y := show (x.run >>= ExceptT.bindCont f) = _ by rw [hsome]; rfl
      cases y with
      | error e => exact .inr hrun
      | ok a =>
        rw [Panics, hrun]
        exact (hf a).outcome
  · intro b hb
    obtain ⟨a, rfl, hga⟩ := bind_eq_ok.mp hb
    have hrun : (x >>= f).run = ExceptT.bindCont f (.ok a) :=
      show (x.run >>= ExceptT.bindCont f) = _ by rw [hx.ok a rfl]; rfl
    rw [hrun]
    exact (hf a).ok b hga

theorem not_panics_bind (hx : ¬ Panics x) (hf : ∀ a, x.run = some (.ok a) → ¬ Panics (f a)) : ¬ Panics (x >>= f) := by
  intro hbind
  obtain ⟨y, hy⟩ := Option.ne_none_iff_exists'.mp hx
  have hrun : (x >>= f).run = ExceptT.bindCont f y := show (x.run >>= ExceptT.bindCont f) = _ by rw [hy]; rfl
  rw [Panics, hrun] at hbind
  cases y with
  | error e => cases hbind
  | ok a => exact hf a hy hbind

theorem Follows.ok_iff (h : Follows x y) {a : α} : x.run = some (.ok a) ↔ y = .ok a := by
  refine ⟨fun hx => ?_, h.ok a⟩
  obtain hpanic | hsome := h.outcome
  · rw [hpanic] at hx
    cases hx
  · exact Option.some.inj (hsome.symm.trans hx)

end Panicking

end Outcome
