import Mathlib.Data.List.Basic
import Mathlib.Data.List.Perm.Subperm

/-!
# The first match of a list

A search that stops at the first match and then asks whether the match is good. It finds a good match in every order of the
list exactly if it has one, provided that the matches agree; and only then.
-/

namespace FirstMatch

variable {α β : Type*} (f : α → Option β) (p : β → Prop)

def Accepted (l : List α) : Prop := ∃ b, l.findSome? f = some b ∧ p b

def Matched (l : List α) : Prop := ∃ a ∈ l, ∃ b, f a = some b ∧ p b

/-- The matches are all good, or none is. -/
def Agree (l : List α) : Prop := ∀ a ∈ l, ∀ b ∈ l, ∀ x y, f a = some x → f b = some y → (p x ↔ p y)

variable {f p} {l l' : List α}

theorem Accepted.matched (h : Accepted f p l) : Matched f p l := by
  obtain ⟨b, hfirst, hb⟩ := h
  obtain ⟨a, ha, hab⟩ := List.exists_of_findSome?_eq_some hfirst
  exact ⟨a, ha, b, hab, hb⟩

theorem Matched.mono (h : Matched f p l) (hsub : l ⊆ l') : Matched f p l' := by
  obtain ⟨a, ha, hb⟩ := h
  exact ⟨a, hsub ha, hb⟩

theorem Agree.mono (h : Agree f p l') (hsub : l ⊆ l') : Agree f p l :=
  fun a ha b hb => h a (hsub ha) b (hsub hb)

theorem Agree.accepted (h : Agree f p l) (hmatched : Matched f p l) : Accepted f p l := by
  obtain ⟨a, ha, b, hab, hb⟩ := hmatched
  cases hfirst : l.findSome? f with
  | none =>
    rw [List.findSome?_eq_none_iff.mp hfirst a ha] at hab
    cases hab
  | some x =>
    obtain ⟨a', ha', hax⟩ := List.exists_of_findSome?_eq_some hfirst
    exact ⟨x, hfirst, (h a' ha' a ha x b hax hab).mpr hb⟩

theorem Agree.accepted_iff (h : Agree f p l) : Accepted f p l ↔ Matched f p l :=
  ⟨Accepted.matched, h.accepted⟩

theorem exists_perm_not_accepted {a b : α} {x y : β} (ha : a ∈ l) (hax : f a = some x) (hbad : ¬ p x) (hb : b ∈ l)
    (hby : f b = some y) (hgood : p y) : ∃ order, order.Perm l ∧ Matched f p l ∧ ¬ Accepted f p order := by
  obtain ⟨s, t, rfl⟩ := List.mem_iff_append.mp ha
  refine ⟨a :: (s ++ t), List.perm_middle.symm, ⟨b, hb, y, hby, hgood⟩, ?_⟩
  rintro ⟨x', hfirst, hx'⟩
  rw [List.findSome?_cons, hax] at hfirst
  obtain rfl := Option.some.inj hfirst
  exact hbad hx'

/-- **The order does not matter** exactly if the matches agree. -/
theorem forall_perm_accepted_iff :
    (∀ order : List α, order.Perm l → (Accepted f p order ↔ Matched f p l)) ↔ Agree f p l := by
  constructor
  · intro h a ha b hb x y hax hby
    by_contra hne
    -- one of the two is good and the other is not
    obtain ⟨hx, hy⟩ | ⟨hx, hy⟩ : (p x ∧ ¬ p y) ∨ (¬ p x ∧ p y) := by tauto
    · obtain ⟨order, hperm, hmatched, hnot⟩ := exists_perm_not_accepted hb hby hy ha hax hx
      exact hnot ((h order hperm).mpr hmatched)
    · obtain ⟨order, hperm, hmatched, hnot⟩ := exists_perm_not_accepted ha hax hx hb hby hy
      exact hnot ((h order hperm).mpr hmatched)
  · intro h order hperm
    rw [(h.mono hperm.subset).accepted_iff]
    exact ⟨fun hm => hm.mono hperm.subset, fun hm => hm.mono hperm.symm.subset⟩

end FirstMatch
