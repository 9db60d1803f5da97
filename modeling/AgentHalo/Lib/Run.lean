import Mathlib.Tactic

/-!
# Runs of a transition function

A machine is a function `step : S → A → S`; a run is a fold of it over a list of actions. What every step preserves, a
run preserves (`exec_invariant`), and a preorder that every step stays inside relates its ends (`exec_related`). `Along`
says that a run meets a side condition at every step, with `exec_invariant_along` as the rule. `loop`, `LoopAlong` and
`loop_invariant_along` play the same parts for loops that may stop early.
-/

namespace Run

variable {S A : Type*} (step : S → A → S)

def exec (s : S) (actions : List A) : S := actions.foldl step s

/-- Every action of the run meets the guard `G` at the state it is taken in. -/
def Along (G : S → A → Prop) : S → List A → Prop
  | _, [] => True
  | s, a :: rest => G s a ∧ Along G (step s a) rest

variable {step}

@[simp] theorem exec_nil (s : S) : exec step s [] = s := rfl

@[simp] theorem exec_cons (s : S) (a : A) (rest : List A) : exec step s (a :: rest) = exec step (step s a) rest := rfl

variable {G : S → A → Prop} {actions : List A}

variable {I : S → Prop} {s : S}

theorem exec_invariant_along (hstep : ∀ s a, I s → G s a → I (step s a)) (hs : I s) (hrun : Along step G s actions) :
    I (exec step s actions) := by
  induction actions generalizing s with
  | nil => exact hs
  | cons a rest ih => exact ih (hstep s a hs hrun.1) hrun.2

theorem exec_invariant_noting {T : Type*} (note : T → A → T) {I : T → S → Prop}
    (hstep : ∀ t s a, I t s → G s a → I (note t a) (step s a)) {t : T} (hs : I t s)
    (hrun : Along step G s actions) : I (actions.foldl note t) (exec step s actions) := by
  induction actions generalizing t s with
  | nil => exact hs
  | cons a rest ih => exact ih (hstep t s a hs hrun.1) hrun.2

theorem exec_invariant (hstep : ∀ s a, I s → I (step s a)) (hs : I s) (actions : List A) : I (exec step s actions) := by
  induction actions generalizing s with
  | nil => exact hs
  | cons a rest ih => exact ih (hstep s a hs)

theorem exec_related {R : S → S → Prop} (hrefl : ∀ s, R s s) (htrans : ∀ s t u, R s t → R t u → R s u)
    (hstep : ∀ s a, I s → I (step s a) ∧ R s (step s a)) (hs : I s) (actions : List A) :
    R s (exec step s actions) := by
  induction actions generalizing s with
  | nil => exact hrefl s
  | cons a rest ih =>
    obtain ⟨hinv, hrel⟩ := hstep s a hs
    exact htrans _ _ _ hrel (ih hinv)

@[simp] theorem exec_append (s : S) (front back : List A) :
    exec step s (front ++ back) = exec step (exec step s front) back := List.foldl_append

theorem along_append {front back : List A} :
    Along step G s (front ++ back) ↔ Along step G s front ∧ Along step G (exec step s front) back := by
  induction front generalizing s with
  | nil => exact (and_iff_right trivial).symm
  | cons a rest ih =>
    rw [List.cons_append, Along, Along, ih, and_assoc]
    rfl

theorem along_iff : Along step G s actions ↔ ∀ front a back, actions = front ++ a :: back → G (exec step s front) a := by
  constructor
  · rintro h front a back rfl
    exact (along_append.mp h).2.1
  · intro h
    induction actions generalizing s with
    | nil => trivial
    | cons a rest ih =>
      refine ⟨h [] a rest rfl, ih ?_⟩
      rintro front b back rfl
      exact h (a :: front) b back rfl

theorem Along.and_mem {P : A → Prop} (h : Along step G s actions)
    (hP : ∀ a ∈ actions, P a) : Along step (fun s a => G s a ∧ P a) s actions := by
  induction actions generalizing s with
  | nil => trivial
  | cons a rest ih => exact ⟨⟨h.1, hP a List.mem_cons_self⟩, ih h.2 fun b hb => hP b (List.mem_cons_of_mem a hb)⟩

theorem exists_first_of_not_along (h : ¬ Along step G s actions) :
    ∃ front a back, actions = front ++ a :: back ∧ Along step G s front ∧ ¬ G (exec step s front) a := by
  induction actions generalizing s with
  | nil => exact absurd trivial h
  | cons a rest ih =>
    by_cases hG : G s a
    · obtain ⟨front, b, back, rfl, hfront, hb⟩ := ih fun hrest => h ⟨hG, hrest⟩
      exact ⟨a :: front, b, back, rfl, ⟨hG, hfront⟩, hb⟩
    · exact ⟨[], a, rest, rfl, trivial, hG⟩

theorem along_of_not_exec {P : S → Prop} (hstep : ∀ s a, P s → P (step s a))
    (hend : ¬ P (exec step s actions)) : Along step (fun s a => ¬ P (step s a)) s actions := by
  rw [along_iff]
  rintro front a back rfl hP
  rw [exec_append, exec_cons] at hend
  exact hend (exec_invariant hstep hP back)

instance decidableAlong {G : S → A → Prop} [∀ s a, Decidable (G s a)] (s : S) :
    (actions : List A) → Decidable (Along step G s actions)
  | [] => .isTrue trivial
  | a :: rest =>
    have : Decidable (Along step G (step s a) rest) := decidableAlong (step s a) rest
    inferInstanceAs (Decidable (G s a ∧ Along step G (step s a) rest))

theorem along_and {H : S → A → Prop} (hG : Along step G s actions)
    (hH : Along step H s actions) : Along step (fun s a => G s a ∧ H s a) s actions := by
  induction actions generalizing s with
  | nil => trivial
  | cons a rest ih => exact ⟨⟨hG.1, hH.1⟩, ih hG.2 hH.2⟩

theorem exec_related_along {R : S → S → Prop} (hrefl : ∀ s, R s s)
    (htrans : ∀ s t u, R s t → R t u → R s u) (hstep : ∀ s a, G s a → R s (step s a))
    (hrun : Along step G s actions) : R s (exec step s actions) := by
  induction actions generalizing s with
  | nil => exact hrefl s
  | cons a rest ih => exact htrans _ _ _ (hstep s a hrun.1) (ih hrun.2)

theorem exists_turn {P : S → Prop} (hs : ¬ P s) (hend : P (exec step s actions)) :
    ∃ front a back, actions = front ++ a :: back ∧ ¬ P (exec step s front) ∧ P (step (exec step s front) a) := by
  induction actions generalizing s with
  | nil => exact absurd hend hs
  | cons a rest ih =>
    by_cases hnext : P (step s a)
    · exact ⟨[], a, rest, rfl, hs, hnext⟩
    · obtain ⟨front, b, back, rfl, hfront, hback⟩ := ih hnext hend
      exact ⟨a :: front, b, back, rfl, hfront, hback⟩

/-! ### Counting steps -/

section Tally

variable (step) (p : S → A → Bool)

/-- How many steps of the run satisfy `p`. -/
def tally : S → List A → Nat
  | _, [] => 0
  | s, a :: rest => (if p s a then 1 else 0) + tally (step s a) rest

variable {step p}

theorem tally_append (s : S) (front back : List A) :
    tally step p s (front ++ back) = tally step p s front + tally step p (exec step s front) back := by
  induction front generalizing s with
  | nil => exact (Nat.zero_add _).symm
  | cons a rest ih =>
    rw [List.cons_append, tally, tally, ih, exec_cons]
    omega

theorem eq_tally_add {I : S → Prop} {f : S → Nat}
    (hstep : ∀ s a, I s → G s a → I (step s a) ∧ f s = (if p s a then 1 else 0) + f (step s a)) {s : S} (hs : I s)
    (hrun : Along step G s actions) :
    f s = tally step p s actions + f (exec step s actions) := by
  induction actions generalizing s with
  | nil => exact (Nat.zero_add _).symm
  | cons a rest ih =>
    obtain ⟨hnext, hpaid⟩ := hstep s a hs hrun.1
    rw [hpaid, ih hnext hrun.2, tally, exec_cons]
    omega

theorem tally_le_one {Q : S → Prop} (hstep : ∀ s a, Q s → Q (step s a)) (hturn : ∀ s a, p s a = true → Q (step s a))
    (hnot : ∀ s a, Q s → p s a = false) (s : S) (actions : List A) : tally step p s actions ≤ 1 := by
  have hzero (s : S) (hs : Q s) (actions : List A) : tally step p s actions = 0 := by
    induction actions generalizing s with
    | nil => rfl
    | cons a rest ih => simp [tally, hnot s a hs, ih _ (hstep s a hs)]
  induction actions generalizing s with
  | nil => exact Nat.zero_le 1
  | cons a rest ih =>
    cases hp : p s a with
    | false => simpa [tally, hp] using ih (step s a)
    | true => simp [tally, hp, hzero _ (hturn s a hp)]

end Tally

/-! ### Loops that stop early -/

section Loop

variable {R : Type*} (act : A → S → R × S) (stop : R → Bool)

/-- Act on the elements in turn and return the last answer, or the first that stops the loop. -/
def loop : List A → R → S → R × S
  | [], last, s => (last, s)
  | a :: rest, _, s =>
    let (r, s') := act a s
    if stop r then (r, s') else loop rest r s'

/-- Every element the loop acts on meets the guard at the state it finds. -/
inductive LoopAlong (G : A → S → Prop) : List A → S → Prop where
  | nil (s : S) : LoopAlong G [] s
  | cons {a : A} {rest : List A} {s : S} (head : G a s)
      (tail : stop (act a s).1 = false → LoopAlong G rest (act a s).2) : LoopAlong G (a :: rest) s

variable {act stop}

theorem loop_singleton (a : A) (last : R) (s : S) : loop act stop [a] last s = act a s := by
  unfold loop
  dsimp only
  split
  · rfl
  · rfl

theorem loop_invariant_along {G : A → S → Prop} {I : S → Prop} {elements : List A}
    (hact : ∀ a ∈ elements, ∀ s, I s → G a s → I (act a s).2) {last : R} {s : S} (hs : I s)
    (hrun : LoopAlong act stop G elements s) : I (loop act stop elements last s).2 := by
  induction hrun generalizing last with
  | nil s => exact hs
  | @cons a rest s head tail ih =>
    have hstep : I (act a s).2 := hact a List.mem_cons_self s hs head
    unfold loop
    dsimp only
    split
    · exact hstep
    · rename_i hgo
      exact ih (by simpa using hgo) (fun b hb => hact b (List.mem_cons_of_mem a hb)) hstep

end Loop

end Run

/-!
## Loops with a condition

A `while` loop is given by its body, which answers `none` where the loop is over. `run` takes at most as many rounds as
it is told and answers `none` if the loop is not over by then. A loop that keeps an invariant and lowers a measure is
over after as many rounds as the measure says (`exists_run`).
-/

namespace While

variable {S : Type*} {body : S → Option S}

def run (body : S → Option S) : Nat → S → Option S
  | 0, _ => none
  | fuel + 1, s =>
    match body s with
    | none => some s
    | some s' => run body fuel s'

theorem run_succ (fuel : Nat) (s : S) : run body (fuel + 1) s = (body s).elim (some s) (run body fuel) := by
  rw [run]
  cases body s <;> rfl

theorem run_of_none {fuel : Nat} (hfuel : 0 < fuel) {s : S} (h : body s = none) : run body fuel s = some s := by
  obtain ⟨n, rfl⟩ := Nat.exists_eq_succ_of_ne_zero hfuel.ne'
  rw [run_succ, h]
  rfl

theorem run_related {I : S → Prop} {R : S → S → Prop} (hrefl : ∀ s, R s s) (htrans : ∀ s t u, R s t → R t u → R s u)
    (hbody : ∀ s s', I s → body s = some s' → I s' ∧ R s s') {fuel : Nat} {s s' : S} (hs : I s)
    (h : run body fuel s = some s') : I s' ∧ R s s' ∧ body s' = none := by
  induction fuel generalizing s with
  | zero => cases h
  | succ fuel ih =>
    rw [run_succ] at h
    cases hnext : body s with
    | none =>
      rw [hnext] at h
      cases h
      exact ⟨hs, hrefl _, hnext⟩
    | some t =>
      rw [hnext] at h
      obtain ⟨ht, hst⟩ := hbody s t hs hnext
      obtain ⟨hs', hts', hover⟩ := ih ht h
      exact ⟨hs', htrans s t s' hst hts', hover⟩

theorem exists_run {I : S → Prop} (measure : S → Nat)
    (hbody : ∀ s s', I s → body s = some s' → I s' ∧ measure s' < measure s) {fuel : Nat} {s : S} (hs : I s)
    (hfuel : measure s < fuel) : ∃ s', run body fuel s = some s' := by
  induction fuel generalizing s with
  | zero => exact absurd hfuel (Nat.not_lt_zero _)
  | succ fuel ih =>
    rw [run_succ]
    cases hnext : body s with
    | none => exact ⟨s, rfl⟩
    | some t =>
      obtain ⟨ht, hlt⟩ := hbody s t hs hnext
      exact ih ht (by omega)

end While
