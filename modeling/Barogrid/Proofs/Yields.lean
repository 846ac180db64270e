import Mathlib
import Barogrid.Failure

/-!
# Computations that do not fail

`Yields r P` says that a computation has a result and what holds of the result.  It goes through
binds and folds, so that a chain of steps that could fail is treated step by step.
`exists_of_bind_eq_ok` goes the other way.
-/

namespace Barogrid

variable {ε α β : Type}

/-- The computation has a result, and `P` holds of it. -/
def Yields (r : Except ε α) (P : α → Prop) : Prop := ∃ a, r = .ok a ∧ P a

namespace Yields

variable {P : α → Prop} {Q : β → Prop} {r : Except ε α}

theorem ok {a : α} (h : P a) : Yields (.ok a : Except ε α) P := ⟨a, rfl, h⟩

theorem mono {P' : α → Prop} (h : Yields r P) (hP : ∀ a, P a → P' a) : Yields r P' := by
  obtain ⟨a, hr, ha⟩ := h
  exact ⟨a, hr, hP a ha⟩

/-- One step after the other. -/
theorem bind {f : α → Except ε β} (h : Yields r P) (hf : ∀ a, P a → Yields (f a) Q) :
    Yields (r >>= f) Q := by
  obtain ⟨a, rfl, ha⟩ := h
  exact hf a ha

/-- What every step keeps is kept by the fold. -/
theorem foldlM {f : β → α → Except ε β} {as : List α} {b : β} (hb : Q b)
    (h : ∀ b, Q b → ∀ a ∈ as, Yields (f b a) Q) : Yields (as.foldlM f b) Q := by
  induction as generalizing b with
  | nil => exact ok hb
  | cons a as ih =>
    rw [List.foldlM_cons]
    refine (h b hb a List.mem_cons_self).bind fun b' hb' => ?_
    exact ih hb' fun b'' hb'' a' ha' => h b'' hb'' a' (List.mem_cons_of_mem _ ha')

/-- A result of the geohash grid is one of the program. -/
theorem lift {r : Except Geohash.Fault α} (h : Yields r P) : Yields (Geohash.lift r) P := by
  obtain ⟨a, rfl, ha⟩ := h
  exact ok ha

end Yields

/-- Steps whose results are known. -/
theorem mapM_eq_ok {f : α → Except ε β} {g : α → β} {as : List α} (h : ∀ a ∈ as, f a = .ok (g a)) :
    as.mapM f = .ok (as.map g) := by
  induction as with
  | nil => rfl
  | cons a as ih =>
    obtain ⟨hfirst, hrest⟩ := List.forall_mem_cons.mp h
    rw [List.mapM_cons, hfirst, ih hrest]
    rfl

/-- A row of steps fails as its first step that fails. -/
theorem mapM_eq_error_iff {f : α → Except ε β} {as : List α} {e : ε} :
    as.mapM f = .error e ↔ ∃ a, as.find? (fun a => !(f a).isOk) = some a ∧ f a = .error e := by
  induction as with
  | nil => simp [pure, Except.pure]
  | cons a as ih =>
    rw [List.mapM_cons]
    cases ha : f a with
    | error e' => simp [bind, Except.bind, ha, Except.isOk, Except.toBool]
    | ok b =>
      rw [List.find?_cons_of_neg (by simp [ha, Except.isOk, Except.toBool]), ← ih]
      show (as.mapM f >>= fun bs => pure (b :: bs)) = _ ↔ _
      cases as.mapM f <;> simp [bind, Except.bind, pure, Except.pure]

/-- A fold ends at its first step that fails. -/
theorem foldlM_eq_error {f : β → α → Except ε β} {b b' : β} {before after : List α} {a : α} {e : ε}
    (hbefore : before.foldlM f b = .ok b') (ha : f b' a = .error e) :
    (before ++ a :: after).foldlM f b = .error e := by
  rw [List.foldlM_append, hbefore]
  show (a :: after).foldlM f b' = .error e
  rw [List.foldlM_cons, ha]
  rfl

/-- A chain that has a result got through its first step. -/
theorem exists_of_bind_eq_ok {f : α → Except ε β} {r : Except ε α} {b : β}
    (h : r >>= f = .ok b) : ∃ a, r = .ok a ∧ f a = .ok b := by
  cases r with
  | error e => cases h
  | ok a => exact ⟨a, rfl, h⟩

end Barogrid
