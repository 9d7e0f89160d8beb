/-
# Runs

A run does actions one after the other. What is asked of every action where it is done is a
property along the run.

Key definitions: `Along`.
Key theorems: `along_append`, `Along.foldl`.
-/

namespace Volley

variable {S A : Type} {act : S → A → S} {P : S → A → Prop}

/-- Every action of a run is fine in the state in which it is done. -/
def Along (act : S → A → S) (P : S → A → Prop) : S → List A → Prop
  | _, [] => True
  | s, a :: as => P s a ∧ Along act P (act s a) as

instance decidableAlong [∀ s a, Decidable (P s a)] :
    (s : S) → (as : List A) → Decidable (Along act P s as)
  | _, [] => inferInstanceAs (Decidable True)
  | s, a :: as =>
    have := decidableAlong (act s a) as
    inferInstanceAs (Decidable (P s a ∧ Along act P (act s a) as))

theorem along_append {s : S} {as bs : List A} :
    Along act P s (as ++ bs) ↔ Along act P s as ∧ Along act P (as.foldl act s) bs := by
  induction as generalizing s with
  | nil => simp [Along]
  | cons a as ih => simp only [List.cons_append, Along, ih, and_assoc, List.foldl_cons]

/-- What every action of a run keeps, the run keeps. -/
theorem Along.foldl {Q : S → Prop} (step : ∀ s a, P s a → Q s → Q (act s a)) {s : S}
    {as : List A} (along : Along act P s as) (h : Q s) : Q (as.foldl act s) := by
  induction as generalizing s with
  | nil => exact h
  | cons a as ih => exact ih along.2 (step s a along.1 h)

end Volley
