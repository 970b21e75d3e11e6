/-!
# Totals

The sum of a number for each member of a list.
-/

namespace RdfIndex

/-- The sum of a number for each member of a list. -/
def total {α : Type} (f : α → Nat) (as : List α) : Nat := as.foldr (fun a n => f a + n) 0

@[simp] theorem total_nil {α : Type} (f : α → Nat) : total f [] = 0 := rfl

@[simp] theorem total_cons {α : Type} (f : α → Nat) (a : α) (as : List α) :
    total f (a :: as) = f a + total f as := rfl

@[simp] theorem total_append {α : Type} (f : α → Nat) (as bs : List α) :
    total f (as ++ bs) = total f as + total f bs := by
  induction as with
  | nil => simp
  | cons a as ih => simp [ih, Nat.add_assoc]

end RdfIndex
