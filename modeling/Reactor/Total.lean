/-!
# Totals

The total of a list of numbers, which measures how much work is left in a list of things to do.
-/

namespace Reactor

def total : List Nat → Nat
  | [] => 0
  | number :: rest => number + total rest

@[simp]
theorem total_nil : total [] = 0 := rfl

@[simp]
theorem total_cons (number : Nat) (rest : List Nat) :
    total (number :: rest) = number + total rest := rfl

@[simp]
theorem total_append (left right : List Nat) : total (left ++ right) = total left + total right := by
  induction left with
  | nil => simp
  | cons number rest ih =>
    simp only [List.cons_append, total_cons, ih]
    omega

theorem le_total {number : Nat} {numbers : List Nat} (member : number ∈ numbers) :
    number ≤ total numbers := by
  induction numbers with
  | nil => simp at member
  | cons first rest ih =>
    rw [total_cons]
    rcases List.mem_cons.mp member with rfl | member
    · omega
    · have := ih member
      omega

end Reactor
