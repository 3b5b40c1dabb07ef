/-!
Contract: sums of counts.

Owns: the total of a list of counts.

Does not own: what is counted.
-/

namespace PeerLink

def total {α : Type} (count : α → Nat) : List α → Nat
  | [] => 0
  | item :: rest => count item + total count rest

@[simp] theorem total_nil {α : Type} (count : α → Nat) : total count [] = 0 := rfl

@[simp] theorem total_cons {α : Type} (count : α → Nat) (item : α) (rest : List α) :
    total count (item :: rest) = count item + total count rest := rfl

@[simp] theorem total_append {α : Type} (count : α → Nat) (left right : List α) :
    total count (left ++ right) = total count left + total count right := by
  induction left with
  | nil => simp
  | cons item rest inductionHypothesis => simp [inductionHypothesis, Nat.add_assoc]

theorem total_filter_le {α : Type} (count : α → Nat) (keep : α → Bool) (items : List α) :
    total count (items.filter keep) ≤ total count items := by
  induction items with
  | nil => exact Nat.le_refl _
  | cons item rest inductionHypothesis =>
      rw [List.filter_cons, total_cons]
      split
      · rw [total_cons]
        omega
      · omega

/-- Putting an item in the place of another changes the sum by the difference of the two. -/
theorem total_set {α : Type} (count : α → Nat) {items : List α} {place : Nat} {old : α} (new : α)
    (found : items[place]? = some old) :
    total count (items.set place new) + count old = total count items + count new := by
  induction items generalizing place with
  | nil => cases found
  | cons first rest inductionHypothesis =>
      cases place with
      | zero =>
          obtain rfl := Option.some.inj found
          rw [List.set_cons_zero, total_cons, total_cons]
          omega
      | succ place =>
          have others := inductionHypothesis found
          rw [List.set_cons_succ, total_cons, total_cons]
          omega

end PeerLink
