import PeerLink.Proofs.Rpc.Channels

/-!
Contract: what a table makes of a list of delegates.

Delegates are registered one after the other, and the table is read back in another order. Which
delegates are left out is said of the list alone: those that stand behind one of the same method.

Owns: the delegates that are left out, the lines logged for them, and the served methods in order of
declaration.

Does not own: the channel of a method, and whom the calls of a method go to.
-/

namespace PeerLink.Rpc

/-- The delegates that stand behind another one of the same method, in order. -/
def leftOut (delegates : List Delegate) : List Delegate :=
  (delegates.zipIdx.filter fun (delegate, place) =>
    (delegates.take place).any (·.method == delegate.method)).map Prod.fst

namespace Table

/-! ## The lines logged -/

theorem supports_register (table : Table) (slots : Nat) (delegate : Delegate) (method : Method) :
    (table.register slots delegate).2.supports method =
      (table.supports method || delegate.method == method) := by
  unfold supports
  rw [find?_register, Option.isSome_or]
  by_cases same : delegate.method = method <;> simp [same]

theorem line_register (table : Table) (slots : Nat) (delegate : Delegate) :
    (table.register slots delegate).1 =
      if table.supports delegate.method then [duplicateLine delegate] else [] := by
  unfold register
  split <;> rfl

/-- A line is logged for each delegate whose method is served already, by the table or by a delegate
before it. -/
theorem lines_registerAll (table : Table) (slots : Nat) (delegates : List Delegate) :
    (table.registerAll slots delegates).1 =
      (delegates.zipIdx.filter fun (delegate, place) => table.supports delegate.method ||
        (delegates.take place).any (·.method == delegate.method)).map
        fun (delegate, _) => duplicateLine delegate := by
  induction delegates generalizing table with
  | nil => rfl
  | cons first rest inductionHypothesis =>
      have logged : (table.registerAll slots (first :: rest)).1 =
          (table.register slots first).1 ++
            ((table.register slots first).2.registerAll slots rest).1 := rfl
      -- What the first one adds to the table is what stands before the others in the list.
      rw [logged, line_register, inductionHypothesis, List.zipIdx_cons, List.zipIdx_succ,
        List.filter_cons, List.filter_map]
      simp only [supports_register, List.take_zero, List.any_nil, Bool.or_false,
        Function.comp_def, List.take_succ_cons, List.any_cons, Bool.or_assoc]
      split <;> simp

theorem lines_ofDelegates (slots : Nat) (delegates : List Delegate) :
    (ofDelegates slots delegates).1 = (leftOut delegates).map duplicateLine := by
  unfold ofDelegates leftOut
  rw [lines_registerAll, List.map_map]
  rfl

/-! ## The served methods -/

theorem mem_methods (table : Table) (method : Method) :
    method ∈ table.methods ↔ table.supports method = true := by
  have declared : method ∈ Method.all := by cases method <;> decide
  rw [methods, List.mem_filter]
  exact and_iff_right declared

theorem methods_ascending (table : Table) :
    table.methods.Pairwise fun earlier later => earlier.position < later.position := by
  have declared : Method.all.Pairwise fun earlier later => earlier.position < later.position := by
    decide
  exact declared.sublist List.filter_sublist

end Table

end PeerLink.Rpc
