universe u

namespace CanSniffer.Lib

variable {α : Type u}

/-- Each member with its predecessor; that of the first is `start`. -/
def consecutive : α → List α → List (α × α)
  | _, [] => []
  | start, a :: l => (start, a) :: consecutive a l

theorem consecutive_append_singleton (start : α) (l : List α) (a : α) :
    consecutive start (l ++ [a]) = consecutive start l ++ [(l.getLast?.getD start, a)] := by
  induction l generalizing start with
  | nil => rfl
  | cons b l ih =>
    rw [List.cons_append, consecutive, ih, consecutive, List.getLast?_cons, Option.getD_some,
      List.cons_append]

end CanSniffer.Lib
