import WebFort.Library.Machine
import Mathlib.Algebra.BigOperators.Group.List.Basic

namespace WebFort.Library

namespace Machine

variable {σ ε G : Type*} (M : Machine σ ε) [AddCommMonoid G]

-- A stock with goods in and goods out. When every step balances, the run
-- does: what is there and what went out is what was there and what came in.
theorem exec_balance (stock : σ → G) (ins outs : σ → ε → List G) (p : σ → ε → Prop)
    (hstep : ∀ s e, M.enabled s e → p s e →
      stock (M.next s e) + (outs s e).sum = stock s + (ins s e).sum)
    (s : σ) (es : List ε) (hv : M.Valid s es) (hp : M.Each p s es) :
    stock (M.exec s es) + (M.trace outs s es).sum = stock s + (M.trace ins s es).sum := by
  induction es generalizing s with
  | nil => rfl
  | cons e es ih =>
      have hone := hstep s e hv.1 hp.1
      have hrest := ih (M.next s e) hv.2 hp.2
      simp only [exec_cons, trace, List.sum_append]
      calc stock (M.exec (M.next s e) es) +
            ((outs s e).sum + (M.trace outs (M.next s e) es).sum)
          = (outs s e).sum + (stock (M.exec (M.next s e) es) +
              (M.trace outs (M.next s e) es).sum) := add_left_comm _ _ _
        _ = (stock (M.next s e) + (outs s e).sum) + (M.trace ins (M.next s e) es).sum := by
              rw [hrest, ← add_assoc, add_comm (outs s e).sum]
        _ = stock s + ((ins s e).sum + (M.trace ins (M.next s e) es).sum) := by
              rw [hone, add_assoc]

end Machine

end WebFort.Library
