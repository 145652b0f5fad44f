import WebFort.Library.Machine

namespace WebFort.Library.Machine

variable {σ ε α : Type*} (M : Machine σ ε)

-- Goods in order. When every step takes from the front of the stock and adds
-- at its end, the run delivers what was there and then what came in: nothing
-- is lost, comes twice or overtakes.
theorem exec_flow (I : σ → Prop) (p : σ → ε → Prop) (stock : σ → List α)
    (ins outs : σ → ε → List α)
    (hstep : ∀ s e, I s → M.enabled s e → p s e →
      I (M.next s e) ∧ outs s e ++ stock (M.next s e) = stock s ++ ins s e)
    (s : σ) (es : List ε) (hs : I s) (hv : M.Valid s es) (hp : M.Each p s es) :
    M.trace outs s es ++ stock (M.exec s es) = stock s ++ M.trace ins s es := by
  induction es generalizing s with
  | nil => exact (List.append_nil _).symm
  | cons e es ih =>
      obtain ⟨hnext, hone⟩ := hstep s e hs hv.1 hp.1
      have hrest := ih (M.next s e) hnext hv.2 hp.2
      simp only [exec_cons, trace, List.append_assoc]
      calc outs s e ++ (M.trace outs (M.next s e) es ++ stock (M.exec (M.next s e) es))
          = (outs s e ++ stock (M.next s e)) ++ M.trace ins (M.next s e) es := by
            rw [hrest, List.append_assoc]
        _ = stock s ++ (ins s e ++ M.trace ins (M.next s e) es) := by
            rw [hone, List.append_assoc]

-- A view that every step changes by what it shows, one piece after the other.
theorem exec_fold {β : Type*} (I : σ → Prop) (p : σ → ε → Prop) (view : σ → β) (act : β → α → β)
    (obs : σ → ε → List α)
    (hstep : ∀ s e, I s → M.enabled s e → p s e →
      I (M.next s e) ∧ view (M.next s e) = (obs s e).foldl act (view s))
    (s : σ) (es : List ε) (hs : I s) (hv : M.Valid s es) (hp : M.Each p s es) :
    view (M.exec s es) = (M.trace obs s es).foldl act (view s) := by
  induction es generalizing s with
  | nil => rfl
  | cons e es ih =>
      obtain ⟨hnext, hone⟩ := hstep s e hs hv.1 hp.1
      rw [exec_cons, ih (M.next s e) hnext hv.2 hp.2, hone, trace, List.foldl_append]

-- A condition that does not depend on the state.
theorem each_of_mem (p : σ → ε → Prop) (s : σ) (es : List ε) (hall : ∀ e ∈ es, ∀ s, p s e) :
    M.Each p s es := by
  induction es generalizing s with
  | nil => exact trivial
  | cons e es ih =>
      exact ⟨hall e List.mem_cons_self s, ih _ fun e' he' => hall e' (List.mem_cons_of_mem _ he')⟩

theorem trace_map {β : Type*} (obs : σ → ε → List α) (f : α → β) (s : σ) (es : List ε) :
    M.trace (fun s e => (obs s e).map f) s es = (M.trace obs s es).map f := by
  induction es generalizing s with
  | nil => rfl
  | cons e es ih => simp only [trace, List.map_append, ih]

-- What every step shows, the run shows.
theorem trace_forall (obs : σ → ε → List α) (P : α → Prop) (s : σ) (es : List ε)
    (hall : M.Each (fun s e => ∀ o ∈ obs s e, P o) s es) : ∀ o ∈ M.trace obs s es, P o := by
  induction es generalizing s with
  | nil => exact fun _ ho => absurd ho List.not_mem_nil
  | cons e es ih =>
      intro o ho
      rcases List.mem_append.mp ho with ho | ho
      · exact hall.1 o ho
      · exact ih (M.next s e) hall.2 o ho

end WebFort.Library.Machine
