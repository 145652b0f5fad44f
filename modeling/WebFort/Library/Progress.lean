import WebFort.Library.Machine

namespace WebFort.Library.Machine

variable {σ ε τ ω : Type*} (M : Machine σ ε)

-- Under an invariant each step of one machine is some steps of another, seen
-- through alpha. Then every run is a run of the other one.
theorem exec_trace (N : Machine τ ω) (α : σ → τ) (obs : σ → ε → List ω) (I : σ → Prop)
    (p : σ → ε → Prop)
    (hstep : ∀ s e, I s → M.enabled s e → p s e →
      I (M.next s e) ∧ N.exec (α s) (obs s e) = α (M.next s e))
    (s : σ) (es : List ε) (hs : I s) (hv : M.Valid s es) (hp : M.Each p s es) :
    N.exec (α s) (M.trace obs s es) = α (M.exec s es) := by
  induction es generalizing s with
  | nil => rfl
  | cons e es ih =>
      obtain ⟨hnext, hsame⟩ := hstep s e hs hv.1 hp.1
      rw [trace, exec_append, hsame]
      exact ih _ hnext hv.2 hp.2

-- While the goal is not reached a gain takes something off the measure, and a
-- cost may add as much. A run with enough gains reaches the goal and stays
-- there.
theorem exec_goal (I Goal : σ → Prop) (p : σ → ε → Prop) (size : σ → Nat) (gain cost : ε → Bool)
    (hinv : ∀ s e, I s → M.enabled s e → p s e → I (M.next s e))
    (hgoal : ∀ s e, I s → M.enabled s e → p s e → Goal s → Goal (M.next s e))
    (hless : ∀ s e, I s → M.enabled s e → p s e → ¬Goal s → ¬Goal (M.next s e) →
      size (M.next s e) + (gain e).toNat ≤ size s + (cost e).toNat)
    (s : σ) (es : List ε) (hs : I s) (hv : M.Valid s es) (hp : M.Each p s es)
    (hlen : size s + es.countP cost < es.countP gain) : Goal (M.exec s es) := by
  have hstays : ∀ s es, I s → M.Valid s es → M.Each p s es → Goal s → Goal (M.exec s es) := by
    intro s es hs hv hp hg
    exact (M.exec_invariant_each (fun s => I s ∧ Goal s) p
      (fun s e h hen hpe => ⟨hinv s e h.1 hen hpe, hgoal s e h.1 hen hpe h.2⟩)
      s es ⟨hs, hg⟩ hv hp).2
  induction es generalizing s with
  | nil => exact absurd hlen (Nat.not_lt_zero _)
  | cons e es ih =>
      by_cases hg : Goal s
      · exact hstays s (e :: es) hs hv hp hg
      · have hnext := hinv s e hs hv.1 hp.1
        by_cases hg' : Goal (M.next s e)
        · exact hstays _ es hnext hv.2 hp.2 hg'
        · have hsize := hless s e hs hv.1 hp.1 hg hg'
          have hone : ∀ f : ε → Bool, (e :: es).countP f = es.countP f + (f e).toNat := by
            intro f
            rw [List.countP_cons]
            cases f e <;> rfl
          rw [hone, hone] at hlen
          exact ih _ hnext hv.2 hp.2 (by omega)

end WebFort.Library.Machine
