import Mathlib.Data.List.Basic

namespace WebFort.Library

-- Steps are functions. The guard says which events the surroundings may
-- offer in a state.
structure Machine (σ ε : Type*) where
  enabled : σ → ε → Prop
  next : σ → ε → σ

namespace Machine

variable {σ ε ω : Type*} (M : Machine σ ε)

def exec : σ → List ε → σ
  | s, [] => s
  | s, e :: es => exec (M.next s e) es

def Valid : σ → List ε → Prop
  | _, [] => True
  | s, e :: es => M.enabled s e ∧ Valid (M.next s e) es

-- What a run shows to an observer, event by event.
def trace (obs : σ → ε → List ω) : σ → List ε → List ω
  | _, [] => []
  | s, e :: es => obs s e ++ trace obs (M.next s e) es

-- Every event of the run satisfies `p` in the state it meets.
def Each (p : σ → ε → Prop) : σ → List ε → Prop
  | _, [] => True
  | s, e :: es => p s e ∧ Each p (M.next s e) es

@[simp] theorem exec_nil (s : σ) : M.exec s [] = s := rfl

@[simp] theorem exec_cons (s : σ) (e : ε) (es : List ε) :
    M.exec s (e :: es) = M.exec (M.next s e) es := rfl

@[simp] theorem valid_nil (s : σ) : M.Valid s [] := trivial

@[simp] theorem valid_cons (s : σ) (e : ε) (es : List ε) :
    M.Valid s (e :: es) ↔ M.enabled s e ∧ M.Valid (M.next s e) es := Iff.rfl

theorem exec_append (s : σ) (es rest : List ε) :
    M.exec s (es ++ rest) = M.exec (M.exec s es) rest := by
  induction es generalizing s with
  | nil => rfl
  | cons e es ih => exact ih _

theorem valid_append (s : σ) (es rest : List ε) :
    M.Valid s (es ++ rest) ↔ M.Valid s es ∧ M.Valid (M.exec s es) rest := by
  induction es generalizing s with
  | nil => simp
  | cons e es ih => simp only [List.cons_append, valid_cons, exec_cons, ih, and_assoc]

theorem each_append (p : σ → ε → Prop) (s : σ) (es rest : List ε) :
    M.Each p s (es ++ rest) ↔ M.Each p s es ∧ M.Each p (M.exec s es) rest := by
  induction es generalizing s with
  | nil => simp [Each]
  | cons e es ih => simp only [List.cons_append, Each, exec_cons, ih, and_assoc]

-- A guard that lets everything happen.
theorem valid_of_enabled (h : ∀ s e, M.enabled s e) (s : σ) (es : List ε) : M.Valid s es := by
  induction es generalizing s with
  | nil => exact trivial
  | cons e es ih => exact ⟨h s e, ih _⟩

-- A property that one enabled step keeps holds at the end of a valid run,
-- hence at the end of each of its prefixes.
theorem exec_invariant (I : σ → Prop)
    (hstep : ∀ s e, I s → M.enabled s e → I (M.next s e))
    (s : σ) (es : List ε) (hs : I s) (hv : M.Valid s es) : I (M.exec s es) := by
  induction es generalizing s with
  | nil => exact hs
  | cons e es ih => exact ih _ (hstep s e hs hv.1) hv.2

-- The step may also use what is known of each event of this run.
theorem exec_invariant_each (I : σ → Prop) (p : σ → ε → Prop)
    (hstep : ∀ s e, I s → M.enabled s e → p s e → I (M.next s e))
    (s : σ) (es : List ε) (hs : I s) (hv : M.Valid s es) (hp : M.Each p s es) :
    I (M.exec s es) := by
  induction es generalizing s with
  | nil => exact hs
  | cons e es ih => exact ih _ (hstep s e hs hv.1 hp.1) hv.2 hp.2

-- An invariant under a condition on the steps, and what each step does under
-- both.
theorem each_of_each (I : σ → Prop) (p q : σ → ε → Prop)
    (hstep : ∀ s e, I s → M.enabled s e → p s e → I (M.next s e) ∧ q s e)
    (s : σ) (es : List ε) (hs : I s) (hv : M.Valid s es) (hp : M.Each p s es) : M.Each q s es := by
  induction es generalizing s with
  | nil => exact trivial
  | cons e es ih =>
      obtain ⟨hnext, hq⟩ := hstep s e hs hv.1 hp.1
      exact ⟨hq, ih _ hnext hv.2 hp.2⟩

-- Two conditions on a step that come to the same under an invariant.
theorem each_iff (I : σ → Prop) (p q : σ → ε → Prop)
    (hstep : ∀ s e, I s → M.enabled s e → I (M.next s e))
    (hpq : ∀ s e, I s → M.enabled s e → (p s e ↔ q s e))
    (s : σ) (es : List ε) (hs : I s) (hv : M.Valid s es) : M.Each p s es ↔ M.Each q s es := by
  induction es generalizing s with
  | nil => exact Iff.rfl
  | cons e es ih => exact and_congr (hpq s e hs hv.1) (ih _ (hstep s e hs hv.1) hv.2)

-- A property of all states a run passes through is one condition on each
-- step, where the step keeps the property exactly under it.
theorem always_iff_each (I : σ → Prop) (p : σ → ε → Prop)
    (hstep : ∀ s e, I s → M.enabled s e → (I (M.next s e) ↔ p s e))
    (s : σ) (es : List ε) (hs : I s) (hv : M.Valid s es) :
    (∀ done rest, es = done ++ rest → I (M.exec s done)) ↔ M.Each p s es := by
  induction es generalizing s with
  | nil =>
      refine ⟨fun _ => trivial, fun _ done rest h => ?_⟩
      rw [(List.append_eq_nil_iff.mp h.symm).1]
      exact hs
  | cons e es ih =>
      constructor
      · intro h
        have hnext : I (M.next s e) := h [e] es rfl
        refine ⟨(hstep s e hs hv.1).mp hnext, (ih _ hnext hv.2).mp fun done rest he => ?_⟩
        exact h (e :: done) rest (congrArg (e :: ·) he)
      · rintro ⟨hp, hrest⟩ done rest he
        have hnext : I (M.next s e) := (hstep s e hs hv.1).mpr hp
        cases done with
        | nil => exact hs
        | cons f done =>
            obtain ⟨rfl, rfl⟩ := List.cons.inj he
            exact (ih _ hnext hv.2).mpr hrest done rest rfl

section Thinning

variable {M}

-- The second list is the first one without some events that are low in the
-- state where the full run meets them.
inductive Thinned (M : Machine σ ε) (low : σ → ε → Prop) : σ → List ε → List ε → Prop
  | nil (s : σ) : Thinned M low s [] []
  | keep {s : σ} {e : ε} {es kept : List ε} :
      Thinned M low (M.next s e) es kept → Thinned M low s (e :: es) (e :: kept)
  | drop {s : σ} {e : ε} {es kept : List ε} :
      low s e → Thinned M low (M.next s e) es kept → Thinned M low s (e :: es) kept

-- Unwinding: low events change nothing the relation sees, all others keep
-- related states related and show the same. Then dropping low events is
-- invisible over a whole run.
theorem Thinned.unwind {low : σ → ε → Prop} {obs : σ → ε → List ω} {R : σ → σ → Prop}
    (hlow : ∀ s t e, R s t → M.enabled s e → low s e → R (M.next s e) t ∧ obs s e = [])
    (hkeep : ∀ s t e, R s t → M.enabled s e →
      M.enabled t e ∧ R (M.next s e) (M.next t e) ∧ obs s e = obs t e)
    {s t : σ} {es kept : List ε} (ht : Thinned M low s es kept)
    (hr : R s t) (hv : M.Valid s es) :
    M.Valid t kept ∧ R (M.exec s es) (M.exec t kept) ∧ M.trace obs s es = M.trace obs t kept := by
  induction ht generalizing t with
  | nil => exact ⟨trivial, hr, rfl⟩
  | @keep s e es kept _ ih =>
      obtain ⟨he, hn, ho⟩ := hkeep s t e hr hv.1
      obtain ⟨hvalid, hrel, htrace⟩ := ih hn hv.2
      exact ⟨⟨he, hvalid⟩, hrel, by simp only [trace, ho, htrace]⟩
  | @drop s e es kept hl _ ih =>
      obtain ⟨hn, ho⟩ := hlow s t e hr hv.1 hl
      obtain ⟨hvalid, hrel, htrace⟩ := ih hn hv.2
      exact ⟨hvalid, hrel, by simp only [trace, ho, List.nil_append, htrace]⟩

end Thinning

end Machine

end WebFort.Library
