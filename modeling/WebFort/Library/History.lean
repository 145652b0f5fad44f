import Mathlib.Data.List.Induction
import WebFort.Library.Machine

namespace WebFort.Library

namespace Machine

variable {σ ε : Type*} {M : Machine σ ε} {p q : σ → ε → Prop} {s : σ} {e : ε} {es : List ε}

theorem exec_concat (M : Machine σ ε) (s : σ) (es : List ε) (e : ε) :
    M.exec s (es ++ [e]) = M.next (M.exec s es) e := by
  rw [exec_append, exec_cons, exec_nil]

theorem valid_concat :
    M.Valid s (es ++ [e]) ↔ M.Valid s es ∧ M.enabled (M.exec s es) e := by
  rw [valid_append, valid_cons, and_iff_left (valid_nil M _)]

-- A step of the kind `p` in the past of a run, and only steps of the kind `q`
-- after it.
def Since (M : Machine σ ε) (p q : σ → ε → Prop) (s : σ) (es : List ε) : Prop :=
  ∃ done e rest, es = done ++ e :: rest ∧ p (M.exec s done) e ∧
    M.Each q (M.next (M.exec s done) e) rest

theorem since_of_step (hp : p (M.exec s es) e) : M.Since p q s (es ++ [e]) :=
  ⟨es, e, [], rfl, hp, trivial⟩

theorem Since.step (h : M.Since p q s es) (hq : q (M.exec s es) e) :
    M.Since p q s (es ++ [e]) := by
  obtain ⟨done, f, rest, rfl, hp, heach⟩ := h
  refine ⟨done, f, rest ++ [e], ?_, hp, ?_⟩
  · rw [List.append_assoc, List.cons_append]
  · rw [exec_append, exec_cons] at hq
    exact (each_append M q _ rest [e]).mpr ⟨heach, hq, trivial⟩

theorem since_concat_iff :
    M.Since p q s (es ++ [e]) ↔ p (M.exec s es) e ∨ M.Since p q s es ∧ q (M.exec s es) e := by
  constructor
  · rintro ⟨done, f, rest, hes, hp, heach⟩
    rcases List.eq_nil_or_concat rest with rfl | ⟨rest, f', rfl⟩
    · obtain ⟨rfl, hef⟩ := List.append_inj' hes rfl
      obtain rfl := (List.cons.inj hef).1
      exact Or.inl hp
    · rw [List.concat_eq_append, ← List.cons_append, ← List.append_assoc] at hes
      obtain ⟨rfl, hef⟩ := List.append_inj' hes rfl
      obtain rfl := (List.cons.inj hef).1
      rw [List.concat_eq_append, each_append] at heach
      obtain ⟨hrest, hlast, -⟩ := heach
      refine Or.inr ⟨⟨done, f, rest, rfl, hp, hrest⟩, ?_⟩
      rwa [exec_append, exec_cons]
  · rintro (hp | ⟨hsince, hq⟩)
    · exact since_of_step hp
    · exact hsince.step hq

theorem not_since_nil : ¬M.Since p q s [] := by
  rintro ⟨done, f, rest, hes, -⟩
  exact absurd hes (by simp)

theorem Since.mono {p' q' : σ → ε → Prop} (hp : ∀ s e, p s e → p' s e)
    (hq : ∀ s e, q s e → q' s e) (h : M.Since p q s es) : M.Since p' q' s es := by
  obtain ⟨done, f, rest, rfl, hf, heach⟩ := h
  refine ⟨done, f, rest, rfl, hp _ _ hf, ?_⟩
  generalize M.next (M.exec s done) f = t at heach
  induction rest generalizing t with
  | nil => exact trivial
  | cons g rest ih => exact ⟨hq _ _ heach.1, ih _ heach.2⟩

-- What is known of each step may depend on all steps before it.
theorem each_of_prefixes (s : σ) (es : List ε)
    (h : ∀ done e rest, es = done ++ e :: rest → p (M.exec s done) e) : M.Each p s es := by
  induction es generalizing s with
  | nil => exact trivial
  | cons e es ih =>
      refine ⟨h [] e es rfl, ih _ fun done f rest hes => ?_⟩
      exact h (e :: done) f rest (congrArg (e :: ·) hes)

-- An invariant may speak of the events that led to a state.
theorem history_invariant (H : List ε → σ → Prop) (h0 : H [] s)
    (hstep : ∀ es e, H es (M.exec s es) → M.Valid s es → M.enabled (M.exec s es) e →
      H (es ++ [e]) (M.next (M.exec s es) e))
    (es : List ε) (hv : M.Valid s es) : H es (M.exec s es) := by
  induction es using List.reverseRecOn with
  | nil => exact h0
  | append_singleton es e ih =>
      obtain ⟨hes, he⟩ := valid_concat.mp hv
      rw [exec_concat]
      exact hstep es e (ih hes) hes he

-- The same along a run of which every step is known to keep it.
theorem prefix_invariant (H : List ε → σ → Prop) (Q : List ε → ε → Prop) (h0 : H [] s)
    (hstep : ∀ done e, H done (M.exec s done) → M.enabled (M.exec s done) e → Q done e →
      H (done ++ [e]) (M.next (M.exec s done) e))
    (hv : M.Valid s es) (hQ : ∀ done e rest, es = done ++ e :: rest → Q done e)
    (done rest : List ε) (he : es = done ++ rest) : H done (M.exec s done) := by
  induction done using List.reverseRecOn generalizing rest with
  | nil => exact h0
  | append_singleton done e ih =>
      have hsplit : es = done ++ e :: rest := by rw [he, List.append_assoc, List.singleton_append]
      obtain ⟨-, hen, -⟩ := (M.valid_append s done (e :: rest)).mp (hsplit ▸ hv)
      rw [exec_concat]
      exact hstep done e (ih (e :: rest) hsplit) hen (hQ done e rest hsplit)

-- Between a state without a property and one with it lies a step that brings
-- it about.
theorem exists_crossing (P : σ → Prop) (hs : ¬P s) (hes : P (M.exec s es)) :
    ∃ done e rest, es = done ++ e :: rest ∧ ¬P (M.exec s done) ∧
      P (M.next (M.exec s done) e) := by
  induction es generalizing s with
  | nil => exact absurd hes hs
  | cons e es ih =>
      by_cases hnext : P (M.next s e)
      · exact ⟨[], e, es, rfl, hs, hnext⟩
      · obtain ⟨done, f, rest, rfl, hdone, hf⟩ := ih hnext hes
        exact ⟨e :: done, f, rest, rfl, hdone, hf⟩

end Machine

end WebFort.Library
