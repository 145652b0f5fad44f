import Mathlib.Data.List.Basic

namespace WebFort.Library

-- What a handler leaves behind: the state, the effects it had on its
-- surroundings in order, and whether an exception escaped.
structure Outcome (σ ω : Type*) where
  state : σ
  out : List ω
  threw : Bool

namespace Outcome

variable {σ ω : Type*}

def ok (s : σ) : Outcome σ ω := ⟨s, [], false⟩

def emit (s : σ) (o : ω) : Outcome σ ω := ⟨s, [o], false⟩

def fail (s : σ) : Outcome σ ω := ⟨s, [], true⟩

-- The continuation runs unless an exception was thrown.
def andThen (r : Outcome σ ω) (k : σ → Outcome σ ω) : Outcome σ ω :=
  if r.threw then r else ⟨(k r.state).state, r.out ++ (k r.state).out, (k r.state).threw⟩

@[simp] theorem ok_state (s : σ) : (ok s : Outcome σ ω).state = s := rfl

@[simp] theorem ok_out (s : σ) : (ok s : Outcome σ ω).out = [] := rfl

@[simp] theorem ok_threw (s : σ) : (ok s : Outcome σ ω).threw = false := rfl

@[simp] theorem emit_state (s : σ) (o : ω) : (emit s o).state = s := rfl

@[simp] theorem emit_out (s : σ) (o : ω) : (emit s o).out = [o] := rfl

@[simp] theorem emit_threw (s : σ) (o : ω) : (emit s o).threw = false := rfl

@[simp] theorem fail_state (s : σ) : (fail s : Outcome σ ω).state = s := rfl

@[simp] theorem fail_out (s : σ) : (fail s : Outcome σ ω).out = [] := rfl

@[simp] theorem fail_threw (s : σ) : (fail s : Outcome σ ω).threw = true := rfl

theorem andThen_of_threw {r : Outcome σ ω} (k : σ → Outcome σ ω) (h : r.threw = true) :
    r.andThen k = r := if_pos h

theorem andThen_of_ok {r : Outcome σ ω} (k : σ → Outcome σ ω) (h : r.threw = false) :
    r.andThen k = ⟨(k r.state).state, r.out ++ (k r.state).out, (k r.state).threw⟩ := by
  simp [andThen, h]

-- A transitive frame condition passes through a sequence.
theorem andThen_frame {R : σ → σ → Prop} (htrans : ∀ a b c, R a b → R b c → R a c)
    {s : σ} {r : Outcome σ ω} {k : σ → Outcome σ ω} (hr : R s r.state)
    (hk : ∀ t, R t (k t).state) : R s (r.andThen k).state := by
  cases h : r.threw with
  | true => rwa [andThen_of_threw k h]
  | false => rw [andThen_of_ok k h]; exact htrans _ _ _ hr (hk _)

-- All effects are of one kind.
def Emits (P : ω → Prop) (r : Outcome σ ω) : Prop := ∀ o ∈ r.out, P o

section Emits

variable {P : ω → Prop}

theorem emits_ok {s : σ} : (ok s).Emits P := fun _ ho => absurd ho List.not_mem_nil

theorem emits_fail {s : σ} : (fail s).Emits P := fun _ ho => absurd ho List.not_mem_nil

theorem emits_emit {s : σ} {o : ω} (h : P o) : (emit s o).Emits P := by
  intro o' ho
  obtain rfl := List.mem_singleton.mp ho
  exact h

theorem emits_andThen {r : Outcome σ ω} {k : σ → Outcome σ ω} (hr : r.Emits P)
    (hk : ∀ s, (k s).Emits P) : (r.andThen k).Emits P := by
  cases h : r.threw with
  | true => rwa [andThen_of_threw k h]
  | false =>
      rw [andThen_of_ok k h]
      intro o ho
      rcases List.mem_append.mp ho with ho | ho
      · exact hr o ho
      · exact hk r.state o ho

end Emits

end Outcome

end WebFort.Library
