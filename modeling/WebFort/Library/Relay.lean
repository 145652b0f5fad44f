import WebFort.Library.Machine
import Mathlib.Logic.Function.Basic

namespace WebFort.Library

-- A writer and a reader share cells and marks and take turns at single steps.
-- The writer follows a program of stores and clearings. The reader looks at
-- one cell after the other: what has no mark is sent, and marked in a step of
-- its own.

inductive Write (ι α : Type*)
  | store (i : ι) (a : α)
  | clear (i : ι)

structure Relay (ι α : Type*) where
  cells : ι → α
  clean : ι → Bool
  -- What was last sent of each cell.
  sent : ι → Option α
  -- What is left of the programs.
  writer : List (Write ι α)
  reader : List ι
  -- A cell that was sent and is still to be marked.
  held : Option ι

inductive Thread
  | writer
  | reader
  deriving DecidableEq

namespace Relay

variable {ι α : Type*} [DecidableEq ι]

def Ready (s : Relay ι α) : Thread → Prop
  | .writer => s.writer ≠ []
  | .reader => s.held ≠ none ∨ s.reader ≠ []

def stepWriter (s : Relay ι α) : Relay ι α :=
  match s.writer with
  | [] => s
  | .store i a :: rest => { s with cells := Function.update s.cells i a, writer := rest }
  | .clear i :: rest => { s with clean := Function.update s.clean i false, writer := rest }

def stepReader (s : Relay ι α) : Relay ι α :=
  match s.held with
  | some i => { s with clean := Function.update s.clean i true, held := none }
  | none =>
      match s.reader with
      | [] => s
      | i :: rest =>
          if s.clean i then { s with reader := rest }
          else
            { s with
              sent := Function.update s.sent i (some (s.cells i))
              reader := rest
              held := some i }

-- A run of this machine is an interleaving of the two programs.
def threads : Machine (Relay ι α) Thread where
  enabled := Ready
  next s
    | .writer => stepWriter s
    | .reader => stepReader s

def Done (s : Relay ι α) : Prop := s.writer = [] ∧ s.reader = [] ∧ s.held = none

def UpToDate (s : Relay ι α) : Prop := ∀ i, s.clean i = true → s.sent i = some (s.cells i)

-- Each store that changes cell `i` is followed by a clearing of its mark.
def Announced (i : ι) : α → List (Write ι α) → Prop
  | _, [] => True
  | c, .store j a :: rest =>
      if j = i then (a ≠ c → .clear i ∈ rest) ∧ Announced i a rest else Announced i c rest
  | c, .clear _ :: rest => Announced i c rest

-- The same from the second store on.
def LateAnnounced (i : ι) : List (Write ι α) → Prop
  | [] => True
  | .store j a :: rest => if j = i then Announced i a rest else LateAnnounced i rest
  | .clear _ :: rest => LateAnnounced i rest

-- A cell that waits for its mark is the one that was sent as long as its
-- first store is ahead.
def Tidy (s : Relay ι α) : Prop :=
  ∀ i, Announced i (s.cells i) s.writer ∨
    (LateAnnounced i s.writer ∧ (s.held = some i → s.sent i = some (s.cells i)))

-- What is out of date will lose its mark.
def Settled (s : Relay ι α) : Prop :=
  ∀ i, s.clean i = true → s.sent i = some (s.cells i) ∨ .clear i ∈ s.writer

-- When a thread leaves a marked cell, the cell is the one that was sent, or
-- its mark will be cleared again.
def Timely (s : Relay ι α) : Thread → Prop
  | .writer => ∀ i a rest, s.writer = .store i a :: rest → s.clean i = true →
      s.sent i = some a ∨ .clear i ∈ rest
  | .reader => ∀ i, s.held = some i → s.sent i = some (s.cells i) ∨ .clear i ∈ s.writer

-- A cell nobody will look at again.
def Lost (i : ι) (s : Relay ι α) : Prop :=
  s.clean i = true ∧ s.sent i ≠ some (s.cells i) ∧ .clear i ∉ s.writer ∧
    Announced i (s.cells i) s.writer

section Steps

variable {s : Relay ι α} {i : ι}

theorem tidy_writer (ht : s.Tidy) : (stepWriter s).Tidy := by
  unfold stepWriter
  split
  · exact ht
  · rename_i j a rest hw
    intro i
    have hi := ht i
    rw [hw] at hi
    by_cases hij : j = i
    · subst hij
      simp only [Announced, LateAnnounced, if_true] at hi
      dsimp only
      rw [Function.update_self]
      exact Or.inl (hi.elim (fun h => h.2) fun h => h.1)
    · simp only [Announced, LateAnnounced, if_neg hij] at hi
      dsimp only
      rw [Function.update_of_ne (Ne.symm hij)]
      exact hi
  · rename_i j rest hw
    intro i
    have hi := ht i
    rw [hw] at hi
    exact hi

theorem tidy_reader (ht : s.Tidy) : (stepReader s).Tidy := by
  unfold stepReader
  split
  · exact fun i => (ht i).imp_right fun h => ⟨h.1, fun hi => by cases hi⟩
  · split
    · exact ht
    · rename_i j rest hr
      split
      · exact ht
      · refine fun i => (ht i).imp_right fun h => ⟨h.1, fun hi => ?_⟩
        dsimp only
        rw [Option.some.inj hi, Function.update_self]

theorem tidy_next (ht : s.Tidy) (t : Thread) : (threads.next s t).Tidy := by
  cases t with
  | writer => exact tidy_writer ht
  | reader => exact tidy_reader ht

theorem settled_writer (hs : s.Settled) (hf : s.Timely .writer) : (stepWriter s).Settled := by
  unfold stepWriter
  split
  · exact hs
  · rename_i j a rest hw
    intro i hi
    by_cases hij : i = j
    · subst hij
      dsimp only
      rw [Function.update_self]
      exact hf i a rest hw hi
    · rcases hs i hi with h | h
      · exact Or.inl (by simp [h, hij])
      · simp only [hw, List.mem_cons, reduceCtorEq, false_or] at h
        exact Or.inr h
  · rename_i j rest hw
    intro i hi
    by_cases hij : i = j
    · subst hij
      simp at hi
    · simp only [Function.update_of_ne hij] at hi
      rcases hs i hi with h | h
      · exact Or.inl h
      · simp only [hw, List.mem_cons, Write.clear.injEq, hij, false_or] at h
        exact Or.inr h

theorem settled_reader (hs : s.Settled) (hf : s.Timely .reader) : (stepReader s).Settled := by
  unfold stepReader
  split
  · rename_i j hheld
    intro i hi
    by_cases hij : i = j
    · subst hij
      exact hf i hheld
    · exact hs i (by simpa [Function.update_of_ne hij] using hi)
  · split
    · exact hs
    · rename_i j rest hr
      split
      · exact hs
      · rename_i hclean
        intro i hi
        have hij : i ≠ j := by
          rintro rfl
          exact hclean hi
        rcases hs i hi with h | h
        · exact Or.inl (by simp [h, hij])
        · exact Or.inr h

theorem settled_next (hs : s.Settled) (t : Thread) (hf : s.Timely t) :
    (threads.next s t).Settled := by
  cases t with
  | writer => exact settled_writer hs hf
  | reader => exact settled_reader hs hf

theorem lost_of_not_timely (ht : s.Tidy) {t : Thread} (hf : ¬s.Timely t) :
    ∃ i, Lost i (threads.next s t) := by
  cases t with
  | writer =>
      simp only [Timely, not_forall, not_or] at hf
      obtain ⟨i, a, rest, hw, hclean, hsent, hclear⟩ := hf
      have hi := ht i
      simp only [hw, Announced, LateAnnounced, if_true] at hi
      refine ⟨i, ?_⟩
      simp only [threads, stepWriter, hw]
      refine ⟨hclean, by simpa using hsent, hclear, ?_⟩
      dsimp only
      rw [Function.update_self]
      exact hi.elim (fun h => h.2) fun h => h.1
  | reader =>
      simp only [Timely, not_forall, not_or] at hf
      obtain ⟨i, hheld, hsent, hclear⟩ := hf
      refine ⟨i, ?_⟩
      simp only [threads, stepReader, hheld]
      refine ⟨Function.update_self _ _ _, hsent, hclear, ?_⟩
      exact (ht i).elim id fun h => absurd (h.2 hheld) hsent

theorem lost_writer (hl : Lost i s) : Lost i (stepWriter s) := by
  obtain ⟨hclean, hsent, hclear, ha⟩ := hl
  unfold stepWriter
  split
  · exact ⟨hclean, hsent, hclear, ha⟩
  · rename_i j a rest hw
    rw [hw] at ha hclear
    have hrest : .clear i ∉ rest := fun h => hclear (List.mem_cons_of_mem _ h)
    by_cases hij : j = i
    · subst hij
      simp only [Announced, if_true] at ha
      -- a store that changed the cell would be announced
      have hsame : a = s.cells j := by
        by_contra hne
        exact hrest (ha.1 hne)
      refine ⟨hclean, by simpa [hsame] using hsent, hrest, ?_⟩
      dsimp only
      rw [Function.update_self]
      exact ha.2
    · simp only [Announced, if_neg hij] at ha
      have hcell : Function.update s.cells j a i = s.cells i :=
        Function.update_of_ne (Ne.symm hij) _ _
      exact ⟨hclean, by simpa [hcell] using hsent, hrest, by simpa [hcell] using ha⟩
  · rename_i j rest hw
    rw [hw] at ha hclear
    have hij : i ≠ j := by
      rintro rfl
      exact hclear List.mem_cons_self
    refine ⟨?_, hsent, fun h => hclear (List.mem_cons_of_mem _ h), ha⟩
    simpa [Function.update_of_ne hij] using hclean

theorem lost_reader (hl : Lost i s) : Lost i (stepReader s) := by
  obtain ⟨hclean, hsent, hrest⟩ := hl
  unfold stepReader
  split
  · refine ⟨?_, hsent, hrest⟩
    simp only [Function.update_apply]
    split
    · rfl
    · exact hclean
  · split
    · exact ⟨hclean, hsent, hrest⟩
    · rename_i j rest hr
      split
      · exact ⟨hclean, hsent, hrest⟩
      · rename_i hj
        have hij : i ≠ j := by
          rintro rfl
          exact hj hclean
        exact ⟨hclean, by simpa [Function.update_of_ne hij] using hsent, hrest⟩

theorem lost_next (hl : Lost i s) (t : Thread) : Lost i (threads.next s t) := by
  cases t with
  | writer => exact lost_writer hl
  | reader => exact lost_reader hl

end Steps

theorem lost_exec {s : Relay ι α} {i : ι} (hl : Lost i s) (es : List Thread) :
    Lost i (threads.exec s es) := by
  induction es generalizing s with
  | nil => exact hl
  | cons t es ih => exact ih (lost_next hl t)

-- A finished interleaving has lost nothing exactly when each step of it was
-- in time.
theorem upToDate_iff_timely {s : Relay ι α} {es : List Thread} (ht : s.Tidy) (hs : s.Settled)
    (hdone : (threads.exec s es).Done) :
    (threads.exec s es).UpToDate ↔ threads.Each Timely s es := by
  induction es generalizing s with
  | nil =>
      refine ⟨fun _ => trivial, fun _ i hi => ?_⟩
      have hw : s.writer = [] := hdone.1
      rcases hs i hi with h | h
      · exact h
      · simp [hw] at h
  | cons t es ih =>
      have hnext := tidy_next ht t
      constructor
      · intro hup
        have hf : s.Timely t := by
          by_contra hf
          obtain ⟨i, hl⟩ := lost_of_not_timely ht hf
          obtain ⟨hclean, hsent, -⟩ := lost_exec hl es
          exact hsent (hup i hclean)
        exact ⟨hf, (ih hnext (settled_next hs t hf) hdone).mp hup⟩
      · rintro ⟨hf, hrest⟩
        exact (ih hnext (settled_next hs t hf) hdone).mpr hrest

section Programs

variable {i : ι} {c : α}

-- Stores of distinct cells, then the clearings: a cell is announced if it is
-- stored unchanged or cleared.
theorem announced_clears (l : List ι) (rest : List (Write ι α)) :
    Announced i c (l.map .clear ++ rest) ↔ Announced i c rest := by
  induction l with
  | nil => rfl
  | cons j l ih => exact ih

theorem announced_stores (f : ι → α) (l : List ι) (rest : List (Write ι α))
    (hi : i ∈ l → f i ≠ c → .clear i ∈ rest)
    (hrest : Announced i (if i ∈ l then f i else c) rest) :
    Announced i c (l.map (fun j => .store j (f j)) ++ rest) := by
  induction l generalizing c with
  | nil => simpa using hrest
  | cons j l ih =>
      rw [List.map_cons, List.cons_append]
      unfold Announced
      by_cases hij : j = i
      · subst hij
        rw [if_pos rfl]
        refine ⟨fun h => List.mem_append_right _ (hi List.mem_cons_self h), ih ?_ ?_⟩
        · exact fun _ h => absurd rfl h
        · simpa using hrest
      · rw [if_neg hij]
        refine ih (fun h => hi (List.mem_cons_of_mem _ h)) ?_
        simpa [Ne.symm hij] using hrest

theorem lateAnnounced_clears (l : List ι) (rest : List (Write ι α)) :
    LateAnnounced i (l.map .clear ++ rest) ↔ LateAnnounced i rest := by
  induction l with
  | nil => rfl
  | cons j l ih => exact ih

theorem lateAnnounced_stores (f : ι → α) (l : List ι) (rest : List (Write ι α))
    (hin : i ∈ l → Announced i (f i) rest) (hout : i ∉ l → LateAnnounced i rest) :
    LateAnnounced i (l.map (fun j => .store j (f j)) ++ rest) := by
  induction l with
  | nil => exact hout (by simp)
  | cons j l ih =>
      rw [List.map_cons, List.cons_append]
      unfold LateAnnounced
      by_cases hij : j = i
      · subst hij
        rw [if_pos rfl]
        refine announced_stores f l rest (fun _ h => absurd rfl h) ?_
        rw [ite_self]
        exact hin List.mem_cons_self
      · rw [if_neg hij]
        refine ih (fun h => hin (List.mem_cons_of_mem _ h)) fun h => hout ?_
        simpa [Ne.symm hij] using h

end Programs

section Alone

-- A thread that is not interrupted.

variable (s : Relay ι α) (rest : List (Write ι α))

theorem exec_stores (f : ι → α) (l : List ι)
    (hw : s.writer = l.map (fun i => .store i (f i)) ++ rest) :
    threads.exec s (List.replicate l.length .writer) =
      { s with cells := fun i => if i ∈ l then f i else s.cells i, writer := rest } := by
  induction l generalizing s with
  | nil =>
      rw [List.map_nil, List.nil_append] at hw
      simp [← hw]
  | cons j l ih =>
      have hnext : threads.next s .writer =
          { s with
            cells := Function.update s.cells j (f j)
            writer := l.map (fun i => .store i (f i)) ++ rest } := by
        simp only [threads, stepWriter, hw, List.map_cons, List.cons_append]
      rw [List.length_cons, List.replicate_succ, Machine.exec_cons, hnext, ih _ rfl]
      congr 1
      funext i
      by_cases hij : i = j
      · simp [hij]
      · simp [hij]

theorem exec_clears (l : List ι) (hw : s.writer = l.map .clear ++ rest) :
    threads.exec s (List.replicate l.length .writer) =
      { s with clean := fun i => s.clean i && i ∉ l, writer := rest } := by
  induction l generalizing s with
  | nil =>
      rw [List.map_nil, List.nil_append] at hw
      simp [← hw]
  | cons j l ih =>
      have hnext : threads.next s .writer =
          { s with
            clean := Function.update s.clean j false
            writer := l.map .clear ++ rest } := by
        simp only [threads, stepWriter, hw, List.map_cons, List.cons_append]
      rw [List.length_cons, List.replicate_succ, Machine.exec_cons, hnext, ih _ rfl]
      congr 1
      funext i
      by_cases hij : i = j
      · simp [hij]
      · simp [hij]

-- The reader takes one step for a marked cell and two for another.
def lookSteps (clean : ι → Bool) (l : List ι) : List Thread :=
  l.flatMap fun i => if clean i then [.reader] else [.reader, .reader]

-- A mark set now concerns none of the cells still ahead.
theorem lookSteps_update (clean : ι → Bool) {j : ι} {l : List ι} (hj : j ∉ l) (b : Bool) :
    lookSteps (Function.update clean j b) l = lookSteps clean l := by
  refine List.flatMap_congr fun i hi => ?_
  have hij : i ≠ j := by
    rintro rfl
    exact hj hi
  rw [Function.update_of_ne hij]

theorem exec_looks (l later : List ι) (hl : l.Nodup) (hr : s.reader = l ++ later)
    (hh : s.held = none) :
    threads.exec s (lookSteps s.clean l) =
      { s with
        clean := fun i => s.clean i || i ∈ l
        sent := fun i => if i ∈ l ∧ s.clean i = false then some (s.cells i) else s.sent i
        reader := later } := by
  induction l generalizing s with
  | nil =>
      rw [List.nil_append] at hr
      simp [lookSteps, ← hr]
  | cons j l ih =>
      obtain ⟨hj, hnd⟩ := List.nodup_cons.mp hl
      have hcons : lookSteps s.clean (j :: l) =
          (if s.clean j then [.reader] else [.reader, .reader]) ++ lookSteps s.clean l :=
        List.flatMap_cons
      rw [hcons, Machine.exec_append]
      cases hclean : s.clean j with
      | true =>
          have hnext : threads.exec s [.reader] = { s with reader := l ++ later } := by
            simp [threads, stepReader, hh, hr, hclean]
          rw [if_pos rfl, hnext]
          rw [ih { s with reader := l ++ later } hnd rfl hh]
          congr 1
          · funext i
            by_cases hij : i = j
            · simp [hij, hclean]
            · simp [hij]
          · funext i
            by_cases hij : i = j
            · simp [hij, hclean]
            · simp [hij]
      | false =>
          have hnext : threads.exec s [.reader, .reader] =
              { s with
                clean := Function.update s.clean j true
                sent := Function.update s.sent j (some (s.cells j))
                reader := l ++ later } := by
            simp [threads, stepReader, hh, hr, hclean]
          rw [if_neg (by simp), hnext, ← lookSteps_update s.clean hj true]
          rw [ih { s with
            clean := Function.update s.clean j true
            sent := Function.update s.sent j (some (s.cells j))
            reader := l ++ later } hnd rfl hh]
          congr 1
          · funext i
            by_cases hij : i = j
            · simp [hij]
            · simp [hij]
          · funext i
            by_cases hij : i = j
            · simp [hij, hclean]
            · simp [hij]

end Alone

end Relay

end WebFort.Library
