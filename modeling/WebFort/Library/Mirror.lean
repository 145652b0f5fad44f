import Mathlib.Logic.Relation

namespace WebFort.Library

-- A source of cells, the marks of the cells already sent since they last
-- changed, and what the other side was last sent for each of them.
structure Mirror (ι α ρ : Type*) where
  cells : ι → α
  clean : ι → Prop
  remote : ι → Option ρ

namespace Mirror

variable {ι α ρ : Type*}

def Coherent (proj : α → ρ) (m : Mirror ι α ρ) : Prop :=
  ∀ i, m.clean i → m.remote i = some (proj (m.cells i))

-- The other side shows the source on the given part.
def Shown (proj : α → ρ) (part : ι → Prop) (m : Mirror ι α ρ) : Prop :=
  ∀ i, part i → m.remote i = some (proj (m.cells i))

-- The source changes. A mark survives only where the cell did not change;
-- clearing more marks than needed is allowed.
structure Redraw (m n : Mirror ι α ρ) : Prop where
  remote : n.remote = m.remote
  clean : ∀ i, n.clean i → m.clean i ∧ n.cells i = m.cells i

-- Every unmarked cell of the part is sent, and only those; a mark stays.
structure Send (proj : α → ρ) (part : ι → Prop) (m n : Mirror ι α ρ) : Prop where
  cells : n.cells = m.cells
  sent : ∀ i, part i → ¬m.clean i → n.remote i = some (proj (m.cells i))
  kept : ∀ i, m.clean i → n.clean i ∧ n.remote i = m.remote i
  clean : ∀ i, n.clean i → m.clean i ∨ part i

variable {proj : α → ρ} {part : ι → Prop} {m n k : Mirror ι α ρ}

theorem Redraw.trans (hmn : Redraw m n) (hnk : Redraw n k) : Redraw m k := by
  refine ⟨hnk.remote.trans hmn.remote, fun i hi => ?_⟩
  obtain ⟨hn, hcell⟩ := hnk.clean i hi
  obtain ⟨hm, hcell'⟩ := hmn.clean i hn
  exact ⟨hm, hcell.trans hcell'⟩

theorem Coherent.redraw (hc : Coherent proj m) (h : Redraw m n) : Coherent proj n := by
  intro i hi
  obtain ⟨hm, hcell⟩ := h.clean i hi
  rw [h.remote, hcell]
  exact hc i hm

theorem Coherent.send (hc : Coherent proj m) (h : Send proj part m n) : Coherent proj n := by
  intro i hi
  rw [h.cells]
  by_cases hm : m.clean i
  · rw [(h.kept i hm).2]
    exact hc i hm
  · exact h.sent i ((h.clean i hi).resolve_left hm) hm

-- A send repairs nothing: what is marked is not sent again.
theorem Send.coherent_iff (h : Send proj part m n) : Coherent proj n ↔ Coherent proj m := by
  refine ⟨fun hc i hi => ?_, fun hc => hc.send h⟩
  obtain ⟨hclean, hremote⟩ := h.kept i hi
  rw [← hremote, ← h.cells]
  exact hc i hclean

-- One send brings the whole part up to date.
theorem Coherent.shown_of_send (hc : Coherent proj m) (h : Send proj part m n) :
    Shown proj part n := by
  intro i hi
  rw [h.cells]
  by_cases hm : m.clean i
  · rw [(h.kept i hm).2]
    exact hc i hm
  · exact h.sent i hi hm

end Mirror

end WebFort.Library
