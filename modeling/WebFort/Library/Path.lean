import WebFort.Library.Words
import Mathlib.Data.List.Infix

namespace WebFort.Library.Path

-- POSIX pathnames, resolved by their text alone: no symbolic links.

def sep : UInt8 := 47

def dot : Bytes := [46]

def dotdot : Bytes := [46, 46]

def components (p : Bytes) : List Bytes := p.splitOn sep

-- Not empty and none of the two special components.
def isName (c : Bytes) : Bool := c ≠ [] && c ≠ dot && c ≠ dotdot

def step (dir : List Bytes) (c : Bytes) : List Bytes :=
  if c = dotdot then dir.dropLast else if isName c then dir ++ [c] else dir

def walk (dir : List Bytes) (cs : List Bytes) : List Bytes := cs.foldl step dir

-- The names from the root to what the path names in a current directory.
def resolve (cwd : List Bytes) (p : Bytes) : List Bytes :=
  walk (if p.head? = some sep then [] else cwd) (components p)

-- std::filesystem::path::operator/
def slash (p q : Bytes) : Bytes :=
  if q.head? = some sep then q
  else if p = [] ∨ p.getLast? = some sep then p ++ q
  else p ++ sep :: q

-- Strictly below a directory, and one of its entries.
def Under (root f : List Bytes) : Prop := ∃ names, names ≠ [] ∧ f = root ++ names

def DirectlyIn (root f : List Bytes) : Prop := ∃ name, f = root ++ [name]

instance (root f : List Bytes) : Decidable (Under root f) :=
  decidable_of_iff (root <+: f ∧ root ≠ f) <| by
    constructor
    · rintro ⟨⟨names, rfl⟩, hne⟩
      exact ⟨names, by rintro rfl; simp at hne, rfl⟩
    · rintro ⟨names, hne, rfl⟩
      exact ⟨List.prefix_append _ _, by simpa using hne⟩

instance (root f : List Bytes) : Decidable (DirectlyIn root f) :=
  decidable_of_iff (f ≠ [] ∧ f.dropLast = root) <| by
    constructor
    · rintro ⟨hne, rfl⟩
      exact ⟨f.getLast hne, (List.dropLast_concat_getLast hne).symm⟩
    · rintro ⟨name, rfl⟩
      exact ⟨by simp, List.dropLast_concat⟩

theorem components_append_sep (p q : Bytes) :
    components (p ++ sep :: q) = components p ++ components q :=
  List.splitOn_append_cons_self p q

theorem components_ne_nil (p : Bytes) : components p ≠ [] := List.splitOn_ne_nil sep p

theorem components_of_not_mem {p : Bytes} (h : sep ∉ p) : components p = [p] :=
  List.splitOn_eq_singleton h

-- Bytes in front of a path belong to its first component.
theorem components_append_of_not_mem {p : Bytes} (h : sep ∉ p) (q : Bytes) :
    components (p ++ q) = (components q).modifyHead (p ++ ·) := by
  induction p with
  | nil => cases hq : components q <;> simp [hq]
  | cons b p ih =>
      rw [List.mem_cons, not_or] at h
      have hb : (b == sep) = false := beq_eq_false_iff_ne.mpr (Ne.symm h.1)
      have hp := ih h.2
      unfold components at hp ⊢
      rw [List.cons_append, List.splitOn_cons_eq_if_modifyHead, hb, hp]
      cases q.splitOn sep <;> simp

theorem mem_of_component {p : Bytes} :
    (∀ c, (components p).head? = some c → c <+: p) ∧ ∀ c ∈ components p, c <:+: p := by
  unfold components
  induction p with
  | nil => simp
  | cons b p ih =>
      rw [List.splitOn_cons_eq_if_modifyHead]
      split
      · simp only [List.head?_cons, Option.some.injEq, forall_eq', List.nil_prefix,
          List.forall_mem_cons, List.nil_infix, true_and]
        exact fun c hc => (ih.2 c hc).trans (List.suffix_cons b p).isInfix
      · obtain ⟨hd, tl, hsplit⟩ := List.exists_cons_of_ne_nil (List.splitOn_ne_nil sep p)
        rw [hsplit] at ih ⊢
        have hhead : b :: hd <+: b :: p := List.cons_prefix_cons.mpr ⟨rfl, ih.1 hd rfl⟩
        simp only [List.modifyHead_cons, List.head?_cons, Option.some.injEq, forall_eq',
          List.forall_mem_cons]
        exact ⟨hhead, hhead.isInfix, fun c hc =>
          (ih.2 c (List.mem_cons_of_mem _ hc)).trans (List.suffix_cons b p).isInfix⟩

-- A text without two dots in a row has no component that goes up.
theorem not_mem_components {p : Bytes} (h : ¬dotdot <:+: p) : dotdot ∉ components p :=
  fun hc => h (mem_of_component.2 dotdot hc)

theorem walk_append (dir cs ds : List Bytes) : walk dir (cs ++ ds) = walk (walk dir cs) ds :=
  List.foldl_append

theorem walk_of_not_mem {cs : List Bytes} (h : dotdot ∉ cs) (dir : List Bytes) :
    walk dir cs = dir ++ cs.filter isName := by
  induction cs generalizing dir with
  | nil => simp [walk]
  | cons c cs ih =>
      rw [List.mem_cons, not_or] at h
      have hrest := ih h.2 (step dir c)
      unfold walk at hrest ⊢
      rw [List.foldl_cons, hrest, step, if_neg (Ne.symm h.1)]
      cases hc : isName c <;> simp [hc]

-- A separator at the end changes nothing, unless it is all there is.
theorem resolve_append_sep (cwd : List Bytes) (p q : Bytes) :
    resolve cwd (p ++ sep :: q) = walk (resolve cwd (p ++ [sep])) (components q) := by
  have hhead : (p ++ sep :: q).head? = (p ++ [sep]).head? := by cases p <;> rfl
  unfold resolve
  rw [hhead, components_append_sep, components_append_sep, walk_append, walk_append]
  rfl

theorem resolve_concat_sep (cwd : List Bytes) {p : Bytes} (hp : p ≠ []) :
    resolve cwd (p ++ [sep]) = resolve cwd p := by
  have hhead : (p ++ [sep]).head? = p.head? := by
    cases p with
    | nil => exact absurd rfl hp
    | cons b p => rfl
  unfold resolve
  rw [hhead, components_append_sep, walk_append]
  rfl

theorem resolve_slash (cwd : List Bytes) (p : Bytes) {q : Bytes} (hq : q.head? ≠ some sep) :
    resolve cwd (slash p q) = walk (resolve cwd p) (components q) := by
  unfold slash
  rw [if_neg hq]
  split
  · rename_i hp
    rcases hp with rfl | hp
    · simp only [resolve, List.nil_append, if_neg hq]
      rfl
    · obtain ⟨dir, rfl⟩ := List.getLast?_eq_some_iff.mp hp
      rw [List.append_assoc]
      exact resolve_append_sep cwd dir q
  · rename_i hp
    rw [resolve_append_sep, resolve_concat_sep cwd fun h => hp (Or.inl h)]

theorem slash_cases (p : Bytes) {q : Bytes} (hq : q.head? ≠ some sep) :
    slash p q = q ∨ ∃ dir, slash p q = dir ++ sep :: q := by
  unfold slash
  rw [if_neg hq]
  split
  · rename_i hp
    rcases hp with rfl | hp
    · exact Or.inl rfl
    · obtain ⟨dir, rfl⟩ := List.getLast?_eq_some_iff.mp hp
      exact Or.inr ⟨dir, by rw [List.append_assoc]; rfl⟩
  · exact Or.inr ⟨p, rfl⟩

theorem slash_ne_nil (p : Bytes) {q : Bytes} (hq : q ≠ []) : slash p q ≠ [] := by
  unfold slash
  split
  · exact hq
  · split <;> simp [hq]

theorem getLast?_components_append_sep (p q : Bytes) :
    (components (p ++ sep :: q)).getLast? = (components q).getLast? := by
  rw [components_append_sep, List.getLast?_append_of_ne_nil _ (components_ne_nil q)]

theorem mem_slash {p q : Bytes} {b : UInt8} (h : b ∈ slash p q) : b ∈ p ∨ b = sep ∨ b ∈ q := by
  unfold slash at h
  split at h
  · exact Or.inr (Or.inr h)
  · split at h
    · rcases List.mem_append.mp h with h | h
      · exact Or.inl h
      · exact Or.inr (Or.inr h)
    · rcases List.mem_append.mp h with h | h
      · exact Or.inl h
      · exact Or.inr (List.mem_cons.mp h)

theorem walk_name {c : Bytes} (hc : isName c = true) (dir : List Bytes) :
    walk dir [c] = dir ++ [c] := by
  have hup : c ≠ dotdot := by
    rintro rfl
    exact absurd hc (by decide)
  simp [walk, step, hup, hc]

theorem head?_ne_of_not_mem {q : Bytes} (hq : sep ∉ q) : q.head? ≠ some sep :=
  fun h => hq (List.mem_of_mem_head? h)

theorem resolve_slash_name (cwd : List Bytes) (p : Bytes) {c : Bytes} (hsep : sep ∉ c)
    (hc : isName c = true) : resolve cwd (slash p c) = resolve cwd p ++ [c] := by
  rw [resolve_slash cwd p (head?_ne_of_not_mem hsep), components_of_not_mem hsep, walk_name hc]

theorem getLast?_components_slash (p : Bytes) {q : Bytes} (hq : q.head? ≠ some sep) :
    (components (slash p q)).getLast? = (components q).getLast? := by
  rcases slash_cases p hq with h | ⟨dir, h⟩
  · rw [h]
  · rw [h, getLast?_components_append_sep]

theorem components_eq_nil_cons {p : Bytes} {cs : List Bytes} (h : components p = [] :: cs) :
    p = [] ∨ p.head? = some sep := by
  cases p with
  | nil => exact Or.inl rfl
  | cons b p =>
      refine Or.inr ?_
      unfold components at h
      rw [List.splitOn_cons_eq_if_modifyHead] at h
      split at h
      · rename_i hb
        exact congrArg some (beq_iff_eq.mp hb)
      · obtain ⟨hd, tl, hsplit⟩ := List.exists_cons_of_ne_nil (List.splitOn_ne_nil sep p)
        rw [hsplit] at h
        simp at h

-- A file below a directory, by the components of the rest of its path.
theorem under_walk {root cs : List Bytes} (h : dotdot ∉ cs) {name : Bytes} (hmem : name ∈ cs)
    (hname : isName name = true) : Under root (walk root cs) := by
  rw [walk_of_not_mem h]
  exact ⟨_, List.ne_nil_of_mem (List.mem_filter.mpr ⟨hmem, hname⟩), rfl⟩

end WebFort.Library.Path
