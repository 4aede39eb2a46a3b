import Mathlib.Data.List.Basic

namespace Delimited

variable {α : Type} [DecidableEq α] (d : α)

/-- The pieces that a delimiter cuts a list of fields into: a field that holds the delimiter
itself falls apart. -/
def pieces (fields : List (List α)) : List (List α) := fields.flatMap (List.splitOn d)

variable {d}

@[simp] theorem pieces_nil : pieces d [] = [] := rfl

@[simp] theorem pieces_cons (f : List α) (fs : List (List α)) :
    pieces d (f :: fs) = f.splitOn d ++ pieces d fs := rfl

@[simp] theorem pieces_append (fs gs : List (List α)) :
    pieces d (fs ++ gs) = pieces d fs ++ pieces d gs := List.flatMap_append

theorem pieces_of_free {fs : List (List α)} (h : ∀ f ∈ fs, d ∉ f) : pieces d fs = fs := by
  induction fs with
  | nil => rfl
  | cons f fs ih =>
    rw [pieces_cons, List.splitOn_eq_singleton (h f List.mem_cons_self),
      ih fun g hg => h g (List.mem_cons_of_mem _ hg)]
    rfl

theorem splitOn_injective : Function.Injective (List.splitOn d) := by
  intro s t h
  calc s = [d].intercalate (s.splitOn d) := (List.intercalate_splitOn d).symm
    _ = [d].intercalate (t.splitOn d) := by rw [h]
    _ = t := List.intercalate_splitOn d

/-- Splitting a joined list gives the pieces of its fields. -/
theorem splitOn_intercalate_eq {fs : List (List α)} (h : fs ≠ []) :
    ([d].intercalate fs).splitOn d = pieces d fs := by
  induction fs with
  | nil => exact absurd rfl h
  | cons f fs ih =>
    cases fs with
    | nil => simp
    | cons g gs =>
      rw [List.intercalate_cons_cons, List.append_assoc, List.singleton_append,
        List.splitOn_append_cons_self, ih (List.cons_ne_nil _ _), pieces_cons f]

theorem pieces_eq_of_intercalate_eq {fs gs : List (List α)} (hf : fs ≠ []) (hg : gs ≠ [])
    (h : [d].intercalate fs = [d].intercalate gs) : pieces d fs = pieces d gs := by
  rw [← splitOn_intercalate_eq hf, ← splitOn_intercalate_eq hg, h]

/-- One field may hold anything when the fields around it are free of the delimiter. -/
theorem middle_unique {fs fs' gs gs' : List (List α)} {m m' : List α}
    (hfs : ∀ f ∈ fs, d ∉ f) (hfs' : ∀ f ∈ fs', d ∉ f) (hgs : ∀ g ∈ gs, d ∉ g)
    (hgs' : ∀ g ∈ gs', d ∉ g) (hf : fs.length = fs'.length) (hg : gs.length = gs'.length)
    (h : pieces d (fs ++ m :: gs) = pieces d (fs' ++ m' :: gs')) :
    fs = fs' ∧ m = m' ∧ gs = gs' := by
  simp only [pieces_append, pieces_cons, pieces_of_free hfs, pieces_of_free hfs',
    pieces_of_free hgs, pieces_of_free hgs'] at h
  obtain ⟨h₁, h₂⟩ := List.append_inj h hf
  obtain ⟨h₃, h₄⟩ := List.append_inj' h₂ hg
  exact ⟨h₁, splitOn_injective h₃, h₄⟩

theorem first_unique {gs gs' : List (List α)} {m m' : List α} (hgs : ∀ g ∈ gs, d ∉ g)
    (hgs' : ∀ g ∈ gs', d ∉ g) (hg : gs.length = gs'.length)
    (h : pieces d (m :: gs) = pieces d (m' :: gs')) : m = m' ∧ gs = gs' :=
  (@middle_unique α _ d [] [] gs gs' m m' (List.forall_mem_nil _) (List.forall_mem_nil _) hgs hgs'
    rfl hg h).2

theorem one_le_length_splitOn (s : List α) : 1 ≤ (s.splitOn d).length :=
  List.length_pos_of_ne_nil (List.splitOn_ne_nil d s)

/-- What the splitting leaves is free of the delimiter. -/
theorem not_mem_of_mem_splitOn {s : List α} {f : List α} (h : f ∈ s.splitOn d) : d ∉ f := by
  induction s generalizing f with
  | nil =>
    rw [List.splitOn_nil, List.mem_singleton] at h
    rw [h]
    exact List.not_mem_nil
  | cons x xs ih =>
    rw [List.splitOn_cons_eq_if_modifyHead] at h
    split at h
    · rcases List.mem_cons.mp h with hnil | hmem
      · rw [hnil]
        exact List.not_mem_nil
      · exact ih hmem
    · rename_i hx
      cases hrest : xs.splitOn d with
      | nil => exact absurd hrest (List.splitOn_ne_nil _ _)
      | cons g gs =>
        rw [hrest, List.modifyHead_cons] at h
        rw [hrest] at ih
        rcases List.mem_cons.mp h with hhead | hmem
        · rw [hhead, List.mem_cons]
          intro hor
          rcases hor with heq | hg
          · exact hx (beq_iff_eq.mpr heq.symm)
          · exact ih List.mem_cons_self hg
        · exact ih (List.mem_cons_of_mem _ hmem)

end Delimited
