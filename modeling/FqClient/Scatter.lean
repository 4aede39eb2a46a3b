import Mathlib.Data.List.Induction
import Mathlib.Data.List.Nodup
import Mathlib.Logic.Function.Basic

/-! Splitting a list by key, answering the parts one by one and putting the answers back. -/

namespace Scatter

/-! ## Groups -/

section Group
variable {κ α : Type} [DecidableEq κ]

/-- Appends an item to the group of its key; a new key opens a group at the end. -/
def add : List (κ × List α) → κ → α → List (κ × List α)
  | [], k, x => [(k, [x])]
  | (k', xs) :: groups, k, x =>
    if k' = k then (k', xs ++ [x]) :: groups else (k', xs) :: add groups k x

def group (items : List (κ × α)) : List (κ × List α) :=
  items.foldl (fun groups i => add groups i.1 i.2) []

/-- The distinct keys, in the order of their first items. -/
def keys (items : List (κ × α)) : List κ :=
  items.foldl (fun ks i => if i.1 ∈ ks then ks else ks ++ [i.1]) []

/-- The items of one key, in order. -/
def part (items : List (κ × α)) (k : κ) : List α := (items.filter (·.1 = k)).map (·.2)

theorem mem_part {items : List (κ × α)} {k : κ} {x : α} : x ∈ part items k ↔ (k, x) ∈ items := by
  simp [part]

theorem part_concat (items : List (κ × α)) (i : κ × α) (k : κ) :
    part (items ++ [i]) k = if k = i.1 then part items k ++ [i.2] else part items k := by
  unfold part
  by_cases h : k = i.1
  · simp [h]
  · have h' : ¬ i.1 = k := fun e => h e.symm
    simp [h, h']

theorem keys_concat (items : List (κ × α)) (i : κ × α) :
    keys (items ++ [i]) = if i.1 ∈ keys items then keys items else keys items ++ [i.1] := by
  rw [keys, List.foldl_append]
  rfl

theorem mem_keys {items : List (κ × α)} {k : κ} : k ∈ keys items ↔ ∃ x, (k, x) ∈ items := by
  induction items using List.reverseRecOn with
  | nil => simp [keys]
  | append_singleton items i ih =>
    obtain ⟨k', x'⟩ := i
    rw [keys_concat]
    by_cases h : k' ∈ keys items
    · rw [if_pos h, ih]
      constructor
      · rintro ⟨x, hx⟩
        exact ⟨x, List.mem_append_left _ hx⟩
      · rintro ⟨x, hx⟩
        rcases List.mem_append.mp hx with hx | hx
        · exact ⟨x, hx⟩
        · obtain ⟨rfl, -⟩ := Prod.mk.inj (List.mem_singleton.mp hx)
          exact ih.mp h
    · rw [if_neg h, List.mem_append, ih, List.mem_singleton]
      simp only [List.mem_append, List.mem_singleton, Prod.mk.injEq, exists_or]
      simp

theorem keys_nodup (items : List (κ × α)) : (keys items).Nodup := by
  induction items using List.reverseRecOn with
  | nil => exact List.nodup_nil
  | append_singleton items i ih =>
    rw [keys_concat]
    split
    · exact ih
    · rename_i h
      exact List.nodup_append.mpr ⟨ih, List.nodup_singleton _, by
        intro a ha b hb
        rw [List.mem_singleton.mp hb]
        exact fun e => h (e ▸ ha)⟩

theorem add_map {ks : List κ} (hks : ks.Nodup) (f : κ → List α) (k : κ) (x : α) :
    add (ks.map fun k' => (k', f k')) k x =
      if k ∈ ks then ks.map fun k' => (k', if k' = k then f k' ++ [x] else f k')
      else (ks.map fun k' => (k', f k')) ++ [(k, [x])] := by
  induction ks with
  | nil => rfl
  | cons k' ks ih =>
    obtain ⟨hk', hks⟩ := List.nodup_cons.mp hks
    by_cases h : k' = k
    · subst h
      have hrest : ∀ k ∈ ks, ¬ k = k' := fun k hk e => hk' (e ▸ hk)
      simp only [List.map_cons, add, if_true, List.mem_cons_self]
      congr 1
      exact List.map_congr_left fun k hk => by rw [if_neg (hrest k hk)]
    · have h' : ¬ k = k' := fun e => h e.symm
      simp only [List.map_cons, add, if_neg h, ih hks, List.mem_cons, h', false_or]
      split <;> rfl

/-- The groups are the parts of the distinct keys. -/
theorem group_eq (items : List (κ × α)) :
    group items = (keys items).map fun k => (k, part items k) := by
  induction items using List.reverseRecOn with
  | nil => rfl
  | append_singleton items i ih =>
    have hg : group (items ++ [i]) = add (group items) i.1 i.2 := by
      simp [group, List.foldl_append]
    rw [hg, ih, add_map (keys_nodup items), keys_concat]
    by_cases h : i.1 ∈ keys items
    · simp only [if_pos h, part_concat]
    · have hnew : part items i.1 = [] := List.eq_nil_iff_forall_not_mem.mpr fun x hx =>
        h (mem_keys.mpr ⟨x, mem_part.mp hx⟩)
      have hold : ∀ k ∈ keys items, ¬ k = i.1 := fun k hk e => h (e ▸ hk)
      simp only [if_neg h, List.map_append, List.map_cons, List.map_nil, part_concat, if_true, hnew,
        List.nil_append]
      congr 1
      exact List.map_congr_left fun k hk => by rw [if_neg (hold k hk)]

end Group

/-! ## Cells -/

section Cells
variable {κ α β S : Type} [DecidableEq κ]

/-- Answers a list of requests in order, each from the state of its own cell. -/
def serve (cell : α → κ) (answer : α → S → β × S) : List α → (κ → S) → List β × (κ → S)
  | [], st => ([], st)
  | x :: xs, st =>
    let r := answer x (st (cell x))
    let rest := serve cell answer xs (Function.update st (cell x) r.2)
    (r.1 :: rest.1, rest.2)

variable (cell : α → κ) (answer : α → S → β × S)

theorem length_serve (xs : List α) (st : κ → S) :
    (serve cell answer xs st).1.length = xs.length := by
  induction xs generalizing st with
  | nil => rfl
  | cons x xs ih => simp [serve, ih]

/-- Requests to other cells change neither the answers nor the final states of these cells. -/
theorem serve_filter (P : κ → Prop) [DecidablePred P] (xs : List α) {st st' : κ → S}
    (h : ∀ k, P k → st k = st' k) :
    (((xs.zip (serve cell answer xs st).1).filter fun p => P (cell p.1)) =
      (xs.filter fun x => P (cell x)).zip
        (serve cell answer (xs.filter fun x => P (cell x)) st').1) ∧
    ∀ k, P k → (serve cell answer xs st).2 k =
      (serve cell answer (xs.filter fun x => P (cell x)) st').2 k := by
  induction xs generalizing st st' with
  | nil => exact ⟨rfl, h⟩
  | cons x xs ih =>
    by_cases hx : P (cell x)
    · have hupd : ∀ k, P k → Function.update st (cell x) (answer x (st (cell x))).2 k =
          Function.update st' (cell x) (answer x (st' (cell x))).2 k := by
        intro k hk
        rw [h _ hx]
        by_cases e : k = cell x
        · subst e; simp
        · simp [e, h k hk]
      obtain ⟨h₁, h₂⟩ := ih hupd
      rw [h _ hx] at h₁ h₂
      simp only [serve, List.zip_cons_cons, List.filter_cons, hx, decide_true, if_true, h _ hx, h₁]
      exact ⟨trivial, h₂⟩
    · have hupd : ∀ k, P k →
          Function.update st (cell x) (answer x (st (cell x))).2 k = st' k := by
        intro k hk
        have e : k ≠ cell x := fun e => hx (e ▸ hk)
        rw [Function.update_of_ne e, h k hk]
      obtain ⟨h₁, h₂⟩ := ih hupd
      simp only [serve, List.zip_cons_cons, List.filter_cons, hx, decide_false, h₁]
      exact ⟨rfl, h₂⟩

theorem serve_map {γ : Type} (f : γ → α) (xs : List γ) (st : κ → S) :
    serve (cell ∘ f) (answer ∘ f) xs st = serve cell answer (xs.map f) st := by
  induction xs generalizing st with
  | nil => rfl
  | cons x xs ih => simp only [serve, List.map_cons, Function.comp_apply, ih]

/-- A cell that no request names keeps its state. -/
theorem serve_untouched (xs : List α) (st : κ → S) {k : κ} (h : ∀ x ∈ xs, cell x ≠ k) :
    (serve cell answer xs st).2 k = st k := by
  induction xs generalizing st with
  | nil => rfl
  | cons x xs ih =>
    simp only [serve]
    rw [ih _ fun y hy => h y (List.mem_cons_of_mem _ hy),
      Function.update_of_ne (h x List.mem_cons_self).symm]

theorem mem_zip_zipIdx {xs : List α} {ys : List β} {x : α} {p : ℕ} {y : β} :
    ((x, p), y) ∈ xs.zipIdx.zip ys ↔ xs[p]? = some x ∧ ys[p]? = some y := by
  rw [List.mem_iff_getElem?]
  constructor
  · rintro ⟨i, hi⟩
    obtain ⟨hx, hy⟩ := List.getElem?_zip_eq_some.mp hi
    rw [List.getElem?_zipIdx] at hx
    obtain ⟨x', hx', he⟩ := Option.map_eq_some_iff.mp hx
    obtain ⟨rfl, rfl⟩ := Prod.mk.inj he
    rw [Nat.zero_add]
    exact ⟨hx', hy⟩
  · rintro ⟨hx, hy⟩
    refine ⟨p, List.getElem?_zip_eq_some.mpr ⟨?_, hy⟩⟩
    rw [List.getElem?_zipIdx, hx, Nat.zero_add]
    rfl

end Cells

/-! ## Putting answers back -/

section Place
variable {β : Type}

/-- Writes each answer to its position. -/
def place (answers : List (ℕ × β)) (results : List β) : List β :=
  answers.foldl (fun results a => results.set a.1 a.2) results

theorem place_append (answers answers' : List (ℕ × β)) (results : List β) :
    place (answers ++ answers') results = place answers' (place answers results) :=
  List.foldl_append

theorem getElem?_place_of_not_mem {answers : List (ℕ × β)} {p : ℕ} (h : p ∉ answers.map (·.1))
    (results : List β) : (place answers results)[p]? = results[p]? := by
  induction answers generalizing results with
  | nil => rfl
  | cons a answers ih =>
    simp only [List.map_cons, List.mem_cons, not_or] at h
    have hrest := ih h.2 (results.set a.1 a.2)
    rw [List.getElem?_set_ne (Ne.symm h.1)] at hrest
    exact hrest

/-- With one answer for each position, every answer stays where it is written. -/
theorem getElem?_place {answers : List (ℕ × β)} (hnodup : (answers.map (·.1)).Nodup) {p : ℕ} {b : β}
    (hmem : (p, b) ∈ answers) {results : List β} (hp : p < results.length) :
    (place answers results)[p]? = some b := by
  induction answers generalizing results with
  | nil => cases hmem
  | cons a answers ih =>
    simp only [List.map_cons, List.nodup_cons] at hnodup
    rcases List.mem_cons.mp hmem with heq | hmem
    · subst heq
      have hkept := getElem?_place_of_not_mem hnodup.1 (results.set p b)
      rw [List.getElem?_set_self hp] at hkept
      exact hkept
    · apply ih hnodup.2 hmem
      simpa using hp

/-- Answers that agree with a list and cover its positions restore it. -/
theorem place_eq {answers : List (ℕ × β)} {results target : List β}
    (hlen : results.length = target.length)
    (hagree : ∀ a ∈ answers, target[a.1]? = some a.2)
    (hcover : ∀ p < target.length, ∃ a ∈ answers, a.1 = p) : place answers results = target := by
  have key : ∀ (answers : List (ℕ × β)) (results : List β), results.length = target.length →
      (∀ a ∈ answers, target[a.1]? = some a.2) →
      ∀ p, ((∃ a ∈ answers, a.1 = p) ∨ results[p]? = target[p]?) →
        (place answers results)[p]? = target[p]? := by
    intro answers
    induction answers with
    | nil =>
      intro results _ _ p hp
      rcases hp with ⟨a, ha, -⟩ | hp
      · cases ha
      · exact hp
    | cons a answers ih =>
      intro results hlen hagree p hp
      have ha := hagree a List.mem_cons_self
      obtain ⟨hlt, -⟩ := List.getElem?_eq_some_iff.mp ha
      apply ih _ (List.length_set.trans hlen) fun b hb => hagree b (List.mem_cons_of_mem _ hb)
      by_cases e : a.1 = p
      · right
        rw [← e, ha, List.getElem?_set_self (hlen ▸ hlt)]
      · rcases hp with ⟨b, hb, hbp⟩ | hp
        · rcases List.mem_cons.mp hb with rfl | hb
          · exact absurd hbp e
          · exact Or.inl ⟨b, hb, hbp⟩
        · right
          rw [List.getElem?_set_ne e, hp]
  apply List.ext_getElem?
  intro p
  apply key answers results hlen hagree
  by_cases hp : p < target.length
  · exact Or.inl (hcover p hp)
  · right
    rw [List.getElem?_eq_none (by omega), List.getElem?_eq_none (by omega)]

end Place

end Scatter
