import FqClient.ShardedScan
import Mathlib.Data.List.TakeWhile
import Mathlib.Data.Nat.Digits.Defs

namespace FqClient.ShardCursors

/-! ## Cursors that were made -/

/-- Different positions make different cursors. -/
theorem position_of_cursor {i j shardCount : ℕ} {c d cursor : Str} (hi : i < shardCount)
    (hj : j < shardCount) (hc : c ≠ []) (hd : d ≠ []) (h : makeShardCursor i c shardCount = .ok cursor)
    (h' : makeShardCursor j d shardCount = .ok cursor) : i = j ∧ c = d := by
  have hparse := (parseShardCursor_make hi hc h).2
  rw [(parseShardCursor_make hj hd h').2] at hparse
  simp only [Except.ok.injEq, Prod.mk.injEq] at hparse
  exact ⟨hparse.1.symm, hparse.2.symm⟩

theorem initial_iff_past {i shardCount : ℕ} {c : Str} :
    makeShardCursor i c shardCount = .ok scanCursorInitial ↔ shardCount ≤ i := by
  constructor
  · intro h
    by_contra hlt
    exact (makeShardCursor_ne (not_le.mp hlt) h).2 rfl
  · exact fun h => if_pos h

/-- A cursor that was made is neither `''` nor `'0'` and reads back as its position, different positions
make different cursors, and `'0'` is made past the last shard only. For a number of shards that a
sequence can have there is a cursor for every position. -/
theorem made_cursors_read_back (shardCount : ℕ) :
    (∀ i c cursor, i < shardCount → c ≠ [] → makeShardCursor i c shardCount = .ok cursor →
      cursor ≠ [] ∧ cursor ≠ scanCursorInitial ∧ parseShardCursor cursor shardCount = .ok (i, c)) ∧
    (∀ i c j d cursor, i < shardCount → j < shardCount → c ≠ [] → d ≠ [] →
      makeShardCursor i c shardCount = .ok cursor → makeShardCursor j d shardCount = .ok cursor →
      i = j ∧ c = d) ∧
    (∀ i c, makeShardCursor i c shardCount = .ok scanCursorInitial ↔ shardCount ≤ i) ∧
    (shardCount ≤ sysMaxsize → ∀ i c, ∃ cursor, makeShardCursor i c shardCount = .ok cursor) := by
  have hsize : sysMaxsize ≤ 10 ^ intMaxStrDigits := by decide +kernel
  refine ⟨?_, ?_, fun _ _ => initial_iff_past, ?_⟩
  · intro i c cursor hi hc h
    exact ⟨(makeShardCursor_ne hi h).1, parseShardCursor_make hi hc h⟩
  · intro i c j d cursor hi hj hc hd h h'
    exact position_of_cursor hi hj hc hd h h'
  · intro hcount i c
    exact makeShardCursor_ok i c (hcount.trans hsize)

theorem made_cursors_of_two :
    parseShardCursor "1:0:x".toList 2 = .ok (1, "0:x".toList) :=
  ((made_cursors_read_back 2).1 1 "0:x".toList "1:0:x".toList (by decide) (by decide) (by decide)).2.2

/-! ## Cursors that are read -/

/-- A run of decimal characters, and its value. -/
def DecimalRun (digits : Str) (value : ℕ) : Prop :=
  digits ≠ [] ∧ (∀ d ∈ digits, decimalValue d ≠ none) ∧
    value = Nat.ofDigits 10 (digits.map fun d => (decimalValue d).getD 0).reverse

/-- A composite cursor that points at a shard. -/
def Composite (cursor : Str) (shardCount i : ℕ) (c : Str) : Prop :=
  ∃ digits, cursor = digits ++ shardCursorSeparator :: c ∧ DecimalRun digits i ∧ i < shardCount ∧ c ≠ []

/-- What is to be made of a cursor: the start of the first shard, or what a composite cursor names. -/
structure Exact (cursor : Str) (shardCount : ℕ) (r : Except Exc (ℕ × Str)) : Prop where
  initial : cursor = [] ∨ cursor = scanCursorInitial → r = .ok (0, scanCursorInitial)
  accepts : ¬ (cursor = [] ∨ cursor = scanCursorInitial) →
    ∀ i c, r = .ok (i, c) ↔ Composite cursor shardCount i c
  rejects : ¬ (cursor = [] ∨ cursor = scanCursorInitial) → (∀ i c, ¬ Composite cursor shardCount i c) →
    ∃ what, r = .error (.corruptedResponse what)

/-- The part before the first separator is digits that `int` does not convert: one is not decimal, or
there are too many. -/
def Unconvertible (cursor : Str) : Prop :=
  ∃ shard c, cursor = shard ++ shardCursorSeparator :: c ∧ shardCursorSeparator ∉ shard ∧ c ≠ [] ∧
    isDigit shard = true ∧ ((∃ d ∈ shard, decimalValue d = none) ∨ intMaxStrDigits < shard.length)

/-- A cursor has no separator, or is split at its first one. -/
theorem partitionCursor_cases (cursor : Str) :
    shardCursorSeparator ∉ cursor ∧ partitionCursor cursor = none ∨
    ∃ shard rest, cursor = shard ++ shardCursorSeparator :: rest ∧ shardCursorSeparator ∉ shard ∧
      partitionCursor cursor = some (shard, rest) := by
  by_cases hsep : shardCursorSeparator ∈ cursor
  · obtain ⟨shard, rest, hcursor, hshard⟩ := List.eq_append_cons_of_mem hsep
    right
    exact ⟨shard, rest, hcursor, hshard, by rw [hcursor, partitionCursor_append hshard]⟩
  · have hdrop : cursor.dropWhile (· ≠ shardCursorSeparator) = [] := by
      rw [List.dropWhile_eq_nil_iff]
      intro d hd
      simpa using fun e : d = shardCursorSeparator => hsep (e ▸ hd)
    left
    refine ⟨hsep, ?_⟩
    unfold partitionCursor
    rw [hdrop]

/-- The text before the first separator is what it is, however the cursor is written down. -/
theorem partition_unique {shard shard' rest rest' : Str} (h : shardCursorSeparator ∉ shard)
    (h' : shardCursorSeparator ∉ shard')
    (heq : shard ++ shardCursorSeparator :: rest = shard' ++ shardCursorSeparator :: rest') :
    shard = shard' ∧ rest = rest' := by
  have hsplit : partitionCursor (shard ++ shardCursorSeparator :: rest) = some (shard, rest) :=
    partitionCursor_append h
  rw [heq, partitionCursor_append h'] at hsplit
  simp only [Option.some.injEq, Prod.mk.injEq] at hsplit
  exact ⟨hsplit.1.symm, hsplit.2.symm⟩

theorem mapM_decimalValue_of_all {s : Str} (h : ∀ d ∈ s, decimalValue d ≠ none) :
    s.mapM decimalValue = some (s.map fun d => (decimalValue d).getD 0) := by
  induction s with
  | nil => simp
  | cons d s ih =>
    obtain ⟨value, hvalue⟩ := Option.ne_none_iff_exists'.mp (h d List.mem_cons_self)
    have hrest := ih fun c hc => h c (List.mem_cons_of_mem d hc)
    simp [List.mapM_cons, hvalue, hrest]

theorem mapM_decimalValue_of_not {s : Str} (h : ¬ ∀ d ∈ s, decimalValue d ≠ none) :
    s.mapM decimalValue = none := by
  induction s with
  | nil => simp at h
  | cons d s ih =>
    rw [List.mapM_cons]
    cases hvalue : decimalValue d with
    | none => rfl
    | some value =>
      have hrest : s.mapM decimalValue = none := ih fun hall => h (by simpa [hvalue] using hall)
      simp [hrest]

theorem foldl_digits (values : List ℕ) :
    values.foldl (fun sum value => 10 * sum + value) 0 = Nat.ofDigits 10 values.reverse := by
  rw [Nat.ofDigits_eq_foldr, List.foldr_reverse]
  congr
  funext sum value
  simp [add_comm]

/-- `int` of a text that is not too long is the value of a run of decimal characters, or fails. -/
theorem strToInt_of_all {s : Str} (hlength : s.length ≤ intMaxStrDigits)
    (h : ∀ d ∈ s, decimalValue d ≠ none) :
    strToInt s = .ok (Nat.ofDigits 10 (s.map fun d => (decimalValue d).getD 0).reverse) := by
  unfold strToInt
  rw [if_neg (not_lt.mpr hlength), mapM_decimalValue_of_all h]
  simp only [foldl_digits]

theorem strToInt_of_not {s : Str} (h : ¬ ∀ d ∈ s, decimalValue d ≠ none) :
    strToInt s = .error .valueError := by
  unfold strToInt
  rw [mapM_decimalValue_of_not h, ite_self]

theorem isDigit_of_run {digits : Str} {value : ℕ} (h : DecimalRun digits value) :
    isDigit digits = true := by
  obtain ⟨hne, hall, _⟩ := h
  unfold isDigit
  simp only [Bool.and_eq_true, Bool.not_eq_true', List.isEmpty_eq_false_iff, List.all_eq_true]
  refine ⟨hne, fun d hd => ?_⟩
  simp [Option.isSome_iff_ne_none, hall d hd]

theorem not_separator_of_run {digits : Str} {value : ℕ} (h : DecimalRun digits value) :
    shardCursorSeparator ∉ digits := fun hmem => h.2.1 _ hmem (by decide)

/-- A composite cursor is split into its run of digits and the cursor of the shard. -/
theorem composite_split {shard rest : Str} {shardCount i : ℕ} {c : Str}
    (h : shardCursorSeparator ∉ shard) :
    Composite (shard ++ shardCursorSeparator :: rest) shardCount i c ↔
      DecimalRun shard i ∧ i < shardCount ∧ c ≠ [] ∧ c = rest := by
  constructor
  · intro ⟨digits, heq, hrun, hi, hc⟩
    obtain ⟨hdigits, hrest⟩ := partition_unique h (not_separator_of_run hrun) heq
    rw [hdigits]
    exact ⟨hrun, hi, hc, hrest.symm⟩
  · intro ⟨hrun, hi, hc, hrest⟩
    exact ⟨shard, by rw [hrest], hrun, hi, hc⟩

theorem not_initial {shard rest : Str} : ¬ (shard ++ shardCursorSeparator :: rest = [] ∨
    shard ++ shardCursorSeparator :: rest = scanCursorInitial) := by
  intro h
  have hmem : shardCursorSeparator ∈ shard ++ shardCursorSeparator :: rest :=
    List.mem_append_right _ List.mem_cons_self
  rcases h with h | h
  · rw [h] at hmem
    exact absurd hmem List.not_mem_nil
  · rw [h] at hmem
    exact absurd hmem (by decide)

/-- What the parser makes of a cursor that is split into digits and a cursor of a shard. -/
theorem parse_split {shard rest : Str} {shardCount : ℕ} (h : shardCursorSeparator ∉ shard)
    (hdigits : isDigit shard = true) (hrest : rest ≠ []) :
    parseShardCursor (shard ++ shardCursorSeparator :: rest) shardCount = (do
      let index ← strToInt shard
      if shardCount ≤ index then .error (.corruptedResponse (.shardCursorOutOfRange index shardCount))
      else .ok (index, rest)) := by
  unfold parseShardCursor
  rw [if_neg not_initial, partitionCursor_append h]
  simp [hdigits, hrest]

theorem unconvertible_split {shard rest : Str} (h : shardCursorSeparator ∉ shard) :
    Unconvertible (shard ++ shardCursorSeparator :: rest) ↔ rest ≠ [] ∧ isDigit shard = true ∧
      ((∃ d ∈ shard, decimalValue d = none) ∨ intMaxStrDigits < shard.length) := by
  constructor
  · intro ⟨shard', c, heq, hshard', hc, hdigits, hbad⟩
    obtain ⟨hshard, hrest⟩ := partition_unique h hshard' heq
    rw [hshard, hrest]
    exact ⟨hc, hdigits, hbad⟩
  · intro ⟨hrest, hdigits, hbad⟩
    exact ⟨shard, rest, rfl, h, hrest, hdigits, hbad⟩

/-- A rejection is what is to be made of a cursor that is not composite. -/
theorem exact_rejected {cursor : Str} {shardCount : ℕ} {what : Corruption}
    (hinitial : ¬ (cursor = [] ∨ cursor = scanCursorInitial))
    (hnot : ∀ i c, ¬ Composite cursor shardCount i c) :
    Exact cursor shardCount (.error (.corruptedResponse what)) where
  initial h := absurd h hinitial
  accepts _ i c := by simp [hnot i c]
  rejects _ _ := ⟨what, rfl⟩

/-- Another exception is never what is to be made of a cursor. -/
theorem not_exact_valueError {cursor : Str} {shardCount : ℕ}
    (hinitial : ¬ (cursor = [] ∨ cursor = scanCursorInitial)) :
    ¬ Exact cursor shardCount (.error .valueError) := by
  intro h
  by_cases hcomposite : ∃ i c, Composite cursor shardCount i c
  · obtain ⟨i, c, hic⟩ := hcomposite
    have hok := (h.accepts hinitial i c).mpr hic
    cases hok
  · simp only [not_exists] at hcomposite
    obtain ⟨what, hwhat⟩ := h.rejects hinitial hcomposite
    cases hwhat

/-- A run of digits before a cursor of a shard: `int` takes it exactly when it is decimal and not too
long, and then it is exact. -/
theorem exact_split_iff {shard rest : Str} {shardCount : ℕ} (h : shardCursorSeparator ∉ shard)
    (hdigits : isDigit shard = true) (hrest : rest ≠ []) :
    Exact (shard ++ shardCursorSeparator :: rest) shardCount
      (parseShardCursor (shard ++ shardCursorSeparator :: rest) shardCount) ↔
      (∀ d ∈ shard, decimalValue d ≠ none) ∧ shard.length ≤ intMaxStrDigits := by
  rw [parse_split h hdigits hrest]
  have hne : shard ≠ [] := by
    intro e
    rw [e] at hdigits
    exact absurd hdigits (by decide)
  by_cases hshort : shard.length ≤ intMaxStrDigits
  · by_cases hall : ∀ d ∈ shard, decimalValue d ≠ none
    · rw [strToInt_of_all hshort hall]
      have hvalue : ∀ i, DecimalRun shard i ↔
          i = Nat.ofDigits 10 (shard.map fun d => (decimalValue d).getD 0).reverse := by
        intro i
        exact ⟨fun hrun => hrun.2.2, fun hi => ⟨hne, hall, hi⟩⟩
      generalize Nat.ofDigits 10 (shard.map fun d => (decimalValue d).getD 0).reverse = value at hvalue
      refine iff_of_true ?_ ⟨hall, hshort⟩
      change Exact _ _ (if shardCount ≤ value then _ else _)
      by_cases hrange : shardCount ≤ value
      · rw [if_pos hrange]
        apply exact_rejected not_initial
        intro i c
        rw [composite_split h, hvalue]
        omega
      · rw [if_neg hrange]
        refine ⟨fun e => absurd e not_initial, fun _ i c => ?_, fun _ hnot => ?_⟩
        · rw [composite_split h, hvalue]
          simp only [Except.ok.injEq, Prod.mk.injEq]
          constructor
          · rintro ⟨rfl, rfl⟩
            exact ⟨rfl, not_le.mp hrange, hrest, rfl⟩
          · rintro ⟨rfl, _, _, rfl⟩
            exact ⟨rfl, rfl⟩
        · have hthis := hnot value rest
          rw [composite_split h, hvalue] at hthis
          exact absurd ⟨rfl, not_le.mp hrange, hrest, rfl⟩ hthis
    · rw [strToInt_of_not hall]
      exact iff_of_false (not_exact_valueError not_initial) fun hboth => hall hboth.1
  · rw [show strToInt shard = .error .valueError from if_pos (not_le.mp hshort)]
    exact iff_of_false (not_exact_valueError not_initial) fun hboth => hshort hboth.2

/-- The parser accepts exactly the composite cursors, and rejects all others as corrupted, unless the
part before the first separator is a run of digits that `int` does not convert. -/
theorem cursor_grammar_exact_iff (cursor : Str) (shardCount : ℕ) :
    Exact cursor shardCount (parseShardCursor cursor shardCount) ↔ ¬ Unconvertible cursor := by
  rcases partitionCursor_cases cursor with ⟨hsep, hnone⟩ | ⟨shard, rest, hcursor, hshard, _⟩
  · refine iff_of_true ?_ ?_
    · by_cases hinitial : cursor = [] ∨ cursor = scanCursorInitial
      · refine ⟨fun _ => if_pos hinitial, fun hnot => absurd hinitial hnot, fun hnot =>
          absurd hinitial hnot⟩
      · unfold parseShardCursor
        rw [if_neg hinitial, hnone]
        apply exact_rejected hinitial
        intro i c ⟨digits, heq, _⟩
        apply hsep
        rw [heq]
        exact List.mem_append_right _ List.mem_cons_self
    · intro ⟨shard, c, heq, _⟩
      apply hsep
      rw [heq]
      exact List.mem_append_right _ List.mem_cons_self
  · rw [hcursor, unconvertible_split hshard]
    by_cases hgood : rest ≠ [] ∧ isDigit shard = true
    · rw [exact_split_iff hshard hgood.2 hgood.1]
      simp [hgood.1, hgood.2]
    · refine iff_of_true ?_ fun hbad => hgood ⟨hbad.1, hbad.2.1⟩
      unfold parseShardCursor
      rw [if_neg not_initial, partitionCursor_append hshard]
      dsimp only
      rw [if_pos (by by_contra hnot; apply hgood; simpa using hnot)]
      apply exact_rejected not_initial
      intro i c
      rw [composite_split hshard]
      intro ⟨hrun, _, hc, hrest⟩
      exact hgood ⟨hrest ▸ hc, isDigit_of_run hrun⟩

/-- `²` is a digit that is not decimal. -/
theorem superscript_cursor_fails :
    ¬ ∀ cursor shardCount, 1 ≤ shardCount →
      Exact cursor shardCount (parseShardCursor cursor shardCount) := by
  intro h
  have hexact := h "²:5".toList 3 (by decide)
  rw [show parseShardCursor "²:5".toList 3 = .error .valueError by decide +kernel] at hexact
  exact not_exact_valueError (by decide) hexact

end FqClient.ShardCursors
