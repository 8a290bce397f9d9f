import MiniDos.Edit.Grid
import MiniDos.Lib.Search
import Mathlib.Data.Prod.Lex
import Mathlib.Algebra.GroupWithZero.Nat
import Mathlib.Algebra.Order.Group.Int

/-!
# MiniDos.Edit.Search

The search of the editor and its replacement of all occurrences.

* `Grid.hits`: the places of a query in reading order, on the used parts of the lines.
* `findTextForward_iff`, `findTextBackward_iff`: the search finds the first one from a place on, the
  last one up to a place.
* `replaceInLine_spec`: a line becomes the text with the leftmost occurrences replaced, as far as it
  fits on the line.
-/

namespace MiniDos
namespace Edit

open Sheet Search

variable {startCol : Int} {startRow : Nat}

/-! ## The code -/

def charLower (c : UInt8) : UInt8 := if 0x41 ≤ c ∧ c ≤ 0x5A then c + 0x20 else c

def Cell.lower (c : Cell) : UInt8 := charLower c.val

/-- `str_contains_at_ci`, for a `hay` of the length `hay_len`. -/
def strContainsAtCi (hay : Text) (pos : Nat) (needle : Text) : Bool :=
  if needle.length = 0 ∨ hay.length < pos + needle.length then false
  else (List.range needle.length).all fun i =>
    Cell.lower (hay.getD (pos + i) space) == Cell.lower (needle.getD i space)

/-- The columns of a line that the forward search looks at, from column `start` on. -/
def colsForward (line : Line) (query : Text) (start : Nat) : List Nat :=
  if lineUsedLen line < query.length then []
  else List.range' start (lineUsedLen line - query.length + 1 - start)

/-- `find_text_forward`. -/
def findTextForward (lines : Grid) (query : Text) (startRow : Nat) (startCol : Int) :
    Option (Nat × Nat) :=
  if query.length = 0 then none
  else (List.range' startRow (editRows - startRow)).findSome? fun r =>
    let start := if r = startRow then startCol.toNat else 0
    ((colsForward (lines.row r) query start).find? fun c =>
      strContainsAtCi (lines.text r) c query).map fun c => (r, c)

/-- The columns of a line that the backward search looks at, from column `bound` down. -/
def colsBackward (line : Line) (query : Text) (bound : Option Int) : List Nat :=
  if lineUsedLen line < query.length then []
  else
    let start : Int := (lineUsedLen line - query.length : Nat)
    let start := match bound with
      | none => start
      | some startCol => if startCol < start then startCol else start
    (List.range (start + 1).toNat).reverse

/-- `find_text_backward`. -/
def findTextBackward (lines : Grid) (query : Text) (startRow : Nat) (startCol : Int) :
    Option (Nat × Nat) :=
  if query.length = 0 then none
  else (List.range (startRow + 1)).reverse.findSome? fun r =>
    let bound := if r = startRow then some startCol else none
    ((colsBackward (lines.row r) query bound).find? fun c =>
      strContainsAtCi (lines.text r) c query).map fun c => (r, c)

/-- `set_line_from_text`. -/
def setLineFromText (t : Text) : Line := ofText space t

def mergeLoop (t find repl : Text) : Nat → Nat → Text → Nat → Text × Nat
  | 0, _, out, n => (out, n)
  | fuel + 1, i, out, n =>
    if i < t.length ∧ out.length < editCols then
      if i + find.length ≤ t.length ∧ strContainsAtCi t i find then
        mergeLoop t find repl fuel (i + find.length) (out ++ repl.take (editCols - out.length)) (n + 1)
      else mergeLoop t find repl fuel (i + 1) (out ++ [t.getD i space]) n
    else (out, n)

def replaceInLine (line : Line) (find repl : Text) : Line × Nat :=
  let t := text space line
  let (merged, n) := mergeLoop t find repl t.length 0 [] 0
  (if 0 < n then setLineFromText merged else line, n)

/-- `replace_all_occurrences`. -/
def replaceAllOccurrences (lines : Grid) (find repl : Text) : Grid × Nat :=
  if find.length = 0 then (lines, 0)
  else (fun r => (replaceInLine (lines r) find repl).1,
    ((List.range editRows).map fun r => (replaceInLine (lines.row r) find repl).2).sum)

/-! ## What the search finds -/

theorem getD_drop {α : Type*} (l : List α) (d : α) (p i : Nat) : (l.drop p).getD i d = l.getD (p + i) d := by
  rw [List.getD_eq_getElem?_getD, List.getElem?_drop, List.getD_eq_getElem?_getD]

theorem strContainsAtCi_iff {hay needle : Text} {pos : Nat} :
    strContainsAtCi hay pos needle = true ↔ OccursAt Cell.lower needle hay pos := by
  rw [strContainsAtCi]
  split
  · rename_i h
    constructor
    · intro hfalse
      cases hfalse
    · intro hocc
      have hpos := List.length_pos_iff.mpr hocc.1
      have hlen := hocc.length_le
      omega
  · rename_i h
    have hne : needle ≠ [] := fun e => h (.inl (List.length_eq_zero_iff.mpr e))
    have hroom : needle.length ≤ (hay.drop pos).length := by
      rw [List.length_drop]
      omega
    rw [OccursAt, List.prefix_iff_getElem, List.all_eq_true]
    constructor
    · intro hall
      refine ⟨hne, by simpa using hroom, ?_⟩
      intro i hi
      have hi' : i < needle.length := by simpa using hi
      have hcell := hall i (List.mem_range.mpr hi')
      rw [beq_iff_eq, ← getD_drop, List.getD_eq_getElem _ _ (by omega), List.getD_eq_getElem _ _ hi'] at hcell
      rw [List.getElem_map, List.getElem_map]
      exact hcell.symm
    · rintro ⟨_, hlen, hcells⟩ i hi
      rw [List.mem_range] at hi
      have hcell := hcells i (by simpa using hi)
      rw [List.getElem_map, List.getElem_map] at hcell
      rw [beq_iff_eq, ← getD_drop, List.getD_eq_getElem _ _ (by omega), List.getD_eq_getElem _ _ hi]
      exact hcell.symm

/-- A row and a column, in reading order. -/
def place (p : Nat × Nat) : ℕ ×ₗ ℤ := toLex (p.1, (p.2 : ℤ))

theorem place_injective : Function.Injective place := by
  rintro ⟨r, c⟩ ⟨r', c'⟩ h
  obtain ⟨hr, hc⟩ := Prod.mk.inj (congrArg ofLex h)
  exact Prod.ext hr (Int.ofNat.inj hc)

theorem place_lt {r c r' c' : Nat} : place (r, c) < place (r', c') ↔ r < r' ∨ r = r' ∧ c < c' := by
  simp [place, Prod.Lex.toLex_lt_toLex]

/-- Where a query occurs in the used part of a line. -/
def Grid.hits (lines : Grid) (query : Text) : Set (ℕ ×ₗ ℤ) :=
  {p | ∃ r c, place (r, c) = p ∧ r < editRows ∧ OccursAt Cell.lower query (lines.text r) c}

section Find

variable {lines : Grid} {query : Text} {rows : List Nat} {cols : Nat → List Nat}

def hit (lines : Grid) (query : Text) (p : ℕ ×ₗ ℤ) : Bool :=
  strContainsAtCi (lines.text (ofLex p).1) (ofLex p).2.toNat query

def places (rows : List Nat) (cols : Nat → List Nat) : List (ℕ ×ₗ ℤ) :=
  rows.flatMap fun r => (cols r).map fun c => place (r, c)

theorem mem_places {p : ℕ ×ₗ ℤ} : p ∈ places rows cols ↔
    ∃ r c, place (r, c) = p ∧ r ∈ rows ∧ c ∈ cols r := by
  simp only [places, List.mem_flatMap, List.mem_map]
  constructor
  · rintro ⟨r, hr, c, hc, rfl⟩
    exact ⟨r, c, rfl, hr, hc⟩
  · rintro ⟨r, c, rfl, hr, hc⟩
    exact ⟨r, hr, c, hc, rfl⟩

theorem map_place_findSome? : (rows.findSome? fun r =>
    ((cols r).find? fun c => strContainsAtCi (lines.text r) c query).map fun c => (r, c)).map place =
      (places rows cols).find? (hit lines query) := by
  rw [places, List.find?_flatMap, List.map_findSome?]
  congr 1
  funext r
  rw [List.find?_map, Function.comp, Option.map_map]
  rfl

theorem places_pairwise {lt : Nat → Nat → Prop} {lex : ℕ ×ₗ ℤ → ℕ ×ₗ ℤ → Prop}
    (hrows : rows.Pairwise lt) (hcols : ∀ r, (cols r).Pairwise lt)
    (hlex : ∀ r c r' c', lt r r' ∨ r = r' ∧ lt c c' → lex (place (r, c)) (place (r', c'))) :
    (places rows cols).Pairwise lex := by
  rw [places, List.pairwise_flatMap]
  constructor
  · intro r _
    rw [List.pairwise_map]
    exact (hcols r).imp fun h => hlex _ _ _ _ (.inr ⟨rfl, h⟩)
  · refine hrows.imp ?_
    intro r r' hr p hp p' hp'
    obtain ⟨c, _, rfl⟩ := List.mem_map.mp hp
    obtain ⟨c', _, rfl⟩ := List.mem_map.mp hp'
    exact hlex _ _ _ _ (.inl hr)

theorem mem_places_hit {p : ℕ ×ₗ ℤ} : p ∈ places rows cols ∧ hit lines query p = true ↔
    ∃ r c, place (r, c) = p ∧ (r ∈ rows ∧ c ∈ cols r) ∧ OccursAt Cell.lower query (lines.text r) c := by
  rw [mem_places]
  constructor
  · rintro ⟨⟨r, c, rfl, hmem⟩, hhit⟩
    exact ⟨r, c, rfl, hmem, strContainsAtCi_iff.mp hhit⟩
  · rintro ⟨r, c, rfl, hmem, hocc⟩
    exact ⟨⟨r, c, rfl, hmem⟩, strContainsAtCi_iff.mpr hocc⟩

/-- The places from `(startRow, startCol)` on that the forward search looks at. -/
theorem forward_hits :
    {p | p ∈ places (List.range' startRow (editRows - startRow)) (fun r =>
        colsForward (lines.row r) query (if r = startRow then startCol.toNat else 0)) ∧
      hit lines query p = true} =
      {p | p ∈ lines.hits query ∧ toLex (startRow, startCol) ≤ p} := by
  ext p
  rw [Set.mem_ofPred_eq, mem_places_hit, Set.mem_ofPred_eq]
  constructor
  · rintro ⟨r, c, rfl, ⟨hr, hc⟩, hocc⟩
    rw [List.mem_range'_1] at hr
    refine ⟨⟨r, c, rfl, by omega, hocc⟩, ?_⟩
    rw [place, Prod.Lex.toLex_le_toLex]
    by_cases hstart : r = startRow
    · rw [colsForward, if_pos hstart] at hc
      split at hc
      · cases hc
      · rw [List.mem_range'_1] at hc
        exact .inr ⟨hstart.symm, by simp only; omega⟩
    · exact .inl (by simp only; omega)
  · rintro ⟨⟨r, c, rfl, hr, hocc⟩, hle⟩
    rw [place, Prod.Lex.toLex_le_toLex] at hle
    simp only at hle
    have hlen := hocc.length_le
    rw [Grid.text, length_text, ← lineUsedLen] at hlen
    refine ⟨r, c, rfl, ⟨?_, ?_⟩, hocc⟩
    · rw [List.mem_range'_1]
      omega
    · rw [colsForward, if_neg (by omega), List.mem_range'_1]
      split
      · omega
      · omega

/-- The places up to `(startRow, startCol)` that the backward search looks at. -/
theorem backward_hits (hrow : startRow < editRows) :
    {p | p ∈ places (List.range (startRow + 1)).reverse (fun r =>
        colsBackward (lines.row r) query (if r = startRow then some startCol else none)) ∧
      hit lines query p = true} =
      {p | p ∈ lines.hits query ∧ p ≤ toLex (startRow, startCol)} := by
  ext p
  rw [Set.mem_ofPred_eq, mem_places_hit, Set.mem_ofPred_eq]
  constructor
  · rintro ⟨r, c, rfl, ⟨hr, hc⟩, hocc⟩
    rw [List.mem_reverse, List.mem_range] at hr
    refine ⟨⟨r, c, rfl, by omega, hocc⟩, ?_⟩
    rw [place, Prod.Lex.toLex_le_toLex]
    by_cases hstart : r = startRow
    · rw [colsBackward, if_pos hstart] at hc
      split at hc
      · cases hc
      · simp only [List.mem_reverse, List.mem_range] at hc
        refine .inr ⟨hstart, ?_⟩
        simp only
        split at hc <;> omega
    · exact .inl (by simp only; omega)
  · rintro ⟨⟨r, c, rfl, hr, hocc⟩, hle⟩
    rw [place, Prod.Lex.toLex_le_toLex] at hle
    simp only at hle
    have hlen := hocc.length_le
    rw [Grid.text, length_text, ← lineUsedLen] at hlen
    refine ⟨r, c, rfl, ⟨?_, ?_⟩, hocc⟩
    · rw [List.mem_reverse, List.mem_range]
      omega
    · rw [colsBackward, if_neg (by omega)]
      simp only [List.mem_reverse, List.mem_range]
      by_cases hstart : r = startRow
      · rw [if_pos hstart]
        simp only
        split <;> omega
      · rw [if_neg hstart]
        simp only
        omega

theorem hits_nil (h : query.length = 0) : lines.hits query = ∅ := by
  rw [Set.eq_empty_iff_forall_notMem]
  rintro p ⟨r, c, _, _, hocc⟩
  exact hocc.1 (List.length_eq_zero_iff.mp h)

theorem pairwise_colsForward (line : Line) (start : Nat) :
    (colsForward line query start).Pairwise (· < ·) := by
  rw [colsForward]
  split
  · exact .nil
  · exact List.pairwise_lt_range'

theorem pairwise_colsBackward (line : Line) (bound : Option Int) :
    (colsBackward line query bound).Pairwise (· > ·) := by
  rw [colsBackward]
  split
  · exact .nil
  · exact List.pairwise_reverse.mpr List.pairwise_lt_range

theorem map_place_eq_some {x : Option (Nat × Nat)} {r c : Nat} :
    x.map place = some (place (r, c)) ↔ x = some (r, c) := by
  rw [← Option.map_some]
  exact (Option.map_injective place_injective).eq_iff

theorem findTextForward_map (h : query.length ≠ 0) (startRow : Nat) (startCol : Int) :
    (findTextForward lines query startRow startCol).map place =
      (places (List.range' startRow (editRows - startRow)) (fun r => colsForward (lines.row r) query
        (if r = startRow then startCol.toNat else 0))).find? (hit lines query) := by
  rw [findTextForward, if_neg h]
  exact map_place_findSome?

theorem findTextBackward_map (h : query.length ≠ 0) (startRow : Nat) (startCol : Int) :
    (findTextBackward lines query startRow startCol).map place =
      (places (List.range (startRow + 1)).reverse (fun r => colsBackward (lines.row r) query
        (if r = startRow then some startCol else none))).find? (hit lines query) := by
  rw [findTextBackward, if_neg h]
  exact map_place_findSome?

theorem findTextForward_iff {startRow r c : Nat} :
    findTextForward lines query startRow startCol = some (r, c) ↔
      IsLeast {p | p ∈ lines.hits query ∧ toLex (startRow, startCol) ≤ p} (place (r, c)) := by
  by_cases h : query.length = 0
  · rw [findTextForward, if_pos h, hits_nil h]
    simp [IsLeast]
  · rw [← forward_hits, ← find?_isLeast, ← findTextForward_map h, map_place_eq_some]
    refine places_pairwise List.pairwise_lt_range' (fun r => pairwise_colsForward _ _) ?_
    exact fun r c r' c' hlt => place_lt.mpr hlt

theorem findTextForward_none :
    findTextForward lines query startRow startCol = none ↔
      {p | p ∈ lines.hits query ∧ toLex (startRow, startCol) ≤ p} = ∅ := by
  by_cases h : query.length = 0
  · rw [findTextForward, if_pos h, hits_nil h]
    simp
  · rw [← forward_hits, ← Option.map_eq_none_iff (f := place), findTextForward_map h,
      List.find?_eq_none, Set.eq_empty_iff_forall_notMem]
    simp only [Set.mem_ofPred_eq, not_and]

theorem findTextBackward_iff {startRow r c : Nat} (hrow : startRow < editRows) :
    findTextBackward lines query startRow startCol = some (r, c) ↔
      IsGreatest {p | p ∈ lines.hits query ∧ p ≤ toLex (startRow, startCol)} (place (r, c)) := by
  by_cases h : query.length = 0
  · rw [findTextBackward, if_pos h, hits_nil h]
    simp [IsGreatest]
  · rw [← backward_hits hrow, ← find?_isGreatest, ← findTextBackward_map h, map_place_eq_some]
    refine places_pairwise (List.pairwise_reverse.mpr List.pairwise_lt_range)
      (fun r => pairwise_colsBackward _ _) ?_
    rintro r c r' c' (hr | ⟨hr, hc⟩)
    · exact place_lt.mpr (.inl hr)
    · exact place_lt.mpr (.inr ⟨hr.symm, hc⟩)

theorem findTextBackward_none (hrow : startRow < editRows) :
    findTextBackward lines query startRow startCol = none ↔
      {p | p ∈ lines.hits query ∧ p ≤ toLex (startRow, startCol)} = ∅ := by
  by_cases h : query.length = 0
  · rw [findTextBackward, if_pos h, hits_nil h]
    simp
  · rw [← backward_hits hrow, ← Option.map_eq_none_iff (f := place), findTextBackward_map h,
      List.find?_eq_none, Set.eq_empty_iff_forall_notMem]
    simp only [Set.mem_ofPred_eq, not_and]

end Find

/-! ## What the replacement leaves -/

section Replace

variable {t find repl out : Text} {fuel i n : Nat}

theorem take_append_take {k : Nat} (rest : Text) :
    (out ++ t.take (k - out.length) ++ rest).take k = (out ++ t ++ rest).take k := by
  rw [List.append_assoc, List.append_assoc, List.take_append, @List.take_append _ out,
    List.take_append, @List.take_append _ t, List.take_take, Nat.min_self, List.length_take]
  congr 3
  omega

theorem mergeLoop_spec (hne : find ≠ []) (hfuel : t.length ≤ i + fuel) (hout : out.length ≤ editCols) :
    ∃ full, Replaced Cell.lower find repl (t.drop i) full ∧
      (mergeLoop t find repl fuel i out n).1 = (out ++ full).take editCols := by
  induction fuel generalizing i out n with
  | zero =>
    refine ⟨[], ?_, ?_⟩
    · rw [List.drop_eq_nil_of_le (Nat.add_zero i ▸ hfuel)]
      exact .nil
    · rw [mergeLoop, List.append_nil, List.take_of_length_le hout]
  | succ fuel ih =>
    rw [mergeLoop]
    split
    · rename_i hmore
      have hdrop : t.drop i = t.getD i space :: t.drop (i + 1) := by
        rw [List.drop_eq_getElem_cons hmore.1, List.getD_eq_getElem _ _ hmore.1]
      split
      · -- the query stands here
        rename_i hhit
        have hocc : OccursAt Cell.lower find (t.drop i) 0 := by
          rw [occursAt_drop]
          exact strContainsAtCi_iff.mp hhit.2
        have hpos := List.length_pos_iff.mpr hne
        have hroom : (out ++ repl.take (editCols - out.length)).length ≤ editCols := by
          rw [List.length_append, List.length_take]
          omega
        obtain ⟨full, hfull, hmerged⟩ := @ih _ (i + find.length) (n + 1) (by omega) hroom
        have hbehind : Replaced Cell.lower find repl ((t.drop i).drop (0 + find.length)) full := by
          rw [List.drop_drop, Nat.zero_add]
          exact hfull
        refine ⟨_, .first hocc (fun k hk => absurd hk (Nat.not_lt_zero k)) hbehind, ?_⟩
        rw [hmerged, List.take_zero, List.nil_append, ← List.append_assoc]
        exact take_append_take full
      · rename_i hno
        have hnot : ¬ OccursAt Cell.lower find (t.drop i) 0 := by
          rw [occursAt_drop]
          exact fun hocc => hno ⟨hocc.length_le, strContainsAtCi_iff.mpr hocc⟩
        have hroom : (out ++ [t.getD i space]).length ≤ editCols := by
          rw [List.length_append, List.length_singleton]
          omega
        obtain ⟨full, hfull, hmerged⟩ := @ih _ (i + 1) n (by omega) hroom
        rw [hdrop] at hnot ⊢
        refine ⟨_, hfull.cons hnot, ?_⟩
        rw [hmerged, List.append_assoc, List.singleton_append]
    · rename_i hstop
      by_cases hend : t.length ≤ i
      · refine ⟨[], ?_, ?_⟩
        · rw [List.drop_eq_nil_of_le hend]
          exact .nil
        · rw [List.append_nil, List.take_of_length_le hout]
      · -- no room is left
        obtain ⟨full, hfull⟩ := Replaced.total Cell.lower find repl (t.drop i)
        refine ⟨full, hfull, ?_⟩
        rw [List.take_append_of_le_length (by omega), List.take_of_length_le hout]

theorem mergeLoop_count : n ≤ (mergeLoop t find repl fuel i out n).2 := by
  induction fuel generalizing i out n with
  | zero => exact Nat.le_refl n
  | succ fuel ih =>
    rw [mergeLoop]
    split_ifs
    · exact Nat.le_trans (Nat.le_succ n) ih
    · exact ih
    · exact Nat.le_refl n

theorem mergeLoop_none (hfuel : t.length ≤ i + fuel) (hroom : out.length + (t.length - i) ≤ editCols)
    (h : (mergeLoop t find repl fuel i out n).2 = n) :
    (mergeLoop t find repl fuel i out n).1 = out ++ t.drop i := by
  induction fuel generalizing i out with
  | zero => rw [mergeLoop, List.drop_eq_nil_of_le (Nat.add_zero i ▸ hfuel), List.append_nil]
  | succ fuel ih =>
    rw [mergeLoop] at h ⊢
    split_ifs at h ⊢ with hmore hhit
    · have hcount : n + 1 ≤ (mergeLoop t find repl fuel (i + find.length)
          (out ++ repl.take (editCols - out.length)) (n + 1)).2 := mergeLoop_count
      omega
    · rw [ih (by omega) (by rw [List.length_append, List.length_singleton]; omega) h,
        List.append_assoc, List.singleton_append, List.getD_eq_getElem _ _ hmore.1,
        ← List.drop_eq_getElem_cons hmore.1]
    · rw [List.drop_eq_nil_of_le (by omega), List.append_nil]

theorem ofText_take (t : Text) : (ofText space (t.take editCols) : Line) = ofText space t := by
  funext c
  rw [ofText, ofText, List.getD_eq_getElem?_getD, List.getElem?_take_of_lt c.isLt,
    List.getD_eq_getElem?_getD]

theorem replaceInLine_spec (hne : find ≠ []) (line : Line) :
    ∃ full, Replaced Cell.lower find repl (text space line) full ∧
      (replaceInLine line find repl).1 = ofText space full := by
  obtain ⟨full, hfull, hmerged⟩ := @mergeLoop_spec (text space line) find repl [] (text space line).length
    0 0 hne (by omega) (by simp)
  refine ⟨full, hfull, ?_⟩
  rw [List.nil_append] at hmerged
  simp only [replaceInLine]
  split
  · rw [setLineFromText, hmerged, ofText_take]
  · rename_i hcount
    have hused : used space line ≤ editCols := used_le line
    have hcopy := @mergeLoop_none (text space line) find repl [] (text space line).length 0 0 (by omega)
      (by simpa using hused) (by omega)
    rw [List.nil_append, List.drop_zero] at hcopy
    rw [← ofText_take full, ← hmerged, hcopy, ofText_text]

end Replace

/-- The search and the replacement of the editor. -/
theorem search_spec (lines : Grid) (query : Text) :
    (∀ (startRow : Fin editRows) (startCol : Int),
      (∀ r c, findTextForward lines query startRow startCol = some (r, c) ↔
        IsLeast {p | p ∈ lines.hits query ∧ toLex (startRow.val, startCol) ≤ p} (place (r, c))) ∧
      (findTextForward lines query startRow startCol = none ↔
        {p | p ∈ lines.hits query ∧ toLex (startRow.val, startCol) ≤ p} = ∅) ∧
      (∀ r c, findTextBackward lines query startRow startCol = some (r, c) ↔
        IsGreatest {p | p ∈ lines.hits query ∧ p ≤ toLex (startRow.val, startCol)} (place (r, c))) ∧
      (findTextBackward lines query startRow startCol = none ↔
        {p | p ∈ lines.hits query ∧ p ≤ toLex (startRow.val, startCol)} = ∅)) ∧
    ∀ (repl : Text) (r : Fin editRows),
      (∃ full, Replaced Cell.lower query repl (text space (lines r)) full ∧
        (replaceAllOccurrences lines query repl).1 r = ofText space full) ∧
      ((∀ p, ¬ OccursAt Cell.lower query (text space (lines r)) p) →
        (replaceAllOccurrences lines query repl).1 r = lines r) := by
  refine ⟨fun startRow startCol => ⟨fun r c => findTextForward_iff, findTextForward_none,
    fun r c => findTextBackward_iff startRow.isLt, findTextBackward_none startRow.isLt⟩, ?_⟩
  intro repl r
  have hspec : ∃ full, Replaced Cell.lower query repl (text space (lines r)) full ∧
      (replaceAllOccurrences lines query repl).1 r = ofText space full := by
    rw [replaceAllOccurrences]
    split
    · rename_i hnil
      refine ⟨text space (lines r), .rest fun p hocc => ?_, (ofText_text (lines r)).symm⟩
      exact hocc.1 (List.length_eq_zero_iff.mp hnil)
    · rename_i hlen
      exact replaceInLine_spec (fun e => hlen (by rw [e]; rfl)) (lines r)
  refine ⟨hspec, fun hnone => ?_⟩
  obtain ⟨full, hfull, hrow⟩ := hspec
  rw [hrow, hfull.unique (.rest hnone), ofText_text]

end Edit
end MiniDos
