import MiniDos.Edit.Grid
import MiniDos.Lib.Scan

/-!
# MiniDos.Edit.Reload

Saving the grid and opening the file again.

* `editorExportBuffer_eq`: the bytes of the file are the used parts of the lines up to the last one
  that is not blank, joined by newlines, as far as the buffer takes them.
* `Doc.ofTexts_newlines`: import puts the texts back, each full one with a blank line behind it.
* `reload_iff`: so the same grid comes back exactly if no full line has text below it.
-/

namespace MiniDos
namespace Edit

open Sheet

/-! ## What is written -/

def joined : List Text → List UInt8
  | [] => []
  | [t] => t.map (·.val)
  | t :: t' :: ts => t.map (·.val) ++ newline :: joined (t' :: ts)

/-- The used parts of the lines up to line `last`. -/
def Grid.texts (lines : Grid) (last : Nat) : List Text := (List.range (last + 1)).map lines.text

def exportText (lines : Grid) : List UInt8 :=
  match lastRow lines with
  | none => []
  | some last => joined (lines.texts last)

section Export

variable {lines : Grid} {outMax : Nat} {out cs : List UInt8}

theorem exportByte_take (c : UInt8) :
    exportByte outMax (out.take outMax) c = (out ++ [c]).take outMax := by
  rw [exportByte, List.length_take]
  split
  · rename_i h
    rw [List.take_of_length_le (by omega), List.take_of_length_le]
    rw [List.length_append, List.length_singleton]
    omega
  · rename_i h
    rw [List.take_append_of_le_length (by omega)]

theorem foldl_exportByte : cs.foldl (exportByte outMax) (out.take outMax) = (out ++ cs).take outMax := by
  induction cs generalizing out with
  | nil => rw [List.foldl_nil, List.append_nil]
  | cons c cs ih => rw [List.foldl_cons, exportByte_take, ih, List.append_assoc, List.singleton_append]

theorem map_cellAt_range (line : Line) :
    (List.range (lineUsedLen line)).map (cellAt space line) = text space line := by
  apply List.ext_getElem
  · rw [List.length_map, List.length_range, length_text, lineUsedLen]
  · intro i h1 h2
    rw [List.getElem_map, List.getElem_range, ← getD_text, List.getD_eq_getElem _ _ h2]

/-- What the export writes for a line. -/
def rowBytes (lines : Grid) (last r : Nat) : List UInt8 :=
  (lines.text r).map (·.val) ++ if r < last then [newline] else []

theorem exportRow_take (last r : Nat) : exportRow lines outMax last (out.take outMax) r =
    (out ++ rowBytes lines last r).take outMax := by
  have hcells : (List.range (lineUsedLen (lines.row r))).foldl
      (fun out c => exportByte outMax out (cellAt space (lines.row r) c).val) (out.take outMax) =
      (out ++ (lines.text r).map (·.val)).take outMax := by
    rw [Grid.text, ← map_cellAt_range, ← foldl_exportByte, List.foldl_map, List.foldl_map]
  rw [exportRow, hcells, rowBytes]
  split
  · rw [exportByte_take, List.append_assoc]
  · rw [List.append_nil]

theorem foldl_exportRow (last : Nat) (rs : List Nat) :
    rs.foldl (exportRow lines outMax last) (out.take outMax) =
      (out ++ rs.flatMap (rowBytes lines last)).take outMax := by
  induction rs generalizing out with
  | nil => simp
  | cons r rs ih => rw [List.foldl_cons, exportRow_take, ih, List.flatMap_cons, List.append_assoc]

theorem flatMap_rowBytes {last k n : Nat} (h : k + n = last) :
    (List.range' k (n + 1)).flatMap (rowBytes lines last) =
      joined ((List.range' k (n + 1)).map lines.text) := by
  induction n generalizing k with
  | zero => simp [rowBytes, joined, ← h]
  | succ n ih =>
    have hrest := ih (k := k + 1) (by omega)
    have hlt : k < last := by omega
    rw [List.range'_succ, List.flatMap_cons, List.map_cons, hrest, List.range'_succ, List.map_cons,
      joined, rowBytes, if_pos hlt, List.append_assoc, List.singleton_append]

theorem editorExportBuffer_eq (lines : Grid) (outMax : Nat) :
    editorExportBuffer lines outMax = (exportText lines).take outMax := by
  rw [editorExportBuffer, exportText]
  cases lastRow lines with
  | none => simp
  | some last =>
    have hrows : (List.range (last + 1)).foldl (exportRow lines outMax last) (([] : List UInt8).take outMax) =
        ([] ++ (List.range (last + 1)).flatMap (rowBytes lines last)).take outMax := foldl_exportRow last _
    rw [List.take_nil, List.nil_append, List.range_eq_range', flatMap_rowBytes (by omega)] at hrows
    rw [← List.range_eq_range'] at hrows
    exact hrows

end Export

/-! ## What is read back -/

/-- The rows that the texts of a file take: a full one is followed by a blank line. -/
def laid (ts : List Text) : List Text := ts.flatMap fun t => if t.length < editCols then [t] else [t, []]

def Text.Printable (t : Text) : Prop := ∀ c ∈ t, 32 ≤ c.val ∧ c.val ≤ 126

/-- The import behind the lines `done` and the text `t` of the line that has begun. -/
def Doc.behind (done : List Text) (t : Text) : Doc where
  lines := ofTexts space (done ++ [t])
  curRow := done.length
  curCol := t.length

section Import

variable {d : Doc} {done : List Text} {s t : Text} {c : Cell}

@[simp] theorem Doc.forward_lines (d : Doc) : d.forward.lines = d.lines := by
  rw [Doc.forward]
  split <;> rfl

theorem Doc.curRow_le_forward (d : Doc) : d.curRow ≤ d.forward.curRow := by
  rw [Doc.forward]
  split
  · exact Nat.le_succ d.curRow
  · exact Nat.le_refl d.curRow

theorem importByte_curRow_le (d : Doc) (c : UInt8) : d.curRow ≤ (importByte d c).curRow := by
  rw [importByte]
  split_ifs
  · exact Nat.le_refl d.curRow
  · exact Nat.le_succ d.curRow
  · exact Doc.curRow_le_forward (d.put _)
  · exact Nat.le_refl d.curRow

theorem importByte_beyond (h : editRows ≤ d.curRow) (c : UInt8) : (importByte d c).lines = d.lines := by
  have hput : ∀ x : Cell, setAt d.lines d.curRow d.curCol x = d.lines := by
    intro x
    funext r c'
    have hr : r.val ≠ d.curRow := fun e => absurd r.isLt (by omega)
    simp [setAt, hr]
  rw [importByte]
  split_ifs <;> simp [Doc.put, hput]

theorem foldl_importByte_beyond {data : List UInt8} (h : editRows ≤ d.curRow) :
    (data.foldl importByte d).lines = d.lines := by
  induction data generalizing d with
  | nil => rfl
  | cons c data ih =>
    rw [List.foldl_cons, ih (Nat.le_trans h (importByte_curRow_le d c)), importByte_beyond h]

theorem importLoop_lines (data : List UInt8) :
    (importLoop d data).lines = (data.foldl importByte d).lines := by
  induction data generalizing d with
  | nil => rfl
  | cons c data ih =>
    rw [importLoop]
    split
    · rw [List.foldl_cons, ih]
    · rename_i h
      rw [foldl_importByte_beyond (Nat.not_lt.mp h)]

theorem editorImportBuffer_lines (data : List UInt8) :
    (editorImportBuffer data).lines = (data.foldl importByte (Doc.behind [] [])).lines := by
  have hblank : (fun _ => lineBlank : Grid) = ofTexts space ([] ++ [[]]) := by
    rw [ofTexts_concat_nil, ofTexts_blank]
    rfl
  have hclear : editorClear = Doc.behind [] [] := by
    rw [editorClear, Doc.behind, hblank]
    rfl
  rw [← hclear, ← importLoop_lines]
  simp only [editorImportBuffer]
  split <;> rfl

theorem importByte_char (hc : 32 ≤ c.val ∧ c.val ≤ 126) :
    importByte (Doc.behind done s) c.val =
      if s.length + 1 < editCols then Doc.behind done (s ++ [c]) else Doc.behind (done ++ [s ++ [c]]) [] := by
  have hcr : c.val ≠ carriageReturn := fun e => absurd (e ▸ hc.1) (by decide)
  have hnl : c.val ≠ newline := fun e => absurd (e ▸ hc.1) (by decide)
  rw [importByte, if_neg hcr, if_neg hnl, dif_pos hc]
  have hput : (Doc.behind done s).put c =
      { Doc.behind done (s ++ [c]) with curCol := s.length } := by
    simp [Doc.put, Doc.behind, setAt_ofTexts]
  rw [hput, Doc.forward]
  simp only [Doc.behind]
  split
  · rw [if_neg (by omega), ofTexts_concat_nil]
    simp
  · rw [if_pos (by omega)]
    simp

theorem importByte_newline :
    importByte (Doc.behind done s) newline = Doc.behind (done ++ [s]) [] := by
  have hcr : newline ≠ carriageReturn := by decide
  rw [importByte, if_neg hcr, if_pos rfl]
  simp only [Doc.behind, ofTexts_concat_nil]
  simp

theorem foldl_importByte_text (ht : Text.Printable t) (hs : s.length < editCols)
    (hlen : s.length + t.length ≤ editCols) :
    (t.map (·.val)).foldl importByte (Doc.behind done s) =
      if s.length + t.length < editCols then Doc.behind done (s ++ t)
      else Doc.behind (done ++ [s ++ t]) [] := by
  induction t generalizing s with
  | nil => simp [hs]
  | cons c t ih =>
    rw [List.length_cons] at hlen
    have hc := ht c List.mem_cons_self
    have hrest : Text.Printable t := fun c' h' => ht c' (List.mem_cons_of_mem c h')
    rw [List.map_cons, List.foldl_cons, importByte_char hc]
    by_cases hroom : s.length + 1 < editCols
    · rw [if_pos hroom, ih hrest (by simpa using hroom) (by simp; omega), List.append_assoc,
        List.singleton_append, List.length_append, List.length_singleton, List.length_cons]
      congr 2
      omega
    · -- the line is full, and nothing of the text is left
      have hnil : t = [] := List.length_eq_zero_iff.mp (by omega)
      rw [if_neg hroom, hnil, List.map_nil, List.foldl_nil, List.length_singleton, if_neg hroom]

theorem foldl_importByte_joined {ts : List Text} (hp : ∀ t ∈ ts, Text.Printable t)
    (hlen : ∀ t ∈ ts, t.length ≤ editCols) (hne : ts ≠ []) :
    ((joined ts).foldl importByte (Doc.behind done [])).lines = ofTexts space (done ++ laid ts) := by
  have hcols : ([] : Text).length < editCols := by decide
  induction ts generalizing done with
  | nil => exact absurd rfl hne
  | cons t ts ih =>
    have htext := @foldl_importByte_text done [] t (hp t List.mem_cons_self) hcols
      (by simpa using hlen t List.mem_cons_self)
    rw [List.length_nil, Nat.zero_add, List.nil_append] at htext
    cases ts with
    | nil =>
      rw [joined, htext, laid, List.flatMap_cons, List.flatMap_nil, List.append_nil]
      split
      · rfl
      · simp [Doc.behind]
    | cons t' ts =>
      have hrest := fun done' => @ih done' (fun x hx => hp x (List.mem_cons_of_mem t hx))
        (fun x hx => hlen x (List.mem_cons_of_mem t hx)) (List.cons_ne_nil t' ts)
      rw [joined, List.foldl_append, htext, List.foldl_cons, laid, List.flatMap_cons, ← laid]
      split
      · rw [importByte_newline, hrest, List.append_assoc]
      · rw [importByte_newline, hrest, List.append_assoc, List.append_assoc]
        rfl

end Import

/-! ## The round trip -/

section Laid

variable {ts : List Text}

theorem laid_cons (t : Text) (ts : List Text) :
    laid (t :: ts) = if t.length < editCols then t :: laid ts else t :: [] :: laid ts := by
  rw [laid, List.flatMap_cons, ← laid]
  split <;> rfl

theorem trimmed_laid (h : ∀ t ∈ ts, Trimmed space editCols t) : ∀ t ∈ laid ts, Trimmed space editCols t := by
  intro t ht
  obtain ⟨t', ht', hmem⟩ := List.mem_flatMap.mp ht
  split at hmem
  · rw [List.mem_singleton] at hmem
    exact hmem ▸ h t' ht'
  · rcases List.mem_cons.mp hmem with heq | hmem
    · exact heq ▸ h t' ht'
    · rw [List.mem_singleton] at hmem
      exact hmem ▸ trimmed_nil editCols

theorem moved_down (hlast : ts.getLast? ≠ some []) (hne : ts ≠ []) :
    ¬ ∀ k < ts.length, ([] :: laid ts).getD k [] = ts.getD k [] := by
  induction ts with
  | nil => exact absurd rfl hne
  | cons t ts ih =>
    intro h
    have ht : t = [] := (h 0 (Nat.succ_pos ts.length)).symm
    have hshort : t.length < editCols := by
      rw [ht]
      decide
    cases ts with
    | nil => exact hlast (by rw [List.getLast?_singleton, ht])
    | cons t' ts =>
      apply ih (by simpa using hlast) (List.cons_ne_nil t' ts)
      intro k hk
      have hk' := h (k + 1) (Nat.succ_lt_succ hk)
      rw [laid_cons, if_pos hshort, ht] at hk'
      exact hk'

def OnlyLastFull (ts : List Text) : Prop := ∀ i, i + 1 < ts.length → (ts.getD i []).length < editCols

theorem laid_getD (h : OnlyLastFull ts) (k : Nat) : (laid ts).getD k [] = ts.getD k [] := by
  induction ts generalizing k with
  | nil => rfl
  | cons t ts ih =>
    rw [laid_cons]
    cases ts with
    | nil =>
      split
      · rfl
      · rcases k with _ | _ | k <;> rfl
    | cons t' ts =>
      have hshort : t.length < editCols := h 0 (by simp)
      rw [if_pos hshort]
      cases k with
      | zero => rfl
      | succ k => exact ih (fun i hi => h (i + 1) (Nat.succ_lt_succ hi)) k

theorem onlyLastFull_of_laid (hlast : ts.getLast? ≠ some [])
    (h : ∀ k < ts.length, (laid ts).getD k [] = ts.getD k []) : OnlyLastFull ts := by
  induction ts with
  | nil => exact fun i hi => absurd hi (Nat.not_lt_zero (i + 1))
  | cons t ts ih =>
    intro i hi
    cases ts with
    | nil => exact absurd hi (by simp)
    | cons t' ts =>
      have hlast' : (t' :: ts).getLast? ≠ some [] := by simpa using hlast
      have hshort : t.length < editCols := by
        by_contra hfull
        rw [laid_cons, if_neg hfull] at h
        exact moved_down hlast' (List.cons_ne_nil t' ts) (fun k hk => h (k + 1) (Nat.succ_lt_succ hk))
      rw [laid_cons, if_pos hshort] at h
      cases i with
      | zero => exact hshort
      | succ i =>
        exact ih hlast' (fun k hk => h (k + 1) (Nat.succ_lt_succ hk)) i (Nat.lt_of_succ_lt_succ hi)

end Laid

section Grid

variable {lines : Grid} {last : Nat}

theorem lastRow_some (h : lastRow lines = some last) : last < editRows ∧
    0 < lineUsedLen (lines.row last) ∧ ∀ r, last < r → r < editRows → lineUsedLen (lines.row r) = 0 := by
  obtain ⟨hlt, hpos, hbeyond⟩ := Scan.foldl_range_some.mp h
  exact ⟨hlt, hpos, fun r h1 h2 => Nat.eq_zero_of_not_pos (hbeyond r h1 h2)⟩

theorem lastRow_none (h : lastRow lines = none) (r : Nat) : lineUsedLen (lines.row r) = 0 := by
  by_cases hr : r < editRows
  · exact Nat.eq_zero_of_not_pos (Scan.foldl_range_none.mp h r hr)
  · rw [Grid.row, dif_neg hr]
    decide

theorem texts_getD (h : lastRow lines = some last) (r : Nat) : (lines.texts last).getD r [] = lines.text r := by
  by_cases hr : r < last + 1
  · simp [Grid.texts, hr]
  · rw [List.getD_eq_default _ _ (by simp [Grid.texts]; omega)]
    have hnil : lineUsedLen (lines.row r) = 0 := by
      by_cases hin : r < editRows
      · exact (lastRow_some h).2.2 r (by omega) hin
      · rw [Grid.row, dif_neg hin]
        decide
    symm
    rw [← List.length_eq_zero_iff, Grid.text, length_text]
    exact hnil

theorem ofTexts_texts {ts : List Text} (h : ∀ r, ts.getD r [] = lines.text r) : ofTexts space ts = lines := by
  funext r
  rw [ofTexts, h, Grid.text, ofText_text, Grid.row, dif_pos r.isLt]

/-- The grid without a character that the import leaves out. -/
def Grid.Printable (lines : Grid) : Prop := ∀ r c, 32 ≤ (lines r c).val ∧ (lines r c).val ≤ 126

theorem Grid.Printable.text (h : lines.Printable) (r : Nat) : Text.Printable (lines.text r) := by
  intro c hc
  obtain ⟨k, hk⟩ := List.mem_ofFn.mp (List.mem_of_mem_take hc)
  rw [← hk, Grid.row]
  split
  · exact h _ k
  · exact (by decide : 32 ≤ space.val ∧ space.val ≤ 126)

theorem printable_ofTexts {ts : List Text} (h : ∀ t ∈ ts, Text.Printable t) :
    Grid.Printable (ofTexts space ts) := by
  have hspace : 32 ≤ space.val ∧ space.val ≤ 126 := by decide
  intro r c
  rw [ofTexts, ofText, List.getD_eq_getElem?_getD, List.getD_eq_getElem?_getD]
  cases hr : ts[r.val]? with
  | none => exact hspace
  | some t =>
    rw [Option.getD_some]
    cases hc : t[c.val]? with
    | none => exact hspace
    | some x => exact h t (List.mem_of_getElem? hr) x (List.mem_of_getElem? hc)

theorem reload_lines (hprintable : lines.Printable) (h : lastRow lines = some last) :
    (editorImportBuffer (exportText lines)).lines = ofTexts space (laid (lines.texts last)) := by
  have hmem : ∀ t ∈ lines.texts last, ∃ r, lines.text r = t := by
    intro t ht
    obtain ⟨r, _, hr⟩ := List.mem_map.mp ht
    exact ⟨r, hr⟩
  have hp : ∀ t ∈ lines.texts last, Text.Printable t := by
    intro t ht
    obtain ⟨r, hr⟩ := hmem t ht
    exact hr ▸ hprintable.text r
  have hlen : ∀ t ∈ lines.texts last, t.length ≤ editCols := by
    intro t ht
    obtain ⟨r, hr⟩ := hmem t ht
    exact hr ▸ (trimmed_text (lines.row r)).length_le
  have hne : lines.texts last ≠ [] := by simp [Grid.texts]
  have himport := @foldl_importByte_joined [] _ hp hlen hne
  rw [List.nil_append] at himport
  rw [editorImportBuffer_lines, exportText, h]
  exact himport

theorem laid_getD_of_ofTexts (h : lastRow lines = some last)
    (heq : ofTexts space (laid (lines.texts last)) = lines) {k : Nat} (hk : k < editRows) :
    (laid (lines.texts last)).getD k [] = (lines.texts last).getD k [] := by
  have htrimmed : Trimmed space editCols ((laid (lines.texts last)).getD k []) := by
    rw [List.getD_eq_getElem?_getD]
    cases ht : (laid (lines.texts last))[k]? with
    | none => exact trimmed_nil editCols
    | some t =>
      refine trimmed_laid (fun t ht => ?_) t (List.mem_of_getElem? ht)
      obtain ⟨r, _, hr⟩ := List.mem_map.mp ht
      exact hr ▸ trimmed_text (lines.row r)
  have hrow : (ofText space ((laid (lines.texts last)).getD k []) : Line) = lines.row k := by
    rw [Grid.row, dif_pos hk]
    exact congrFun heq ⟨k, hk⟩
  rw [texts_getD h, Grid.text, ← hrow, text_ofText htrimmed]

theorem onlyLastFull_texts_iff (h : lastRow lines = some last) : OnlyLastFull (lines.texts last) ↔
    ∀ r r', r < r' → 0 < lineUsedLen (lines.row r') → lineUsedLen (lines.row r) < editCols := by
  have hlength : ∀ r, ((lines.texts last).getD r []).length = lineUsedLen (lines.row r) := by
    intro r
    rw [texts_getD h, Grid.text, length_text, lineUsedLen]
  have hcount : (lines.texts last).length = last + 1 := by simp [Grid.texts]
  obtain ⟨_, hpos, hbeyond⟩ := lastRow_some h
  constructor
  · intro hfull r r' hr hused
    have hr' : r' ≤ last := by
      by_contra hgt
      rw [← hlength, List.getD_eq_default _ _ (by omega)] at hused
      exact absurd hused (Nat.not_lt_zero 0)
    rw [← hlength]
    exact hfull r (by omega)
  · intro hfull r hr
    rw [hlength]
    exact hfull r last (by omega) hpos

/-- The saved grid comes back exactly if no full line has text below it. -/
theorem reload_iff (lines : Grid) (outMax : Nat) (hprintable : lines.Printable)
    (hfits : (exportText lines).length ≤ outMax) :
    (editorImportBuffer (editorExportBuffer lines outMax)).lines = lines ↔
      ∀ r r', r < r' → 0 < lineUsedLen (lines.row r') → lineUsedLen (lines.row r) < editCols := by
  rw [editorExportBuffer_eq, List.take_of_length_le hfits]
  cases h : lastRow lines with
  | none =>
    have hblank : (ofTexts space [] : Grid) = lines := by
      apply ofTexts_texts
      intro r
      symm
      rw [List.getD_nil, ← List.length_eq_zero_iff, Grid.text, length_text]
      exact lastRow_none h r
    have himport : (editorImportBuffer (exportText lines)).lines = lines := by
      rw [exportText, h, editorImportBuffer_lines, ← hblank, ← ofTexts_concat_nil]
      rfl
    constructor
    · intro _ r r' _ hused
      rw [lastRow_none h r'] at hused
      exact absurd hused (Nat.not_lt_zero 0)
    · exact fun _ => himport
  | some last =>
    obtain ⟨hlt, hpos, _⟩ := lastRow_some h
    have hcount : (lines.texts last).length = last + 1 := by simp [Grid.texts]
    have hlast : (lines.texts last).getLast? ≠ some [] := by
      intro hnil
      have hget := texts_getD h last
      rw [List.getLast?_eq_getElem?, hcount, Nat.add_sub_cancel] at hnil
      rw [List.getD_eq_getElem?_getD, hnil, Option.getD_some] at hget
      rw [lineUsedLen, ← length_text, ← Grid.text, ← hget] at hpos
      exact absurd hpos (Nat.not_lt_zero 0)
    rw [reload_lines hprintable h, ← onlyLastFull_texts_iff h]
    constructor
    · intro heq
      exact onlyLastFull_of_laid hlast (fun k hk => laid_getD_of_ofTexts h heq (by omega))
    · intro hfull
      refine ofTexts_texts (fun r => ?_)
      rw [laid_getD hfull, texts_getD h]

def letters (n : Nat) : Text := List.replicate n ⟨0x41, by decide⟩

def twoLines (n n' : Nat) : Grid := ofTexts space [letters n, letters n']

theorem twoLines_printable (n n' : Nat) : (twoLines n n').Printable := by
  have hletters : ∀ k, Text.Printable (letters k) := by
    intro k c hc
    rw [List.eq_of_mem_replicate hc]
    decide
  apply printable_ofTexts
  intro t ht
  rcases List.mem_cons.mp ht with heq | hmem
  · exact heq ▸ hletters n
  · exact List.mem_singleton.mp hmem ▸ hletters n'

/-- The text below a full line moves down by a line. -/
theorem reload_full : ¬ ∀ (lines : Grid) (outMax : Nat), lines.Printable →
    (exportText lines).length ≤ outMax →
    (editorImportBuffer (editorExportBuffer lines outMax)).lines = lines := by
  intro h
  have hsize : (exportText (twoLines editCols 1)).length ≤ editMaxFileBytes := by decide +kernel
  have heq := h (twoLines editCols 1) editMaxFileBytes (twoLines_printable editCols 1) hsize
  have hcell := congrFun (congrFun heq ⟨1, by decide⟩) ⟨0, by decide⟩
  rw [editorExportBuffer_eq, List.take_of_length_le hsize] at hcell
  exact absurd hcell (by decide +kernel)

theorem reload_short :
    (editorImportBuffer (editorExportBuffer (twoLines 1 1) editMaxFileBytes)).lines = twoLines 1 1 := by
  refine (reload_iff (twoLines 1 1) editMaxFileBytes (twoLines_printable 1 1) (by decide +kernel)).mpr
    (fun r r' _ _ => ?_)
  by_cases hr : r < editRows
  · exact (show ∀ r < editRows, lineUsedLen ((twoLines 1 1).row r) < editCols by decide +kernel) r hr
  · rw [Grid.row, dif_neg hr]
    decide

end Grid

end Edit
end MiniDos
