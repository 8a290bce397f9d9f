import MiniDos.Edit.Model

/-!
# MiniDos.Edit.Keys

What the operations of the editor do to the cursor, and how a file dialog ends.

* `Doc.OnGrid`: the cursor is on the grid, so nothing is stored outside it.
* `chosenName`: the name that a file dialog is left with, from its state and the key.
-/

namespace MiniDos
namespace Edit

open Sheet Search Fat16 Files

variable {name : Option CStr}

/-! ## The cursor -/

structure Doc.OnGrid (d : Doc) : Prop where
  row : d.curRow < editRows
  col : d.curCol < editCols

theorem editCols_pos : 0 < editCols := by decide

section Cursor

variable {d : Doc} {e : Editor}

theorem hits_onGrid {lines : Grid} {query : Text} {r c : Nat} (h : place (r, c) ∈ lines.hits query) :
    r < editRows ∧ c < editCols := by
  obtain ⟨r', c', hplace, hr, hocc⟩ := h
  obtain ⟨rfl, rfl⟩ := Prod.mk.inj (place_injective hplace)
  have hlt := hocc.lt
  rw [Grid.text, length_text] at hlt
  exact ⟨hr, Nat.lt_of_lt_of_le hlt (used_le _)⟩

theorem findTextForward_onGrid {lines : Grid} {query : Text} {startRow : Nat} {startCol : Int}
    {p : Nat × Nat} (h : findTextForward lines query startRow startCol = some p) :
    p.1 < editRows ∧ p.2 < editCols :=
  hits_onGrid (findTextForward_iff.mp h).1.1

theorem findTextBackward_onGrid {lines : Grid} {query : Text} {startRow : Nat} {startCol : Int}
    {p : Nat × Nat} (hrow : startRow < editRows)
    (h : findTextBackward lines query startRow startCol = some p) :
    p.1 < editRows ∧ p.2 < editCols :=
  hits_onGrid ((findTextBackward_iff hrow).mp h).1.1

theorem moveTo_onGrid (h : e.doc.OnGrid) {found : Option (Nat × Nat)}
    (hfound : ∀ p, found = some p → p.1 < editRows ∧ p.2 < editCols) : (moveTo e found).doc.OnGrid := by
  cases found with
  | none => exact h
  | some p => exact ⟨(hfound p rfl).1, (hfound p rfl).2⟩

theorem importLoop_col {data : List UInt8} (h : d.curCol < editCols) :
    (importLoop d data).curCol < editCols := by
  induction data generalizing d with
  | nil => exact h
  | cons c data ih =>
    rw [importLoop]
    split
    · refine ih ?_
      rw [importByte]
      split_ifs
      · exact h
      · exact editCols_pos
      · rw [Doc.forward]
        split
        · exact editCols_pos
        · rename_i hroom
          exact Nat.not_le.mp hroom
      · exact h
    · exact h

theorem editorImportBuffer_onGrid (data : List UInt8) : (editorImportBuffer data).OnGrid := by
  have hcol : (importLoop editorClear data).curCol < editCols := importLoop_col (by decide)
  have hend : editRows - 1 < editRows ∧ editCols - 1 < editCols := by decide
  simp only [editorImportBuffer]
  split
  · exact ⟨hend.1, hend.2⟩
  · rename_i hrow
    exact ⟨Nat.not_le.mp hrow, hcol⟩

theorem Doc.OnGrid.advance (h : d.OnGrid) : d.advance.OnGrid := by
  rw [Doc.advance]
  split_ifs with hcol hrow
  · exact ⟨h.row, Nat.add_lt_of_lt_sub hcol⟩
  · exact ⟨Nat.add_lt_of_lt_sub hrow, editCols_pos⟩
  · exact h

theorem eraseLast_onGrid (d : Doc) {row : Nat} (hrow : row < editRows) : (d.eraseLast row).OnGrid := by
  have hused : used space (d.lines.row row) ≤ editCols := used_le _
  rw [Doc.eraseLast]
  split
  · rename_i hpos
    exact ⟨hrow, Nat.sub_one_lt_of_le hpos hused⟩
  · exact ⟨hrow, editCols_pos⟩

theorem backspace_onGrid (h : e.doc.OnGrid) : (backspace e).doc.OnGrid := by
  rw [backspace]
  split_ifs
  · exact ⟨h.row, Nat.lt_of_le_of_lt (Nat.sub_le e.doc.curCol 1) h.col⟩
  · exact eraseLast_onGrid e.doc (Nat.lt_of_le_of_lt (Nat.sub_le e.doc.curRow 1) h.row)
  · exact h

theorem editKey_onGrid (h : e.doc.OnGrid) (c : UInt8) : (editKey c e).doc.OnGrid := by
  rw [editKey]
  split_ifs with _ _ _ hdown _ hdown
  · exact ⟨Nat.lt_of_le_of_lt (Nat.sub_le e.doc.curRow 1) h.row, h.col⟩
  · exact h
  · exact ⟨Nat.add_lt_of_lt_sub hdown, h.col⟩
  · exact h
  · exact ⟨Nat.add_lt_of_lt_sub hdown, editCols_pos⟩
  · exact h
  · exact backspace_onGrid h
  · exact Doc.OnGrid.advance ⟨h.row, h.col⟩
  · exact h

theorem pasteOnCurrentLine_onGrid (h : d.OnGrid) (clip : Text) : (pasteOnCurrentLine d clip).1.OnGrid := by
  have hlast : editCols - 1 < editCols := by decide
  rw [pasteOnCurrentLine]
  split
  · exact h
  · refine ⟨h.row, ?_⟩
    dsimp only
    split
    · assumption
    · exact hlast

theorem paste_onGrid (h : e.doc.OnGrid) : (paste e).doc.OnGrid := by
  rw [paste]
  split
  · exact pasteOnCurrentLine_onGrid h e.clipboardLine
  · exact h

theorem goToLine_onGrid (h : e.doc.OnGrid) (t : Text) : (goToLine e t).doc.OnGrid := by
  rw [goToLine]
  cases parsePositiveInt t with
  | none => exact h
  | some target =>
    dsimp only
    split
    · rename_i hrange
      refine ⟨Nat.sub_one_lt_of_le hrange.1 hrange.2, ?_⟩
      dsimp only
      split
      · decide
      · exact h.col
    · exact h

theorem findNext_onGrid (h : e.doc.OnGrid) : (findNext e).doc.OnGrid := by
  rw [findNext]
  split
  · exact h
  · refine moveTo_onGrid h (fun p hp => ?_)
    rcases Option.or_eq_some_iff.mp hp with hp | ⟨_, hp⟩
    · exact findTextForward_onGrid hp
    · exact findTextForward_onGrid hp

theorem findPrevious_onGrid (h : e.doc.OnGrid) : (findPrevious e).doc.OnGrid := by
  rw [findPrevious]
  split
  · exact h
  · refine moveTo_onGrid h (fun p hp => ?_)
    rcases Option.or_eq_some_iff.mp hp with hp | ⟨_, hp⟩
    · exact findTextBackward_onGrid h.row hp
    · exact findTextBackward_onGrid (by decide) hp

theorem findFirst_onGrid (h : e.doc.OnGrid) (query : Text) : (findFirst e query).doc.OnGrid := by
  rw [findFirst]
  split
  · exact h
  · cases hfound : findTextForward e.doc.lines query 0 0 with
    | none => exact h
    | some p =>
      have hp : ∀ p', some p = some p' → p'.1 < editRows ∧ p'.2 < editCols := by
        rintro _ ⟨⟩
        exact findTextForward_onGrid hfound
      exact moveTo_onGrid h hp

theorem undo_onGrid (h : e.doc.OnGrid) : (undo e).doc.OnGrid := by
  rw [undo]
  split
  · exact ⟨h.row, h.col⟩
  · exact h

theorem redo_onGrid (h : e.doc.OnGrid) : (redo e).doc.OnGrid := by
  rw [redo]
  split
  · exact ⟨h.row, h.col⟩
  · exact h

theorem copyCurrentLine_onGrid (h : e.doc.OnGrid) : (copyCurrentLine e).doc.OnGrid := by
  rw [copyCurrentLine]
  split
  · exact h
  · exact h

end Cursor

/-! ## File dialogs -/

def chosenName (c : UInt8) (purpose : FilePurpose) (d : FileDialog) : Option CStr :=
  if ¬ isEnter c then none
  else if purpose.saveAsMode ∧ d.nameInput ≠ [] then some (strCopy fileNameSize d.nameInput)
  else (d.entries[d.selected]?).bind fun entry =>
    if entry.2 then none else some (strCopy fileNameSize entry.1)

section Dialogs

variable {W : Type} {api : FileApi W} {w : W} {c : UInt8} {purpose : FilePurpose} {d : FileDialog}

/-- The dialog is left, if it is, with `name`, before any call. -/
def LeftWith (w : W) (name : Option CStr) (reply : DialogReply) (w' : W) : Prop :=
  ∀ fileName, reply = .name fileName → w' = w ∧ name = some fileName

theorem leftWith_stay {w' : W} : LeftWith w name (.stay d) w' := by
  rintro _ ⟨⟩

theorem wp_reload {w₁ : W} (d : FileDialog) : (do
    let d ← reload api d
    pure (.stay d) : Action W DialogReply).wp (LeftWith w name) w₁ := by
  rw [Action.wp_bind]
  intro d' w₂ _
  exact (Action.wp_pure _).mpr leftWith_stay

theorem dialogUp_name : (dialogUp api purpose d).wp (LeftWith w name) w := by
  rw [dialogUp]
  refine Action.wp_ite (fun _ => (Action.wp_pure _).mpr leftWith_stay) (fun _ => ?_)
  rw [Action.wp_bind]
  intro ok w₁ _
  exact Action.wp_ite (fun _ => wp_reload d) (fun _ => (Action.wp_pure _).mpr leftWith_stay)

theorem dialogEnter_name (henter : isEnter c = true) :
    (dialogEnter api purpose d).wp (LeftWith w (chosenName c purpose d)) w := by
  rw [dialogEnter, chosenName, if_neg (not_not_intro henter)]
  split
  · refine (Action.wp_pure _).mpr ?_
    rintro _ ⟨⟩
    exact ⟨rfl, rfl⟩
  · cases d.entries[d.selected]? with
    | none => exact (Action.wp_pure _).mpr leftWith_stay
    | some entry =>
      obtain ⟨name, isDir⟩ := entry
      cases isDir with
      | false =>
        refine (Action.wp_pure _).mpr ?_
        rintro _ ⟨⟩
        exact ⟨rfl, rfl⟩
      | true =>
        simp only [if_true, Action.wp_bind]
        intro ok w₁ _
        exact Action.wp_ite (fun _ => wp_reload d) (fun _ => (Action.wp_pure _).mpr leftWith_stay)

theorem dialogKey_name : (dialogKey api c purpose d).wp (LeftWith w (chosenName c purpose d)) w := by
  rw [dialogKey]
  refine Action.wp_ite (fun _ => dialogUp_name) (fun _ => Action.wp_ite (fun henter => ?_) (fun _ => ?_))
  · have hup : c ≠ keyUp := fun h => absurd (h ▸ henter) (by decide)
    have hdown : c ≠ keyDown := fun h => absurd (h ▸ henter) (by decide)
    rw [if_neg hup, if_neg (fun h => hdown h.1)]
    exact dialogEnter_name henter
  · exact Action.wp_ite (fun _ => (Action.wp_pure _).mpr leftWith_stay)
      (fun _ => (Action.wp_pure _).mpr leftWith_stay)

theorem chosenName_short {fileName : CStr} (h : chosenName c purpose d = some fileName) :
    strCopy fileNameSize fileName = fileName := by
  have hshort : ∀ s : CStr, strCopy fileNameSize (strCopy fileNameSize s) = strCopy fileNameSize s := by
    intro s
    rw [strCopy, strCopy, List.take_take, Nat.min_self]
  rw [chosenName] at h
  split_ifs at h
  · cases h
    exact hshort d.nameInput
  · obtain ⟨entry, _, h⟩ := Option.bind_eq_some_iff.mp h
    split at h
    · cases h
    · cases h
      exact hshort entry.1

end Dialogs

end Edit
end MiniDos
