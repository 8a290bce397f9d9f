import MiniDos.Edit.Keys
import MiniDos.Lib.Undo

/-!
# MiniDos.Edit.Undo

Undo and redo of the editor.

* `press_turned`: each key leaves the cursor on the grid and is a move of the versions of the grid. An
  operation takes its snapshot before it is known whether it changes anything.
* `Effective`: a key that takes a snapshot changes the grid. `undo_laws` holds for the runs of such
  keys.
-/

namespace MiniDos
namespace Edit

open Sheet Search Fat16 Files Transition Undo

/-! ## The keys as moves -/

def Editor.versions (e : Editor) : Versions Grid where
  cur := e.doc.lines
  back := e.undoLines
  ahead := e.redoLines
  canUndo := e.canUndo
  canRedo := e.canRedo

structure Editor.Chooses (e : Editor) (c : UInt8) (index item : Nat) : Prop where
  phase : e.phase = .editing
  menuMode : e.menuMode = true
  menuIndex : e.menuIndex = index
  menuItem : e.menuItem = item
  enter : isEnter c = true

/-- Typing and backspace change the grid if they take a snapshot. -/
def EditEffective (d : Doc) (c : UInt8) : Prop :=
  if isBackspace c then
    if 0 < d.curCol then cellAt space (d.lines.row d.curRow) (d.curCol - 1) ≠ space
    else 0 < d.curRow → 0 < lineUsedLen (d.lines.row (d.curRow - 1))
  else isPrintable c = true → (cellAt space (d.lines.row d.curRow) d.curCol).val ≠ c

/-- `New` meets a grid with text, and a line is pasted over other text. -/
structure MenuEffective (e : Editor) : Prop where
  newFile : e.menuIndex = 0 → e.menuItem = 0 → ∃ r, 0 < lineUsedLen (e.doc.lines.row r)
  paste : e.menuIndex = 1 → e.menuItem = 1 → e.hasClipboardLine = true →
    ∃ i, ∃ h : i < e.clipboardLine.length, e.doc.curCol + i < editCols ∧
      cellAt space (e.doc.lines.row e.doc.curRow) (e.doc.curCol + i) ≠ e.clipboardLine[i]

section Changes

variable {d : Doc} {lines : Grid} {e : Editor}

theorem setAt_ne {r c : Nat} {x : Cell} (hr : r < editRows) (hc : c < editCols)
    (h : cellAt space (lines.row r) c ≠ x) : setAt lines r c x ≠ lines := by
  intro heq
  rw [cellAt_lt hc, Grid.row, dif_pos hr] at h
  have hcell := congrFun (congrFun heq ⟨r, hr⟩) ⟨c, hc⟩
  rw [setAt, if_pos ⟨rfl, rfl⟩] at hcell
  exact h hcell.symm

@[simp] theorem Doc.advance_lines (d : Doc) : d.advance.lines = d.lines := by
  rw [Doc.advance]
  split_ifs <;> rfl

theorem eraseLast_ne {row : Nat} (hrow : row < editRows) (h : 0 < lineUsedLen (d.lines.row row)) :
    (d.eraseLast row).lines ≠ d.lines := by
  rw [Doc.eraseLast, if_pos h]
  exact setAt_ne hrow (Nat.sub_one_lt_of_le h (used_le _)) (cellAt_last h)

theorem editorClear_ne {r : Nat} (h : 0 < lineUsedLen (lines.row r)) : editorClear.lines ≠ lines := by
  have hblank : lineUsedLen lineBlank = 0 := by decide
  rintro rfl
  have hrow : Grid.row editorClear.lines r = lineBlank := by
    rw [Grid.row]
    split <;> rfl
  rw [hrow, hblank] at h
  exact absurd h (Nat.not_lt_zero 0)

theorem pasteLoop_below {row col : Nat} {clip : Text} {r : Fin editRows} {k : Fin editCols} (hk : k.val < col) :
    (pasteLoop row clip lines col).1 r k = lines r k := by
  induction clip generalizing lines col with
  | nil => rfl
  | cons c clip ih =>
    rw [pasteLoop]
    split
    · rw [ih (Nat.lt_succ_of_lt hk), setAt, if_neg (fun h => absurd h.2 (Nat.ne_of_lt hk))]
    · rfl

theorem pasteLoop_at {row col i : Nat} {clip : Text} (hrow : row < editRows) (hi : i < clip.length)
    (hcol : col + i < editCols) : (pasteLoop row clip lines col).1 ⟨row, hrow⟩ ⟨col + i, hcol⟩ = clip[i] := by
  induction clip generalizing lines col i with
  | nil => exact absurd hi (Nat.not_lt_zero i)
  | cons c clip ih =>
    rw [pasteLoop, if_pos (by omega)]
    cases i with
    | zero => rw [pasteLoop_below (Nat.lt_succ_self col), setAt, if_pos ⟨rfl, rfl⟩, List.getElem_cons_zero]
    | succ i =>
      have hplace : (⟨col + (i + 1), hcol⟩ : Fin editCols) = ⟨col + 1 + i, by omega⟩ :=
        Fin.ext (Nat.add_right_comm col i 1)
      rw [hplace, List.getElem_cons_succ]
      exact ih (Nat.lt_of_succ_lt_succ hi) (by omega)

theorem paste_ne {clip : Text} (h : d.OnGrid) {i : Nat} (hi : i < clip.length)
    (hcol : d.curCol + i < editCols) (hne : cellAt space (d.lines.row d.curRow) (d.curCol + i) ≠ clip[i]) :
    (pasteOnCurrentLine d clip).1.lines ≠ d.lines := by
  have hclip : clip ≠ [] := List.ne_nil_of_length_pos (Nat.lt_of_le_of_lt (Nat.zero_le i) hi)
  have hgo : ¬ (editRows ≤ d.curRow ∨ editCols ≤ d.curCol ∨ clip = []) := by
    have hr := h.row
    have hc := h.col
    rintro (h | h | h)
    · omega
    · omega
    · exact hclip h
  intro heq
  rw [pasteOnCurrentLine, if_neg hgo] at heq
  have hcell := congrFun (congrFun heq ⟨d.curRow, h.row⟩) ⟨d.curCol + i, hcol⟩
  rw [cellAt_lt hcol, Grid.row, dif_pos h.row] at hne
  exact hne (hcell.symm.trans (pasteLoop_at h.row hi hcol))

end Changes

section Moves

variable {W : Type} (api : FileApi W)

/-- A key that takes a snapshot changes the grid: what is typed, pasted, opened or put in place of
something is not there already. -/
def Effective (s : Editor × W) (c : UInt8) : Prop :=
  match s.1.phase with
  | .editing =>
    if s.1.menuMode then isEnter c = true → MenuEffective s.1 else EditEffective s.1.doc c
  | .fileDialog .openFile d => ∀ fileName, chosenName c .openFile d = some fileName → ∀ bytes w',
      api.fileRead fileName editMaxFileBytes s.2 = some (some bytes, w') →
        (editorImportBuffer bytes).lines ≠ s.1.doc.lines
  | .inputDialog (.replaceWith find) value => isEnter c = true →
      ∃ r, (replaceAllOccurrences s.1.doc.lines find value).1 r ≠ s.1.doc.lines r
  | _ => True

structure IsMove (s : Editor × W) (c : UInt8) (m : Move Grid) : Prop where
  undo : m = .undo ↔ s.1.Chooses c 1 3
  redo : m = .redo ↔ s.1.Chooses c 1 4
  edit : Effective api s c → s.1.versions.Effective m

/-- What a key leaves. -/
structure Turned (s : Editor × W) (c : UInt8) (e' : Editor) : Prop where
  onGrid : e'.doc.OnGrid
  moves : ∃ m, IsMove api s c m ∧ e'.versions = s.1.versions.apply m

variable {api} {e e' : Editor} {w : W} {c : UInt8} {d : Doc}

/-- A key that is no choice of undo or redo. -/
structure Plain (e : Editor) (c : UInt8) : Prop where
  undo : ¬ e.Chooses c 1 3
  redo : ¬ e.Chooses c 1 4

theorem Plain.of_phase (h : e.phase ≠ .editing) (c : UInt8) : Plain e c :=
  ⟨fun hc => h hc.phase, fun hc => h hc.phase⟩

theorem Plain.of_key (h : isEnter c = false) (e : Editor) : Plain e c :=
  ⟨fun hc => absurd (h.symm.trans hc.enter) Bool.false_ne_true,
    fun hc => absurd (h.symm.trans hc.enter) Bool.false_ne_true⟩

theorem Plain.of_item {index item : Nat} (hindex : e.menuIndex = index) (hitem : e.menuItem = item)
    (h : ¬ (index = 1 ∧ (item = 3 ∨ item = 4))) (c : UInt8) : Plain e c :=
  ⟨fun hc => h ⟨hindex.symm.trans hc.menuIndex, .inl (hitem.symm.trans hc.menuItem)⟩,
    fun hc => h ⟨hindex.symm.trans hc.menuIndex, .inr (hitem.symm.trans hc.menuItem)⟩⟩

theorem Turned.idle (hgrid : e'.doc.OnGrid) (hversions : e'.versions = e.versions) (hplain : Plain e c) :
    Turned api (e, w) c e' := by
  refine ⟨hgrid, .idle, ⟨⟨?_, fun h => absurd h hplain.undo⟩, ⟨?_, fun h => absurd h hplain.redo⟩, ?_⟩,
    hversions⟩
  · rintro ⟨⟩
  · rintro ⟨⟩
  · rintro _ _ ⟨⟩

theorem Turned.operate (hgrid : d.OnGrid) (hdoc : e'.doc = d)
    (hversions : e'.versions = (Edit.operate e d true).versions) (hplain : Plain e c)
    (heffective : Effective api (e, w) c → d.lines ≠ e.doc.lines) : Turned api (e, w) c e' := by
  refine ⟨hdoc ▸ hgrid, .edit d.lines,
    ⟨⟨?_, fun h => absurd h hplain.undo⟩, ⟨?_, fun h => absurd h hplain.redo⟩, ?_⟩, hversions⟩
  · rintro ⟨⟩
  · rintro ⟨⟩
  · rintro h _ ⟨⟩
    exact heffective h

theorem undo_versions (e : Editor) : (undo e).versions = e.versions.apply .undo := by
  rw [undo, Versions.apply]
  show Editor.versions (if e.canUndo then _ else _) = if e.canUndo then _ else _
  split <;> rfl

theorem redo_versions (e : Editor) : (redo e).versions = e.versions.apply .redo := by
  rw [redo, Versions.apply]
  show Editor.versions (if e.canRedo then _ else _) = if e.canRedo then _ else _
  split <;> rfl

theorem backspace_turned (h : e.doc.OnGrid) (hplain : Plain e c)
    (heffective : Effective api (e, w) c →
      if 0 < e.doc.curCol then cellAt space (e.doc.lines.row e.doc.curRow) (e.doc.curCol - 1) ≠ space
      else 0 < e.doc.curRow → 0 < lineUsedLen (e.doc.lines.row (e.doc.curRow - 1))) :
    Turned api (e, w) c (backspace e) := by
  have hgrid := backspace_onGrid h
  rw [backspace] at hgrid ⊢
  split_ifs at hgrid ⊢ with hcol hrow
  · refine .operate hgrid rfl rfl hplain (fun he => ?_)
    have hcell := heffective he
    rw [if_pos hcol] at hcell
    exact setAt_ne h.row (Nat.lt_of_le_of_lt (Nat.sub_le e.doc.curCol 1) h.col) hcell
  · refine .operate hgrid rfl rfl hplain (fun he => ?_)
    have hused := heffective he
    rw [if_neg hcol] at hused
    exact eraseLast_ne (Nat.lt_of_le_of_lt (Nat.sub_le e.doc.curRow 1) h.row) (hused hrow)
  · exact .idle hgrid rfl hplain

theorem editKey_turned (h : e.doc.OnGrid) (hphase : e.phase = .editing) (hmenu : e.menuMode = false) :
    Turned api (e, w) c (editKey c e) := by
  have hplain : Plain e c := ⟨fun hc => absurd (hmenu.symm.trans hc.menuMode) Bool.false_ne_true,
    fun hc => absurd (hmenu.symm.trans hc.menuMode) Bool.false_ne_true⟩
  have heffective : Effective api (e, w) c → EditEffective e.doc c := by
    intro he
    simpa only [Effective, hphase, hmenu, Bool.false_eq_true, if_false] using he
  have hgrid := editKey_onGrid h c
  rw [editKey] at hgrid ⊢
  split_ifs at hgrid ⊢ with _ _ _ _ _ _ hback hprint
  · exact .idle hgrid rfl hplain
  · exact .idle hgrid rfl hplain
  · exact .idle hgrid rfl hplain
  · exact .idle hgrid rfl hplain
  · exact .idle hgrid rfl hplain
  · exact .idle hgrid rfl hplain
  · refine backspace_turned h hplain (fun he => ?_)
    have hedit := heffective he
    rwa [EditEffective, if_pos hback] at hedit
  · refine .operate hgrid rfl rfl hplain (fun he => ?_)
    have hedit := heffective he
    rw [EditEffective, if_neg hback] at hedit
    rw [typeChar, operate, Doc.advance_lines]
    exact setAt_ne h.row h.col (fun heq => hedit hprint (congrArg Subtype.val heq))
  · exact .idle hgrid rfl hplain

theorem menuIdle_turned (hgrid : e'.doc.OnGrid) (hversions : e'.versions = e.versions) {index item : Nat}
    (hindex : e.menuIndex = index) (hitem : e.menuItem = item) (h : ¬ (index = 1 ∧ (item = 3 ∨ item = 4))) :
    Turned api (e, w) c e' :=
  .idle hgrid hversions (.of_item hindex hitem h c)

theorem moveTo_versions (e : Editor) (found : Option (Nat × Nat)) : (moveTo e found).versions = e.versions := by
  cases found <;> rfl

theorem findNext_versions (e : Editor) : (findNext e).versions = e.versions := by
  rw [findNext]
  split
  · rfl
  · exact moveTo_versions e _

theorem findPrevious_versions (e : Editor) : (findPrevious e).versions = e.versions := by
  rw [findPrevious]
  split
  · rfl
  · exact moveTo_versions e _

theorem copyCurrentLine_versions (e : Editor) : (copyCurrentLine e).versions = e.versions := by
  rw [copyCurrentLine]
  split
  · rfl
  · rfl

theorem openFileDialog_turned (h : e.doc.OnGrid) (purpose : FilePurpose) (hplain : Plain e c) {e₀ : Editor}
    (hdoc : e₀.doc = e.doc) (hversions : e₀.versions = e.versions) {w₀ : W} :
    (openFileDialog api purpose e₀).wp (fun e' _ => Turned api (e, w) c e') w₀ := by
  rw [openFileDialog, Action.wp_bind]
  intro _ w₁ _
  rw [Action.wp_bind]
  intro entries w₂ _
  exact (Action.wp_pure _).mpr (.idle (hdoc ▸ h) hversions hplain)

theorem save_turned (h : e.doc.OnGrid) (hplain : Plain e c) {e₀ : Editor} (hdoc : e₀.doc = e.doc)
    (hversions : e₀.versions = e.versions) {w₀ : W} :
    (save api e₀).wp (fun e' _ => Turned api (e, w) c e') w₀ := by
  rw [save]
  refine Action.wp_ite (fun _ => ?_) (fun _ => (Action.wp_pure _).mpr (.idle (hdoc ▸ h) hversions hplain))
  rw [Action.wp_bind]
  intro ok w₁ _
  refine Action.wp_ite (fun _ => ?_) (fun _ => ?_)
  · exact (Action.wp_pure _).mpr (.idle (hdoc ▸ h) hversions hplain)
  · exact (Action.wp_pure _).mpr (.idle (hdoc ▸ h) hversions hplain)

theorem handleExitRequest_turned (h : e.doc.OnGrid) (hplain : Plain e c) {e₀ : Editor} (hdoc : e₀.doc = e.doc)
    (hversions : e₀.versions = e.versions) : Turned api (e, w) c (handleExitRequest e₀) := by
  rw [handleExitRequest]
  split
  · exact .idle (hdoc ▸ h) hversions hplain
  · exact .idle (hdoc ▸ h) hversions hplain

theorem menuEnter_turned (h : e.doc.OnGrid) (hphase : e.phase = .editing) (hmenu : e.menuMode = true)
    (henter : isEnter c = true) : (menuEnter api e).wp (fun e' _ => Turned api (e, w) c e') w := by
  have heffective : Effective api (e, w) c → MenuEffective e := by
    intro he
    simp only [Effective, hphase, hmenu, if_true] at he
    exact he henter
  have hgrid : Doc.OnGrid (Editor.doc { e with menuMode := false }) := h
  simp only [menuEnter]
  split <;> rename_i hindex hitem
  · refine (Action.wp_pure _).mpr (.operate (d := editorClear) ⟨by decide, by decide⟩ rfl rfl
      (.of_item hindex hitem (by decide) c) (fun he => ?_))
    obtain ⟨r, hr⟩ := (heffective he).newFile hindex hitem
    exact editorClear_ne hr
  · exact openFileDialog_turned h .openFile (.of_item hindex hitem (by decide) c) (by rfl) (by rfl)
  · exact save_turned h (.of_item hindex hitem (by decide) c) (by rfl) (by rfl)
  · exact openFileDialog_turned h .saveAs (.of_item hindex hitem (by decide) c) (by rfl) (by rfl)
  · exact (Action.wp_pure _).mpr
      (handleExitRequest_turned h (.of_item hindex hitem (by decide) c) (by rfl) (by rfl))
  · exact (Action.wp_pure _).mpr (menuIdle_turned (copyCurrentLine_onGrid hgrid)
      (copyCurrentLine_versions { e with menuMode := false }) hindex hitem (by decide))
  · refine (Action.wp_pure _).mpr ?_
    have hpaste := paste_onGrid hgrid
    rw [paste] at hpaste ⊢
    split at hpaste
    · rename_i hclip
      rw [if_pos hclip]
      refine .operate hpaste rfl rfl (.of_item hindex hitem (by decide) c) (fun he => ?_)
      obtain ⟨i, hi, hcol, hne⟩ := (heffective he).paste hindex hitem hclip
      exact paste_ne h hi hcol hne
    · rename_i hclip
      rw [if_neg hclip]
      exact menuIdle_turned hgrid rfl hindex hitem (by decide)
  · exact (Action.wp_pure _).mpr (menuIdle_turned hgrid rfl hindex hitem (by decide))
  · refine (Action.wp_pure _).mpr ⟨undo_onGrid hgrid, .undo, ⟨⟨fun _ => ?_, fun _ => rfl⟩, ⟨?_, ?_⟩, ?_⟩, ?_⟩
    · exact ⟨hphase, hmenu, hindex, hitem, henter⟩
    · rintro ⟨⟩
    · exact fun hc => absurd (hitem.symm.trans hc.menuItem) (by decide)
    · rintro _ _ ⟨⟩
    · exact undo_versions { e with menuMode := false }
  · refine (Action.wp_pure _).mpr ⟨redo_onGrid hgrid, .redo, ⟨⟨?_, ?_⟩, ⟨fun _ => ?_, fun _ => rfl⟩, ?_⟩, ?_⟩
    · rintro ⟨⟩
    · exact fun hc => absurd (hitem.symm.trans hc.menuItem) (by decide)
    · exact ⟨hphase, hmenu, hindex, hitem, henter⟩
    · rintro _ _ ⟨⟩
    · exact redo_versions { e with menuMode := false }
  · exact (Action.wp_pure _).mpr (menuIdle_turned hgrid rfl hindex hitem (by decide))
  · exact (Action.wp_pure _).mpr (menuIdle_turned (findNext_onGrid hgrid)
      (findNext_versions { e with menuMode := false }) hindex hitem (by decide))
  · exact (Action.wp_pure _).mpr (menuIdle_turned (findPrevious_onGrid hgrid)
      (findPrevious_versions { e with menuMode := false }) hindex hitem (by decide))
  · exact (Action.wp_pure _).mpr (menuIdle_turned hgrid rfl hindex hitem (by decide))
  · exact (Action.wp_pure _).mpr (menuIdle_turned hgrid rfl hindex hitem (by decide))
  · exact (Action.wp_pure _).mpr (menuIdle_turned hgrid rfl hindex hitem (by decide))
  · rename_i hundo hredo _ _ _ _
    exact (Action.wp_pure _).mpr (.idle hgrid rfl
      ⟨fun hc => hundo hc.menuIndex hc.menuItem, fun hc => hredo hc.menuIndex hc.menuItem⟩)

theorem mainKey_turned (h : e.doc.OnGrid) (hphase : e.phase = .editing) :
    (mainKey api c e).wp (fun e' _ => Turned api (e, w) c e') w := by
  rw [mainKey]
  refine Action.wp_ite (fun hkey => ?_) (fun _ => Action.wp_ite (fun hkey => ?_) (fun _ => ?_))
  · exact (Action.wp_pure _).mpr
      (handleExitRequest_turned h (.of_key (hkey ▸ by decide) e) (by rfl) (by rfl))
  · refine (Action.wp_pure _).mpr ?_
    have hplain : Plain e c := .of_key (hkey ▸ by decide) e
    split
    · exact .idle h rfl hplain
    · exact .idle h rfl hplain
  · cases hmenu : e.menuMode with
    | false => exact (Action.wp_pure _).mpr (editKey_turned h hphase hmenu)
    | true =>
      rw [if_pos rfl, menuKey]
      have hkeys : isEnter keyLeft = false ∧ isEnter keyRight = false ∧ isEnter keyUp = false ∧
          isEnter keyDown = false := by decide
      refine Action.wp_ite (fun hkey => ?_) (fun _ => Action.wp_ite (fun hkey => ?_) (fun _ =>
        Action.wp_ite (fun hkey => ?_) (fun _ => Action.wp_ite (fun hkey => ?_) (fun _ =>
        Action.wp_ite (fun henter => ?_) (fun henter => ?_)))))
      · exact (Action.wp_pure _).mpr (.idle h rfl (.of_key (hkey ▸ hkeys.1) e))
      · exact (Action.wp_pure _).mpr (.idle h rfl (.of_key (hkey ▸ hkeys.2.1) e))
      · exact (Action.wp_pure _).mpr (.idle h rfl (.of_key (hkey ▸ hkeys.2.2.1) e))
      · exact (Action.wp_pure _).mpr (.idle h rfl (.of_key (hkey ▸ hkeys.2.2.2) e))
      · exact menuEnter_turned h hphase hmenu henter
      · exact (Action.wp_pure _).mpr (.idle h rfl (.of_key (Bool.not_eq_true _ ▸ henter) e))

theorem saveFileAs_versions {e₀ : Editor} (fileName : CStr) {w₀ : W} :
    (saveFileAs api fileName e₀).wp (fun r _ => r.1.doc = e₀.doc ∧ r.1.versions = e₀.versions) w₀ := by
  rw [saveFileAs, Action.wp_bind]
  intro ok w₁ _
  refine Action.wp_ite (fun _ => ?_) (fun _ => ?_)
  · exact (Action.wp_pure _).mpr ⟨rfl, rfl⟩
  · exact (Action.wp_pure _).mpr ⟨rfl, rfl⟩

theorem useName_turned (h : e.doc.OnGrid) (hplain : Plain e c) {purpose : FilePurpose} {fileName : CStr} {w₀ : W}
    (hopen : purpose = .openFile → Effective api (e, w) c → ∀ bytes w',
      api.fileRead fileName editMaxFileBytes w₀ = some (some bytes, w') →
        (editorImportBuffer bytes).lines ≠ e.doc.lines) :
    (useName api fileName { e with phase := .editing } purpose).wp (fun e' _ => Turned api (e, w) c e') w₀ := by
  cases purpose with
  | openFile =>
    rw [useName, openFile, Action.wp_bind]
    intro read w₁ hread
    cases read with
    | none => exact (Action.wp_pure _).mpr (.idle h rfl hplain)
    | some bytes =>
      exact (Action.wp_pure _).mpr (.operate (editorImportBuffer_onGrid bytes) rfl rfl hplain
        (fun he => hopen rfl he bytes w₁ hread))
  | saveAs =>
    rw [useName, Action.wp_bind]
    refine Action.wp_mono (saveFileAs_versions fileName) ?_
    rintro ⟨e', ok⟩ w₁ ⟨hdoc, hversions⟩
    exact (Action.wp_pure _).mpr (.idle (hdoc ▸ h) hversions hplain)
  | exit =>
    rw [useName, Action.wp_bind]
    refine Action.wp_mono (saveFileAs_versions fileName) ?_
    rintro ⟨e', ok⟩ w₁ ⟨hdoc, hversions⟩
    refine Action.wp_ite (fun _ => ?_) (fun _ => ?_)
    · exact (Action.wp_pure _).mpr (.idle (hdoc ▸ h) hversions hplain)
    · exact (Action.wp_pure _).mpr (.idle (hdoc ▸ h) hversions hplain)

theorem fileDialogKey_turned (h : e.doc.OnGrid) {purpose : FilePurpose} {d : FileDialog}
    (hphase : e.phase = .fileDialog purpose d) :
    (fileDialogKey api c e purpose d).wp (fun e' _ => Turned api (e, w) c e') w := by
  have hplain : Plain e c := .of_phase (by rw [hphase]; rintro ⟨⟩) c
  rw [fileDialogKey]
  refine Action.wp_ite (fun _ => (Action.wp_pure _).mpr (.idle h rfl hplain)) (fun _ => ?_)
  rw [Action.wp_bind]
  intro reply w₁ hreply
  cases reply with
  | stay d' => exact (Action.wp_pure _).mpr (.idle h rfl hplain)
  | name fileName =>
    refine useName_turned h hplain ?_
    rintro rfl heffective
    obtain ⟨rfl, hname⟩ := dialogKey_name _ _ hreply fileName rfl
    simp only [Effective, hphase] at heffective
    exact heffective fileName hname

theorem exitSave_turned (h : e.doc.OnGrid) (hplain : Plain e c) :
    (exitSave api e).wp (fun e' _ => Turned api (e, w) c e') w := by
  rw [exitSave]
  refine Action.wp_ite (fun _ => openFileDialog_turned h .exit hplain (by rfl) (by rfl)) (fun _ => ?_)
  rw [Action.wp_bind]
  intro ok w₁ _
  refine Action.wp_ite (fun _ => ?_) (fun _ => ?_)
  · exact (Action.wp_pure _).mpr (.idle h rfl hplain)
  · exact (Action.wp_pure _).mpr (.idle h rfl hplain)

theorem acceptInput_turned (h : e.doc.OnGrid) {purpose : InputPurpose} {value : Text}
    (hphase : e.phase = .inputDialog purpose value) (henter : isEnter c = true) :
    Turned api (e, w) c (acceptInput { e with phase := .editing } value purpose) := by
  have hplain : Plain e c := .of_phase (by rw [hphase]; rintro ⟨⟩) c
  have hgrid : Doc.OnGrid (Editor.doc { e with phase := .editing }) := h
  cases purpose with
  | find =>
    refine .idle (findFirst_onGrid hgrid value) ?_ hplain
    rw [acceptInput, findFirst]
    split
    · rfl
    · split
      · rfl
      · rfl
  | goTo =>
    refine .idle (goToLine_onGrid hgrid value) ?_ hplain
    rw [acceptInput, goToLine]
    cases parsePositiveInt value with
    | none => rfl
    | some target =>
      dsimp only
      split
      · rfl
      · rfl
  | replaceFind =>
    rw [acceptInput]
    split
    · exact .idle h rfl hplain
    · exact .idle h rfl hplain
  | replaceWith find =>
    have hdoc : Doc.OnGrid { e.doc with lines := (replaceAllOccurrences e.doc.lines find value).1 } :=
      ⟨h.row, h.col⟩
    refine .operate hdoc rfl rfl hplain (fun heffective => ?_)
    simp only [Effective, hphase] at heffective
    obtain ⟨r, hr⟩ := heffective henter
    exact fun heq => hr (congrFun heq r)

/-- One key of the editor, in any state with the cursor on the grid. -/
theorem press_turned (h : e.doc.OnGrid) : (press api c e).wp (fun e' _ => Turned api (e, w) c e') w := by
  rw [press]
  cases hphase : e.phase with
  | editing => exact mainKey_turned h hphase
  | fileDialog purpose d => exact fileDialogKey_turned h hphase
  | unsavedDialog =>
    have hplain : Plain e c := .of_phase (by rw [hphase]; rintro ⟨⟩) c
    dsimp only
    rw [unsavedKey]
    refine Action.wp_ite (fun _ => exitSave_turned h hplain) (fun _ => ?_)
    refine Action.wp_ite (fun _ => ?_) (fun _ => Action.wp_ite (fun _ => ?_) (fun _ => ?_))
    · exact (Action.wp_pure _).mpr (.idle h rfl hplain)
    · exact (Action.wp_pure _).mpr (.idle h rfl hplain)
    · exact (Action.wp_pure _).mpr (.idle h rfl hplain)
  | aboutDialog =>
    have hplain : Plain e c := .of_phase (by rw [hphase]; rintro ⟨⟩) c
    refine (Action.wp_pure _).mpr ?_
    rw [aboutKey]
    split
    · exact .idle h rfl hplain
    · exact .idle h rfl hplain
  | inputDialog purpose value =>
    have hplain : Plain e c := .of_phase (by rw [hphase]; rintro ⟨⟩) c
    refine (Action.wp_pure _).mpr ?_
    rw [inputKey]
    split_ifs with _ henter
    · exact .idle h rfl hplain
    · exact acceptInput_turned h hphase henter
    · exact .idle h rfl hplain
    · exact .idle h rfl hplain
    · exact .idle h rfl hplain
    · exact .idle h rfl hplain
  | closed => exact Action.wp_diverge.mpr trivial

end Moves

/-! ## Runs -/

section Laws

variable {W : Type} (api : FileApi W)

def shown (s : Editor × W) : Grid := s.1.doc.lines

def undoes (s : Editor × W) (c : UInt8) : Prop := s.1.Chooses c 1 3

/-- What undo and redo do in the state `s` that the keys `cs` have led to, by keys that meet `P`.
Between undo and redo the grid stays. -/
structure UndoLaws (P : Editor × W → UInt8 → Prop) (s₀ : Editor × W) (cs : List UInt8) (s : Editor × W) :
    Prop where
  undo {c : UInt8} {s' : Editor × W} : P s c → s.1.Chooses c 1 3 → s.1.canUndo = true →
    step api s c = some s' → lastBefore (step api) shown undoes none s₀ cs = some (shown s')
  redo {c c' : UInt8} {s' s₁ s₂ : Editor × W} {cs' : List UInt8} : P s c → s.1.Chooses c 1 3 →
    s.1.canUndo = true → step api s c = some s' →
    Meets (step api) P s' cs' → Throughout (step api) (fun t => shown t = shown s') s' cs' →
    run (step api) s' cs' = some s₁ → s₁.1.Chooses c' 1 4 → step api s₁ c' = some s₂ → shown s₂ = shown s
  unchanged {c : UInt8} {s' : Editor × W} : P s c → step api s c = some s' → shown s' = shown s →
    s'.1.versions.restores = s.1.versions.restores

variable {api}

theorem step_turned {s s' : Editor × W} {c : UInt8} (h : s.1.doc.OnGrid) (hstep : step api s c = some s') :
    Turned api s c s'.1 := press_turned h s'.1 s'.2 hstep

theorem step_versions {s s' : Editor × W} {c : UInt8} (hgrid : s.1.doc.OnGrid) (hapart : s.1.versions.Apart)
    (heffective : Effective api s c) (hstep : step api s c = some s') (hsame : shown s' = shown s) :
    s'.1.versions = s.1.versions := by
  obtain ⟨_, m, hmove, hversions⟩ := step_turned hgrid hstep
  rw [hversions]
  refine hapart.apply_of_cur (hmove.edit heffective) ?_
  rw [← hversions]
  exact hsame

theorem run_versions {cs : List UInt8} {s s' : Editor × W} (hgrid : s.1.doc.OnGrid)
    (hapart : s.1.versions.Apart) (hmeets : Meets (step api) (Effective api) s cs)
    (hsame : Throughout (step api) (fun t => shown t = shown s) s cs) (hrun : run (step api) s cs = some s') :
    s'.1.doc.OnGrid ∧ s'.1.versions = s.1.versions := by
  induction cs generalizing s with
  | nil =>
    cases hrun
    exact ⟨hgrid, rfl⟩
  | cons c cs ih =>
    obtain ⟨s₁, h₁, hrun⟩ := run_cons.mp hrun
    have hshown : shown s₁ = shown s := (hsame.2 s₁ h₁).first
    have hversions := step_versions hgrid hapart hmeets.1 h₁ hshown
    obtain ⟨hgrid', hrest⟩ := ih (step_turned hgrid h₁).onGrid (hversions ▸ hapart) (hmeets.2 s₁ h₁)
      (hshown ▸ hsame.2 s₁ h₁) hrun
    exact ⟨hgrid', hrest.trans hversions⟩

theorem start_onGrid (undoLines redoLines : Grid) : (Editor.start undoLines redoLines).doc.OnGrid :=
  ⟨(by decide : 0 < editRows), editCols_pos⟩

/-- Undo and redo, if every key that takes a snapshot changes the grid. -/
theorem undo_laws (undoLines redoLines : Grid) (w : W) {cs : List UInt8} {s : Editor × W}
    (hrun : run (step api) (Editor.start undoLines redoLines, w) cs = some s)
    (hmeets : Meets (step api) (Effective api) (Editor.start undoLines redoLines, w) cs) :
    UndoLaws api (Effective api) (Editor.start undoLines redoLines, w) cs s := by
  have hstep : ∀ (s : Editor × W) (c : UInt8) (s' : Editor × W), s.1.doc.OnGrid →
      step api s c = some s' → s'.1.doc.OnGrid := fun s c s' h hstep => (step_turned h hstep).onGrid
  have hgrid : s.1.doc.OnGrid := run_invariant_all hstep cs _ s (start_onGrid undoLines redoLines) hrun
  have hfaithful : s.1.versions.Faithful
      (lastBefore (step api) shown undoes none (Editor.start undoLines redoLines, w) cs) := by
    refine faithful_run (v := fun s : Editor × W => s.1.versions) (P := Effective api) (fun _ => rfl) hstep
      ?_ cs _ s none (start_onGrid undoLines redoLines) ?_ hmeets hrun
    · intro s c s' h heffective hstep
      obtain ⟨_, m, hmove, hversions⟩ := step_turned h hstep
      exact ⟨m, hversions, hmove.edit heffective, hmove.undo⟩
    · exact ⟨⟨fun h => absurd h Bool.false_ne_true, fun h => absurd h Bool.false_ne_true⟩,
        fun h => absurd h Bool.false_ne_true⟩
  -- what ENTER on undo leaves
  have hundone : ∀ {c s'}, s.1.Chooses c 1 3 → s.1.canUndo = true → step api s c = some s' →
      s'.1.doc.OnGrid ∧ s'.1.versions = { s.1.versions with
        cur := s.1.undoLines, ahead := s.1.doc.lines, canUndo := false, canRedo := true } := by
    intro c s' hchoice hcan hstep
    obtain ⟨hgrid', m, hmove, hversions⟩ := step_turned hgrid hstep
    rw [hmove.undo.mpr hchoice, apply_undo hcan] at hversions
    exact ⟨hgrid', hversions⟩
  constructor
  · intro c s' _ hchoice hcan hstep
    have hshown : shown s' = s.1.undoLines := congrArg Versions.cur (hundone hchoice hcan hstep).2
    rw [hshown, hfaithful.before hcan]
    rfl
  · intro c c' s' s₁ s₂ cs' _ hchoice hcan hstep hmeets' hsame hrun' hredo hstep'
    obtain ⟨hgrid', hversions⟩ := hundone hchoice hcan hstep
    have hapart : s'.1.versions.Apart := by
      rw [hversions]
      exact ⟨fun h => absurd h Bool.false_ne_true, fun _ => (hfaithful.back hcan).symm⟩
    obtain ⟨hgrid₁, hversions₁⟩ := run_versions hgrid' hapart hmeets' hsame hrun'
    obtain ⟨_, m, hmove, hversions₂⟩ := step_turned hgrid₁ hstep'
    rw [hmove.redo.mpr hredo, hversions₁, hversions, apply_redo rfl] at hversions₂
    exact congrArg Versions.cur hversions₂
  · intro c s' heffective hstep hsame
    rw [step_versions hgrid hfaithful.toApart heffective hstep hsame]

end Laws

section Overwritten

/-- A world without files. -/
def silentApi : FileApi Unit where
  chdir _ := pure false
  listEntry _ := pure none
  fileRead _ _ := pure none
  fileWrite _ _ := pure false

def emptyStart : Editor := Editor.start editorClear.lines editorClear.lines

/-- The run that types `A`. -/
theorem undo_laws_typed : ∃ s, run (step silentApi) (emptyStart, ()) [0x41] = some s ∧
    UndoLaws silentApi (Effective silentApi) (emptyStart, ()) [0x41] s := by
  refine ⟨_, rfl, undo_laws editorClear.lines editorClear.lines () rfl ⟨?_, fun _ _ => trivial⟩⟩
  have hcell : (cellAt space (emptyStart.doc.lines.row 0) 0).val ≠ 0x41 := by decide
  exact fun _ => hcell

/-- `A` is typed, and the cursor goes down. -/
def typedAbove : Editor := editKey keyDown (editKey 0x41 emptyStart)

/-- Backspace on a blank line leaves the grid, and takes away what undo would have brought back. -/
theorem undo_lost : ¬ ∀ (W : Type) (api : FileApi W) (undoLines redoLines : Grid) (w : W) (cs : List UInt8)
    (s : Editor × W), run (step api) (Editor.start undoLines redoLines, w) cs = some s →
    UndoLaws api (fun _ _ => True) (Editor.start undoLines redoLines, w) cs s := by
  intro h
  have hrun : run (step silentApi) (emptyStart, ()) [0x41, keyDown] = some (typedAbove, ()) := rfl
  have hstep : step silentApi (typedAbove, ()) 0x08 = some (backspace typedAbove, ()) := rfl
  have hsame : shown (backspace typedAbove, ()) = shown (typedAbove, ()) := by
    have hcell : typedAbove.doc.lines ⟨1, by decide⟩ ⟨0, by decide⟩ = space := rfl
    funext r c
    show setAt typedAbove.doc.lines 1 0 space r c = typedAbove.doc.lines r c
    rw [setAt]
    split
    · rename_i hplace
      have hr : r = ⟨1, by decide⟩ := Fin.ext hplace.1
      have hc : c = ⟨0, by decide⟩ := Fin.ext hplace.2
      rw [hr, hc, hcell]
    · rfl
  have hlaws := h Unit silentApi editorClear.lines editorClear.lines () [0x41, keyDown] (typedAbove, ()) hrun
  have hrestores := hlaws.unchanged trivial hstep hsame
  have hcell := congrArg (fun x => x.map (fun lines => lines ⟨0, by decide⟩ ⟨0, by decide⟩)) hrestores
  exact absurd hcell (by decide)

end Overwritten

end Edit
end MiniDos
