import MiniDos.Edit.Search
import MiniDos.Files.Api
import MiniDos.Lib.Transition

/-!
# MiniDos.Edit.Model

The editor, key by key: `app_main` of `edit.c` and its dialogs.

* `Editor` has the variables of `app_main`, and what the dialog that is open keeps.
* `press` is what one key does. A key that a dialog reads is a step of its own.
* Drawing, the status line, the blinking of the cursor, and of the file dialog the path shown and the
  first row shown are left out: nothing that a key does depends on them.
-/

namespace MiniDos
namespace Edit

open Sheet Fat16 Files

/-! ## State -/

def keyUp : UInt8 := 0x11
def keyDown : UInt8 := 0x12
def keyAltToggle : UInt8 := 0x14
def keyLeft : UInt8 := 0x15
def keyRight : UInt8 := 0x16
def keyEscape : UInt8 := 27

def isEnter (c : UInt8) : Bool := c == 0x0D || c == 0x0A
def isBackspace (c : UInt8) : Bool := c == 0x08 || c == 127
def isPrintable (c : UInt8) : Bool := decide (32 ≤ c) && decide (c ≤ 126)

theorem ne_zero_of_isPrintable {c : UInt8} (h : isPrintable c = true) : c ≠ 0 := by
  rintro rfl
  exact absurd h (by decide)

def menuCount : Nat := 4
def menuItems : Nat := 5
def dlgMaxEntries : Nat := 64
def fileNameSize : Nat := 16
def searchSize : Nat := 32
def lineTextSize : Nat := 8

/-- `DEFAULT_NEW_FILE`: `UNTITLED.TXT`. -/
def defaultNewFile : CStr :=
  [0x55, 0x4E, 0x54, 0x49, 0x54, 0x4C, 0x45, 0x44, 0x2E, 0x54, 0x58, 0x54]

/-- What a file dialog is for: `Open`, `Save As`, and the `Save As` of a new document on exit. -/
inductive FilePurpose where
  | openFile
  | saveAs
  | exit
  deriving DecidableEq

/-- The variables of `run_file_dialog`. -/
structure FileDialog where
  entries : List (CStr × Bool)
  nameInput : CStr
  selected : Nat

/-- What a line is typed for. -/
inductive InputPurpose where
  | find
  | goTo
  | replaceFind
  | replaceWith (findText : Text)

/-- Who reads the next key. -/
inductive Phase where
  | editing
  | fileDialog (purpose : FilePurpose) (d : FileDialog)
  | unsavedDialog
  | aboutDialog
  | inputDialog (purpose : InputPurpose) (value : Text)
  | closed

structure Editor where
  doc : Doc
  undoLines : Grid
  redoLines : Grid
  menuMode : Bool
  menuIndex : Nat
  menuItem : Nat
  currentFile : CStr
  hasCurrentFile : Bool
  isNewFile : Bool
  dirty : Bool
  canUndo : Bool
  canRedo : Bool
  clipboardLine : Text
  hasClipboardLine : Bool
  lastSearch : Text
  phase : Phase

/-- The editor before the first key. `undo_lines` and `redo_lines` are not set yet. -/
def Editor.start (undoLines redoLines : Grid) : Editor where
  doc := editorClear
  undoLines := undoLines
  redoLines := redoLines
  menuMode := false
  menuIndex := 0
  menuItem := 0
  currentFile := strCopy fileNameSize defaultNewFile
  hasCurrentFile := true
  isNewFile := true
  dirty := false
  canUndo := false
  canRedo := false
  clipboardLine := []
  hasClipboardLine := false
  lastSearch := []
  phase := .editing

/-! ## Editing -/

/-- `push_undo_snapshot`. -/
def pushUndoSnapshot (e : Editor) : Editor :=
  { e with undoLines := e.doc.lines, canUndo := true, canRedo := false }

/-- An operation takes its snapshot before it starts. -/
def operate (e : Editor) (d : Doc) (changed : Bool) : Editor :=
  { pushUndoSnapshot e with doc := d, dirty := e.dirty || changed }

/-- The cursor behind the character that was typed. -/
def Doc.advance (d : Doc) : Doc :=
  if d.curCol < editCols - 1 then { d with curCol := d.curCol + 1 }
  else if d.curRow < editRows - 1 then { d with curCol := 0, curRow := d.curRow + 1 }
  else d

def typeChar (e : Editor) (c : Cell) : Editor := operate e (e.doc.put c).advance true

/-- The last character of the used part of a line goes, or the cursor stands on a line without one. -/
def Doc.eraseLast (d : Doc) (row : Nat) : Doc :=
  if 0 < lineUsedLen (d.lines.row row) then
    { d with curRow := row, curCol := lineUsedLen (d.lines.row row) - 1 }.put space
  else { d with curRow := row, curCol := 0 }

def backspace (e : Editor) : Editor :=
  if 0 < e.doc.curCol then
    operate e ({ e.doc with curCol := e.doc.curCol - 1 }.put space) true
  else if 0 < e.doc.curRow then
    operate e (e.doc.eraseLast (e.doc.curRow - 1))
      (decide (0 < lineUsedLen (e.doc.lines.row (e.doc.curRow - 1))))
  else e

def editKey (c : UInt8) (e : Editor) : Editor :=
  if c = keyUp then
    if 0 < e.doc.curRow then { e with doc := { e.doc with curRow := e.doc.curRow - 1 } } else e
  else if c = keyDown then
    if e.doc.curRow < editRows - 1 then
      { e with doc := { e.doc with curRow := e.doc.curRow + 1 } }
    else e
  else if isEnter c then
    if e.doc.curRow < editRows - 1 then
      { e with doc := { e.doc with curRow := e.doc.curRow + 1, curCol := 0 } }
    else e
  else if isBackspace c then backspace e
  else if h : isPrintable c then typeChar e ⟨c, ne_zero_of_isPrintable h⟩
  else e

/-! ## The menus -/

/-- The new document of the first menu. -/
def newFile (e : Editor) : Editor :=
  { operate e editorClear false with
    currentFile := strCopy fileNameSize defaultNewFile
    hasCurrentFile := true
    isNewFile := true
    dirty := false }

/-- `copy_current_line`, into `clipboard_line`. -/
def copyCurrentLine (e : Editor) : Editor :=
  let t := e.doc.lines.text e.doc.curRow
  if e.doc.curRow < editRows ∧ 0 < t.length then
    { e with clipboardLine := strCopy (editCols + 1) t, hasClipboardLine := true }
  else e

/-- The loop of `paste_on_current_line`: the grid and the column behind it. -/
def pasteLoop (row : Nat) : Text → Grid → Nat → Grid × Nat
  | [], lines, col => (lines, col)
  | c :: clip, lines, col =>
    if col < editCols then pasteLoop row clip (setAt lines row col c) (col + 1) else (lines, col)

/-- `paste_on_current_line`: the document, and whether anything was stored. -/
def pasteOnCurrentLine (d : Doc) (clip : Text) : Doc × Bool :=
  if editRows ≤ d.curRow ∨ editCols ≤ d.curCol ∨ clip = [] then (d, false)
  else
    let p := pasteLoop d.curRow clip d.lines d.curCol
    ({ d with lines := p.1, curCol := if p.2 < editCols then p.2 else editCols - 1 }, true)

def paste (e : Editor) : Editor :=
  if e.hasClipboardLine then
    operate e (pasteOnCurrentLine e.doc e.clipboardLine).1 (pasteOnCurrentLine e.doc e.clipboardLine).2
  else e

def undo (e : Editor) : Editor :=
  if e.canUndo then
    { e with
      redoLines := e.doc.lines
      canRedo := true
      doc := { e.doc with lines := e.undoLines }
      canUndo := false
      dirty := true }
  else e

def redo (e : Editor) : Editor :=
  if e.canRedo then
    { e with
      undoLines := e.doc.lines
      canUndo := true
      doc := { e.doc with lines := e.redoLines }
      canRedo := false
      dirty := true }
  else e

/-- The cursor is put on what was found. -/
def moveTo (e : Editor) : Option (Nat × Nat) → Editor
  | none => e
  | some (r, c) => { e with doc := { e.doc with curRow := r, curCol := c } }

def findNext (e : Editor) : Editor :=
  if e.lastSearch = [] then e
  else moveTo e ((findTextForward e.doc.lines e.lastSearch e.doc.curRow (e.doc.curCol + 1)).or
    (findTextForward e.doc.lines e.lastSearch 0 0))

def findPrevious (e : Editor) : Editor :=
  if e.lastSearch = [] then e
  else moveTo e ((findTextBackward e.doc.lines e.lastSearch e.doc.curRow (e.doc.curCol - 1)).or
    (findTextBackward e.doc.lines e.lastSearch (editRows - 1) (editCols - 1)))

/-! ## Lines that are typed -/

def findFirst (e : Editor) (query : Text) : Editor :=
  if query = [] then e
  else
    match findTextForward e.doc.lines query 0 0 with
    | none => e
    | some p => moveTo { e with lastSearch := strCopy searchSize query } (some p)

/-- `parse_positive_int`, without a value for a text that is no number. -/
def parsePositiveInt (t : Text) : Option Nat :=
  if t = [] then none
  else t.foldl (fun value c => value.bind fun value =>
    if 0x30 ≤ c.val ∧ c.val ≤ 0x39 then some (value * 10 + (c.val.toNat - 0x30)) else none) (some 0)

def goToLine (e : Editor) (t : Text) : Editor :=
  match parsePositiveInt t with
  | none => e
  | some target =>
    if 1 ≤ target ∧ target ≤ editRows then
      { e with
        doc := { e.doc with
          curRow := target - 1
          curCol := if editCols ≤ e.doc.curCol then editCols - 1 else e.doc.curCol } }
    else e

def replaceAll (e : Editor) (find repl : Text) : Editor :=
  let r := replaceAllOccurrences e.doc.lines find repl
  { operate e { e.doc with lines := r.1 } (decide (0 < r.2)) with
    lastSearch := if 0 < r.2 then strCopy searchSize find else e.lastSearch }

def InputPurpose.size : InputPurpose → Nat
  | .goTo => lineTextSize
  | _ => searchSize

/-- ENTER in `run_text_input_dialog`. -/
def acceptInput (e : Editor) (value : Text) : InputPurpose → Editor
  | .find => findFirst e value
  | .goTo => goToLine e value
  | .replaceFind =>
    if value = [] then e else { e with phase := .inputDialog (.replaceWith value) [] }
  | .replaceWith find => replaceAll e find value

def inputKey (c : UInt8) (e : Editor) (purpose : InputPurpose) (value : Text) : Editor :=
  if c = keyEscape then { e with phase := .editing }
  else if isEnter c then acceptInput { e with phase := .editing } value purpose
  else if isBackspace c then { e with phase := .inputDialog purpose value.dropLast }
  else if h : isPrintable c then
    if value.length < purpose.size - 1 then
      { e with phase := .inputDialog purpose (value ++ [⟨c, ne_zero_of_isPrintable h⟩]) }
    else e
  else e

section Files

variable {W : Type} (api : FileApi W)

/-! ## File dialogs -/

/-- At most `n` directories up. -/
def goRoot : Nat → Action W Unit
  | 0 => pure ()
  | n + 1 => do
    let ok ← api.chdir dotDot
    if ok then goRoot n else pure ()

/-- `load_dialog_entries`, with room for `n` more. -/
def loadDialogEntries : Nat → List (CStr × Bool) → Action W (List (CStr × Bool))
  | 0, entries => pure entries
  | n + 1, entries => do
    let found ← api.listEntry entries.length
    match found with
    | none => pure entries
    | some (name, isDir) => loadDialogEntries n (entries ++ [(strCopy 13 name, isDir)])

/-- `run_file_dialog`, up to its first key. -/
def openFileDialog (purpose : FilePurpose) (e : Editor) : Action W Editor := do
  goRoot api 32
  let entries ← loadDialogEntries api dlgMaxEntries []
  pure { e with phase := .fileDialog purpose { entries, nameInput := [], selected := 0 } }

def reload (d : FileDialog) : Action W FileDialog := do
  let entries ← loadDialogEntries api dlgMaxEntries []
  pure { d with entries, selected := 0 }

/-- What a key does in a dialog that stays open, or the name that it is left with. -/
inductive DialogReply where
  | stay (d : FileDialog)
  | name (fileName : CStr)

def FilePurpose.saveAsMode : FilePurpose → Bool
  | .openFile => false
  | _ => true

def dialogUp (purpose : FilePurpose) (d : FileDialog) : Action W DialogReply :=
  if purpose.saveAsMode ∧ d.nameInput ≠ [] then
    pure (.stay { d with nameInput := d.nameInput.dropLast })
  else do
    let ok ← api.chdir dotDot
    if ok then do
      let d ← reload api d
      pure (.stay d)
    else pure (.stay d)

def dialogEnter (purpose : FilePurpose) (d : FileDialog) : Action W DialogReply :=
  if purpose.saveAsMode ∧ d.nameInput ≠ [] then pure (.name (strCopy fileNameSize d.nameInput))
  else
    match d.entries[d.selected]? with
    | none => pure (.stay d)
    | some (name, isDir) =>
      if isDir then do
        let ok ← api.chdir name
        if ok then do
          let d ← reload api d
          pure (.stay d)
        else pure (.stay d)
      else pure (.name (strCopy fileNameSize name))

/-- A key of `run_file_dialog` other than ESC. -/
def dialogKey (c : UInt8) (purpose : FilePurpose) (d : FileDialog) : Action W DialogReply :=
  let d := if c = keyUp then { d with selected := d.selected - 1 }
    else if c = keyDown ∧ d.selected + 1 < d.entries.length then
      { d with selected := d.selected + 1 }
    else d
  if isBackspace c then dialogUp api purpose d
  else if isEnter c then dialogEnter api purpose d
  else if purpose.saveAsMode ∧ isPrintable c ∧ d.nameInput.length < 12 then
    pure (.stay { d with nameInput := d.nameInput ++ [c] })
  else pure (.stay d)

/-! ## Files -/

def exported (e : Editor) : List UInt8 := editorExportBuffer e.doc.lines editMaxFileBytes

def named (fileName : CStr) (e : Editor) : Editor :=
  { e with
    currentFile := strCopy fileNameSize fileName
    hasCurrentFile := true
    isNewFile := false
    dirty := false }

def openFile (fileName : CStr) (e : Editor) : Action W Editor := do
  let bytes ← api.fileRead fileName editMaxFileBytes
  match bytes with
  | none => pure e
  | some bytes => pure (named fileName (operate e (editorImportBuffer bytes) false))

/-- The write under a name that was chosen. -/
def saveFileAs (fileName : CStr) (e : Editor) : Action W (Editor × Bool) := do
  let ok ← api.fileWrite fileName (exported e)
  if ok then pure (named fileName e, true) else pure (e, false)

def save (e : Editor) : Action W Editor :=
  if e.hasCurrentFile then do
    let ok ← api.fileWrite e.currentFile (exported e)
    if ok then pure { e with dirty := false, isNewFile := false } else pure e
  else pure e

/-- What `app_main` and `handle_exit_request` do with the name of the dialog. -/
def useName (fileName : CStr) (e : Editor) : FilePurpose → Action W Editor
  | .openFile => openFile api fileName e
  | .saveAs => do
    let (e, _) ← saveFileAs api fileName e
    pure e
  | .exit => do
    let (e, ok) ← saveFileAs api fileName e
    if ok then pure { e with phase := .closed } else pure e

def fileDialogKey (c : UInt8) (e : Editor) (purpose : FilePurpose) (d : FileDialog) :
    Action W Editor :=
  if c = keyEscape then pure { e with phase := .editing }
  else do
    let reply ← dialogKey api c purpose d
    match reply with
    | .stay d => pure { e with phase := .fileDialog purpose d }
    | .name fileName => useName api fileName { e with phase := .editing } purpose

/-! ## Exit -/

/-- `handle_exit_request`, up to the first key of its dialog. -/
def handleExitRequest (e : Editor) : Editor :=
  if e.dirty then { e with phase := .unsavedDialog } else { e with phase := .closed }

/-- The save of `handle_exit_request`. -/
def exitSave (e : Editor) : Action W Editor :=
  if e.isNewFile ∨ ¬ e.hasCurrentFile then openFileDialog api .exit e
  else do
    let ok ← api.fileWrite e.currentFile (exported e)
    if ok then pure { e with dirty := false, phase := .closed }
    else pure { e with phase := .editing }

def unsavedKey (c : UInt8) (e : Editor) : Action W Editor :=
  if c = 0x73 ∨ c = 0x53 then exitSave api e
  else if c = 0x6E ∨ c = 0x4E then pure { e with phase := .closed }
  else if c = keyEscape then pure { e with phase := .editing }
  else pure e

def aboutKey (c : UInt8) (e : Editor) : Editor :=
  if c = keyEscape ∨ isEnter c then { e with phase := .editing } else e

/-! ## Keys -/

def menuEnter (e : Editor) : Action W Editor :=
  let e := { e with menuMode := false }
  match e.menuIndex, e.menuItem with
  | 0, 0 => pure (newFile e)
  | 0, 1 => openFileDialog api .openFile e
  | 0, 2 => save api e
  | 0, 3 => openFileDialog api .saveAs e
  | 0, 4 => pure (handleExitRequest e)
  | 1, 0 => pure (copyCurrentLine e)
  | 1, 1 => pure (paste e)
  | 1, 2 => pure e
  | 1, 3 => pure (undo e)
  | 1, 4 => pure (redo e)
  | 2, 0 => pure { e with phase := .inputDialog .find [] }
  | 2, 1 => pure (findNext e)
  | 2, 2 => pure (findPrevious e)
  | 2, 3 => pure { e with phase := .inputDialog .goTo [] }
  | 2, 4 => pure { e with phase := .inputDialog .replaceFind [] }
  | 3, 0 => pure { e with phase := .aboutDialog }
  | _, _ => pure e

def menuKey (c : UInt8) (e : Editor) : Action W Editor :=
  if c = keyLeft then
    pure { e with menuIndex := (e.menuIndex + menuCount - 1) % menuCount, menuItem := 0 }
  else if c = keyRight then
    pure { e with menuIndex := (e.menuIndex + 1) % menuCount, menuItem := 0 }
  else if c = keyUp then pure { e with menuItem := (e.menuItem + menuItems - 1) % menuItems }
  else if c = keyDown then pure { e with menuItem := (e.menuItem + 1) % menuItems }
  else if isEnter c then menuEnter api e
  else pure e

/-- The loop of `app_main`. -/
def mainKey (c : UInt8) (e : Editor) : Action W Editor :=
  if c = keyEscape then pure (handleExitRequest e)
  else if c = keyAltToggle then
    pure (if e.menuMode then { e with menuMode := false }
      else { e with menuMode := true, menuIndex := 0, menuItem := 0 })
  else if e.menuMode then menuKey api c e
  else pure (editKey c e)

def press (c : UInt8) (e : Editor) : Action W Editor :=
  match e.phase with
  | .editing => mainKey api c e
  | .fileDialog purpose d => fileDialogKey api c e purpose d
  | .unsavedDialog => unsavedKey api c e
  | .aboutDialog => pure (aboutKey c e)
  | .inputDialog purpose value => pure (inputKey c e purpose value)
  | .closed => Action.diverge

def step (s : Editor × W) (c : UInt8) : Option (Editor × W) := press api c s.1 s.2

end Files

end Edit
end MiniDos
