import MiniDos.Lib.Sheet
import Mathlib.Data.List.Basic

/-!
# MiniDos.Edit.Grid

The text grid of the editor (`edit.c`), and how it becomes the bytes of a file and comes back.

* A line of `lines` has `EDIT_COLS` characters and the NUL that ends it. No function stores into the
  place of the NUL and none stores a NUL before it, so a cell is a character other than NUL.
* `exportText` is what `editor_export_buffer` writes where the buffer is large enough.
* Import breaks a line behind its last column, and again at the newline that follows there.
-/

namespace MiniDos
namespace Edit

open Sheet

/-! ## The grid -/

def editCols : Nat := 78
def editRows : Nat := 24

/-- The size of the buffer for files, `EDIT_MAX_FILE_BYTES`. -/
def editMaxFileBytes : Nat := editRows * (editCols + 2)

/-- A character of a string. -/
abbrev Cell := { c : UInt8 // c ≠ 0 }

abbrev Text := List Cell

abbrev Line := Fin editCols → Cell

abbrev Grid := Fin editRows → Line

def space : Cell := ⟨0x20, by decide⟩

def newline : UInt8 := 0x0A
def carriageReturn : UInt8 := 0x0D

def lineBlank : Line := fun _ => space

def Grid.row (lines : Grid) (r : Nat) : Line := if h : r < editRows then lines ⟨r, h⟩ else lineBlank

/-- `line_used_len`. -/
def lineUsedLen (line : Line) : Nat := used space line

/-- The used part of a line. -/
def Grid.text (lines : Grid) (r : Nat) : Text := Sheet.text space (lines.row r)

/-- `lines`, `cur_row` and `cur_col`. -/
structure Doc where
  lines : Grid
  curRow : Nat
  curCol : Nat

def Doc.put (d : Doc) (c : Cell) : Doc := { d with lines := setAt d.lines d.curRow d.curCol c }

/-- `editor_clear`. -/
def editorClear : Doc := { lines := fun _ => lineBlank, curRow := 0, curCol := 0 }

/-! ## Import and export -/

/-- The cursor of the import behind the character that it stored. -/
def Doc.forward (d : Doc) : Doc :=
  if editCols ≤ d.curCol + 1 then { d with curRow := d.curRow + 1, curCol := 0 }
  else { d with curCol := d.curCol + 1 }

def importByte (d : Doc) (c : UInt8) : Doc :=
  if c = carriageReturn then d
  else if c = newline then { d with curRow := d.curRow + 1, curCol := 0 }
  else if h : 32 ≤ c ∧ c ≤ 126 then (d.put ⟨c, by rintro rfl; exact absurd h.1 (by decide)⟩).forward
  else d

def importLoop (d : Doc) : List UInt8 → Doc
  | [] => d
  | c :: data => if d.curRow < editRows then importLoop (importByte d c) data else d

/-- `editor_import_buffer`. -/
def editorImportBuffer (data : List UInt8) : Doc :=
  let d := importLoop editorClear data
  if editRows ≤ d.curRow then { d with curRow := editRows - 1, curCol := editCols - 1 } else d

/-- `last_row`, without the value for a blank grid. -/
def lastRow (lines : Grid) : Option Nat :=
  (List.range editRows).foldl
    (fun last r => if 0 < lineUsedLen (lines.row r) then some r else last) none

def exportByte (outMax : Nat) (out : List UInt8) (c : UInt8) : List UInt8 :=
  if out.length < outMax then out ++ [c] else out

def exportRow (lines : Grid) (outMax last : Nat) (out : List UInt8) (r : Nat) : List UInt8 :=
  let out := (List.range (lineUsedLen (lines.row r))).foldl
    (fun out c => exportByte outMax out (cellAt space (lines.row r) c).val) out
  if r < last then exportByte outMax out newline else out

/-- `editor_export_buffer`. -/
def editorExportBuffer (lines : Grid) (outMax : Nat) : List UInt8 :=
  match lastRow lines with
  | none => []
  | some last => (List.range (last + 1)).foldl (exportRow lines outMax last) []

end Edit
end MiniDos
