import MiniDos.Fat.Name
import MiniDos.Lib.Action
import Mathlib.Logic.Function.Basic

/-!
# MiniDos.Desk.Model

The file windows of the desktop app: `win95_explorer.c`.

* `Explorer` is `explorer_state_t` of one window, its list included.
* `DeskApi`: the file calls that the windows make, over any world.
* `perform` is one operation on a window. Each that moves the window or changes its directory lists the
  directory again (`refreshList`).
* Titles, status lines, buttons, colours and the part of the list that is in view are drawn only, and
  left out. The text file that a window opens is another window's.
-/

namespace MiniDos
namespace Desk

open Fat16

/-! ## State -/

def explorerMaxDepth : Nat := 12
def explorerHistoryMax : Int := 12
def explorerPathLen : Nat := 96
def uiListviewMaxItems : Nat := 128
def uiListviewItemNameMax : Nat := 32
def viewerMaxBytes : Nat := 4096

/-- A string in a buffer of 13 characters. -/
abbrev Name : Type := { s : CStr // s.length ≤ 12 }

/-- `str_copy` into such a buffer. -/
def Name.ofStr (s : CStr) : Name := ⟨strCopy 13 s, List.length_take_le 12 s⟩

def Name.empty : Name := ⟨[], Nat.zero_le 12⟩

theorem Name.ofStr_val (name : Name) : Name.ofStr name.val = name :=
  Subtype.ext (List.take_of_length_le name.property)

structure Item where
  name : CStr
  isDir : Bool

structure Explorer where
  windowOpen : Bool
  showingDrives : Bool
  drive : Nat
  depth : Nat
  dirs : Nat → Name
  pathText : CStr
  historyCount : Int
  historyIndex : Int
  historyShowingDrives : Int → Bool
  historyDrive : Int → Nat
  historyDepth : Int → Nat
  historyDirs : Int → Nat → Name
  items : Int → Item
  itemCount : Int
  selectedIndex : Int

/-- `ui_listview_init`. -/
def listviewInit (e : Explorer) : Explorer :=
  { e with items := fun _ => ⟨[], false⟩, itemCount := 0, selectedIndex := 0 }

/-- `explorer_init`. -/
def explorerInit : Explorer where
  windowOpen := false
  showingDrives := false
  drive := 0
  depth := 0
  dirs := fun _ => Name.empty
  pathText := []
  historyCount := 0
  historyIndex := -1
  historyShowingDrives := fun _ => false
  historyDrive := fun _ => 0
  historyDepth := fun _ => 0
  historyDirs := fun _ _ => Name.empty
  items := fun _ => ⟨[], false⟩
  itemCount := 0
  selectedIndex := -1

/-! ## The path -/

def driveName (drive : Nat) : CStr := [UInt8.ofNat (0x41 + drive), 0x3A]

def backslash : CStr := [0x5C]

/-- `append_path_part`. -/
def appendPathPart (maxLen : Nat) (out text : CStr) : CStr :=
  if maxLen ≤ 1 then out else (out ++ text).take (maxLen - 1)

/-- `O meu computador`. -/
def myComputer : CStr :=
  [0x4F, 0x20, 0x6D, 0x65, 0x75, 0x20, 0x63, 0x6F, 0x6D, 0x70, 0x75, 0x74, 0x61, 0x64, 0x6F, 0x72]

def appendDir (dirs : Nat → Name) (out : CStr) (i : Nat) : CStr :=
  appendPathPart explorerPathLen (if 0 < i then appendPathPart explorerPathLen out backslash else out)
    (dirs i).val

/-- `explorer_update_texts`. -/
def updateTexts (e : Explorer) : Explorer :=
  if e.showingDrives then { e with pathText := strCopy explorerPathLen myComputer }
  else { e with pathText := (List.range e.depth).foldl (appendDir e.dirs) (driveName e.drive ++ backslash) }

/-! ## The history -/

def historyMatchesIndex (e : Explorer) (index : Int) : Bool :=
  if index < 0 ∨ e.historyCount ≤ index then false
  else if e.historyShowingDrives index ≠ e.showingDrives then false
  else if e.showingDrives then true
  else if e.historyDrive index ≠ e.drive ∨ e.historyDepth index ≠ e.depth then false
  else (List.range e.depth).all (fun i => e.historyDirs index i == e.dirs i)

/-- The loops that copy the names of a location. -/
def copyDirs (src dst : Nat → Name) : Nat → Name :=
  (List.range explorerMaxDepth).foldl (fun out i => Function.update out i (Name.ofStr (src i).val)) dst

def historyCapture (e : Explorer) (index : Int) : Explorer :=
  if index < 0 ∨ explorerHistoryMax ≤ index then e
  else
    { e with
      historyShowingDrives := Function.update e.historyShowingDrives index e.showingDrives
      historyDrive := Function.update e.historyDrive index e.drive
      historyDepth := Function.update e.historyDepth index e.depth
      historyDirs := Function.update e.historyDirs index (copyDirs e.dirs (e.historyDirs index)) }

/-- The loop that blanks the names from `depth` on. -/
def clearDirs (depth : Nat) (dirs : Nat → Name) : Nat → Name :=
  (List.range' depth (explorerMaxDepth - depth)).foldl (fun out i => Function.update out i Name.empty) dirs

def historyRestore (e : Explorer) (index : Int) : Explorer :=
  if index < 0 ∨ e.historyCount ≤ index then e
  else
    let depth := if explorerMaxDepth < e.historyDepth index then explorerMaxDepth else e.historyDepth index
    { e with
      showingDrives := e.historyShowingDrives index
      drive := e.historyDrive index
      depth := depth
      dirs := clearDirs depth (copyDirs (e.historyDirs index) e.dirs) }

def historyReset (e : Explorer) : Explorer :=
  historyCapture { e with historyCount := 1, historyIndex := 0 } 0

/-- A round of the loop that drops the first place. -/
def historyShift (e : Explorer) (i : Int) : Explorer :=
  { e with
    historyShowingDrives := Function.update e.historyShowingDrives (i - 1) (e.historyShowingDrives i)
    historyDrive := Function.update e.historyDrive (i - 1) (e.historyDrive i)
    historyDepth := Function.update e.historyDepth (i - 1) (e.historyDepth i)
    historyDirs := Function.update e.historyDirs (i - 1)
      (copyDirs (e.historyDirs i) (e.historyDirs (i - 1))) }

def historyDropFirst (e : Explorer) : Explorer :=
  if explorerHistoryMax ≤ e.historyCount then
    let rounds := List.range (e.historyCount.toNat - 1)
    { rounds.foldl (fun e (k : Nat) => historyShift e (k + 1)) e with historyCount := explorerHistoryMax - 1 }
  else e

/-- The place that is shown is put behind the last one. -/
def historyAppend (e : Explorer) : Explorer :=
  let e := historyCapture e e.historyCount
  { e with historyIndex := e.historyCount, historyCount := e.historyCount + 1 }

/-- The places behind the cursor are dropped. -/
def historyTruncate (e : Explorer) : Explorer :=
  if e.historyIndex < e.historyCount - 1 then { e with historyCount := e.historyIndex + 1 } else e

/-- The cursor in the history, as `explorer_history_commit_current` puts it right. -/
def historyClamp (e : Explorer) : Explorer :=
  let e := if e.historyIndex < 0 then { e with historyIndex := 0 } else e
  if e.historyCount ≤ e.historyIndex then { e with historyIndex := e.historyCount - 1 } else e

def historyCommitCurrent (e : Explorer) : Explorer :=
  if e.historyCount ≤ 0 then historyReset e
  else
    let e := historyClamp e
    if historyMatchesIndex e e.historyIndex then e
    else historyAppend (historyDropFirst (historyTruncate e))

def canGoBack (e : Explorer) : Bool := decide (1 < e.historyCount) && decide (0 < e.historyIndex)

def canGoForward (e : Explorer) : Bool :=
  decide (1 < e.historyCount) && decide (e.historyIndex < e.historyCount - 1)

/-! ## The list -/

/-- The calls of the windows. A listed entry is its name and whether it is a directory; the buffer for
its name has 13 characters. -/
structure DeskApi (W : Type) where
  driveValid : Nat → Action W Bool
  chdir : CStr → Action W Bool
  listEntry : Nat → Action W (Option (Name × Bool))
  fileRead : CStr → Nat → Action W (Option (List UInt8))
  mkdir : CStr → Action W Bool
  renameEntry : CStr → CStr → Action W Bool
  deleteEntry : CStr → Action W Bool
  clipPaste : CStr → Action W Bool

section Operations

variable {W : Type} (api : DeskApi W)

def enterDirs : List CStr → Action W Bool
  | [] => pure true
  | name :: names => do
    let ok ← api.chdir name
    if ok then enterDirs names else pure false

/-- `enter_explorer_dir`. -/
def enterExplorerDir (e : Explorer) : Action W Bool :=
  enterDirs api (driveName e.drive :: backslash :: (List.range e.depth).map (fun i => (e.dirs i).val))

/-- The variables of the loops of `explorer_refresh_list`. -/
structure Filling where
  items : Int → Item
  count : Int
  selected : Int

def Filling.store (f : Filling) (name : CStr) (isDir : Bool) : Filling :=
  { f with
    items := Function.update f.items f.count ⟨strCopy uiListviewItemNameMax name, isDir⟩
    count := f.count + 1 }

/-- The loop over the drives, `n` of them from `i` on. -/
def fillDrives : Nat → Nat → Filling → Action W Filling
  | 0, _, f => pure f
  | n + 1, i, f =>
    if f.count < (uiListviewMaxItems : Int) then do
      let valid ← api.driveValid i
      if valid then fillDrives n (i + 1) (f.store (driveName i) true) else fillDrives n (i + 1) f
    else pure f

def dot : CStr := [0x2E]

/-- Entries that the list leaves out. -/
def skipped (name : CStr) : Bool := name == [] || name == dot || name == dotDot

/-- The loop over the entries, `n` of them from `i` on. -/
def fillList (selectedName : Name) : Nat → Nat → Filling → Action W Filling
  | 0, _, f => pure f
  | n + 1, i, f => do
    let found ← api.listEntry i
    match found with
    | none => pure f
    | some (name, isDir) =>
      if skipped name.val then fillList selectedName n (i + 1) f
      else
        let f := { f.store name.val isDir with
          selected := if selectedName = name then f.count else f.selected }
        if (uiListviewMaxItems : Int) ≤ f.count then pure f else fillList selectedName n (i + 1) f

def refreshDrives (e : Explorer) : Action W Explorer := do
  let f ← fillDrives api 26 0 ⟨e.items, 0, -1⟩
  pure (updateTexts { e with
    items := f.items
    itemCount := f.count
    selectedIndex := if 0 < f.count then 0 else -1 })

def selectedName (e : Explorer) : Name :=
  if 0 ≤ e.selectedIndex ∧ e.selectedIndex < e.itemCount then Name.ofStr (e.items e.selectedIndex).name
  else Name.empty

/-- `explorer_refresh_list`. -/
def refreshList (e : Explorer) : Action W Explorer :=
  if e.showingDrives then refreshDrives api e
  else do
    let entered ← enterExplorerDir api e
    if entered then do
      let f ← fillList api (selectedName e) uiListviewMaxItems 0 ⟨e.items, 0, -1⟩
      pure (updateTexts { e with
        items := f.items
        itemCount := f.count
        selectedIndex :=
          if f.count ≤ 0 then -1
          else if f.selected < 0 then -1
          else if f.count ≤ f.selected then f.count - 1
          else f.selected })
    else pure e

/-! ## Operations -/

def desktopDirs (folderName : CStr) : Nat → Name
  | 0 => Name.ofStr [0x55, 0x53, 0x45, 0x52]
  | 1 => Name.ofStr [0x41, 0x44, 0x4D]
  | 2 => Name.ofStr [0x44, 0x65, 0x73, 0x6B, 0x74, 0x6F, 0x70]
  | 3 => Name.ofStr folderName
  | _ => Name.empty

/-- The window of `explorer_open_desktop_folder` before its directory is listed. -/
def desktopFolder (folderName : CStr) : Explorer :=
  historyReset { explorerInit with dirs := desktopDirs folderName, depth := 4 }

/-- `explorer_ensure_window`, for a slot without a window. Whether the window manager has one left is
its own affair. -/
def ensureWindow (created : Bool) (e : Explorer) : Explorer :=
  { listviewInit e with windowOpen := created }

/-- `explorer_open_desktop_folder`, in a slot that is free. -/
def openDesktopFolder (folderName : CStr) (created : Bool) : Action W (Bool × Explorer) := do
  let e ← refreshList api (desktopFolder folderName)
  pure (true, ensureWindow created e)

/-- A window at another place. -/
def visit (e : Explorer) : Action W (Bool × Explorer) := do
  let e ← refreshList api (historyCommitCurrent e)
  pure (true, e)

/-- `open_file_viewer`, without its window. -/
def openFileViewer (e : Explorer) (name : CStr) : Action W Bool :=
  if name = [] ∨ e.showingDrives then pure false
  else do
    let entered ← enterExplorerDir api e
    if entered then do
      let bytes ← api.fileRead name (viewerMaxBytes - 1)
      pure bytes.isSome
    else pure false

def openSelected (e : Explorer) : Action W (Bool × Explorer) :=
  if e.selectedIndex < 0 ∨ e.itemCount ≤ e.selectedIndex then pure (false, e)
  else
    let item := e.items e.selectedIndex
    if e.showingDrives then
      if item.name.at 0 < 0x41 ∨ 0x5A < item.name.at 0 ∨ item.name.at 1 ≠ 0x3A then pure (false, e)
      else visit api { e with
        drive := (item.name.at 0).toNat - 0x41
        showingDrives := false
        depth := 0 }
    else if item.isDir then
      if explorerMaxDepth ≤ e.depth then pure (false, e)
      else visit api { e with
        dirs := Function.update e.dirs e.depth (Name.ofStr item.name)
        depth := e.depth + 1 }
    else do
      let opened ← openFileViewer api e item.name
      pure (opened, e)

def goUp (e : Explorer) : Action W (Bool × Explorer) :=
  if e.showingDrives then pure (false, e)
  else if e.depth = 0 then visit api { e with showingDrives := true }
  else visit api { e with
    depth := e.depth - 1
    dirs := Function.update e.dirs (e.depth - 1) Name.empty }

/-- The place at another index of the history. -/
def revisit (e : Explorer) (index : Int) : Action W (Bool × Explorer) := do
  let e ← refreshList api (historyRestore { e with historyIndex := index } index)
  pure (true, e)

def goBack (e : Explorer) : Action W (Bool × Explorer) :=
  if canGoBack e then revisit api e (e.historyIndex - 1) else pure (false, e)

def goForward (e : Explorer) : Action W (Bool × Explorer) :=
  if canGoForward e then revisit api e (e.historyIndex + 1) else pure (false, e)

/-- `explorer_exec_new_folder` and its like: a call in the directory, which is listed again. -/
def exec (call : Action W Bool) (e : Explorer) : Action W (Bool × Explorer) :=
  if e.showingDrives then pure (false, e)
  else do
    let entered ← enterExplorerDir api e
    if entered then do
      let ok ← call
      let e ← refreshList api e
      pure (ok, e)
    else pure (false, e)

def execNewFolder (name : CStr) (e : Explorer) : Action W (Bool × Explorer) :=
  if name = [] then pure (false, e) else exec api (api.mkdir name) e

def execRename (oldName newName : CStr) (e : Explorer) : Action W (Bool × Explorer) :=
  if oldName = [] ∨ newName = [] then pure (false, e) else exec api (api.renameEntry oldName newName) e

def execDelete (name : CStr) (e : Explorer) : Action W (Bool × Explorer) :=
  if name = [] then pure (false, e) else exec api (api.deleteEntry name) e

def execPaste (e : Explorer) : Action W (Bool × Explorer) := exec api (api.clipPaste []) e

/-- `explorer_select_item_in`, for a click and for the arrow keys. -/
def selectItem (index : Int) (e : Explorer) : Explorer :=
  if index < 0 ∨ e.itemCount ≤ index then e else { e with selectedIndex := index }

/-- What is done with a window. -/
inductive Op where
  | select (index : Int)
  | openSelected
  | goUp
  | goBack
  | goForward
  | newFolder (name : CStr)
  | rename (oldName newName : CStr)
  | delete (name : CStr)
  | paste

/-- The value returned, and the window. A selection returns nothing. -/
def perform (e : Explorer) : Op → Action W (Bool × Explorer)
  | .select index => pure (false, selectItem index e)
  | .openSelected => openSelected api e
  | .goUp => goUp api e
  | .goBack => goBack api e
  | .goForward => goForward api e
  | .newFolder name => execNewFolder api name e
  | .rename oldName newName => execRename api oldName newName e
  | .delete name => execDelete api name e
  | .paste => execPaste api e

/-! ## The windows -/

def explorerMaxWindows : Nat := 15

/-- The windows, and the one that the last operation was on, if it returned 1. -/
structure Desktop where
  slots : Nat → Explorer
  done : Option Nat

/-- `explorer_init_all`. -/
def explorerInitAll : Desktop where
  slots := fun _ => explorerInit
  done := none

/-- `explorer_alloc_window_slot`. -/
def allocWindowSlot (d : Desktop) : Option Nat :=
  (List.range explorerMaxWindows).find? (fun i => !(d.slots i).windowOpen)

inductive Event where
  | openFolder (folderName : CStr) (created : Bool)
  | operate (slot : Nat) (op : Op)
  | close (slot : Nat)

def deskPerform (d : Desktop) : Event → Action W Desktop
  | .openFolder folderName created =>
    if folderName = [] then pure { d with done := none }
    else
      match allocWindowSlot d with
      | none => pure { d with done := none }
      | some i => do
        let (_, e) ← openDesktopFolder api folderName created
        pure { slots := Function.update d.slots i e, done := some i }
  | .operate i op => do
    let (ok, e) ← perform api (d.slots i) op
    pure { slots := Function.update d.slots i e, done := if ok then some i else none }
  | .close i =>
    pure { slots := Function.update d.slots i { d.slots i with windowOpen := false }, done := none }

def deskStep (s : Desktop × W) (event : Event) : Option (Desktop × W) := deskPerform api s.1 event s.2

end Operations

end Desk
end MiniDos
