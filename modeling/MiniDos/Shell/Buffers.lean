import MiniDos.Fat.Listing
import MiniDos.Lib.Stores
import MiniDos.Shell.Editor

/-!
# MiniDos.Shell.Buffers

The copies that `shell_execute` makes of a command and its arguments into buffers of 64 bytes:
`parse_command`, the string functions of `shell.c` that the commands of `shell_fs.c` and the launches
of `shell_apps_launch.inc` use, and which of them a line leads to.

* Each function is given by its stores; the string that it leaves is that of the commands' own model.
* What the volume holds is a parameter (`World`), and so is whether it is ready.
* The copies of the built-in commands go into tokens of 32 bytes and are left out.
-/

namespace MiniDos
namespace Buffers

open Bounded Fat16 Files Script

variable {s : CStr} {onlyIfMissing : Bool} {ws : Writes} {cmd : CStr}

abbrev Writes := Stores Byte

/-- `char command[64], args[64]`, and of all buffers below. -/
def bufferSize : Nat := 64

/-! ## `parse_command` -/

/-- The first loop from place `i` on, and what is left of the line behind it. -/
def commandLoop : Nat → CStr → Writes × CStr
  | _, [] => ([], [])
  | i, c :: cmd =>
    if c = chSpace then ([], c :: cmd)
    else
      let r := commandLoop (i + 1) cmd
      ((i, c) :: r.1, r.2)

/-- The stores into `command` and into `args`. -/
def parseCommand (cmd : CStr) : Writes × Writes :=
  let r := commandLoop 0 cmd
  let rest := r.2.dropWhile (· = chSpace)
  (r.1 ++ [(r.1.length, 0)], copyFrom 0 rest ++ [(rest.length, 0)])

/-! ## Copies with a size -/

/-- A string changed where it stands: `str_to_lower`, `str_to_upper`. -/
def inPlace (f : Byte → Byte) : Nat → CStr → Writes
  | _, [] => []
  | i, c :: s => if f c = c then inPlace f (i + 1) s else (i, f c) :: inPlace f (i + 1) s

/-- The loop of `str_copy_upper` and, with `f` the identity, of `shell_apps_copy_string`. -/
def copyLoop (f : Byte → Byte) (size : Nat) : Nat → CStr → Writes
  | i, [] => [(i, 0)]
  | i, c :: s => if i < size - 1 then (i, f c) :: copyLoop f size (i + 1) s else [(i, 0)]

/-- The loop of `parse_single_arg` over one word, and of `parse_two_args`: no NUL if there is no room
for the word. -/
def wordLoop (size : Nat) : Nat → CStr → Writes
  | j, [] => [(j, 0)]
  | j, c :: s =>
    if isBlank c then [(j, 0)]
    else if size - 1 ≤ j then []
    else (j, c) :: wordLoop size (j + 1) s

/-- The stores of one word of an argument; `parseWord` is the word and what is left behind it. -/
def wordWrites (size : Nat) (args : CStr) : Writes :=
  let s := args.dropWhile isBlank
  if s = [] then [] else wordLoop size 0 s

/-- `parse_single_arg`. -/
def parseSingleArg (args : CStr) : Option CStr :=
  match parseWord args with
  | none => none
  | some (word, rest) => if rest.dropWhile isBlank = [] then some word else none

/-- The loop of `shell_apps_append_extension` that copies the command: no NUL if it has no room. -/
def stemLoop (size : Nat) : Nat → CStr → Writes
  | i, [] => [(i, 0)]
  | i, c :: s => if size - 1 ≤ i then [] else (i, c) :: stemLoop size (i + 1) s

/-- The stores of `shell_apps_append_extension`; `appendExtension` is the name behind them. -/
def extensionWrites (size : Nat) (command ext : CStr) (onlyIfMissing : Bool) : Writes :=
  stemLoop size 0 command ++
    if (onlyIfMissing && hasExtension command ext) = true ∨ size ≤ command.length + ext.length then []
    else copyFrom command.length ext ++ [(command.length + ext.length, 0)]

def chUnderscore : Byte := 0x5F

/-- The loop of `shell_apps_normalize_app_name`, with what it has stored so far. -/
def normalizeLoop (size : Nat) : Nat → CStr → Writes × CStr
  | j, [] => ([(j, 0)], [])
  | j, c :: s =>
    if size - 1 ≤ j then ([(j, 0)], [])
    else if c = chDot then ([(j, 0)], [])
    else if c = chUnderscore ∨ c = chSpace ∨ c = 0x09 then normalizeLoop size j s
    else if 8 ≤ j + 1 then ([(j, upperChar c), (j + 1, 0)], [upperChar c])
    else
      let r := normalizeLoop size (j + 1) s
      ((j, upperChar c) :: r.1, upperChar c :: r.2)

def normalizeAppName (size : Nat) (input : CStr) : Writes × CStr := normalizeLoop size 0 input

/-- The stores of `path_push`; `pathPush` is the path behind them. -/
def pathPushWrites (path : CStr) (maxLen : Nat) (name : CStr) : Writes :=
  if path = pathReset then
    if maxLen < 1 + name.length + 1 then [] else copyFrom 1 name ++ [(1 + name.length, 0)]
  else if maxLen < path.length + 1 + name.length + 1 then []
  else if path.getLast? = some chBackslash then
    copyFrom path.length name ++ [(path.length + name.length, 0)]
  else
    (path.length, chBackslash) :: copyFrom (path.length + 1) name ++
      [(path.length + 1 + name.length, 0)]

/-! ## What a line leads to -/

/-- The buffers of 64 bytes. -/
inductive Dest where
  | command
  | args
  | filterUpper
  | dirUpper
  | fileUpper
  | nameUpper
  | patternUpper
  | srcName
  | dstName
  | appName
  | normalized
  | filename
  | currentPath
  deriving DecidableEq

abbrev Copies := List (Dest × Nat × Byte)

def into (d : Dest) (ws : Writes) : Copies := ws.map fun w => (d, w)

/-- What the copies depend on: `ensure_fat16_ready`, the path, the directories of the current one
that are found, and its files with bytes in them. -/
structure World where
  ready : Bool
  path : CStr
  isDir : CStr → Bool
  hasFile : CStr → Bool

section Commands

variable (w : World)

def strCopyUpper64 (s : CStr) : Writes := copyLoop upperChar bufferSize 0 s

/-- `dir`: the filter is copied for the title and for the listing. -/
def copiesDir (args : CStr) : Copies :=
  if w.ready = false ∨ args = [] then []
  else into .filterUpper (strCopyUpper64 args) ++ into .filterUpper (strCopyUpper64 args)

def copiesCd (args : CStr) : Copies :=
  if w.ready = false ∨ args = [] then []
  else if args.at 0 = chBackslash ∨ args.at 0 = chSlash then []
  else if args.at 0 = chDot ∧ args.at 1 = chDot ∧ args.at 2 = 0 then []
  else if args.at 0 = chDot ∧ args.at 1 = 0 then []
  else
    into .dirUpper (strCopyUpper64 args) ++
      if w.isDir (strCopyUpper args) then
        into .currentPath (pathPushWrites w.path pathMax (strCopyUpper args))
      else []

/-- `type`, `mkdir`, `rmdir` and `del`: the argument in upper case. -/
def copiesUpper (d : Dest) (args : CStr) : Copies :=
  if args = [] ∨ w.ready = false then [] else into d (strCopyUpper64 args)

/-- `copy` and `move`: two words, in upper case once the volume is ready. -/
def copiesTwo (args : CStr) : Copies :=
  into .srcName (wordWrites bufferSize args) ++
    match parseWord args with
    | none => []
    | some (first, rest) =>
      into .dstName (wordWrites bufferSize rest) ++
        match parseWord rest with
        | none => []
        | some (second, rest') =>
          if rest'.dropWhile isBlank = [] ∧ w.ready = true then
            into .srcName (inPlace upperChar 0 first) ++ into .dstName (inPlace upperChar 0 second)
          else []

/-- The commands of `shell_fs_try_execute`. -/
def fsCopies (command args : CStr) : Option Copies :=
  if command = textOf "dir" then some (copiesDir w args)
  else if command = textOf "cd" then some (copiesCd w args)
  else if command = textOf "type" then some (copiesUpper w .fileUpper args)
  else if command = textOf "mkdir" then some (copiesUpper w .nameUpper args)
  else if command = textOf "rmdir" then some (copiesUpper w .nameUpper args)
  else if command = textOf "del" ∨ command = textOf "rm" then
    some (copiesUpper w .patternUpper args)
  else if command = textOf "copy" ∨ command = textOf "cp" then some (copiesTwo w args)
  else if command = textOf "move" ∨ command = textOf "mv" ∨ command = textOf "ren" then
    some (copiesTwo w args)
  else if command = textOf "elfls" then some []
  else none

def elfExt : CStr := textOf ".elf"
def comExt : CStr := textOf ".com"

def openUpper (name : CStr) : Copies × Bool :=
  (into .filename (inPlace upperChar 0 name), w.hasFile (strToUpper name))

/-- `shell_apps_append_extension` into `filename`, with the name. -/
def filenameInto (command ext : CStr) (onlyIfMissing : Bool) : Copies × Option CStr :=
  (into .filename (extensionWrites bufferSize command ext onlyIfMissing),
    appendExtension bufferSize command ext onlyIfMissing)

/-- `shell_apps_stage_elf_candidate` without a task name; `true`: the file was read. -/
def stageElf (command : CStr) : Copies × Bool :=
  let name := normalizeAppName bufferSize command
  if name.2 = [] then (into .normalized name.1, false)
  else
    match filenameInto name.2 elfExt false with
    | (copies, none) => (into .normalized name.1 ++ copies, false)
    | (copies, some filename) =>
      let file := openUpper w filename
      (into .normalized name.1 ++ copies ++ file.1, file.2)

/-- `shell_apps_stage_com_candidate`; `named`: with a task name. -/
def stageCom (command : CStr) (named : Bool) : Copies × Bool :=
  match filenameInto command comExt true with
  | (copies, none) => (copies, false)
  | (copies, some filename) =>
    let file := openUpper w filename
    if file.2 = false then (copies ++ file.1, false)
    else if named then
      let name := normalizeAppName bufferSize command
      (copies ++ file.1 ++ into .normalized name.1 ++
        into .normalized (copyLoop id bufferSize 0 name.2), true)
    else (copies ++ file.1, true)

/-- `shell_apps_try_execute_elf`; `true`: it returned 1. -/
def tryElf (command args : CStr) : Copies × Bool :=
  if command = [] ∨ args ≠ [] then ([], false)
  else
    let name := normalizeAppName bufferSize command
    if name.2 = [] then (into .normalized name.1, false)
    else
      match filenameInto name.2 (if hasExtension name.2 elfExt then [] else elfExt) false with
      | (copies, none) => (into .normalized name.1 ++ copies, false)
      | (copies, some filename) =>
        if w.ready = false then (into .normalized name.1 ++ copies, false)
        else
          let file := openUpper w filename
          (into .normalized name.1 ++ copies ++ file.1, file.2)

/-- `shell_apps_try_execute_com`. -/
def tryCom (command args : CStr) : Copies × Bool :=
  if command = [] ∨ args ≠ [] ∨ w.ready = false then ([], false) else stageCom w command true

/-- One attempt, and another one if it did not come to anything. -/
def orElse (first second : Copies × Bool) : Copies × Bool :=
  if first.2 then first else (first.1 ++ second.1, second.2)

/-- `shell_apps_try_execute_program`. -/
def tryProgram (command args : CStr) : Copies × Bool :=
  if hasExtension command comExt then tryCom w command args
  else if hasExtension command elfExt then tryElf w command args
  else orElse (tryElf w command args) (tryCom w command args)

/-- `shell_apps_try_execute_aut` up to its lines, which are passed to `shell_execute` again. -/
def tryAut (command args : CStr) : Copies × Bool :=
  if command = [] ∨ args ≠ [] then ([], false)
  else
    match filenameInto command autExt true with
    | (copies, none) => (copies, false)
    | (copies, some filename) =>
      if w.ready = false then (copies, false)
      else
        let file := openUpper w filename
        (copies ++ file.1, file.2)

/-- `shell_apps_run_background`. -/
def runBackground (command : CStr) : Copies :=
  if command = [] then []
  else
    let name := normalizeAppName bufferSize command
    if name.2 = [] ∨ w.ready = false then into .normalized name.1
    else
      into .normalized name.1 ++
        (orElse (if hasExtension command comExt then ([], false) else stageElf w command)
          (if hasExtension command elfExt then ([], false) else stageCom w command false)).1

/-- `run` and `runbg`: the word of the argument, in upper case. -/
def copiesRun (launch : CStr → Copies) (args : CStr) : Copies :=
  into .appName (wordWrites bufferSize args) ++
    match parseSingleArg args with
    | none => []
    | some name => into .appName (inPlace upperChar 0 name) ++ launch (strToUpper name)

/-- The built-in commands, `drives` and `kill`: no copy of theirs goes into 64 bytes. -/
def plainCommands : List String :=
  ["help", "echo", "ver", "time", "date", "mem", "ps", "top", "cls", "boot", "sleep", "color",
    "rect", "box", "text", "window", "videostress", "dmesg", "bsod", "drives"]

/-- What `shell_execute` does with a command behind `parse_command`. -/
def dispatchCopies (command args : CStr) : Copies :=
  if command ∈ plainCommands.map textOf then []
  else
    match fsCopies w command args with
    | some copies => copies
    | none =>
      if command = textOf "run" then
        copiesRun (fun name => (tryProgram w name []).1) args
      else if command = textOf "runbg" then copiesRun (runBackground w) args
      else if command = textOf "kill" then []
      else (orElse (tryProgram w command args) (tryAut w command args)).1

def isDriveSwitch (cmd : CStr) : Bool :=
  ((decide (0x41 ≤ cmd.at 0) && decide (cmd.at 0 ≤ 0x5A)) ||
    (decide (0x61 ≤ cmd.at 0) && decide (cmd.at 0 ≤ 0x7A))) && cmd.at 1 == chColon && cmd.at 2 == 0

/-- The copies of `parse_command`, and `str_to_lower` on the command. -/
def parseCopies (cmd : CStr) : Copies :=
  into .command (parseCommand cmd).1 ++ into .args (parseCommand cmd).2

def laterCopies (cmd : CStr) : Copies :=
  into .command (inPlace lowerChar 0 (commandOf cmd)) ++
    if cmd = [] then []
    else dispatchCopies w (strToLower (commandOf cmd)) (argsOf cmd)

/-- All copies of `shell_execute`. -/
def executeCopies (line : CStr) : Copies :=
  let cmd := trimCommand line
  if isDriveSwitch cmd then [] else parseCopies cmd ++ laterCopies w cmd

end Commands

/-! ## The functions keep to their size -/

section Within

variable {size : Nat}

theorem copyLoop_within (f : Byte → Byte) : ∀ {i : Nat}, i < size →
    Within size (copyLoop f size i s) := by
  induction s with
  | nil =>
    intro i hi
    simpa [copyLoop] using hi
  | cons c s ih =>
    intro i hi
    unfold copyLoop
    split
    · exact within_cons.mpr ⟨hi, ih (by omega)⟩
    · simpa using hi

theorem wordLoop_within : ∀ {j : Nat}, j < size → Within size (wordLoop size j s) := by
  induction s with
  | nil =>
    intro j hj
    simpa [wordLoop] using hj
  | cons c s ih =>
    intro j hj
    unfold wordLoop
    split
    · simpa using hj
    · split
      · exact within_nil
      · exact within_cons.mpr ⟨hj, ih (by omega)⟩

theorem wordWrites_within (hsize : 0 < size) (args : CStr) : Within size (wordWrites size args) := by
  unfold wordWrites
  simp only
  split
  · exact within_nil
  · exact wordLoop_within hsize

theorem parseWord_length {args word rest : CStr} (h : parseWord args = some (word, rest)) :
    word.length < bufferSize := by
  have hsize : bufferSize = nameSize := rfl
  unfold parseWord at h
  simp only at h
  split at h
  · cases h
  · cases h
    simp only [nameSize] at *
    omega

theorem parseSingleArg_length {args word : CStr} (h : parseSingleArg args = some word) :
    word.length < bufferSize := by
  unfold parseSingleArg at h
  split at h
  · cases h
  · rename_i hword
    split at h
    · cases h
      exact parseWord_length hword
    · cases h

theorem stemLoop_within : ∀ {i : Nat}, i < size → Within size (stemLoop size i s) := by
  induction s with
  | nil =>
    intro i hi
    simpa [stemLoop] using hi
  | cons c s ih =>
    intro i hi
    unfold stemLoop
    split
    · exact within_nil
    · exact within_cons.mpr ⟨hi, ih (by omega)⟩

theorem extensionWrites_within (hsize : 0 < size) (command ext : CStr) (onlyIfMissing : Bool) :
    Within size (extensionWrites size command ext onlyIfMissing) := by
  refine within_append.mpr ⟨stemLoop_within hsize, ?_⟩
  split
  · exact within_nil
  · have hcopy : Within size (copyFrom command.length ext) := within_copyFrom (by omega)
    simp [hcopy]
    omega

theorem appendExtension_length {command ext name : CStr}
    (h : appendExtension size command ext onlyIfMissing = some name) : name.length < size := by
  unfold appendExtension at h
  split at h
  · cases h
  · split at h
    · cases h
      omega
    · split at h
      · cases h
      · cases h
        rw [List.length_append]
        omega

theorem normalizeLoop_within : ∀ {j : Nat}, j < size →
    Within size (normalizeLoop size j s).1 := by
  induction s with
  | nil =>
    intro j hj
    simpa [normalizeLoop] using hj
  | cons c s ih =>
    intro j hj
    unfold normalizeLoop
    split
    · simpa using hj
    · split
      · simpa using hj
      · split
        · exact ih hj
        · split
          · simp only [within_cons, within_nil, and_true]
            omega
          · exact within_cons.mpr ⟨hj, ih (by omega)⟩

theorem inPlace_within (f : Byte → Byte) : ∀ {i : Nat}, i + s.length ≤ size →
    Within size (inPlace f i s) := by
  induction s with
  | nil => exact fun _ => within_nil
  | cons c s ih =>
    intro i hi
    rw [List.length_cons] at hi
    unfold inPlace
    split
    · exact ih (by omega)
    · exact within_cons.mpr ⟨by simp only; omega, ih (by omega)⟩

theorem pathPushWrites_within (path : CStr) (maxLen : Nat) (name : CStr) :
    Within maxLen (pathPushWrites path maxLen name) := by
  unfold pathPushWrites
  split
  · split
    · exact within_nil
    · have hcopy : Within maxLen (copyFrom 1 name) := within_copyFrom (by omega)
      simp [hcopy]
      omega
  · split
    · exact within_nil
    · split
      · have hcopy : Within maxLen (copyFrom path.length name) := within_copyFrom (by omega)
        simp [hcopy]
        omega
      · have hcopy : Within maxLen (copyFrom (path.length + 1) name) := within_copyFrom (by omega)
        simp [hcopy]
        omega

end Within

/-! ## Copies that stay inside -/

def Inside (copies : Copies) : Prop := ∀ copy ∈ copies, copy.2.1 < bufferSize

instance (copies : Copies) : Decidable (Inside copies) :=
  inferInstanceAs (Decidable (∀ copy ∈ copies, copy.2.1 < bufferSize))

section Inside

variable {w : World} {copies copies' : Copies}

@[simp] theorem inside_nil : Inside [] := fun _ h => (nomatch h)

@[simp] theorem inside_append : Inside (copies ++ copies') ↔ Inside copies ∧ Inside copies' :=
  List.forall_mem_append

@[simp] theorem inside_into {d : Dest} :
    Inside (into d ws) ↔ Within bufferSize ws := List.forall_mem_map

theorem inside_upper64 (d : Dest) (s : CStr) : Inside (into d (strCopyUpper64 s)) :=
  inside_into.mpr (copyLoop_within upperChar (by decide))

theorem inside_word (d : Dest) (args : CStr) : Inside (into d (wordWrites bufferSize args)) :=
  inside_into.mpr (wordWrites_within (by decide) args)

theorem inside_normalized (command : CStr) :
    Inside (into .normalized (normalizeAppName bufferSize command).1) :=
  inside_into.mpr (normalizeLoop_within (by decide))

theorem inside_filename (command ext : CStr) (onlyIfMissing : Bool) :
    Inside (filenameInto command ext onlyIfMissing).1 :=
  inside_into.mpr (extensionWrites_within (by decide) command ext onlyIfMissing)

theorem inside_opened {command ext filename : CStr} {copies : Copies}
    (h : filenameInto command ext onlyIfMissing = (copies, some filename)) :
    Inside copies ∧ Inside (openUpper w filename).1 := by
  have hlt := appendExtension_length (congrArg Prod.snd h)
  refine ⟨?_, inside_into.mpr (inPlace_within upperChar (by omega))⟩
  have hin := inside_filename command ext onlyIfMissing
  rwa [h] at hin

theorem inside_unopened {command ext : CStr} {copies : Copies}
    (h : filenameInto command ext onlyIfMissing = (copies, none)) : Inside copies := by
  have hin := inside_filename command ext onlyIfMissing
  rwa [h] at hin

theorem inside_orElse {first second : Copies × Bool} (h : Inside first.1) (h' : Inside second.1) :
    Inside (orElse first second).1 := by
  unfold orElse
  split
  · exact h
  · exact inside_append.mpr ⟨h, h'⟩

theorem inside_stageElf (command : CStr) : Inside (stageElf w command).1 := by
  unfold stageElf
  simp only
  split
  · exact inside_normalized command
  · split
    case h_1 ws h => exact inside_append.mpr ⟨inside_normalized command, inside_unopened h⟩
    case h_2 ws filename h =>
      have hext := inside_opened (w := w) h
      simp only [inside_append]
      exact ⟨⟨inside_normalized command, hext.1⟩, hext.2⟩

theorem inside_stageCom (command : CStr) (named : Bool) : Inside (stageCom w command named).1 := by
  unfold stageCom
  split
  case h_1 ws h => exact inside_unopened h
  case h_2 ws filename h =>
    have hext := inside_opened (w := w) h
    have hboth := inside_append.mpr hext
    have hcopy : Inside (into .normalized
        (copyLoop id bufferSize 0 (normalizeAppName bufferSize command).2)) :=
      inside_into.mpr (copyLoop_within id (by decide))
    simp only
    split
    · exact hboth
    · split
      · simp only [inside_append]
        exact ⟨⟨hext, inside_normalized command⟩, hcopy⟩
      · exact hboth

theorem inside_tryElf (command args : CStr) : Inside (tryElf w command args).1 := by
  unfold tryElf
  simp only
  split
  · exact inside_nil
  · split
    · exact inside_normalized command
    · split
      case h_1 ws h => exact inside_append.mpr ⟨inside_normalized command, inside_unopened h⟩
      case h_2 ws filename h =>
        have hext := inside_opened (w := w) h
        split
        · exact inside_append.mpr ⟨inside_normalized command, hext.1⟩
        · simp only [inside_append]
          exact ⟨⟨inside_normalized command, hext.1⟩, hext.2⟩

theorem inside_tryCom (command args : CStr) : Inside (tryCom w command args).1 := by
  unfold tryCom
  split
  · exact inside_nil
  · exact inside_stageCom command true

theorem inside_tryProgram (command args : CStr) : Inside (tryProgram w command args).1 := by
  unfold tryProgram
  split
  · exact inside_tryCom command args
  · split
    · exact inside_tryElf command args
    · exact inside_orElse (inside_tryElf command args) (inside_tryCom command args)

theorem inside_tryAut (command args : CStr) : Inside (tryAut w command args).1 := by
  unfold tryAut
  split
  · exact inside_nil
  · split
    case h_1 ws h => exact inside_unopened h
    case h_2 ws filename h =>
      have hext := inside_opened (w := w) h
      split
      · exact hext.1
      · exact inside_append.mpr hext

theorem inside_runBackground (command : CStr) : Inside (runBackground w command) := by
  unfold runBackground
  simp only
  split
  · exact inside_nil
  · split
    · exact inside_normalized command
    · refine inside_append.mpr ⟨inside_normalized command, inside_orElse ?_ ?_⟩
      · split
        · exact inside_nil
        · exact inside_stageElf command
      · split
        · exact inside_nil
        · exact inside_stageCom command false

theorem inside_copiesRun {launch : CStr → Copies} (h : ∀ name, Inside (launch name)) (args : CStr) :
    Inside (copiesRun launch args) := by
  refine inside_append.mpr ⟨inside_word .appName args, ?_⟩
  split
  · exact inside_nil
  · rename_i name hname
    have hlen := parseSingleArg_length hname
    exact inside_append.mpr ⟨inside_into.mpr (inPlace_within upperChar (by omega)), h _⟩

theorem inside_copiesTwo (args : CStr) : Inside (copiesTwo w args) := by
  refine inside_append.mpr ⟨inside_word .srcName args, ?_⟩
  split
  · exact inside_nil
  · rename_i first rest hfirst
    refine inside_append.mpr ⟨inside_word .dstName rest, ?_⟩
    split
    · exact inside_nil
    · rename_i second rest' hsecond
      have hlen := parseWord_length hfirst
      have hlen' := parseWord_length hsecond
      split
      · refine inside_append.mpr ⟨?_, ?_⟩
        · exact inside_into.mpr (inPlace_within upperChar (by omega))
        · exact inside_into.mpr (inPlace_within upperChar (by omega))
      · exact inside_nil

theorem inside_copiesUpper (d : Dest) (args : CStr) : Inside (copiesUpper w d args) := by
  unfold copiesUpper
  split
  · exact inside_nil
  · exact inside_upper64 d args

theorem inside_copiesDir (args : CStr) : Inside (copiesDir w args) := by
  unfold copiesDir
  split
  · exact inside_nil
  · exact inside_append.mpr ⟨inside_upper64 _ args, inside_upper64 _ args⟩

theorem inside_copiesCd (args : CStr) : Inside (copiesCd w args) := by
  unfold copiesCd
  split
  · exact inside_nil
  · split
    · exact inside_nil
    · split
      · exact inside_nil
      · split
        · exact inside_nil
        · refine inside_append.mpr ⟨inside_upper64 _ args, ?_⟩
          split
          · exact inside_into.mpr (pathPushWrites_within w.path pathMax _)
          · exact inside_nil

theorem inside_fsCopies {command args : CStr} {copies : Copies}
    (h : fsCopies w command args = some copies) : Inside copies := by
  unfold fsCopies at h
  split at h
  · cases h
    exact inside_copiesDir args
  · split at h
    · cases h
      exact inside_copiesCd args
    · split at h
      · cases h
        exact inside_copiesUpper _ args
      · split at h
        · cases h
          exact inside_copiesUpper _ args
        · split at h
          · cases h
            exact inside_copiesUpper _ args
          · split at h
            · cases h
              exact inside_copiesUpper _ args
            · split at h
              · cases h
                exact inside_copiesTwo args
              · split at h
                · cases h
                  exact inside_copiesTwo args
                · split at h
                  · cases h
                    exact inside_nil
                  · cases h

theorem inside_dispatch (command args : CStr) : Inside (dispatchCopies w command args) := by
  unfold dispatchCopies
  split
  · exact inside_nil
  · cases hfs : fsCopies w command args with
    | some copies => exact inside_fsCopies hfs
    | none =>
      simp only
      split
      · exact inside_copiesRun (fun name => inside_tryProgram name []) args
      · split
        · exact inside_copiesRun inside_runBackground args
        · split
          · exact inside_nil
          · exact inside_orElse (inside_tryProgram command args) (inside_tryAut command args)

end Inside

/-! ## The command and the arguments -/

theorem commandLoop_eq (cmd : CStr) : ∀ i,
    commandLoop i cmd = (copyFrom i (commandOf cmd), cmd.dropWhile (· ≠ chSpace)) := by
  induction cmd with
  | nil => exact fun _ => rfl
  | cons c cmd ih =>
    intro i
    by_cases hc : c = chSpace
    · simp [commandLoop, commandOf, hc, copyFrom]
    · simp [commandLoop, commandOf, hc, copyFrom, ih]

theorem copyFrom_length (k : Nat) (s : CStr) : (copyFrom k s).length = s.length := by
  induction s generalizing k with
  | nil => rfl
  | cons c s ih => simp [copyFrom, ih]

theorem parseCommand_eq (cmd : CStr) :
    parseCommand cmd = (string 0 (commandOf cmd), string 0 (argsOf cmd)) := by
  simp only [parseCommand, commandLoop_eq, copyFrom_length]
  rfl

theorem argsOf_length_lt (h : argsOf cmd ≠ []) : (argsOf cmd).length < cmd.length := by
  have hrest : (cmd.dropWhile (· ≠ chSpace)).length ≤ cmd.length :=
    (List.dropWhile_suffix _).length_le
  unfold argsOf at h ⊢
  cases hd : cmd.dropWhile (· ≠ chSpace) with
  | nil =>
    rw [hd] at h
    exact absurd rfl h
  | cons c rest =>
    have hc : c = chSpace := by
      have := List.head?_dropWhile_not (fun c => decide (c ≠ chSpace)) cmd
      rw [hd] at this
      simpa using this
    have hle : (rest.dropWhile (· = chSpace)).length ≤ rest.length :=
      (List.dropWhile_suffix _).length_le
    rw [hd, List.length_cons] at hrest
    simp only [List.dropWhile_cons, hc, decide_true, if_true]
    omega

theorem inside_parseCopies_iff (h : cmd.length ≤ 64) :
    Inside (parseCopies cmd) ↔ ¬ (cmd.length = 64 ∧ chSpace ∉ cmd) := by
  have hargs : (argsOf cmd).length < 64 := by
    by_cases hnil : argsOf cmd = []
    · simp [hnil]
    · exact Nat.lt_of_lt_of_le (argsOf_length_lt hnil) h
  have hcommand : (commandOf cmd).length ≤ cmd.length := (List.takeWhile_prefix _).length_le
  have hall : commandOf cmd = cmd ↔ chSpace ∉ cmd := by
    rw [commandOf, List.takeWhile_eq_self_iff]
    constructor
    · exact fun hne hmem => by simpa using hne _ hmem
    · exact fun hne c hc => decide_eq_true fun he => hne (he ▸ hc)
  rw [parseCopies, parseCommand_eq, inside_append, inside_into, inside_into, within_string_iff,
    within_string_iff]
  constructor
  · rintro ⟨hlt, -⟩ ⟨hlen, hblank⟩
    rw [hall.mpr hblank, hlen] at hlt
    exact absurd hlt (by decide)
  · intro hnot
    refine ⟨?_, hargs⟩
    by_cases hblank : chSpace ∈ cmd
    · have hne : commandOf cmd ≠ cmd := fun he => hall.mp he hblank
      refine Nat.lt_of_le_of_ne (Nat.le_trans hcommand h) fun he => hne ?_
      refine (List.takeWhile_prefix _).eq_of_length ?_
      have he : (commandOf cmd).length = 64 := he
      show (commandOf cmd).length = cmd.length
      omega
    · have : cmd.length ≠ 64 := fun hlen => hnot ⟨hlen, hblank⟩
      show (commandOf cmd).length < 64
      omega

/-! ## Every line that is passed -/

theorem noNul_of_passed {line : CStr} (h : Editor.Passed line) : (0 : Byte) ∉ line := by
  cases h with
  | typed h =>
    obtain ⟨e, -, rfl⟩ := h
    exact fun h0 => ne_zero_of_mem_shown h0 rfl
  | autoexec =>
    intro h0
    have := List.mem_takeWhile_imp h0
    simp at this
  | script =>
    intro h0
    have := List.mem_takeWhile_imp h0
    simp at this

theorem driveSwitch_short (hzero : (0 : Byte) ∉ cmd)
    (h : isDriveSwitch cmd = true) : cmd.length ≤ 2 := by
  by_contra hlong
  have hat : cmd.at 2 = 0 := by
    simp only [isDriveSwitch, Bool.and_eq_true, beq_iff_eq] at h
    exact h.2
  have hlt : 2 < cmd.length := by omega
  have hmem : cmd.at 2 ∈ cmd := getD_mem hlt (0 : Byte)
  exact hzero (hat ▸ hmem)

/-- For every line that a caller passes, the copies behind `parse_command` hit their buffers; those of
`parse_command` do so unless the line is one word of 64 characters. -/
theorem execute_inside_iff {line : CStr} (h : Editor.Passed line) (w : World) :
    Inside (laterCopies w (trimCommand line)) ∧
      (Inside (executeCopies w line) ↔
        ¬ ((trimCommand line).length = 64 ∧ chSpace ∉ trimCommand line)) := by
  have hpre : trimCommand line <+: line := List.rdropWhile_prefix _ _
  have hlen : (trimCommand line).length ≤ 64 := Nat.le_trans hpre.length_le h.length_le
  have hzero : (0 : Byte) ∉ trimCommand line := fun h0 => noNul_of_passed h (hpre.subset h0)
  have hlater : Inside (laterCopies w (trimCommand line)) := by
    refine inside_append.mpr ⟨inside_into.mpr (inPlace_within lowerChar ?_), ?_⟩
    · rw [Nat.zero_add]
      exact Nat.le_trans (List.takeWhile_prefix _).length_le hlen
    · split
      · exact inside_nil
      · exact inside_dispatch _ _
  refine ⟨hlater, ?_⟩
  simp only [executeCopies]
  split
  case isTrue hswitch =>
    have hshort := driveSwitch_short hzero hswitch
    exact iff_of_true inside_nil fun hbad => by omega
  case isFalse =>
    rw [inside_append, inside_parseCopies_iff hlen]
    exact and_iff_left hlater

/-- A volume with nothing on it. -/
def emptyWorld : World := ⟨true, pathReset, fun _ => false, fun _ => false⟩

theorem execute_inside_type : Inside (executeCopies emptyWorld (lineText (textOf "TYPE A.TXT\n"))) :=
  (execute_inside_iff (.script (by decide +kernel)) emptyWorld).2.mpr (by decide +kernel)

/-- A script with a line of 64 letters. -/
def longWord : List Byte := List.replicate 64 0x41

/-- Its NUL is stored behind `command`. -/
theorem longWord_overruns : Editor.Passed (lineText longWord) ∧
    (Dest.command, 64, 0) ∈ executeCopies emptyWorld (lineText longWord) ∧
    ¬ Inside (executeCopies emptyWorld (lineText longWord)) :=
  ⟨.script (by decide +kernel), by decide +kernel, by decide +kernel⟩

end Buffers
end MiniDos
