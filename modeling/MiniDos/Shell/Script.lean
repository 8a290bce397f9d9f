import MiniDos.Files.Model
import Mathlib.Data.List.DropRight

/-!
# MiniDos.Shell.Script

Scripts: `shell_apps_try_execute_aut` of `shell_apps_launch.inc`, and `shell_execute` of `shell.c` as
far as it leads there.

* `script_buffer` is a static: a script that a line runs is read over the one that the line is from.
* What the other commands and the programs do is a parameter (`Rest.other`), and so is the reading
  of a file (`Rest.readFile`). What is printed is left out.
* `Straight`: what a script should do. Each run has its script to itself.
* `Spared`: no script that is read meanwhile changes what another one still has to read.
* `shellExecute_straight`: then the interpreter does the same.
* `aut_runs_its_lines`: the lines of one script.
-/

namespace MiniDos
namespace Script

open Fat16 Files

/-! ## Lines -/

def chLf : Byte := 0x0A
def chCr : Byte := 0x0D

/-- `shell_apps_script_is_space`. -/
def isSpace (c : Byte) : Bool := c == chSpace || c == 0x09

def lineMax : Nat := 64

/-- The characters of the first line of some bytes that `line` has room for. -/
def rawLine (bytes : List Byte) : List Byte :=
  ((bytes.takeWhile (· ≠ chLf)).filter (· ≠ chCr)).take lineMax

def afterLine (bytes : List Byte) : List Byte := (bytes.dropWhile (· ≠ chLf)).drop 1

def trim (l : List Byte) : List Byte := (l.dropWhile isSpace).rdropWhile isSpace

def lineText (bytes : List Byte) : CStr := (trim (rawLine bytes)).takeWhile (· ≠ 0)

/-- `shell_apps_script_is_rem_line`. -/
def isRemLine (text : CStr) : Bool :=
  upperChar (text.at 0) == 0x52 && upperChar (text.at 1) == 0x45 && upperChar (text.at 2) == 0x4D &&
    (text.at 3 == 0 || isSpace (text.at 3))

def isCommand (text : CStr) : Bool := !text.isEmpty && !isRemLine text

/-! ## Names -/

def lowerChar (c : Byte) : Byte := if 0x41 ≤ c ∧ c ≤ 0x5A then c - 0x41 + 0x61 else c

def strToLower (s : CStr) : CStr := s.map lowerChar

/-- `parse_command`. -/
def commandOf (cmd : CStr) : CStr := cmd.takeWhile (· ≠ chSpace)
def argsOf (cmd : CStr) : CStr := (cmd.dropWhile (· ≠ chSpace)).dropWhile (· = chSpace)

def autExt : CStr := [0x2E, 0x61, 0x75, 0x74]

/-- `shell_apps_has_extension`. -/
def hasExtension (name ext : CStr) : Bool :=
  decide (ext.length ≤ name.length) &&
    (name.drop (name.length - ext.length)).map lowerChar == ext.map lowerChar

/-- The name that `shell_apps_append_extension` makes in `size` bytes. -/
def appendExtension (size : Nat) (command ext : CStr) (onlyIfMissing : Bool) : Option CStr :=
  if size ≤ command.length then none
  else if onlyIfMissing && hasExtension command ext then some command
  else if size ≤ command.length + ext.length then none
  else some (command ++ ext)

def autFilename (command : CStr) : Option CStr :=
  (appendExtension nameSize command autExt true).map strToUpper

/-! ## The interpreter -/

/-- The rest of the shell. `other`: the drive switch, the commands and the programs; `true`: the line
was one of these. `readFile`: the bytes of a file of the current directory, none if there is no such
file. -/
structure Rest (σ : Type) where
  other : σ → CStr → σ × Bool
  readFile : σ → CStr → σ × List Byte

/-- `script_buffer`, and the state of the rest. -/
structure Shell (σ : Type) where
  buffer : Nat → Byte
  rest : σ

def scriptMax : Nat := 2048

/-- The buffer with a script and the NUL behind it. -/
def load (c : List Byte) (b : Nat → Byte) : Nat → Byte :=
  fun j => if j < c.length then c.getD j 0 else if j = c.length then 0 else b j

/-- The bytes from place `i` on, of `n`. -/
def unread (b : Nat → Byte) (i n : Nat) : List Byte := (List.range' i (n - i)).map b

section Interpreter

variable {σ : Type} (r : Rest σ)

/-- The first half of `shell_apps_try_execute_aut`: the script, empty if there is none. -/
def findScript (st : σ) (command args : CStr) : σ × List Byte :=
  if command = [] ∨ args ≠ [] then (st, [])
  else
    match autFilename command with
    | none => (st, [])
    | some filename =>
      let file := r.readFile st filename
      (file.1, file.2.take scriptMax)

/-- The loop, at place `i` of `n` bytes: the shell behind it, and the lines that were executed.
`none`: a line did not come back. -/
def scriptLoop (exec : Shell σ → CStr → Option (Shell σ)) (n : Nat) :
    Nat → Nat → Shell σ → Option (Shell σ × List CStr)
  | 0, _, s => some (s, [])
  | k + 1, i, s =>
    if n ≤ i then some (s, [])
    else
      let bytes := unread s.buffer i n
      let text := lineText bytes
      let next := n - (afterLine bytes).length
      if isCommand text then
        (exec s text).bind (fun s => (scriptLoop exec n k next s).map (fun x => (x.1, text :: x.2)))
      else scriptLoop exec n k next s

/-- `shell_apps_try_execute_aut`: also the lines that were executed, unless it returned 0. -/
def tryExecuteAut (exec : Shell σ → CStr → Option (Shell σ)) (s : Shell σ) (command args : CStr) :
    Option (Shell σ × Option (List CStr)) :=
  let found := findScript r s.rest command args
  if found.2 = [] then some ({ s with rest := found.1 }, none)
  else
    (scriptLoop exec found.2.length found.2.length 0 ⟨load found.2 s.buffer, found.1⟩).map
      (fun x => (x.1, some x.2))

/-- The trimming that `shell_execute` begins with. -/
def trimCommand (cmd : CStr) : CStr := cmd.rdropWhile (fun c => isSpace c || c == chLf)

/-- `shell_execute`, with scripts run from at most `n` scripts; `none`: more than that. -/
def shellExecute : Nat → Shell σ → CStr → Option (Shell σ)
  | 0, _, _ => none
  | n + 1, s, cmd =>
    let cmd := trimCommand cmd
    let done := r.other s.rest cmd
    if done.2 = true ∨ cmd = [] then some { s with rest := done.1 }
    else
      (tryExecuteAut r (shellExecute n) { s with rest := done.1 } (strToLower (commandOf cmd))
        (argsOf cmd)).map Prod.fst

end Interpreter

end Script

namespace Script

open Fat16 Files

variable {b : Nat → Byte} {bytes : List Byte} {c : List Byte}

/-! ## What a script should do -/

/-- The lines of some bytes, each with the bytes behind it. -/
def codeLines : Nat → List Byte → List (CStr × List Byte)
  | 0, _ => []
  | k + 1, bytes =>
    if bytes = [] then [] else (lineText bytes, afterLine bytes) :: codeLines k (afterLine bytes)

/-- Those that are to be executed. -/
def commandLines (k : Nat) (bytes : List Byte) : List (CStr × List Byte) :=
  (codeLines k bytes).filter (fun l => isCommand l.1)

def commands (c : List Byte) : List (CStr × List Byte) := commandLines c.length c

theorem commandLines_succ (h : bytes ≠ []) (k : Nat) :
    commandLines (k + 1) bytes =
      if isCommand (lineText bytes) then
        (lineText bytes, afterLine bytes) :: commandLines k (afterLine bytes)
      else commandLines k (afterLine bytes) := by
  have hlines : codeLines (k + 1) bytes =
      (lineText bytes, afterLine bytes) :: codeLines k (afterLine bytes) := if_neg h
  unfold commandLines
  rw [hlines, List.filter_cons]

section Straight

variable {σ : Type} (r : Rest σ)

def straightLines (exec : σ → CStr → Option σ) : List (CStr × List Byte) → σ → Option σ
  | [], st => some st
  | l :: ls, st => (exec st l.1).bind (straightLines exec ls)

/-- `shell_execute`, were there a buffer for each script. -/
def straight : Nat → σ → CStr → Option σ
  | 0, _, _ => none
  | n + 1, st, cmd =>
    let cmd := trimCommand cmd
    let done := r.other st cmd
    if done.2 = true ∨ cmd = [] then some done.1
    else
      let found := findScript r done.1 (strToLower (commandOf cmd)) (argsOf cmd)
      straightLines (straight n) (commands found.2) found.1

/-- A script that waits for one of its lines, and the bytes that it has not read. -/
structure Waiting where
  script : List Byte
  behind : List Byte

/-- Reading `c` leaves the bytes that `w` has not read. -/
def Waiting.Spared (w : Waiting) (c : List Byte) : Prop :=
  ∀ j, w.script.length - w.behind.length ≤ j → j < w.script.length →
    (j < c.length → c.getD j 0 = w.script.getD j 0) ∧ (j = c.length → w.script.getD j 0 = 0)

/-- The lines of `c` spare what waits for them. -/
def sparedLines (exec : σ → CStr → Option σ) (spared : List Waiting → σ → CStr → Prop)
    (ws : List Waiting) (c : List Byte) : List (CStr × List Byte) → σ → Prop
  | [], _ => True
  | l :: ls, st =>
    spared (⟨c, l.2⟩ :: ws) st l.1 ∧ ∀ st', exec st l.1 = some st' → sparedLines exec spared ws c ls st'

/-- Every script that the line has run, or that these have run, spares what waits. -/
def Spared : Nat → List Waiting → σ → CStr → Prop
  | 0, _, _, _ => True
  | n + 1, ws, st, cmd =>
    let cmd := trimCommand cmd
    let done := r.other st cmd
    done.2 = true ∨ cmd = [] ∨
      let found := findScript r done.1 (strToLower (commandOf cmd)) (argsOf cmd)
      found.2 = [] ∨ ((∀ w ∈ ws, w.Spared found.2) ∧
        sparedLines (straight r n) (Spared n) ws found.2 (commands found.2) found.1)

end Straight

/-! ## The buffer -/

/-- The buffer still has what `w` has not read. -/
def Waiting.Held (w : Waiting) (b : Nat → Byte) : Prop :=
  ∀ j, w.script.length - w.behind.length ≤ j → j < w.script.length → b j = w.script.getD j 0

theorem Waiting.Held.load {w : Waiting} (h : w.Held b)
    (hs : w.Spared c) : w.Held (load c b) := by
  intro j hlow hhigh
  obtain ⟨hin, hend⟩ := hs j hlow hhigh
  unfold Script.load
  split
  · exact hin ‹_›
  · split
    · exact (hend ‹_›).symm
    · exact h j hlow hhigh

theorem Waiting.Held.unread {w : Waiting} (h : w.Held b)
    (hsuffix : w.behind <:+ w.script) :
    unread b (w.script.length - w.behind.length) w.script.length = w.behind := by
  obtain ⟨front, hfront⟩ := hsuffix
  have hlen : w.script.length = front.length + w.behind.length := by
    rw [← hfront, List.length_append]
  refine List.ext_getElem (by simp [Script.unread]; omega) (fun j h₁ h₂ => ?_)
  have hj := h (w.script.length - w.behind.length + j) (by omega) (by omega)
  simp only [Script.unread, List.getElem_map, List.getElem_range', Nat.one_mul]
  rw [hj, ← hfront, List.getD_eq_getElem?_getD, List.getElem?_append_right (by simp)]
  simp [h₂]

theorem afterLine_suffix (bytes : List Byte) : afterLine bytes <:+ bytes :=
  (List.drop_suffix 1 _).trans (List.dropWhile_suffix _)

theorem afterLine_length (h : bytes ≠ []) :
    (afterLine bytes).length < bytes.length := by
  have hpos := List.length_pos_iff.mpr h
  unfold afterLine
  cases hd : bytes.dropWhile (· ≠ chLf) with
  | nil => simpa using hpos
  | cons a rest =>
    have hle := (List.dropWhile_suffix (l := bytes) (· ≠ chLf)).length_le
    rw [hd, List.length_cons] at hle
    simp only [List.drop_succ_cons, List.drop_zero]
    omega

theorem Waiting.Held.later {c bytes : List Byte}
    (h : (⟨c, bytes⟩ : Waiting).Held b) {bytes' : List Byte} (hle : bytes'.length ≤ bytes.length) :
    (⟨c, bytes'⟩ : Waiting).Held b := by
  intro j hlow hhigh
  dsimp only at hlow hhigh
  exact h j (by dsimp only; omega) hhigh

/-! ## The interpreter -/

section Refinement

variable {σ : Type} {r : Rest σ}

/-- `exec` does what `straight` does while scripts wait. -/
def Follows (exec : Shell σ → CStr → Option (Shell σ)) (straight : σ → CStr → Option σ)
    (spared : List Waiting → σ → CStr → Prop) : Prop :=
  ∀ ws s cmd st', (∀ w ∈ ws, w.Held s.buffer) → straight s.rest cmd = some st' →
    spared ws s.rest cmd → ∃ s', exec s cmd = some s' ∧ s'.rest = st' ∧ ∀ w ∈ ws, w.Held s'.buffer

variable {exec : Shell σ → CStr → Option (Shell σ)} {sexec : σ → CStr → Option σ}
  {spared : List Waiting → σ → CStr → Prop}

/-- The loop on the bytes that are left, by induction on the steps that are left. -/
theorem scriptLoop_straight (hexec : Follows exec sexec spared) {ws : List Waiting}
    (k : Nat) {s : Shell σ} {st' : σ} (hsuffix : bytes <:+ c)
    (hk : bytes.length ≤ k) (hws : ∀ w ∈ ws, w.Held s.buffer)
    (hheld : (⟨c, bytes⟩ : Waiting).Held s.buffer)
    (hrun : straightLines sexec (commandLines k bytes) s.rest = some st')
    (hspared : sparedLines sexec spared ws c (commandLines k bytes) s.rest) :
    ∃ s', scriptLoop exec c.length k (c.length - bytes.length) s =
        some (s', (commandLines k bytes).map Prod.fst) ∧
      s'.rest = st' ∧ ∀ w ∈ ws, w.Held s'.buffer := by
  induction k generalizing bytes s with
  | zero =>
    cases hrun
    exact ⟨s, rfl, rfl, hws⟩
  | succ k ih =>
    by_cases hnil : bytes = []
    · subst hnil
      cases hrun
      refine ⟨s, ?_, rfl, hws⟩
      unfold scriptLoop
      simp [commandLines, codeLines]
    have hlt := afterLine_length hnil
    have hle := hsuffix.length_le
    have hbytes := hheld.unread hsuffix
    have hafter := (afterLine_suffix bytes).trans hsuffix
    have hlater := hheld.later (Nat.le_of_lt hlt)
    rw [commandLines_succ hnil] at hrun hspared ⊢
    unfold scriptLoop
    rw [if_neg (by omega)]
    dsimp only at hbytes ⊢
    rw [hbytes]
    by_cases hcmd : isCommand (lineText bytes) = true
    · rw [if_pos hcmd] at hrun hspared ⊢
      rw [if_pos hcmd, List.map_cons]
      obtain ⟨st₁, hst₁, hrest⟩ := Option.bind_eq_some_iff.mp hrun
      -- The script waits for the line with what is behind it.
      have hwait : ∀ w ∈ (⟨c, afterLine bytes⟩ : Waiting) :: ws, w.Held s.buffer := by
        intro w hw
        rcases List.mem_cons.mp hw with rfl | hw
        · exact hlater
        · exact hws w hw
      obtain ⟨s₁, hs₁, rfl, hheld₁⟩ := hexec _ s _ st₁ hwait hst₁ hspared.1
      obtain ⟨s', hloop, hst', hws'⟩ := ih hafter (by omega)
        (fun w hw => hheld₁ w (List.mem_cons_of_mem _ hw)) (hheld₁ _ List.mem_cons_self) hrest
        (hspared.2 _ hst₁)
      refine ⟨s', ?_, hst', hws'⟩
      dsimp only
      rw [hs₁, Option.bind_some, hloop]
      rfl
    · rw [if_neg hcmd] at hrun hspared ⊢
      rw [if_neg hcmd]
      exact ih hafter (by omega) hws hlater hrun hspared

theorem script_straight (hexec : Follows exec sexec spared) {ws : List Waiting}
    {st st' : σ} (hws : ∀ w ∈ ws, w.Held b) (hsafe : ∀ w ∈ ws, w.Spared c)
    (hrun : straightLines sexec (commands c) st = some st')
    (hspared : sparedLines sexec spared ws c (commands c) st) :
    ∃ s', scriptLoop exec c.length c.length 0 ⟨load c b, st⟩ =
        some (s', (commands c).map Prod.fst) ∧ s'.rest = st' ∧ ∀ w ∈ ws, w.Held s'.buffer := by
  have hheld : (⟨c, c⟩ : Waiting).Held (load c b) := fun j _ hj => if_pos hj
  have hloop := scriptLoop_straight hexec c.length (s := ⟨load c b, st⟩) (List.suffix_refl c)
    (Nat.le_refl _) (fun w hw => (hws w hw).load (hsafe w hw)) hheld hrun hspared
  rw [Nat.sub_self] at hloop
  exact hloop

/-- `shell_execute` does what it should, by induction on the depth of the scripts. -/
theorem shellExecute_straight (n : Nat) :
    Follows (shellExecute r n) (straight r n) (Spared r n) := by
  induction n with
  | zero =>
    intro ws s cmd st' _ hrun _
    cases hrun
  | succ n ih =>
    intro ws s cmd st' hws hrun hspared
    unfold straight at hrun
    unfold Spared at hspared
    unfold shellExecute
    dsimp only at hrun hspared ⊢
    split at hrun
    · rename_i hdone
      cases hrun
      rw [if_pos hdone]
      exact ⟨_, rfl, rfl, hws⟩
    rename_i hdone
    rw [if_neg hdone]
    rw [not_or] at hdone
    unfold tryExecuteAut
    dsimp only
    generalize findScript r (r.other s.rest (trimCommand cmd)).1
      (strToLower (commandOf (trimCommand cmd))) (argsOf (trimCommand cmd)) = found at hrun hspared ⊢
    obtain ⟨st, c⟩ := found
    dsimp only at hrun hspared ⊢
    by_cases hc : c = []
    · subst hc
      cases hrun
      exact ⟨{ s with rest := st' }, rfl, rfl, hws⟩
    · rw [if_neg hc]
      obtain ⟨hsafe, hlines⟩ := (hspared.resolve_left hdone.1).resolve_left hdone.2 |>.resolve_left hc
      obtain ⟨s', hloop, hst', hws'⟩ := script_straight ih hws hsafe hrun hlines
      refine ⟨s', ?_, hst', hws'⟩
      rw [hloop]
      rfl

end Refinement

end Script
end MiniDos
