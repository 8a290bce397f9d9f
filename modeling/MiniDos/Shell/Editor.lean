import MiniDos.Shell.Complete
import MiniDos.Shell.Script

/-!
# MiniDos.Shell.Editor

The lines that reach `shell_execute`: what is typed at the prompt (`read_command_line` of
`kernel_runtime_shell.inc`), the lines of `AUTOEXEC.AUT` (`run_auto_script` there), and those of a
script that is run.

* A line that is typed may be completed at any time, over whatever the disk holds then.
* `Passed.length_le`: how long a line can be. Only a script passes one of 64 characters.
-/

namespace MiniDos
namespace Editor

open BlockIO Fat16 Files Complete Script

/-! ## The line editor -/

def chBackspace : Byte := 0x08
def chTab : Byte := 0x09

/-- `command_input_t`. -/
inductive Source where
  | none
  | serial
  | keyboard
  deriving DecidableEq

/-- The buffer with `i`, the completion, and where the line is typed. -/
structure Editing where
  line : Line
  session : Session
  source : Source

/-- `is_command_char`. -/
def isCommandChar (c : Byte) : Bool :=
  c == chCr || c == chLf || c == chBackspace || c == chTab || (decide (32 ≤ c) && decide (c ≤ 126))

/-- `buffer[i++] = c; buffer[i] = '\0'`. -/
def push (line : Line) (c : Byte) : Line where
  buffer i := if i = line.len + 1 then 0 else if i = line.len then c else line.buffer i
  len := line.len + 1

/-- The last character is taken back, if there is one. -/
def back (line : Line) : Line where
  buffer i := if i = line.len - 1 then 0 else line.buffer i
  len := line.len - 1

/-- A character of the keyboard other than Tab; `none`: the line is done. -/
def keyStep (e : Editing) (c : Byte) : Option Editing :=
  if c = chLf then none
  else if c = chBackspace then some ⟨back e.line, .reset, .keyboard⟩
  else some ⟨push e.line c, .reset, .keyboard⟩

def serialStep (e : Editing) (c : Byte) : Option Editing :=
  if isCommandChar c = false then some e
  else if c = chCr ∨ c = chLf then none
  else if c = chBackspace then some ⟨back e.line, .reset, .serial⟩
  else if c = chTab then some ⟨e.line, .reset, .serial⟩
  else some ⟨push e.line c, .reset, .serial⟩

/-- What stands at the head of the loop of `read_command_line`, whatever comes in. -/
inductive Typing (maxLen : Nat) : Editing → Prop where
  | start (buffer : Nat → Byte) : Typing maxLen ⟨⟨buffer, 0⟩, .reset, .none⟩
  | key {e e' : Editing} {c : Byte} (h : Typing maxLen e) (hroom : e.line.len < maxLen - 1)
      (hsource : e.source ≠ .serial) (hc : c ≠ chTab) (hstep : keyStep e c = some e') :
      Typing maxLen e'
  | tab {e : Editing} {g : Globals} {fuel dir n : Nat} {ready : Bool} {fails : Nat → Bool}
      {m m' : DriverMem} {r : Bool × Session × Line} (h : Typing maxLen e)
      (hroom : e.line.len < maxLen - 1) (hsource : e.source ≠ .serial)
      (hrun : (autocompleteApply g fuel dir n ready maxLen e.session e.line).run fails m =
        some (r, m')) : Typing maxLen ⟨r.2.2, r.2.1, .keyboard⟩
  | serial {e e' : Editing} {c : Byte} (h : Typing maxLen e) (hroom : e.line.len < maxLen - 1)
      (hsource : e.source ≠ .keyboard) (hstep : serialStep e c = some e') : Typing maxLen e'

/-- The string in the buffer when the loop is left: there is no room for more, or Enter came. -/
def Entered (maxLen : Nat) (line : CStr) : Prop :=
  ∃ e, Typing maxLen e ∧ line = shown e.line.text

theorem Typing.len_lt {maxLen : Nat} (hmax : 0 < maxLen) {e : Editing} (h : Typing maxLen e) :
    e.line.len < maxLen := by
  induction h with
  | start buffer => exact hmax
  | key h hroom hsource hc hstep ih =>
    unfold keyStep at hstep
    split at hstep
    · cases hstep
    · split at hstep
      · cases hstep
        simp only [back]
        omega
      · cases hstep
        simp only [push]
        omega
  | tab h hroom hsource hrun ih =>
    exact ((Prog.run_of_wp _ (fun _ _ => trivial)
      (autocompleteApply_kept _ _ _ _ _ _ ih _)).1 _ _ hrun).fits
  | serial h hroom hsource hstep ih =>
    unfold serialStep at hstep
    split at hstep
    · cases hstep
      exact ih
    · split at hstep
      · cases hstep
      · split at hstep
        · cases hstep
          simp only [back]
          omega
        · split at hstep
          · cases hstep
            exact ih
          · cases hstep
            simp only [push]
            omega

theorem Entered.length_lt {maxLen : Nat} (hmax : 0 < maxLen) {line : CStr}
    (h : Entered maxLen line) : line.length < maxLen := by
  obtain ⟨e, he, rfl⟩ := h
  refine Nat.lt_of_le_of_lt (shown_length_le _) ?_
  rw [Line.text_length]
  exact he.len_lt hmax

/-! ## Lines of scripts -/

def autoLineMax : Nat := 64

/-- The line that `run_auto_script` makes of the script from some place on. -/
def autoText (bytes : List Byte) : CStr :=
  (trim (((bytes.takeWhile (· ≠ chLf)).filter (· ≠ chCr)).take (autoLineMax - 1))).takeWhile (· ≠ 0)

theorem trim_length_le (l : List Byte) : (trim l).length ≤ l.length :=
  Nat.le_trans (List.rdropWhile_prefix _ _).length_le (List.dropWhile_suffix _).length_le

theorem takeWhile_trim_le (p : Byte → Bool) (l : List Byte) (n : Nat) :
    ((trim (l.take n)).takeWhile p).length ≤ n :=
  Nat.le_trans (List.takeWhile_prefix _).length_le
    (Nat.le_trans (trim_length_le _) (by rw [List.length_take]; exact Nat.min_le_left _ _))

/-- `sizeof(command)` in the main loop. -/
def commandMax : Nat := 64

/-- The lines that `shell_execute` is called with. -/
inductive Passed : CStr → Prop where
  | typed {line : CStr} (h : Entered commandMax line) : Passed line
  | autoexec {bytes : List Byte} (h : isCommand (autoText bytes) = true) : Passed (autoText bytes)
  | script {bytes : List Byte} (h : isCommand (lineText bytes) = true) : Passed (lineText bytes)

theorem Passed.length_le {line : CStr} (h : Passed line) : line.length ≤ 64 := by
  cases h with
  | typed h => exact Nat.le_of_lt (h.length_lt (by decide))
  | autoexec => exact Nat.le_trans (takeWhile_trim_le _ _ _) (by decide)
  | script => exact takeWhile_trim_le _ _ _

end Editor
end MiniDos
