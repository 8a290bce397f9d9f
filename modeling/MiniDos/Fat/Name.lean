import MiniDos.Fat.Layout

/-!
# MiniDos.Fat.Name

8.3 names: `fat16_format_name`, `fat16_match_name`, the display name and the wildcard matcher.
A C string is the list of its bytes before the terminating NUL.
-/

namespace MiniDos
namespace Fat16

abbrev CStr := List Byte

/-- `s[i]`, the terminating NUL included. -/
def CStr.at (s : CStr) (i : Nat) : Byte := s.getD i 0

/-- The string that starts at the bytes `x`: what is in front of the first NUL. -/
def shown (x : List Byte) : CStr := x.takeWhile (· != 0)

def chDot : Byte := 0x2E
def chSpace : Byte := 0x20
def chStar : Byte := 0x2A
def chQuestion : Byte := 0x3F

def dotDot : CStr := [chDot, chDot]

/-- A space or a tab, between the words of a command. -/
def isBlank (c : Byte) : Bool := c == chSpace || c == 0x09

/-- `str_copy` into a buffer of `max` characters. -/
def strCopy {α : Type} (max : Nat) (s : List α) : List α := s.take (max - 1)

/-- `"` `*` `/` `:` `<` `>` `?` `\` `|` `+` `;` `,` `=` `[` `]`. -/
def invalidChars : List Byte :=
  [0x22, 0x2A, 0x2F, 0x3A, 0x3C, 0x3E, 0x3F, 0x5C, 0x7C, 0x2B, 0x3B, 0x2C, 0x3D, 0x5B, 0x5D]

/-- `fat16_upper_char`. -/
def upperChar (c : Byte) : Byte := if 0x61 ≤ c ∧ c ≤ 0x7A then c - 0x61 + 0x41 else c

/-- The names `.` and `..`, spelled out in every guard of the source. -/
def isDotName (s : CStr) : Bool :=
  (s.at 0 == chDot && s.at 1 == 0) || (s.at 0 == chDot && s.at 1 == chDot && s.at 2 == 0)

/-! ## `fat16_format_name` -/

/-- One field of a name: at most `room` characters, up to the end of the string or, for the base
name, up to the first dot. Gives the characters stored and what is left of the string. -/
def formatField (stopAtDot : Bool) : Nat → CStr → Option (List Byte × CStr)
  | _, [] => some ([], [])
  | room, c :: cs =>
    if stopAtDot && c == chDot then some ([], c :: cs)
    else
      match room with
      | 0 => none
      | room + 1 =>
        let u := upperChar c
        if u = chSpace then none
        else if u ∈ invalidChars then none
        else
          match formatField stopAtDot room cs with
          | none => none
          | some (f, rest) => some (u :: f, rest)

/-- Base and extension, each padded with blanks. -/
def padName (base ext : List Byte) : Name :=
  fun i => if i.val < 8 then base.getD i.val chSpace else ext.getD (i.val - 8) chSpace

def formatName (input : CStr) : Option Name :=
  if input.at 0 = 0 then none
  else if isDotName input then none
  else
    match formatField true 8 input with
    | none => none
    | some (base, rest) =>
      match rest with
      | [] => some (padName base [])
      | _ :: rest =>
        match formatField false 3 rest with
        | none => none
        | some (ext, _) => some (padName base ext)

/-! ## `fat16_match_name` -/

/-- The comparison of the base name from position `j` on, with `n` characters left to compare:
the length matched, or `none` at the first difference. -/
def matchBase (filename : CStr) (e : DirectoryEntry) : Nat → Nat → Option Nat
  | 0, j => some j
  | n + 1, j =>
    if filename.at j = chDot ∨ filename.at j = 0 then some j
    else if e.nameAt j ≠ filename.at j then none
    else matchBase filename e n (j + 1)

/-- `while (dir_name_end > 0 && name[dir_name_end - 1] == ' ') dir_name_end--`. -/
def dirNameEnd (e : DirectoryEntry) : Nat → Nat
  | 0 => 0
  | n + 1 => if e.nameAt n = chSpace then dirNameEnd e n else n + 1

/-- The comparison of the extension, with `n` of its places left: position after the last
character compared, or `none` at the first difference. -/
def matchExt (filename : CStr) (e : DirectoryEntry) : Nat → Nat → Option Nat
  | 0, pos => some pos
  | n + 1, pos =>
    if filename.at pos = 0 then some pos
    else if e.nameAt (11 - (n + 1)) ≠ filename.at pos then none
    else matchExt filename e n (pos + 1)

/-- Nothing but blanks from place `i` of the name on, with `n` places left. -/
def blankFrom (e : DirectoryEntry) : Nat → Nat → Bool
  | 0, _ => true
  | n + 1, i => e.nameAt i == chSpace && blankFrom e n (i + 1)

def matchName (filename : CStr) (e : DirectoryEntry) : Bool :=
  if filename.at 0 = chDot ∧ filename.at 1 = 0 then
    e.nameAt 0 == chDot && e.nameAt 1 == chSpace && blankFrom e 9 2
  else if filename.at 0 = chDot ∧ filename.at 1 = chDot ∧ filename.at 2 = 0 then
    e.nameAt 0 == chDot && e.nameAt 1 == chDot && blankFrom e 9 2
  else
    match matchBase filename e 8 0 with
    | none => false
    | some nameLen =>
      if nameLen ≠ dirNameEnd e 8 then false
      else if filename.at nameLen = chDot then
        match matchExt filename e 3 (nameLen + 1) with
        | none => false
        | some pos => filename.at pos == 0
      else if dirNameEnd e 8 < 8 then
        -- the extension is looked at only when the base name is shorter than 8
        blankFrom e 3 8 && filename.at nameLen == 0
      else filename.at nameLen == 0

/-! ## Display names and patterns -/

/-- `while (ext_end > 8 && name[ext_end - 1] == ' ') ext_end--`, from `8 + n`. -/
def extEnd (e : DirectoryEntry) : Nat → Nat
  | 0 => 8
  | n + 1 => if e.nameAt (8 + n) = chSpace then extEnd e n else 8 + (n + 1)

/-- `fat16_build_display_name`. -/
def buildDisplayName (e : DirectoryEntry) : CStr :=
  let nameEnd := dirNameEnd e 8
  let extEnd := extEnd e 3
  (List.range nameEnd).map e.nameAt ++
    (if extEnd > 8 then chDot :: (List.range (extEnd - 8)).map (fun i => e.nameAt (8 + i)) else [])

/-- `f` tried at every position of a string, its end included. -/
def anySuffix (f : CStr → Bool) : CStr → Bool
  | [] => f []
  | c :: cs => f (c :: cs) || anySuffix f cs

/-- `fat16_wildcard_match`. After a star the rest of the pattern is tried at every position of
the text, its end included. -/
def wildcardMatch : CStr → CStr → Bool
  | [], text => text.isEmpty
  | p :: ps, text =>
    if p = chStar then
      if ps.isEmpty then true
      else if ps.head? = some chStar then wildcardMatch ps text
      else anySuffix (wildcardMatch ps) text
    else
      match text with
      | [] => false
      | t :: ts =>
        if p = chQuestion then wildcardMatch ps ts
        else if upperChar p ≠ upperChar t then false
        else wildcardMatch ps ts

/-- `fat16_match_pattern`; no pattern is the empty one. -/
def matchPattern (pattern : CStr) (e : DirectoryEntry) : Bool :=
  if pattern = [] then true
  else if pattern = [chStar] ∨ pattern = [chStar, chDot, chStar] then true
  else wildcardMatch pattern (shown (buildDisplayName e))

end Fat16
end MiniDos
