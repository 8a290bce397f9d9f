import Mathlib.Tactic.Common

/-!
# MiniDos.Input.Decoder

The two decoders of `keyboard.c`, one for each set of scancodes. Both keep the modifier keys and the
prefix bytes in the same statics. A character of 0 is none.
-/

namespace MiniDos
namespace Input

/-- `shift_pressed` to `extended_code`. -/
structure Keys where
  shift : Bool
  ctrl : Bool
  alt : Bool
  caps : Bool
  breakCode : Bool
  extended : Bool
  deriving DecidableEq

/-- After `keyboard_init`. -/
def Keys.init : Keys := ⟨false, false, false, false, false, false⟩

def keyAltEvent : UInt8 := 0x14

/-! ## Tables -/

def scancodeMapLower : List UInt8 :=
  [0, 27, 0x31, 0x32, 0x33, 0x34, 0x35, 0x36, 0x37, 0x38, 0x39, 0x30, 0x2D, 0x3D, 0x08,
    0x09, 0x71, 0x77, 0x65, 0x72, 0x74, 0x79, 0x75, 0x69, 0x6F, 0x70, 0x5B, 0x5D, 0x0A,
    0, 0x61, 0x73, 0x64, 0x66, 0x67, 0x68, 0x6A, 0x6B, 0x6C, 0x3B, 0x27, 0x60, 0,
    0x5C, 0x7A, 0x78, 0x63, 0x76, 0x62, 0x6E, 0x6D, 0x2C, 0x2E, 0x2F, 0, 0x2A, 0, 0x20]

def scancodeMapUpper : List UInt8 :=
  [0, 27, 0x21, 0x40, 0x23, 0x24, 0x25, 0x5E, 0x26, 0x2A, 0x28, 0x29, 0x5F, 0x2B, 0x08,
    0x09, 0x51, 0x57, 0x45, 0x52, 0x54, 0x59, 0x55, 0x49, 0x4F, 0x50, 0x7B, 0x7D, 0x0A,
    0, 0x41, 0x53, 0x44, 0x46, 0x47, 0x48, 0x4A, 0x4B, 0x4C, 0x3A, 0x22, 0x7E, 0,
    0x7C, 0x5A, 0x58, 0x43, 0x56, 0x42, 0x4E, 0x4D, 0x3C, 0x3E, 0x3F, 0, 0x2A, 0, 0x20]

/-- The entries of `scancode_set2_map_lower` and `scancode_set2_map_upper`; the others are 0. -/
def scancodeSet2Map : List (UInt8 × UInt8 × UInt8) :=
  [(0x0D, 0x09, 0x09), (0x0E, 0x60, 0x7E), (0x15, 0x71, 0x51), (0x16, 0x31, 0x21),
    (0x1A, 0x7A, 0x5A), (0x1B, 0x73, 0x53), (0x1C, 0x61, 0x41), (0x1D, 0x77, 0x57),
    (0x1E, 0x32, 0x40), (0x21, 0x63, 0x43), (0x22, 0x78, 0x58), (0x23, 0x64, 0x44),
    (0x24, 0x65, 0x45), (0x25, 0x34, 0x24), (0x26, 0x33, 0x23), (0x29, 0x20, 0x20),
    (0x2A, 0x76, 0x56), (0x2B, 0x66, 0x46), (0x2C, 0x74, 0x54), (0x2D, 0x72, 0x52),
    (0x2E, 0x35, 0x25), (0x31, 0x6E, 0x4E), (0x32, 0x62, 0x42), (0x33, 0x68, 0x48),
    (0x34, 0x67, 0x47), (0x35, 0x79, 0x59), (0x36, 0x36, 0x5E), (0x3A, 0x6D, 0x4D),
    (0x3B, 0x6A, 0x4A), (0x3C, 0x75, 0x55), (0x3D, 0x37, 0x26), (0x3E, 0x38, 0x2A),
    (0x41, 0x2C, 0x3C), (0x42, 0x6B, 0x4B), (0x43, 0x69, 0x49), (0x44, 0x6F, 0x4F),
    (0x45, 0x30, 0x29), (0x46, 0x39, 0x28), (0x49, 0x2E, 0x3E), (0x4A, 0x2F, 0x3F),
    (0x4B, 0x6C, 0x4C), (0x4C, 0x3B, 0x3A), (0x4D, 0x70, 0x50), (0x4E, 0x2D, 0x5F),
    (0x52, 0x27, 0x22), (0x54, 0x5B, 0x7B), (0x55, 0x3D, 0x2B), (0x5A, 0x0A, 0x0A),
    (0x5B, 0x5D, 0x7D), (0x5D, 0x5C, 0x7C), (0x66, 0x08, 0x08), (0x76, 27, 27)]

def scancodeSet1ToChar (scancode : UInt8) (shift : Bool) : UInt8 :=
  ((if shift then scancodeMapUpper else scancodeMapLower)[scancode.toNat]?).getD 0

def scancodeSet2ToChar (scancode : UInt8) (shift : Bool) : UInt8 :=
  match scancodeSet2Map.find? (fun e => e.1 == scancode) with
  | some e => if shift then e.2.2 else e.2.1
  | none => 0

/-! ## Letters -/

def isLower (c : UInt8) : Bool := decide (0x61 ≤ c ∧ c ≤ 0x7A)
def isUpper (c : UInt8) : Bool := decide (0x41 ≤ c ∧ c ≤ 0x5A)

def applyCaps (c : UInt8) (shift caps : Bool) : UInt8 :=
  if isLower c then if caps && !shift then c - 0x61 + 0x41 else c
  else if isUpper c then if caps && shift then c - 0x41 + 0x61 else c
  else c

def toLowerChar (c : UInt8) : UInt8 := if isUpper c then c - 0x41 + 0x61 else c

/-- The end of both decoders: a character of a table under caps lock and the alt key. -/
def Keys.char (k : Keys) (c : UInt8) : UInt8 :=
  let c := applyCaps c k.shift k.caps
  if c ≠ 0 ∧ k.alt = true ∧ isLower (toLowerChar c) = true then 0x80 ||| toLowerChar c else c

/-! ## The decoders -/

/-- `keyboard_process_scancode_set1`: the statics after the byte, and the character. -/
def processScancodeSet1 (k : Keys) (scancode : UInt8) : Keys × UInt8 :=
  if scancode = 0xE0 then ({ k with extended := true }, 0)
  else if k.extended then
    let k := { k with extended := false }
    if scancode = 0x48 then (k, 0x11)
    else if scancode = 0x50 then (k, 0x12)
    else if scancode = 0x4B then (k, 0x15)
    else if scancode = 0x4D then (k, 0x16)
    else if scancode = 0x1D then ({ k with ctrl := true }, 0)
    else if scancode = 0x9D then ({ k with ctrl := false }, 0)
    else if scancode = 0x38 then ({ k with alt := true }, keyAltEvent)
    else if scancode = 0xB8 then ({ k with alt := false }, 0)
    else (k, 0)
  else if scancode = 0x2A ∨ scancode = 0x36 then ({ k with shift := true }, 0)
  else if scancode = 0xAA ∨ scancode = 0xB6 then ({ k with shift := false }, 0)
  else if scancode = 0x1D then ({ k with ctrl := true }, 0)
  else if scancode = 0x9D then ({ k with ctrl := false }, 0)
  else if scancode = 0x38 then ({ k with alt := true }, keyAltEvent)
  else if scancode = 0xB8 then ({ k with alt := false }, 0)
  else if scancode = 0x3A then ({ k with caps := !k.caps }, 0)
  else if scancode &&& 0x80 ≠ 0 then (k, 0)
  else (k, k.char (scancodeSet1ToChar scancode k.shift))

/-- `keyboard_process_scancode_set2`. -/
def processScancodeSet2 (k : Keys) (scancode : UInt8) : Keys × UInt8 :=
  if scancode = 0xE0 then ({ k with extended := true }, 0)
  else if scancode = 0xF0 then ({ k with breakCode := true }, 0)
  else
    let released := k.breakCode
    if k.extended then
      let k := { k with breakCode := false, extended := false }
      if scancode = 0x11 then ({ k with alt := !released }, if released then 0 else keyAltEvent)
      else if scancode = 0x14 then ({ k with ctrl := !released }, 0)
      else if released then (k, 0)
      else if scancode = 0x75 then (k, 0x11)
      else if scancode = 0x72 then (k, 0x12)
      else if scancode = 0x6B then (k, 0x15)
      else if scancode = 0x74 then (k, 0x16)
      else if scancode = 0x5A then (k, 0x0A)
      else (k, 0)
    else
      let k := { k with breakCode := false }
      if scancode = 0x12 ∨ scancode = 0x59 then ({ k with shift := !released }, 0)
      else if scancode = 0x14 then ({ k with ctrl := !released }, 0)
      else if scancode = 0x11 then ({ k with alt := !released }, if released then 0 else keyAltEvent)
      else if scancode = 0x58 then (if released then k else { k with caps := !k.caps }, 0)
      else if released then (k, 0)
      else (k, k.char (scancodeSet2ToChar scancode k.shift))

/-- `keyboard_process_scancode`; `set2`: `scancode_set` is 2. -/
def processScancode (set2 : Bool) (k : Keys) (scancode : UInt8) : Keys × UInt8 :=
  if set2 then processScancodeSet2 k scancode else processScancodeSet1 k scancode

/-- A character of 0 is not delivered. -/
def emit (c : UInt8) : List UInt8 := if c = 0 then [] else [c]

/-- The statics after some bytes, and the characters that they gave. -/
def processAll (set2 : Bool) : Keys → List UInt8 → Keys × List UInt8
  | k, [] => (k, [])
  | k, b :: bytes =>
    let first := processScancode set2 k b
    let rest := processAll set2 first.1 bytes
    (rest.1, emit first.2 ++ rest.2)

theorem processAll_append (set2 : Bool) (k : Keys) (bytes bytes' : List UInt8) :
    processAll set2 k (bytes ++ bytes') =
      ((processAll set2 (processAll set2 k bytes).1 bytes').1,
        (processAll set2 k bytes).2 ++ (processAll set2 (processAll set2 k bytes).1 bytes').2) := by
  induction bytes generalizing k with
  | nil => rfl
  | cons b bytes ih => simp only [List.cons_append, processAll, ih, List.append_assoc]

end Input
end MiniDos
