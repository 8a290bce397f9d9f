import MiniDos.Input.Decoder

/-!
# MiniDos.Input.Layout

Keys, the bytes that a keyboard sends for them in each set of scancodes, and what both decoders
should make of them.

* `Event.apply`: what a press or a release does to the modifier keys, and the character of it.
* `set2_event`: the second decoder computes it. `set1_event`: so does the first one, but for the
  press of the Enter key of the keypad.
* `decoders_agree_iff`: sequences of events.
-/

namespace MiniDos
namespace Input

/-- The keys of the main block that give a character. -/
inductive Main where
  | escape | one | two | three | four | five | six | seven | eight | nine | zero | minus | equal
  | backspace | tab | keyQ | keyW | keyE | keyR | keyT | keyY | keyU | keyI | keyO | keyP
  | openBracket | closeBracket | enter | keyA | keyS | keyD | keyF | keyG | keyH | keyJ | keyK
  | keyL | semicolon | quote | backtick | backslash | keyZ | keyX | keyC | keyV | keyB | keyN | keyM
  | comma | period | slash | space
  deriving DecidableEq

inductive Arrow where
  | up
  | down
  | left
  | right
  deriving DecidableEq

/-- `right`: the one on the right. -/
inductive Key where
  | main (k : Main)
  | shift (right : Bool)
  | ctrl (right : Bool)
  | alt (right : Bool)
  | capsLock
  | arrow (a : Arrow)
  | keypadEnter
  deriving DecidableEq

inductive Event where
  | press (k : Key)
  | release (k : Key)
  deriving DecidableEq

/-! ## The standard tables -/

def Main.set1 : Main → UInt8
  | .escape => 0x01 | .one => 0x02 | .two => 0x03 | .three => 0x04 | .four => 0x05 | .five => 0x06
  | .six => 0x07 | .seven => 0x08 | .eight => 0x09 | .nine => 0x0A | .zero => 0x0B | .minus => 0x0C
  | .equal => 0x0D | .backspace => 0x0E | .tab => 0x0F | .keyQ => 0x10 | .keyW => 0x11
  | .keyE => 0x12 | .keyR => 0x13 | .keyT => 0x14 | .keyY => 0x15 | .keyU => 0x16 | .keyI => 0x17
  | .keyO => 0x18 | .keyP => 0x19 | .openBracket => 0x1A | .closeBracket => 0x1B | .enter => 0x1C
  | .keyA => 0x1E | .keyS => 0x1F | .keyD => 0x20 | .keyF => 0x21 | .keyG => 0x22 | .keyH => 0x23
  | .keyJ => 0x24 | .keyK => 0x25 | .keyL => 0x26 | .semicolon => 0x27 | .quote => 0x28
  | .backtick => 0x29 | .backslash => 0x2B | .keyZ => 0x2C | .keyX => 0x2D | .keyC => 0x2E
  | .keyV => 0x2F | .keyB => 0x30 | .keyN => 0x31 | .keyM => 0x32 | .comma => 0x33 | .period => 0x34
  | .slash => 0x35 | .space => 0x39

def Main.set2 : Main → UInt8
  | .escape => 0x76 | .one => 0x16 | .two => 0x1E | .three => 0x26 | .four => 0x25 | .five => 0x2E
  | .six => 0x36 | .seven => 0x3D | .eight => 0x3E | .nine => 0x46 | .zero => 0x45 | .minus => 0x4E
  | .equal => 0x55 | .backspace => 0x66 | .tab => 0x0D | .keyQ => 0x15 | .keyW => 0x1D
  | .keyE => 0x24 | .keyR => 0x2D | .keyT => 0x2C | .keyY => 0x35 | .keyU => 0x3C | .keyI => 0x43
  | .keyO => 0x44 | .keyP => 0x4D | .openBracket => 0x54 | .closeBracket => 0x5B | .enter => 0x5A
  | .keyA => 0x1C | .keyS => 0x1B | .keyD => 0x23 | .keyF => 0x2B | .keyG => 0x34 | .keyH => 0x33
  | .keyJ => 0x3B | .keyK => 0x42 | .keyL => 0x4B | .semicolon => 0x4C | .quote => 0x52
  | .backtick => 0x0E | .backslash => 0x5D | .keyZ => 0x1A | .keyX => 0x22 | .keyC => 0x21
  | .keyV => 0x2A | .keyB => 0x32 | .keyN => 0x31 | .keyM => 0x3A | .comma => 0x41 | .period => 0x49
  | .slash => 0x4A | .space => 0x29

def Arrow.set1 : Arrow → UInt8
  | .up => 0x48
  | .down => 0x50
  | .left => 0x4B
  | .right => 0x4D

def Arrow.set2 : Arrow → UInt8
  | .up => 0x75
  | .down => 0x72
  | .left => 0x6B
  | .right => 0x74

/-- The code has `E0` in front. -/
def Key.isExtended : Key → Bool
  | .main _ => false
  | .shift _ => false
  | .ctrl right => right
  | .alt right => right
  | .capsLock => false
  | .arrow _ => true
  | .keypadEnter => true

def Key.set1 : Key → UInt8
  | .main k => k.set1
  | .shift right => if right then 0x36 else 0x2A
  | .ctrl _ => 0x1D
  | .alt _ => 0x38
  | .capsLock => 0x3A
  | .arrow a => a.set1
  | .keypadEnter => 0x1C

def Key.set2 : Key → UInt8
  | .main k => k.set2
  | .shift right => if right then 0x59 else 0x12
  | .ctrl _ => 0x14
  | .alt _ => 0x11
  | .capsLock => 0x58
  | .arrow a => a.set2
  | .keypadEnter => 0x5A

def Key.lead (k : Key) : List UInt8 := if k.isExtended then [0xE0] else []

/-- A release sets the highest bit. -/
def Event.set1 : Event → List UInt8
  | .press k => k.lead ++ [k.set1]
  | .release k => k.lead ++ [k.set1 ||| 0x80]

/-- A release has `F0` in front of the code. -/
def Event.set2 : Event → List UInt8
  | .press k => k.lead ++ [k.set2]
  | .release k => k.lead ++ [0xF0, k.set2]

/-! ## What an event means -/

def Main.char (k : Main) (shift : Bool) : UInt8 := scancodeSet1ToChar k.set1 shift

def Arrow.char : Arrow → UInt8
  | .up => 0x11
  | .down => 0x12
  | .left => 0x15
  | .right => 0x16

def Event.apply (k : Keys) : Event → Keys × List UInt8
  | .press (.main m) => (k, emit (k.char (m.char k.shift)))
  | .press (.shift _) => ({ k with shift := true }, [])
  | .press (.ctrl _) => ({ k with ctrl := true }, [])
  | .press (.alt _) => ({ k with alt := true }, [keyAltEvent])
  | .press .capsLock => ({ k with caps := !k.caps }, [])
  | .press (.arrow a) => (k, [a.char])
  | .press .keypadEnter => (k, [0x0A])
  | .release (.shift _) => ({ k with shift := false }, [])
  | .release (.ctrl _) => ({ k with ctrl := false }, [])
  | .release (.alt _) => ({ k with alt := false }, [])
  | .release _ => (k, [])

/-- No byte of a sequence is pending. -/
def Keys.Ready (k : Keys) : Prop := k.breakCode = false ∧ k.extended = false

theorem Main.set2_char (m : Main) (shift : Bool) :
    scancodeSet2ToChar m.set2 shift = m.char shift := by
  revert shift
  cases m <;> decide +kernel

theorem Main.set1_plain (m : Main) :
    m.set1 ∉ [0xE0, 0x2A, 0x36, 0xAA, 0xB6, 0x1D, 0x9D, 0x38, 0xB8, 0x3A] ∧ m.set1 &&& 0x80 = 0 := by
  cases m <;> decide

theorem Main.set2_plain (m : Main) :
    m.set2 ∉ [0xE0, 0xF0, 0x12, 0x59, 0x14, 0x11, 0x58] := by
  cases m <;> decide

theorem Main.set1_release_plain (m : Main) :
    m.set1 ||| 0x80 ∉ [0xE0, 0x2A, 0x36, 0xAA, 0xB6, 0x1D, 0x9D, 0x38, 0xB8, 0x3A] ∧
      (m.set1 ||| 0x80) &&& 0x80 ≠ 0 := by
  cases m <;> decide

section Codes

variable {k : Keys} (hk : k.Ready) {c : UInt8}
include hk

theorem processScancodeSet1_plain (hbit : c &&& 0x80 = 0)
    (hc : c ∉ [0xE0, 0x2A, 0x36, 0xAA, 0xB6, 0x1D, 0x9D, 0x38, 0xB8, 0x3A]) :
    processScancodeSet1 k c = (k, k.char (scancodeSet1ToChar c k.shift)) := by
  simp only [List.mem_cons, List.not_mem_nil, or_false, not_or] at hc
  simp [processScancodeSet1, hc, hbit, hk.2]

theorem processScancodeSet1_release (hbit : c &&& 0x80 ≠ 0)
    (hc : c ∉ [0xE0, 0x2A, 0x36, 0xAA, 0xB6, 0x1D, 0x9D, 0x38, 0xB8, 0x3A]) :
    processScancodeSet1 k c = (k, 0) := by
  simp only [List.mem_cons, List.not_mem_nil, or_false, not_or] at hc
  simp [processScancodeSet1, hc, hbit, hk.2]

theorem processScancodeSet2_plain (hc : c ∉ [0xE0, 0xF0, 0x12, 0x59, 0x14, 0x11, 0x58]) :
    processScancodeSet2 k c = (k, k.char (scancodeSet2ToChar c k.shift)) := by
  obtain ⟨shift, ctrl, alt, caps, breakCode, extended⟩ := k
  obtain ⟨rfl, rfl⟩ := hk
  simp only [List.mem_cons, List.not_mem_nil, or_false, not_or] at hc
  simp [processScancodeSet2, hc]

theorem processScancodeSet2_release (hc : c ∉ [0xE0, 0xF0, 0x12, 0x59, 0x14, 0x11, 0x58]) :
    processScancodeSet2 { k with breakCode := true } c = (k, 0) := by
  obtain ⟨shift, ctrl, alt, caps, breakCode, extended⟩ := k
  obtain ⟨rfl, rfl⟩ := hk
  simp only [List.mem_cons, List.not_mem_nil, or_false, not_or] at hc
  simp [processScancodeSet2, hc]

end Codes

/-! ## One event -/

theorem Event.apply_ready {k : Keys} (hk : k.Ready) (e : Event) : (e.apply k).1.Ready := by
  cases e with
  | press key => cases key <;> exact hk
  | release key => cases key <;> exact hk

theorem set1_event {k : Keys} (hk : k.Ready) {e : Event} (he : e ≠ .press .keypadEnter) :
    processAll false k e.set1 = e.apply k := by
  have hready := hk
  obtain ⟨shift, ctrl, alt, caps, breakCode, extended⟩ := k
  obtain ⟨rfl, rfl⟩ := hk
  cases e with
  | press key =>
    cases key with
    | main m =>
      obtain ⟨hplain, hbit⟩ := m.set1_plain
      show ((processScancodeSet1 _ m.set1).1, emit (processScancodeSet1 _ m.set1).2 ++ []) = _
      rw [processScancodeSet1_plain hready hbit hplain, List.append_nil]
      rfl
    | shift right => cases right <;> rfl
    | ctrl right => cases right <;> rfl
    | alt right => cases right <;> rfl
    | capsLock => rfl
    | arrow a => cases a <;> rfl
    | keypadEnter => exact absurd rfl he
  | release key =>
    cases key with
    | main m =>
      obtain ⟨hplain, hbit⟩ := m.set1_release_plain
      show ((processScancodeSet1 _ (m.set1 ||| 0x80)).1,
        emit (processScancodeSet1 _ (m.set1 ||| 0x80)).2 ++ []) = _
      rw [processScancodeSet1_release hready hbit hplain]
      rfl
    | shift right => cases right <;> rfl
    | ctrl right => cases right <;> rfl
    | alt right => cases right <;> rfl
    | capsLock => rfl
    | arrow a => cases a <;> rfl
    | keypadEnter => rfl

theorem set1_keypadEnter {k : Keys} (hk : k.Ready) :
    processAll false k (Event.press .keypadEnter).set1 = (k, []) := by
  obtain ⟨shift, ctrl, alt, caps, breakCode, extended⟩ := k
  obtain ⟨rfl, rfl⟩ := hk
  rfl

theorem set2_event {k : Keys} (hk : k.Ready) (e : Event) :
    processAll true k e.set2 = e.apply k := by
  have hready := hk
  obtain ⟨shift, ctrl, alt, caps, breakCode, extended⟩ := k
  obtain ⟨rfl, rfl⟩ := hk
  cases e with
  | press key =>
    cases key with
    | main m =>
      show ((processScancodeSet2 _ m.set2).1, emit (processScancodeSet2 _ m.set2).2 ++ []) = _
      rw [processScancodeSet2_plain hready m.set2_plain, List.append_nil, m.set2_char]
      rfl
    | shift right => cases right <;> rfl
    | ctrl right => cases right <;> rfl
    | alt right => cases right <;> rfl
    | capsLock => rfl
    | arrow a => cases a <;> rfl
    | keypadEnter => rfl
  | release key =>
    cases key with
    | main m =>
      have hrelease : processScancodeSet2 ⟨shift, ctrl, alt, caps, true, false⟩ m.set2 = (_, 0) :=
        processScancodeSet2_release hready m.set2_plain
      show ((processScancodeSet2 ⟨shift, ctrl, alt, caps, true, false⟩ m.set2).1, emit 0 ++
        (emit (processScancodeSet2 ⟨shift, ctrl, alt, caps, true, false⟩ m.set2).2 ++ [])) = _
      rw [hrelease]
      rfl
    | shift right => cases right <;> rfl
    | ctrl right => cases right <;> rfl
    | alt right => cases right <;> rfl
    | capsLock => rfl
    | arrow a => cases a <;> rfl
    | keypadEnter => rfl

/-! ## Sequences -/

/-- The characters of a sequence, with each set of scancodes. -/
def typed1 (k : Keys) (events : List Event) : Keys × List UInt8 :=
  processAll false k (events.flatMap Event.set1)

def typed2 (k : Keys) (events : List Event) : Keys × List UInt8 :=
  processAll true k (events.flatMap Event.set2)

variable {k : Keys}

theorem typed_step (hk : k.Ready) (events : List Event) :
    (typed1 k events).1 = (typed2 k events).1 ∧
      (typed1 k events).2.length + events.count (.press .keypadEnter) =
        (typed2 k events).2.length ∧
      (Event.press .keypadEnter ∉ events → (typed1 k events).2 = (typed2 k events).2) := by
  induction events generalizing k with
  | nil => exact ⟨rfl, rfl, fun _ => rfl⟩
  | cons e events ih =>
    obtain ⟨hkeys, hlength, hchars⟩ := ih (e.apply_ready hk)
    unfold typed1 typed2 at hkeys hlength hchars ⊢
    simp only [List.flatMap_cons, processAll_append, set2_event hk]
    by_cases he : e = .press .keypadEnter
    · subst he
      rw [set1_keypadEnter hk]
      refine ⟨hkeys, ?_, fun hno => absurd List.mem_cons_self hno⟩
      simp only [List.nil_append, List.count_cons_self, List.length_append]
      simp only [Event.apply, List.length_singleton] at hlength ⊢
      omega
    · rw [set1_event hk he]
      refine ⟨hkeys, ?_, fun hno => ?_⟩
      · rw [List.length_append, List.length_append, List.count_cons_of_ne he, ← hlength,
          Nat.add_assoc]
      · rw [hchars (fun h => hno (List.mem_cons_of_mem e h))]

/-- Both sets of scancodes give the same characters exactly when Enter on the keypad is not
pressed. -/
theorem decoders_agree_iff (shift ctrl alt caps : Bool) (events : List Event) :
    (typed1 ⟨shift, ctrl, alt, caps, false, false⟩ events).2 =
        (typed2 ⟨shift, ctrl, alt, caps, false, false⟩ events).2 ↔
      Event.press .keypadEnter ∉ events := by
  obtain ⟨_, hlength, hchars⟩ :=
    typed_step (k := ⟨shift, ctrl, alt, caps, false, false⟩) ⟨rfl, rfl⟩ events
  refine ⟨fun hsame hin => ?_, hchars⟩
  have hpos : 0 < events.count (.press .keypadEnter) := List.count_pos_iff.mpr hin
  rw [hsame] at hlength
  omega

/-- Enter on the keypad. -/
theorem keypadEnter_differs :
    ¬ ∀ events, (typed1 Keys.init events).2 = (typed2 Keys.init events).2 := by
  intro h
  exact absurd (h [.press .keypadEnter, .release .keypadEnter]) (by decide)

end Input
end MiniDos
