import MiniDos.Input.Decoder
import MiniDos.Lib.Ring

/-!
# MiniDos.Input.Ports

The PS/2 controller and those who read it: the two interrupt handlers of `keyboard.c` and `mouse.c`,
and the polling reads of the keyboard.

* `Machine`: the bytes in the controller, the statics of both drivers, and a record of the bytes
  that were taken and of the characters that they gave.
* A handler run or a polling read is one step. Messages on the serial line are left out, and so is
  what `keyboard_flush` throws away.
-/

namespace MiniDos
namespace Input

/-! ## Keyboard -/

/-- `timer_is_ready` and `timer_get_ticks`. -/
structure Timer where
  ready : Bool
  ticks : UInt32

/-- `last_make_scancode`, `last_make_extended`, `last_make_tick`, `last_make_valid`. -/
structure LastMake where
  scancode : UInt8
  extended : Bool
  tick : UInt32
  valid : Bool

def keyboardPollFallbackIdleTicks : UInt32 := 2
def keyboardDuplicateMakeTicks : UInt32 := 2

/-- The code of the key that was last pressed. -/
def LastMake.Same (m : LastMake) (scancode : UInt8) (extended : Bool) : Prop :=
  m.valid = true ∧ m.scancode = scancode ∧ m.extended = extended

instance (m : LastMake) (scancode : UInt8) (extended : Bool) : Decidable (m.Same scancode extended) :=
  inferInstanceAs (Decidable (_ ∧ _))

/-- It comes again within two ticks. -/
def LastMake.Repeats (m : LastMake) (t : Timer) (scancode : UInt8) (extended : Bool) : Prop :=
  m.Same scancode extended ∧ t.ready = true ∧ t.ticks - m.tick ≤ keyboardDuplicateMakeTicks

instance (m : LastMake) (t : Timer) (scancode : UInt8) (extended : Bool) :
    Decidable (m.Repeats t scancode extended) := inferInstanceAs (Decidable (_ ∧ _))

/-- `keyboard_is_duplicate_make`. -/
def isDuplicateMake (t : Timer) (m : LastMake) (scancode : UInt8) (extended breakEvent : Bool) :
    LastMake × Bool :=
  if breakEvent then (if m.Same scancode extended then { m with valid := false } else m, false)
  else if m.Repeats t scancode extended then (m, true)
  else (⟨scancode, extended, if t.ready then t.ticks else 0, true⟩, false)

/-- The statics of `keyboard.c`. -/
structure Keyboard where
  set2 : Bool
  keys : Keys
  irqMode : Bool
  lastIrqTick : UInt32
  irqSeen : Bool
  lastMake : LastMake
  ring : Ring UInt8 128

/-- After `keyboard_init`. -/
def Keyboard.init (set2 : Bool) : Keyboard where
  set2 := set2
  keys := Keys.init
  irqMode := false
  lastIrqTick := 0
  irqSeen := false
  lastMake := ⟨0, false, 0, false⟩
  ring := ⟨fun _ => 0, 0, 0, by decide, by decide⟩

namespace Keyboard

variable (k : Keyboard)

/-- A byte in the interrupt handler or in a polling read: the keyboard after it, the character, and
whether it is a duplicate. -/
def scan (t : Timer) (scancode : UInt8) : Keyboard × UInt8 × Bool :=
  let r := processScancode k.set2 k.keys scancode
  if scancode = 0xE0 ∨ (k.set2 = true ∧ scancode = 0xF0) then ({ k with keys := r.1 }, r.2, false)
  else
    let breakEvent := if k.set2 then k.keys.breakCode else decide (scancode &&& 0x80 ≠ 0)
    let d := isDuplicateMake t k.lastMake scancode k.keys.extended breakEvent
    ({ k with keys := r.1, lastMake := d.1 }, r.2, d.2)

/-- `keyboard_allow_poll_fallback`. -/
def allowPollFallback (t : Timer) : Bool :=
  if k.irqMode = false then true
  else if k.irqSeen = false then true
  else if t.ready = false then false
  else decide (keyboardPollFallbackIdleTicks ≤ t.ticks - k.lastIrqTick)

def pushChar (c : UInt8) : Keyboard := { k with ring := k.ring.push c }

/-- The end of `keyboard_handle_irq`. -/
def noteIrq (t : Timer) : Keyboard :=
  { k with irqSeen := true, lastIrqTick := if t.ready then t.ticks else k.lastIrqTick }

end Keyboard

/-! ## Mouse -/

/-- `g_mouse_state`, and the first bytes of `g_packet`. -/
structure Mouse where
  x : Int
  y : Int
  dx : Int
  dy : Int
  buttons : UInt8
  seq : UInt32
  present : Bool
  packet : List UInt8

def clampAxis (limit n : Int) : Int :=
  let limit := if limit < 1 then 1 else limit
  if n < 0 then 0 else if limit ≤ n then limit - 1 else n

/-- `mouse_apply_packet`, on a screen of this size. -/
def Mouse.applyPacket (width height : Int) (m : Mouse) (b0 b1 b2 : UInt8) : Mouse :=
  if b0 &&& 0xC0 ≠ 0 then m
  else
    let dx : Int := if b0 &&& 0x10 ≠ 0 then b1.toNat - 256 else b1.toNat
    let dy : Int := if b0 &&& 0x20 ≠ 0 then b2.toNat - 256 else b2.toNat
    { m with
      x := clampAxis width (m.x + dx)
      y := clampAxis height (m.y - dy)
      dx := dx
      dy := -dy
      buttons := b0 &&& 0x07
      seq := m.seq + 1 }

/-- `mouse_handle_irq`, from where it has a byte of the mouse. -/
def Mouse.byte (width height : Int) (m : Mouse) (data : UInt8) : Mouse :=
  if m.present = false then m
  else if m.packet = [] ∧ data &&& 0x08 = 0 then m
  else
    match m.packet with
    | [b0, b1] => { m with packet := [] }.applyPacket width height b0 b1 data
    | packet => { m with packet := packet ++ [data] }

/-! ## The controller -/

inductive Reader where
  | irq1
  | irq12
  | poll
  deriving DecidableEq

/-- A byte that was read from the data port; `aux`: it came from the mouse. -/
structure Taken where
  reader : Reader
  aux : Bool
  byte : UInt8

/-- A character of the decoder: how many were queued when it came, whether it was a duplicate, and
whether it was kept. -/
structure Decoded where
  char : UInt8
  queued : Nat
  repeated : Bool
  kept : Bool

structure Machine where
  port : List (Bool × UInt8)
  timer : Timer
  keyboard : Keyboard
  mouse : Mouse
  taken : List Taken
  history : List Decoded
  delivered : List UInt8

def record (history : List Decoded) (c : UInt8) (queued : Nat) (repeated kept : Bool) :
    List Decoded :=
  if c = 0 then history else history ++ [⟨c, queued, repeated, kept⟩]

namespace Machine

variable (s : Machine)

/-- `keyboard_handle_irq`. -/
def keyboardHandleIrq : Machine :=
  match s.port with
  | (false, b) :: port =>
    let r := s.keyboard.scan s.timer b
    let k := r.1.noteIrq s.timer
    { s with
      port := port
      keyboard := if r.2.1 ≠ 0 ∧ r.2.2 = false then k.pushChar r.2.1 else k
      taken := s.taken ++ [⟨.irq1, false, b⟩]
      history := record s.history r.2.1 s.keyboard.ring.count r.2.2
        (!r.2.2 && !decide s.keyboard.ring.Full) }
  | _ => s

/-- `mouse_handle_irq`. It takes the byte before it looks where it came from. -/
def mouseHandleIrq (width height : Int) : Machine :=
  match s.port with
  | (aux, b) :: port =>
    { s with
      port := port
      mouse := if aux then s.mouse.byte width height b else s.mouse
      taken := s.taken ++ [⟨.irq12, aux, b⟩] }
  | [] => s

/-- `keyboard_poll_one_char`. -/
def keyboardPollOneChar : Machine × Option UInt8 :=
  if s.keyboard.allowPollFallback s.timer then
    match s.port with
    | (false, b) :: port =>
      let r := s.keyboard.scan s.timer b
      ({ s with
        port := port
        keyboard := r.1
        taken := s.taken ++ [⟨.poll, false, b⟩]
        history := record s.history r.2.1 s.keyboard.ring.count r.2.2 (!r.2.2) },
        if r.2.1 ≠ 0 ∧ r.2.2 = false then some r.2.1 else none)
    | _ => (s, none)
  else (s, none)

/-- `keyboard_try_get_char`, and a turn of the loop of `keyboard_get_char`. -/
def keyboardTryGetChar : Machine :=
  match s.keyboard.ring.pop with
  | some (c, ring) =>
    { s with keyboard := { s.keyboard with ring := ring }, delivered := s.delivered ++ [c] }
  | none =>
    let r := s.keyboardPollOneChar
    { r.1 with delivered := s.delivered ++ r.2.toList }

/-- `keyboard_has_input`. -/
def keyboardHasInput : Machine :=
  if s.keyboard.ring.tail ≠ s.keyboard.ring.head then s
  else
    let r := s.keyboardPollOneChar
    match r.2 with
    | some c => { r.1 with keyboard := r.1.keyboard.pushChar c }
    | none => r.1

end Machine

/-! ## Runs -/

inductive Step where
  | keyByte (b : UInt8)
  | mouseByte (b : UInt8)
  | timerReady
  | tick
  | setIrqMode (enabled : Bool)
  | irq1
  | irq12
  | tryGetChar
  | hasInput

def step (width height : Int) (s : Machine) : Step → Machine
  | .keyByte b => { s with port := s.port ++ [(false, b)] }
  | .mouseByte b => { s with port := s.port ++ [(true, b)] }
  | .timerReady => { s with timer := { s.timer with ready := true } }
  | .tick => { s with timer := { s.timer with ticks := s.timer.ticks + 1 } }
  | .setIrqMode enabled => { s with keyboard := { s.keyboard with irqMode := enabled } }
  | .irq1 => s.keyboardHandleIrq
  | .irq12 => s.mouseHandleIrq width height
  | .tryGetChar => s.keyboardTryGetChar
  | .hasInput => s.keyboardHasInput

/-- After both drivers were set up. -/
def boot (set2 : Bool) (timer : Timer) (mouse : Mouse) : Machine where
  port := []
  timer := timer
  keyboard := .init set2
  mouse := mouse
  taken := []
  history := []
  delivered := []

def run (width height : Int) (set2 : Bool) (timer : Timer) (mouse : Mouse) (steps : List Step) :
    Machine :=
  steps.foldl (step width height) (boot set2 timer mouse)

end Input
end MiniDos
