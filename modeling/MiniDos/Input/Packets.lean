import MiniDos.Input.Delivery

/-!
# MiniDos.Input.Packets

The packets of the mouse: three bytes with the buttons, the signs and the overflow flags in the first
one and the movement in the others.

* `Packet.dx`, `Packet.dy`: the movement as a signed number of nine bits.
* `Reported`: what a packet does to the state that `mouse_get_state` reports.
* `packets_reported`: over whole runs, with everything else that happens between the bytes.
-/

namespace MiniDos
namespace Input

/-- What the video driver reports, once it is ready. -/
structure Screen where
  width : Int
  height : Int
  width_pos : 0 < width
  height_pos : 0 < height

/-- Bit 3 is set in every first byte. -/
structure Packet where
  b0 : UInt8
  b1 : UInt8
  b2 : UInt8
  sync : b0 &&& 0x08 ≠ 0

namespace Packet

variable (p : Packet)

def bytes : List UInt8 := [p.b0, p.b1, p.b2]

def buttons : UInt8 := p.b0 &&& 0x07

/-- A movement did not fit into nine bits. -/
def Overflows : Prop := p.b0.toBitVec.getLsbD 6 = true ∨ p.b0.toBitVec.getLsbD 7 = true

def dx : Int := (BitVec.cons (p.b0.toBitVec.getLsbD 4) p.b1.toBitVec).toInt

def dy : Int := (BitVec.cons (p.b0.toBitVec.getLsbD 5) p.b2.toBitVec).toInt

end Packet

def OnScreen (screen : Screen) (m : Mouse) : Prop :=
  (0 ≤ m.x ∧ m.x < screen.width) ∧ 0 ≤ m.y ∧ m.y < screen.height

/-- `n` moved onto an axis of `limit` pixels. -/
def clampTo (limit n : Int) : Int := max 0 (min n (limit - 1))

/-- `m` before the packet and `m'` after it. A packet with an overflow flag is dropped. -/
structure Reported (screen : Screen) (m : Mouse) (p : Packet) (m' : Mouse) : Prop where
  dropped : p.Overflows → m' = m
  buttons : ¬ p.Overflows → m'.buttons = p.buttons
  seq : ¬ p.Overflows → m'.seq = m.seq + 1
  x : ¬ p.Overflows → m'.x = clampTo screen.width (m.x + p.dx)
  y : ¬ p.Overflows → m'.y = clampTo screen.height (m.y - p.dy)

/-- After a `mouse_init` that found a mouse. -/
def Mouse.init (screen : Screen) : Mouse where
  x := screen.width.tdiv 2
  y := screen.height.tdiv 2
  dx := 0
  dy := 0
  buttons := 0
  seq := 0
  present := true
  packet := []

/-! ## Bits -/

theorem bit_ne_zero (b mask : UInt8) (i : Nat) (hmask : mask.toBitVec = BitVec.twoPow 8 i) (hi : i < 8) :
    b &&& mask ≠ 0 ↔ b.toBitVec.getLsbD i = true := by
  rw [ne_eq, ← UInt8.toBitVec_inj, UInt8.toBitVec_and, hmask, BitVec.and_twoPow]
  cases b.toBitVec.getLsbD i
  · simp
  · have hone : BitVec.twoPow 8 i ≠ 0#8 := by
      intro h
      have hbit := congrArg (fun x => x.getLsbD i) h
      simp [hi] at hbit
    simpa using hone

theorem overflow_ne_zero (b : UInt8) :
    b &&& 0xC0 ≠ 0 ↔ b.toBitVec.getLsbD 6 = true ∨ b.toBitVec.getLsbD 7 = true := by
  have hboth : b &&& 0xC0 = (b &&& 0x40) ||| (b &&& 0x80) := by
    rw [← UInt8.toBitVec_inj]
    exact @BitVec.and_or_distrib_left 8 b.toBitVec 0x40#8 0x80#8
  rw [← bit_ne_zero b 0x40 6 rfl (by decide), ← bit_ne_zero b 0x80 7 rfl (by decide), hboth, ne_eq,
    UInt8.or_eq_zero_iff, not_and_or]

theorem toInt_nine (sign : Bool) (b : UInt8) :
    (BitVec.cons sign b.toBitVec).toInt = if sign then (b.toNat : Int) - 256 else b.toNat := by
  rw [BitVec.toInt_eq_msb_cond, BitVec.msb_cons, BitVec.toNat_cons']
  cases sign
  · simp
  · have hlt := b.toNat_lt
    simp only [if_true, Bool.toNat_true, UInt8.toNat_toBitVec]
    omega

/-! ## One packet -/

variable {screen : Screen} {m : Mouse}

theorem clampAxis_eq {limit : Int} (hpos : 0 < limit) (n : Int) : clampAxis limit n = clampTo limit n := by
  have hlimit : (if limit < 1 then 1 else limit) = limit := if_neg (by omega)
  unfold clampAxis clampTo
  dsimp only
  rw [hlimit]
  split
  · omega
  · split <;> omega

theorem clampTo_mem {limit : Int} (hpos : 0 < limit) (n : Int) : 0 ≤ clampTo limit n ∧ clampTo limit n < limit := by
  unfold clampTo
  omega

theorem applyPacket_reported (screen : Screen) (m : Mouse) (p : Packet) :
    Reported screen m p (m.applyPacket screen.width screen.height p.b0 p.b1 p.b2) := by
  unfold Mouse.applyPacket
  by_cases h : p.b0 &&& 0xC0 ≠ 0
  · have hover : p.Overflows := (overflow_ne_zero p.b0).mp h
    rw [if_pos h]
    exact ⟨fun _ => rfl, fun hno => absurd hover hno, fun hno => absurd hover hno, fun hno => absurd hover hno,
      fun hno => absurd hover hno⟩
  · have hno : ¬ p.Overflows := fun hover => h ((overflow_ne_zero p.b0).mpr hover)
    have hdx : (if p.b0 &&& 0x10 ≠ 0 then (p.b1.toNat : Int) - 256 else p.b1.toNat) = p.dx := by
      rw [Packet.dx, toInt_nine]
      simp only [bit_ne_zero p.b0 0x10 4 rfl (by decide)]
    have hdy : (if p.b0 &&& 0x20 ≠ 0 then (p.b2.toNat : Int) - 256 else p.b2.toNat) = p.dy := by
      rw [Packet.dy, toInt_nine]
      simp only [bit_ne_zero p.b0 0x20 5 rfl (by decide)]
    rw [if_neg h, hdx, hdy]
    exact ⟨fun hover => absurd hover hno, fun _ => rfl, fun _ => rfl, fun _ => clampAxis_eq screen.width_pos _,
      fun _ => clampAxis_eq screen.height_pos _⟩

theorem applyPacket_frame (width height : Int) (m : Mouse) (b0 b1 b2 : UInt8) :
    (m.applyPacket width height b0 b1 b2).present = m.present ∧
      (m.applyPacket width height b0 b1 b2).packet = m.packet := by
  unfold Mouse.applyPacket
  split
  · exact ⟨rfl, rfl⟩
  · exact ⟨rfl, rfl⟩

theorem byte_packet (width height : Int) (hpresent : m.present = true) (hm : m.packet = []) (p : Packet) :
    p.bytes.foldl (Mouse.byte width height) m = m.applyPacket width height p.b0 p.b1 p.b2 := by
  obtain ⟨x, y, dx, dy, buttons, seq, present, packet⟩ := m
  dsimp only at hpresent hm
  subst hpresent hm
  simp [Packet.bytes, Mouse.byte, p.sync]

theorem byte_packets (width height : Int) (hpresent : m.present = true) (hm : m.packet = []) (ps : List Packet) :
    ((ps.flatMap Packet.bytes).foldl (Mouse.byte width height) m).present = true ∧
      ((ps.flatMap Packet.bytes).foldl (Mouse.byte width height) m).packet = [] := by
  induction ps generalizing m with
  | nil => exact ⟨hpresent, hm⟩
  | cons p ps ih =>
    rw [List.flatMap_cons, List.foldl_append, byte_packet width height hpresent hm]
    obtain ⟨hpresent', hpacket'⟩ := applyPacket_frame width height m p.b0 p.b1 p.b2
    exact ih (hpresent'.trans hpresent) (hpacket'.trans hm)

/-! ## Runs -/

theorem byte_onScreen (hm : m.present = true ∧ OnScreen screen m) (b : UInt8) :
    (m.byte screen.width screen.height b).present = true ∧ OnScreen screen (m.byte screen.width screen.height b) := by
  unfold Mouse.byte
  split
  · exact hm
  split
  · exact hm
  split
  · unfold Mouse.applyPacket
    split
    · exact hm
    · refine ⟨hm.1, ?_, ?_⟩
      · dsimp only
        rw [clampAxis_eq screen.width_pos]
        exact clampTo_mem screen.width_pos _
      · dsimp only
        rw [clampAxis_eq screen.height_pos]
        exact clampTo_mem screen.height_pos _
  · exact hm

theorem init_onScreen (screen : Screen) : (Mouse.init screen).present = true ∧ OnScreen screen (Mouse.init screen) := by
  have hw := screen.width_pos
  have hh := screen.height_pos
  have hx : screen.width.tdiv 2 = screen.width / 2 := Int.tdiv_eq_ediv_of_nonneg (Int.le_of_lt hw)
  have hy : screen.height.tdiv 2 = screen.height / 2 := Int.tdiv_eq_ediv_of_nonneg (Int.le_of_lt hh)
  refine ⟨rfl, ?_, ?_⟩
  · rw [Mouse.init, hx]
    dsimp only
    omega
  · rw [Mouse.init, hy]
    dsimp only
    omega

theorem run_onScreen (screen : Screen) (set2 : Bool) (timer : Timer) (steps : List Step) :
    (run screen.width screen.height set2 timer (.init screen) steps).mouse.present = true ∧
      OnScreen screen (run screen.width screen.height set2 timer (.init screen) steps).mouse := by
  rw [run_mouse]
  exact List.foldlRecOn (motive := fun m : Mouse => m.present = true ∧ OnScreen screen m) _ _
    (init_onScreen screen) (fun _ hm b _ => byte_onScreen hm b)

theorem run_append_mouse {width height : Int} {set2 : Bool} {timer : Timer} {mouse : Mouse} {steps more : List Step}
    {bytes : List UInt8}
    (h : mouseBytes (run width height set2 timer mouse (steps ++ more)).taken =
      mouseBytes (run width height set2 timer mouse steps).taken ++ bytes) :
    (run width height set2 timer mouse (steps ++ more)).mouse =
      bytes.foldl (Mouse.byte width height) (run width height set2 timer mouse steps).mouse := by
  rw [run_mouse, h, List.foldl_append, ← run_mouse]

/-- Since `mouse_init`: behind a packet boundary, whatever else happens and after any packets, a further
packet is reported unless it has an overflow flag, and the position is on the screen. -/
theorem packets_reported (screen : Screen) (set2 : Bool) (timer : Timer) (steps mid last : List Step)
    (before : List Packet) (p : Packet)
    (hboundary : (run screen.width screen.height set2 timer (.init screen) steps).mouse.packet = [])
    (hbefore : mouseBytes (run screen.width screen.height set2 timer (.init screen) (steps ++ mid)).taken =
      mouseBytes (run screen.width screen.height set2 timer (.init screen) steps).taken ++
        before.flatMap Packet.bytes)
    (hlast : mouseBytes (run screen.width screen.height set2 timer (.init screen) (steps ++ mid ++ last)).taken =
      mouseBytes (run screen.width screen.height set2 timer (.init screen) (steps ++ mid)).taken ++ p.bytes) :
    Reported screen (run screen.width screen.height set2 timer (.init screen) (steps ++ mid)).mouse p
        (run screen.width screen.height set2 timer (.init screen) (steps ++ mid ++ last)).mouse ∧
      OnScreen screen (run screen.width screen.height set2 timer (.init screen) (steps ++ mid ++ last)).mouse := by
  refine ⟨?_, (run_onScreen screen set2 timer _).2⟩
  obtain ⟨hpresent, hpacket⟩ := byte_packets screen.width screen.height
    (run_onScreen screen set2 timer steps).1 hboundary before
  rw [← run_append_mouse hbefore] at hpresent hpacket
  rw [run_append_mouse hlast, byte_packet _ _ hpresent hpacket]
  exact applyPacket_reported screen _ p

/-- The bytes one after another, each with its interrupt. -/
def deliver (bytes : List UInt8) : List Step := bytes.flatMap (fun b => [.mouseByte b, .irq12])

def textScreen : Screen := ⟨640, 400, by decide, by decide⟩

/-- The left button goes down. -/
def pressed : Packet := ⟨0x09, 0, 0, by decide⟩

/-- Up and to the left, with the button held. -/
def dragged : Packet := ⟨0x19, 0xF0, 0x10, by decide⟩

/-- The button goes up, and the mouse moved further than nine bits can say. -/
def releasedFar : Packet := ⟨0x48, 0, 0, by decide⟩

theorem packets_reported_drag :
    Reported textScreen
        (run 640 400 false ⟨true, 0⟩ (.init textScreen) ([] ++ deliver ([pressed].flatMap Packet.bytes))).mouse dragged
        (run 640 400 false ⟨true, 0⟩ (.init textScreen)
          ([] ++ deliver ([pressed].flatMap Packet.bytes) ++ deliver dragged.bytes)).mouse ∧
      OnScreen textScreen (run 640 400 false ⟨true, 0⟩ (.init textScreen)
        ([] ++ deliver ([pressed].flatMap Packet.bytes) ++ deliver dragged.bytes)).mouse :=
  packets_reported textScreen false ⟨true, 0⟩ [] (deliver ([pressed].flatMap Packet.bytes)) (deliver dragged.bytes)
    [pressed] dragged rfl rfl rfl

/-- The button stays down. -/
theorem release_is_dropped :
    ¬ ∀ (before : List Packet) (p : Packet), (run 640 400 false ⟨true, 0⟩ (.init textScreen)
      (deliver ((before ++ [p]).flatMap Packet.bytes))).mouse.buttons = p.buttons := by
  intro h
  exact absurd (h [pressed] releasedFar) (by decide)

end Input
end MiniDos
