import MiniDos.Fat.Confine
import MiniDos.Files.Context
import MiniDos.User.Calls

/-!
# MiniDos.User.Bounds

What the kernel touches for an app lies in the memory of the app.

* `userRangeValid_own`, `copyUserBytes_within`, `copyUserString_within`: the checks of the source.
* `writeUserFile_within`, `blitSurface_within`: the loops that go over a whole buffer.
* `syscall_touches_own`: every system call, with any arguments.
-/

namespace MiniDos
namespace User

open BlockIO Fat16 Files Plane
open Video (Screen Blit Font)
open Touch (Within)

variable {task : Task} {fails : Nat → Bool} {fuel : Nat}

/-! ## Ranges and copies -/

theorem userRangeValid_own {addr size : UInt32} (h : userRangeValid task addr size = true) :
    ∀ i < size.toNat, Own task (addr.toNat + i) := by
  intro i hi
  unfold userRangeValid at h
  split at h
  · rename_i hz
    subst hz
    exact absurd hi (Nat.not_lt_zero i)
  split at h
  · cases h
  split at h
  · cases h
  rename_i hlow
  simp only [Bool.and_eq_true, decide_eq_true_eq] at h
  obtain ⟨hwrap, hend⟩ := h
  rw [UInt32.le_iff_toNat_le, UInt32.toNat_add] at hwrap
  rw [UInt32.toNat_add] at hend
  have haddr := addr.toNat_lt
  have hsize := size.toNat_lt
  unfold Own
  omega

theorem writeCells_within {addr size : UInt32} (h : userRangeValid task addr size = true)
    {bytes : List Byte} (hlen : bytes.length ≤ size.toNat) :
    (Touch.writeCells addr.toNat bytes : UserProg Unit).Within (Own task) (fun _ => True) :=
  .writeCells (fun i hi => userRangeValid_own h i (Nat.lt_of_lt_of_le hi hlen))

theorem writeWord_within {addr : UInt32} (h : userRangeValid task addr 4 = true) (w : UInt32) :
    (writeWord addr.toNat w).Within (Own task) (fun _ => True) :=
  writeCells_within h (Nat.le_refl _)

theorem copyUserBytes_within (input size : UInt32) :
    (copyUserBytes task input size).Within (Own task) (fun _ => True) := by
  refine .ite (fun _ => trivial) (fun _ => .ite (fun _ => trivial) (fun hvalid => ?_))
  rw [Bool.not_eq_true, Bool.not_eq_false] at hvalid
  exact (Within.readCells (userRangeValid_own hvalid)).bind (fun _ _ => trivial)

theorem given_within {α β : Type} {p : UserProg (Option β)} {k : Option β → UserProg α}
    (hp : p.Within (Own task) (fun _ => True)) (hnone : (k none).Within (Own task) (fun _ => True))
    (hsome : ∀ b, (k (some b)).Within (Own task) (fun _ => True)) :
    (p >>= k).Within (Own task) (fun _ => True) := by
  refine hp.bind (fun given _ => ?_)
  cases given with
  | none => exact hnone
  | some b => exact hsome b

theorem readUserString_within (n : Nat) {addr : Nat} (h : loadVirtBase ≤ addr) :
    (readUserString (loadVirtBase + task.appSlotBytes) n addr).Within (Own task)
      (fun _ => True) := by
  induction n generalizing addr with
  | zero => trivial
  | succ n ih =>
    refine .ite (fun _ => trivial) (fun hlt => ?_)
    refine (Within.read ⟨h, by omega⟩).bind (fun c _ => .ite (fun _ => trivial) (fun _ => ?_))
    exact (ih (Nat.le_succ_of_le h)).bind (fun _ _ => trivial)

theorem copyUserString_within (input : UInt32) (outSize : Nat) :
    (copyUserString task input outSize).Within (Own task) (fun _ => True) := by
  refine .ite (fun _ => trivial) (fun _ => .ite (fun _ => trivial) (fun _ => ?_))
  exact .ite (fun _ => trivial) (fun hlow => readUserString_within _ (by omega))

theorem copyUserUpper_within (input : UInt32) :
    (copyUserUpper task input).Within (Own task) (fun _ => True) :=
  (copyUserString_within input nameSize).bind (fun _ _ => trivial)

theorem copyUserNames_within (a0 a1 : UInt32) :
    (copyUserNames task a0 a1).Within (Own task) (fun _ => True) := by
  refine (copyUserUpper_within a0).bind (fun nameA _ => ?_)
  cases nameA with
  | none => trivial
  | some nameA => exact (copyUserUpper_within a1).bind (fun _ _ => trivial)

/-! ## Steps without an access -/

section Steps

variable {S : Nat → Prop} {α : Type}

theorem onFiles_within (p : Action (Kernel × Task) α) : (onFiles p).Within S (fun _ => True) :=
  .lift_any _

theorem onScreen_within (f : Screen → α × Screen) : (onScreen f).Within S (fun _ => True) :=
  .lift_any _

theorem updateScreen_within (f : Screen → Screen) : (updateScreen f).Within S (fun _ => True) :=
  onScreen_within _

theorem getScreen_within : getScreen.Within S (fun _ => True) := onScreen_within _

theorem fat_within {p : Globals → DiskProg α} {Q : α → Prop}
    (h : ∀ g, (p g).Confined (fun _ => True) Q) : (onFiles (fat fails p)).Within S Q := by
  have hwp : ∀ m : Machine, ((fat fails p).onFst : Action Machine α).wp (fun a _ => Q a) m := by
    intro m
    rw [Action.wp_onFst]
    unfold fat
    rw [Action.wp_onFst, Action.wp_bind, Action.wp_modify, Action.wp_bind, Action.wp_get]
    intro a k hrun
    obtain ⟨r, hr, he⟩ := Option.map_eq_some_iff.mp hrun
    cases he
    exact ((h _).run hr).1
  exact .lift hwp

theorem flushGraphics_within (caller : Caller) :
    (flushGraphics caller).Within S (fun _ => True) :=
  .ite (fun _ => trivial) (fun _ => updateScreen_within _)

end Steps

/-! ## Files -/

theorem withName_within (other : Int) (a0 : UInt32) (k : CStr → Call) :
    (withName fails task other a0 k).Within (Own task) (fun _ => True) := by
  refine (copyUserUpper_within a0).bind (fun nameA _ => ?_)
  cases nameA with
  | none => trivial
  | some nameA => exact onFiles_within _

theorem withNames_within (a0 a1 : UInt32) (k : CStr → CStr → Call) :
    (withNames fails task a0 a1 k).Within (Own task) (fun _ => True) := by
  refine (copyUserNames_within a0 a1).bind (fun names _ => ?_)
  cases names with
  | none => trivial
  | some names => exact onFiles_within _

theorem fileRead_within (a0 a1 a2 : UInt32) :
    (fileRead fails fuel task a0 a1 a2).Within (Own task) (fun _ => True) := by
  refine .ite (fun _ => trivial) (fun hok => ?_)
  simp only [not_or, Bool.not_eq_true, Bool.not_eq_false] at hok
  refine (copyUserUpper_within a0).bind (fun nameA _ => ?_)
  cases nameA with
  | none => trivial
  | some nameA =>
    refine (onFiles_within _).bind (fun entered _ => .ite (fun _ => ?_) (fun _ => trivial))
    refine (fat_within (fun _ => readFileFromDir_confined _ _ _ _)).bind (fun bytes hbytes => ?_)
    refine (writeCells_within hok.2.2 hbytes).bind (fun _ _ => ?_)
    exact (onFiles_within _).bind (fun _ _ => trivial)

theorem writeUserSectors_within {buffer base : Nat} (n : Nat) {s offset remaining : Nat}
    (h : ∀ i < offset + remaining, Own task (buffer + i)) :
    (writeUserSectors fails buffer base n s offset remaining).Within (Own task)
      (fun r => ∀ left, r = some left → left.1 + left.2 = offset + remaining) := by
  induction n generalizing s offset remaining with
  | zero =>
    intro left hleft
    cases hleft
    rfl
  | succ n ih =>
    have hchunk : (if remaining > sectorSize then sectorSize else remaining) ≤ remaining := by
      split <;> omega
    unfold writeUserSectors
    dsimp only
    generalize (if remaining > sectorSize then sectorSize else remaining) = chunk at hchunk
    have hread : ∀ i < chunk, Own task (buffer + offset + i) := by
      intro i hi
      rw [Nat.add_assoc]
      exact h _ (by omega)
    have hsum : offset + chunk + (remaining - chunk) = offset + remaining := by omega
    refine (Within.readCells hread).bind (fun bytes _ => ?_)
    refine (onFiles_within _).bind (fun ok _ => .ite (fun _ => ?_) (fun _ => ?_))
    · refine (ih (by rwa [hsum])).mono (fun _ h => h) (fun r hr left hleft => ?_)
      rw [hr left hleft, hsum]
    · intro left hleft
      cases hleft

theorem writeUserLoop_within (g : Globals) {buffer size : Nat}
    (h : ∀ i < size, Own task (buffer + i)) (n : Nat) {st : WriteState}
    (hst : st.offset + st.remaining = size) :
    (writeUserLoop fails g buffer n st).Within (Own task) (fun _ => True) := by
  induction n generalizing st with
  | zero => trivial
  | succ n ih =>
    refine .ite (fun _ => trivial) (fun _ => ?_)
    refine (onFiles_within _).bind (fun r _ => ?_)
    cases r with
    | none => exact (onFiles_within _).bind (fun _ _ => trivial)
    | some cluster =>
      refine (onFiles_within _).bind (fun ok _ => .ite (fun _ => ?_) (fun _ => ?_))
      · have hbuffer : ∀ i < st.offset + st.remaining, Own task (buffer + i) := by rwa [hst]
        refine (writeUserSectors_within _ hbuffer).bind (fun r hr => ?_)
        cases r with
        | none => exact (onFiles_within _).bind (fun _ _ => trivial)
        | some left => exact ih ((hr left rfl).trans hst)
      · exact (onFiles_within _).bind (fun _ _ => trivial)

theorem writeUserFile_within (g : Globals) (dir : Nat) (filename : CStr) {buffer : UInt32} {size : Int}
    (h : ∀ i < size.toNat, Own task (buffer.toNat + i)) :
    (writeUserFile fails fuel g dir filename buffer size).Within (Own task) (fun _ => True) := by
  refine .ite (fun _ => trivial) (fun _ => .ite (fun _ => trivial) (fun _ => ?_))
  refine .ite (fun _ => trivial) (fun _ => (onFiles_within _).bind (fun existing _ => ?_))
  refine .ite (fun _ => trivial) (fun _ => ?_)
  refine (writeUserLoop_within g h _ (Nat.zero_add _)).bind (fun r _ => ?_)
  cases r with
  | none => trivial
  | some st => exact onFiles_within _

theorem asInt_toNat {a : UInt32} (h : 0 < asInt a) : (asInt a).toNat = a.toNat := by
  have hlt := a.toNat_lt
  unfold asInt at h ⊢
  split at h <;> split <;> omega

theorem fileWrite_within (a0 a1 a2 : UInt32) :
    (fileWrite fails fuel task a0 a1 a2).Within (Own task) (fun _ => True) := by
  refine .ite (fun _ => trivial) (fun hok => ?_)
  have hbuffer : ∀ i < (asInt a2).toNat, Own task (a1.toNat + i) := by
    intro i hi
    have hpos : 0 < asInt a2 := by omega
    have hvalid : userRangeValid task a1 a2 = true := by
      by_contra hno
      exact hok (.inr (.inr ⟨hpos, hno⟩))
    rw [asInt_toNat hpos] at hi
    exact userRangeValid_own hvalid i hi
  refine (copyUserUpper_within a0).bind (fun nameA _ => ?_)
  cases nameA with
  | none => trivial
  | some nameA =>
    refine (onFiles_within _).bind (fun entered _ => .ite (fun _ => ?_) (fun _ => trivial))
    refine (onFiles_within _).bind (fun g _ => ?_)
    refine (writeUserFile_within g _ nameA hbuffer).bind (fun ok _ => ?_)
    exact (onFiles_within _).bind (fun _ _ => trivial)

theorem storeWord_within {addr : UInt32} (h : addr ≠ 0 → userRangeValid task addr 4 = true)
    (w : UInt32) : (storeWord addr w).Within (Own task) (fun _ => True) :=
  .ite (fun _ => trivial) (fun hne => writeWord_within (h hne) w)

theorem listEntry_within (a0 a1 a2 : UInt32) :
    (listEntry fails fuel task a0 a1 a2).Within (Own task) (fun _ => True) := by
  refine .ite (fun _ => trivial) (fun hok => ?_)
  simp only [not_or, not_and, Bool.not_eq_true, Bool.not_eq_false] at hok
  obtain ⟨_, hname, hcell⟩ := hok
  refine (onFiles_within _).bind (fun entered _ => .ite (fun _ => ?_) (fun _ => trivial))
  refine (Within.write (userRangeValid_own hname 0 (by decide))).bind (fun _ _ => ?_)
  refine (storeWord_within hcell 0).bind (fun _ _ => ?_)
  refine (fat_within (fun _ => getEntryByIndex_confined _ _ _)).bind (fun found hfound => ?_)
  refine Within.bind (R := fun _ => True) ?_ (fun _ _ =>
    (onFiles_within _).bind (fun _ _ => trivial))
  cases found with
  | none => trivial
  | some x =>
    have hlen : (x.1 ++ [0]).length ≤ (13 : UInt32).toNat := by
      have := hfound x rfl
      rw [List.length_append, List.length_singleton]
      exact Nat.succ_le_succ this
    exact (writeCells_within hname hlen).bind (fun _ _ => storeWord_within hcell _)

theorem chdir_within (a0 : UInt32) :
    (chdir fails fuel task a0).Within (Own task) (fun _ => True) := by
  refine (copyUserString_within a0 nameSize).bind (fun nameA _ => ?_)
  cases nameA with
  | none => trivial
  | some nameA =>
    dsimp only
    cases driveName nameA with
    | some letter => exact onFiles_within _
    | none =>
      refine .ite (fun _ => onFiles_within _) (fun _ => .ite (fun _ => onFiles_within _) (fun _ => ?_))
      exact .ite (fun _ => trivial) (fun _ => onFiles_within _)

theorem clipPaste_within (a0 : UInt32) :
    (clipPaste fails fuel task a0).Within (Own task) (fun _ => True) := by
  refine .ite (fun _ => trivial) (fun _ => (onFiles_within _).bind (fun entered _ => ?_))
  refine .ite (fun _ => .ite (fun _ => onFiles_within _) (fun _ => ?_)) (fun _ => trivial)
  refine (copyUserString_within a0 nameSize).bind (fun nameA _ => ?_)
  cases nameA with
  | none => exact onFiles_within _
  | some nameA =>
    cases nameA with
    | nil => exact onFiles_within _
    | cons c cs => exact onFiles_within _

/-! ## Input, time and threads -/

section Devices

variable (dev : Devices) (caller : Caller)

theorem puts_within (a0 : UInt32) : (puts task a0).Within (Own task) (fun _ => True) := by
  refine (copyUserString_within a0 userTextMax).bind (fun text _ => ?_)
  cases text with
  | none => trivial
  | some text => trivial

theorem getCharNonblock_within :
    (getCharNonblock dev caller).Within (Own task) (fun _ => True) := by
  refine .ite (fun _ => trivial) (fun _ => (flushGraphics_within caller).bind (fun _ _ => ?_))
  cases dev.tryGetChar with
  | none => trivial
  | some c => trivial

theorem getMouseState_within (a0 : UInt32) :
    (getMouseState dev caller task a0).Within (Own task) (fun _ => True) := by
  refine .ite (fun _ => trivial) (fun hok => .ite (fun _ => trivial) (fun _ => ?_))
  rw [Bool.not_eq_true, Bool.not_eq_false] at hok
  refine (flushGraphics_within caller).bind (fun _ _ => ?_)
  cases dev.mouse with
  | none => trivial
  | some m => exact (writeCells_within hok (Nat.le_refl _)).bind (fun _ _ => trivial)

theorem getTime_within (a0 : UInt32) :
    (getTime dev task a0).Within (Own task) (fun _ => True) := by
  refine .ite (fun _ => trivial) (fun hok => ?_)
  simp only [not_or, Bool.not_eq_true, Bool.not_eq_false] at hok
  cases dev.time with
  | none => trivial
  | some t => exact (writeCells_within hok.2 (Nat.le_refl _)).bind (fun _ _ => trivial)

theorem threadSpawn_within (a0 : UInt32) :
    (threadSpawn dev caller task a0).Within (Own task) (fun _ => True) := by
  refine .ite (fun _ => trivial) (fun _ => given_within (copyUserBytes_within a0 _) trivial (fun bytes => ?_))
  refine .ite (fun _ => trivial) (fun _ => .ite (fun _ => trivial) (fun _ => ?_))
  exact given_within (copyUserString_within _ childNameSize) trivial (fun name => trivial)

end Devices

/-! ## Graphics -/

section Graphics

variable (font : Font) (caller : Caller)

theorem gfxRect_within (a0 : UInt32) :
    (gfxRect caller task a0).Within (Own task) (fun _ => True) := by
  refine .ite (fun _ => trivial) (fun _ => given_within (copyUserBytes_within a0 _) trivial (fun bytes => ?_))
  exact onScreen_within _

theorem copyRects_within (n : Nat) (userRect : UInt32) :
    (copyRects task n userRect).Within (Own task) (fun _ => True) := by
  induction n generalizing userRect with
  | zero => trivial
  | succ n ih =>
    refine given_within (copyUserBytes_within userRect _) trivial (fun bytes => ?_)
    exact .ite (fun _ => trivial) (fun _ => (ih _).bind (fun _ _ => trivial))

theorem gfxRectBatch_within (a0 : UInt32) :
    (gfxRectBatch caller task a0).Within (Own task) (fun _ => True) := by
  refine .ite (fun _ => trivial) (fun _ => given_within (copyUserBytes_within a0 _) trivial (fun bytes => ?_))
  refine .ite (fun _ => trivial) (fun _ => .ite (fun _ => trivial) (fun _ => ?_))
  exact given_within (copyRects_within _ _) trivial (fun rects => onScreen_within _)

theorem gfxText_within (a0 : UInt32) :
    (gfxText font caller task a0).Within (Own task) (fun _ => True) := by
  refine .ite (fun _ => trivial) (fun _ => given_within (copyUserBytes_within a0 _) trivial (fun bytes => ?_))
  refine .ite (fun _ => trivial) (fun _ => given_within (copyUserString_within _ _) trivial (fun rendered => ?_))
  exact (updateScreen_within _).bind (fun _ _ => trivial)

theorem gfxTextClipped_within (a0 : UInt32) :
    (gfxTextClipped font caller task a0).Within (Own task) (fun _ => True) := by
  refine .ite (fun _ => trivial) (fun _ => given_within (copyUserBytes_within a0 _) trivial (fun bytes => ?_))
  refine .ite (fun _ => trivial) (fun _ => given_within (copyUserString_within _ _) trivial (fun rendered => ?_))
  exact .ite (fun _ => trivial) (fun _ => onScreen_within _)

theorem gfxSize_within (a0 a1 : UInt32) :
    (gfxSize caller task a0 a1).Within (Own task) (fun _ => True) := by
  refine .ite (fun _ => trivial) (fun hok => ?_)
  simp only [not_or, Bool.not_eq_true, Bool.not_eq_false] at hok
  obtain ⟨_, _, _, hw, hh⟩ := hok
  refine getScreen_within.bind (fun s _ => (writeWord_within hw _).bind (fun _ _ => ?_))
  exact (writeWord_within hh _).bind (fun _ _ => trivial)

end Graphics

/-! ## Surfaces -/

section Surface

variable {S : Nat → Prop}

def SampleIn (S : Nat → Prop) (addr : Int) : Prop :=
  ∀ k : Int, 0 ≤ k → k < 4 → S (Video.u32 (addr + k)).toNat

theorem readByteAt_within {addr k : Int} (h : SampleIn S addr) (h0 : 0 ≤ k) (h4 : k < 4) :
    (readByteAt addr k).Within S (fun _ => True) :=
  (Within.read (h k h0 h4)).bind (fun _ _ => trivial)

theorem readU32_within {addr : Int} (h : SampleIn S addr) :
    (readU32 addr).Within S (fun _ => True) := by
  refine (readByteAt_within h (by decide) (by decide)).bind (fun _ _ => ?_)
  refine (readByteAt_within h (by decide) (by decide)).bind (fun _ _ => ?_)
  refine (readByteAt_within h (by decide) (by decide)).bind (fun _ _ => ?_)
  exact (readByteAt_within h (by decide) (by decide)).bind (fun _ _ => trivial)

theorem readSample_within (format : Int) {addr : Int} (h : SampleIn S addr) :
    (readSample format addr).Within S (fun _ => True) := by
  refine .ite (fun _ => ?_) (fun _ => (readU32_within h).bind (fun _ _ => trivial))
  refine (readByteAt_within h (by decide) (by decide)).bind (fun _ _ => ?_)
  refine (readByteAt_within h (by decide) (by decide)).bind (fun _ _ => ?_)
  exact (readByteAt_within h (by decide) (by decide)).bind (fun _ _ => trivial)

theorem forSamples_within {body : Blit.Sample → UserProg Unit} {ps : List Blit.Sample}
    (h : ∀ p ∈ ps, (body p).Within S (fun _ => True)) :
    (forSamples body ps).Within S (fun _ => True) := by
  induction ps with
  | nil => trivial
  | cons p ps ih =>
    rw [List.forall_mem_cons] at h
    exact h.1.bind (fun _ _ => ih h.2)

theorem blitSurface_within {b : Blit} (h : ∀ p, b.Sourced p → SampleIn S p.addr) :
    (blitSurface b).Within S (fun _ => True) := by
  refine .ite (fun _ => trivial) (fun hok => getScreen_within.bind (fun s _ => ?_))
  simp only [not_or, Decidable.not_not] at hok
  cases hwindow : b.window s.mode.width s.mode.height with
  | none => trivial
  | some r =>
    refine Within.bind (R := fun _ => True) ?_ (fun _ _ =>
      (updateScreen_within _).bind (fun _ _ => trivial))
    refine getScreen_within.bind (fun s' _ => .ite (fun hplain => ?_) (fun _ => ?_))
    · refine forSamples_within (fun p hp => ?_)
      obtain ⟨_, hw, hh, _⟩ := hplain
      have hsourced := (Blit.plainSamples_spec hw hh hwindow hp).2
      exact (readU32_within (h p hsourced)).bind (fun _ _ => updateScreen_within _)
    · refine forSamples_within (fun p hp => ?_)
      have hsourced := (Blit.scaledSamples_spec hok.1 hok.2.1 hwindow hp).2
      exact (readSample_within _ (h p hsourced)).bind (fun _ _ => updateScreen_within _)

theorem ofInt_toNat {n : Int} (h0 : 0 ≤ n) (h : n < 2 ^ 32) : (ofInt n).toNat = n.toNat := by
  unfold ofInt UInt32.ofInt
  rw [UInt32.toNat_ofNat']
  omega

theorem sourceSpan_toNat {b : Blit} (h : SurfaceAccepted b) (hstride : b.stride < 2 ^ 31) :
    ((sourceSpan b).toNat : Int) = (b.height - 1) * b.stride + b.width * 4 := by
  obtain ⟨_, hw0, hh0, hw, hh, hs0, _, _, hrows⟩ := h
  unfold Video.appGfxMaxDimension at hw hh
  have hwidth : (ofInt b.width).toNat = b.width.toNat := ofInt_toNat (by omega) (by omega)
  have hheight : (ofInt (b.height - 1)).toNat = (b.height - 1).toNat :=
    ofInt_toNat (by omega) (by omega)
  have hst : (ofInt b.stride).toNat = b.stride.toNat := ofInt_toNat (by omega) (by omega)
  have hrow : (ofInt b.width * 4).toNat = b.width.toNat * 4 := by
    rw [UInt32.toNat_mul, hwidth]
    show b.width.toNat * 4 % 2 ^ 32 = _
    omega
  rw [UInt32.le_iff_toNat_le, UInt32.toNat_div, UInt32.toNat_sub_of_le _ _ (by
    rw [UInt32.le_iff_toNat_le, hrow]
    show b.width.toNat * 4 ≤ 4294967295
    omega), hheight, hst, hrow, Nat.le_div_iff_mul_le (by omega)] at hrows
  have hlt : (b.height - 1).toNat * b.stride.toNat + b.width.toNat * 4 < 2 ^ 32 := by
    have hmax : (0xFFFFFFFF : UInt32).toNat = 4294967295 := rfl
    omega
  have hspan : (sourceSpan b).toNat =
      (b.height - 1).toNat * b.stride.toNat + b.width.toNat * 4 := by
    unfold sourceSpan
    rw [UInt32.toNat_add, UInt32.toNat_mul, hheight, hst, hrow]
    rw [Nat.mod_eq_of_lt (a := _ * _) (by omega), Nat.mod_eq_of_lt hlt]
  rw [hspan]
  push_cast
  rw [Int.toNat_of_nonneg (by omega), Int.toNat_of_nonneg (by omega), Int.toNat_of_nonneg (by omega)]

/-- The pixels of a surface that is accepted lie in its span. -/
theorem sourced_own {b : Blit} (h : SurfaceAccepted b) (hstride : b.stride < 2 ^ 31)
    (hbuffer : b.buffer < 2 ^ 32)
    (hvalid : userRangeValid task (UInt32.ofNat b.buffer) (sourceSpan b) = true)
    {p : Blit.Sample} (hp : b.Sourced p) : SampleIn (Own task) p.addr := by
  intro k hk0 hk4
  obtain ⟨srcX, srcY, hx0, hx, hy0, hy, hp⟩ := hp
  have hspan := sourceSpan_toNat h hstride
  have hs0 := h.2.2.2.2.2.1
  have hrow : srcY * b.stride ≤ (b.height - 1) * b.stride :=
    Int.mul_le_mul_of_nonneg_right (by omega) (by omega)
  have hrow0 : 0 ≤ srcY * b.stride := Int.mul_nonneg hy0 (by omega)
  have hown := userRangeValid_own hvalid (srcY * b.stride + srcX * 4 + k).toNat (by omega)
  have hbuf : (UInt32.ofNat b.buffer).toNat = b.buffer := by
    rw [UInt32.toNat_ofNat']
    omega
  rw [hbuf] at hown
  have hslot : task.appSlotBytes ≤ slotMaxSize := by
    by_contra hno
    unfold userRangeValid at hvalid
    rw [if_neg (by
      intro hz
      rw [hz] at hspan
      have : (0 : UInt32).toNat = 0 := rfl
      omega), if_pos (.inr (by omega))] at hvalid
    cases hvalid
  have haddr : (Video.u32 (p.addr + k)).toNat =
      b.buffer + (srcY * b.stride + srcX * 4 + k).toNat := by
    unfold Own loadVirtBase at hown
    unfold slotMaxSize at hslot
    rw [hp]
    unfold Video.u32
    omega
  rwa [haddr]

theorem asInt_lt (a : UInt32) : asInt a < 2 ^ 31 := by
  have hlt := a.toNat_lt
  unfold asInt
  split <;> omega

theorem gfxSurfaceBlit_within (caller : Caller) (a0 : UInt32) :
    (gfxSurfaceBlit caller task a0).Within (Own task) (fun _ => True) := by
  refine .ite (fun _ => trivial) (fun _ => given_within (copyUserBytes_within a0 _) trivial (fun bytes => ?_))
  refine .ite (fun _ => trivial) (fun hok => .ite (fun _ => trivial) (fun hvalid => ?_))
  refine .ite (fun _ => trivial) (fun _ => ?_)
  rw [Decidable.not_not] at hok
  rw [Bool.not_eq_true, Bool.not_eq_false] at hvalid
  refine (blitSurface_within (fun p hp => ?_)).bind (fun _ _ => trivial)
  exact sourced_own hok (asInt_lt _) (UInt32.toNat_lt _) hvalid hp

end Surface

/-! ## All calls -/

theorem dispatch_within (font : Font) (dev : Devices) (caller : Caller) (num a0 a1 a2 : UInt32) :
    (dispatch fails fuel font dev caller task num a0 a1 a2).Within (Own task) (fun _ => True) := by
  unfold dispatch
  split
  case h_1 => exact puts_within a0
  case h_2 =>
    exact .ite (fun _ => trivial) (fun _ => (flushGraphics_within caller).bind (fun _ _ => trivial))
  case h_3 => exact withName_within _ a0 _
  case h_4 => exact listEntry_within a0 a1 a2
  case h_5 => exact withNames_within a0 a1 _
  case h_6 => exact withNames_within a0 a1 _
  case h_7 => exact .ite (fun _ => trivial) (fun _ => (updateScreen_within _).bind (fun _ _ => trivial))
  case h_8 => exact gfxRect_within caller a0
  case h_9 => exact gfxText_within font caller a0
  case h_10 => exact gfxSize_within caller a0 a1
  case h_11 => exact chdir_within a0
  case h_12 => exact withName_within _ a0 _
  case h_13 => exact withName_within _ a0 _
  case h_14 => exact withName_within _ a0 _
  case h_15 => exact withNames_within a0 a1 _
  case h_16 => exact withNames_within a0 a1 _
  case h_17 => exact withNames_within a0 a1 _
  case h_18 => exact withName_within _ a0 _
  case h_19 => exact clipPaste_within a0
  case h_20 => trivial
  case h_21 => exact fileRead_within a0 a1 a2
  case h_22 => exact fileWrite_within a0 a1 a2
  case h_23 => exact getCharNonblock_within dev caller
  case h_24 => exact (flushGraphics_within caller).bind (fun _ _ => trivial)
  case h_25 => exact getMouseState_within dev caller a0
  case h_26 => exact (flushGraphics_within caller).bind (fun _ _ => trivial)
  case h_27 => exact .ite (fun _ => trivial) (fun _ => (updateScreen_within _).bind (fun _ _ => trivial))
  case h_28 => exact getTime_within dev a0
  case h_29 => exact threadSpawn_within dev caller a0
  case h_30 => trivial
  case h_31 => trivial
  case h_32 => exact gfxSurfaceBlit_within caller a0
  case h_33 => exact onFiles_within _
  case h_34 => exact gfxRectBatch_within caller a0
  case h_35 => exact gfxTextClipped_within font caller a0
  case h_36 => trivial

/-- Whatever an app asks for, and whatever its memory holds at each access, the kernel touches no
address outside the memory of the app. -/
theorem syscall_touches_own (fails : Nat → Bool) (fuel : Nat) (font : Font) (dev : Devices)
    (caller : Caller) (num a0 a1 a2 : UInt32) (mem : Nat → Nat → Byte) (m : Machine) :
    ∀ addr ∈ (syscall fails fuel font dev caller num a0 a1 a2).touched mem m,
      loadVirtBase ≤ addr ∧ addr < loadVirtBase + m.1.2.appSlotBytes :=
  (dispatch_within font dev caller num a0 a1 a2).touched mem m

/-- Nobody types, and the scheduler has no room for a thread. -/
def quietDevices : Devices := ⟨0, none, none, fun _ _ => 0, 0, none, 0, fun _ _ _ => -1⟩

def textMachine : Machine :=
  ((blankKernel, rootTask 0 true), Video.initScreen Video.mode640 (fun _ _ => 0) (fun _ _ => 0))

/-- The end of a text of one letter, which `MINIDOS_SYSCALL_PUTS` reads. -/
theorem syscall_touches_own_puts :
    0x01000001 ∈ (syscall noFaults 3 (fun _ _ => 0) quietDevices ⟨3, false⟩ 1 0x01000000 0 0).touched
        (fun _ => (nameArgs 0x58).mem) textMachine ∧
      loadVirtBase ≤ 0x01000001 ∧ 0x01000001 < loadVirtBase + 0x10000 :=
  ⟨by decide +kernel, syscall_touches_own noFaults 3 (fun _ _ => 0) quietDevices ⟨3, false⟩ 1
    0x01000000 0 0 (fun _ => (nameArgs 0x58).mem) textMachine 0x01000001 (by decide +kernel)⟩

end User
end MiniDos
