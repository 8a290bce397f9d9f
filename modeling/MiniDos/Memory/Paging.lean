import MiniDos.Lib.Paging

/-!
# MiniDos.Memory.Paging

The page tables of `paging.c`: `paging_setup_structures`, `paging_unmap_page` and
`paging_build_app_directory`.

* Where the statics lie is a parameter (`Layout`). They are aligned, so a table is a frame.
* The interrupt table, the task segment and what is printed are left out.
-/

namespace MiniDos
namespace PageTables

open Paging

def lowmemPageTableCount : Nat := 4
def fbPageTableCount : Nat := 2
def appSlotBytes : Nat := 0x00400000

/-- `PAGE_PRESENT | PAGE_RW`, with `PAGE_PWT | PAGE_PCD`, and with `PAGE_USER`. -/
def lowFlags : UInt32 := 0x003
def fbFlags : UInt32 := 0x01B
def userFlags : UInt32 := 0x007

/-- The frames of `page_directory`, `lowmem_page_tables` and `fb_page_tables`. -/
structure Layout where
  pageDirectory : Nat
  lowmemPageTables : Nat
  fbPageTables : Nat
  directory_lt : pageDirectory < 2 ^ 20
  lowmem_le : lowmemPageTables + lowmemPageTableCount ≤ 2 ^ 20
  fb_le : fbPageTables + fbPageTableCount ≤ 2 ^ 20
  directory_lowmem : pageDirectory < lowmemPageTables ∨
    lowmemPageTables + lowmemPageTableCount ≤ pageDirectory
  directory_fb : pageDirectory < fbPageTables ∨ fbPageTables + fbPageTableCount ≤ pageDirectory
  lowmem_fb : lowmemPageTables + lowmemPageTableCount ≤ fbPageTables ∨
    fbPageTables + fbPageTableCount ≤ lowmemPageTables

/-- What the boot code left about the screen, at `BOOT_VIDEO_FLAG_ADDR` and behind it. -/
structure BootVideo where
  flag : UInt8
  fbAddr : UInt32
  width : UInt16
  height : UInt16
  pitch : UInt16
  bpp : UInt8

/-- `init_video_once` uses the framebuffer. -/
def BootVideo.Accepted (b : BootVideo) : Prop :=
  b.flag = 1 ∧ b.fbAddr ≠ 0 ∧ 320 ≤ b.width ∧ 200 ≤ b.height ∧ b.width ≤ b.pitch ∧ 15 ≤ b.bpp

instance (b : BootVideo) : Decidable b.Accepted := inferInstanceAs (Decidable (_ ∧ _))

/-! ## The kernel's tables -/

/-- The word for page `i` of a table. -/
def pageWord (regionBase : Nat) (flags : UInt32) (i : Nat) : UInt32 :=
  UInt32.ofNat (regionBase + i * 0x1000) ||| flags

/-- A table is filled for the region of entry `pdIndex`, and the entry is set. -/
def installTable (L : Layout) (pdIndex table : Nat) (flags : UInt32) (m : Mem) : Mem :=
  (Mem.fill table (pageWord (pdIndex * 2 ^ 22) flags) 1024 m).set L.pageDirectory pdIndex
    (entry table flags)

/-- The loop over `lowmem_page_tables`. -/
def setupLowmem (L : Layout) : Nat → Mem → Mem
  | 0, m => m
  | n + 1, m => installTable L n (L.lowmemPageTables + n) lowFlags (setupLowmem L n m)

def clearFbTables (L : Layout) : Nat → Mem → Mem
  | 0, m => m
  | n + 1, m => Mem.fill (L.fbPageTables + n) (fun _ => 0) 1024 (clearFbTables L n m)

/-- The loop over the entries of the framebuffer, `n` of them left. -/
def mapFb (L : Layout) : Nat → Nat → Nat → Mem → Mem
  | 0, _, _, m => m
  | n + 1, pdIndex, table, m =>
    if pdIndex = 0 then mapFb L n (pdIndex + 1) table m
    else if fbPageTableCount ≤ table then m
    else
      mapFb L n (pdIndex + 1) (table + 1)
        (installTable L pdIndex (L.fbPageTables + table) fbFlags m)

def BootVideo.fbSize (b : BootVideo) : Nat :=
  if b.flag = 1 ∧ b.height ≠ 0 ∧ b.pitch ≠ 0 then b.height.toNat * b.pitch.toNat else 0

/-- `fb_end`, in 32 bits. -/
def BootVideo.fbEnd (b : BootVideo) : Nat := (b.fbAddr.toNat + b.fbSize - 1) % 2 ^ 32

def BootVideo.startPd (b : BootVideo) : Nat := b.fbAddr.toNat / 2 ^ 22
def BootVideo.endPd (b : BootVideo) : Nat := b.fbEnd / 2 ^ 22

/-- `paging_setup_structures`. -/
def setupStructures (L : Layout) (b : BootVideo) (m : Mem) : Mem :=
  let m := Mem.fill L.pageDirectory (fun _ => 0) 1024 m
  let m := setupLowmem L lowmemPageTableCount m
  let m := clearFbTables L fbPageTableCount m
  if b.fbAddr ≠ 0 ∧ b.fbSize ≠ 0 then mapFb L (b.endPd + 1 - b.startPd) b.startPd 0 m else m

/-- `paging_unmap_page`; `none`: it returned 0. -/
def unmapPage (L : Layout) (m : Mem) (addr : UInt32) : Option Mem :=
  let pde := m L.pageDirectory (addr.toNat / 2 ^ 22)
  if pde &&& 1 = 0 then none
  else some (m.set (pde.toNat / 4096) (addr.toNat / 4096 % 1024) 0)

/-! ## A program's tables -/

def copyDirectory (L : Layout) (outPd outUserPt : Nat) : Nat → Mem → Mem
  | 0, m => m
  | n + 1, m =>
    let m := copyDirectory L outPd outUserPt n m
    (m.set outPd n (m L.pageDirectory n)).set outUserPt n 0

/-- The loop over the pages of the program. -/
def mapUser (outUserPt firstIndex : Nat) (appPhysBase : UInt32) : Nat → Mem → Mem
  | 0, m => m
  | n + 1, m =>
    (mapUser outUserPt firstIndex appPhysBase n m).set outUserPt (firstIndex + n)
      (pageWord appPhysBase.toNat userFlags n)

/-- `paging_build_app_directory`, with the frames of its two tables; `none`: it returned 0. -/
def buildAppDirectory (L : Layout) (m : Mem) (outPd outUserPt : Nat)
    (appPhysBase appVirtBase appBytes : UInt32) : Option Mem :=
  let pdeIndex := appVirtBase.toNat / 2 ^ 22
  let firstIndex := appVirtBase.toNat / 4096 % 1024
  let pageCount := (appBytes.toNat + 0xFFF) % 2 ^ 32 / 4096
  if outPd = 0 ∨ outUserPt = 0 ∨ appBytes = 0 ∨ appSlotBytes < appBytes.toNat ∨ 1024 < pageCount ∨
      appPhysBase.toNat % 4096 ≠ 0 ∨ appVirtBase.toNat % 4096 ≠ 0 ∨ 1024 ≤ pdeIndex ∨
      1024 < firstIndex + pageCount ∨ pdeIndex < lowmemPageTableCount ∨
      m L.pageDirectory pdeIndex ≠ 0 then none
  else
    let m := copyDirectory L outPd outUserPt 1024 m
    let m := mapUser outUserPt firstIndex appPhysBase pageCount m
    some (m.set outPd pdeIndex (entry outUserPt userFlags))

end PageTables
end MiniDos
