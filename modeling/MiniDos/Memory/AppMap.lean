import MiniDos.Memory.KernelMap

/-!
# MiniDos.Memory.AppMap

What a program sees through the directory of `paging_build_app_directory`.

* `Supervised`: no entry of the kernel's directory is for programs. It holds after
  `paging_setup_structures`, and `paging_unmap_page` keeps it.
* `buildAppDirectory_spec`: the words of the two new tables.
* `appDirectory_maps`: the program's pages are its slot, and everything else is as in the kernel.
-/

namespace MiniDos
namespace PageTables

open Paging

variable {L : Layout} {m : Mem}

/-! ## The kernel's directory -/

/-- Every entry is empty or leads to one of the kernel's tables, and programs may not use it. -/
def Supervised (L : Layout) (m : Mem) : Prop :=
  ∀ i < 1024, m L.pageDirectory i = 0 ∨ ∃ table flags, InUse L fbPageTableCount table ∧
    KernelFlags flags ∧ m L.pageDirectory i = entry table flags

theorem KernelMap.supervised (h : KernelMap L (InUse L fbPageTableCount) m) : Supervised L m := by
  intro i hi
  rcases h i hi with h0 | ⟨t, fl, hr⟩
  · exact .inl h0
  · exact .inr ⟨t, fl, hr.owned, hr.kernel, hr.pde⟩

theorem InUse.lt {f : Nat} (h : InUse L fbPageTableCount f) : f < 2 ^ 20 := by
  have hlow := L.lowmem_le
  have hfb := L.fb_le
  rcases h with h | h
  · unfold Lowmem at h
    omega
  · omega

theorem Supervised.table {i : Nat} (h : Supervised L m) (hi : i < 1024)
    (h0 : m L.pageDirectory i ≠ 0) :
    InUse L fbPageTableCount ((m L.pageDirectory i).toNat / 4096) ∧
      (m L.pageDirectory i).toNat.testBit userBit = false := by
  obtain ⟨t, fl, ht, hfl, hpde⟩ := (h i hi).resolve_left h0
  rw [hpde, entry_div hfl.lt, Nat.mod_eq_of_lt ht.lt, testBit_entry hfl.lt (by decide)]
  exact ⟨ht, hfl.user⟩

theorem Supervised.unmapPage (h : Supervised L m) {addr : UInt32} {m' : Mem}
    (hrun : unmapPage L m addr = some m') : Supervised L m' := by
  simp only [PageTables.unmapPage] at hrun
  split at hrun
  case isTrue => cases hrun
  case isFalse hpresent =>
    obtain rfl := Option.some.inj hrun
    have hi : addr.toNat / 2 ^ 22 < 1024 := by
      have hlt := addr.toNat_lt
      omega
    have h0 : m L.pageDirectory (addr.toNat / 2 ^ 22) ≠ 0 := fun h0 => hpresent (by rw [h0]; rfl)
    have hne : L.pageDirectory ≠ (m L.pageDirectory (addr.toNat / 2 ^ 22)).toNat / 4096 :=
      fun he => directory_not_inUse L (Nat.le_refl _) (he ▸ (h.table hi h0).1)
    intro i hi
    have hsame : ∀ v j, m.set ((m L.pageDirectory (addr.toNat / 2 ^ 22)).toNat / 4096) j v
        L.pageDirectory i = m L.pageDirectory i := fun v j => if_neg fun he => hne he.1
    rw [hsame]
    exact h i hi

/-- The kernel's tables after `paging_init` and some calls of `paging_unmap_page`. -/
def kernelTables (L : Layout) (b : BootVideo) (m : Mem) (unmapped : List UInt32) : Mem :=
  unmapped.foldl (fun m addr => (unmapPage L m addr).getD m) (setupStructures L b m)

theorem kernelTables_supervised (L : Layout) (b : BootVideo) (m : Mem) (unmapped : List UInt32) :
    Supervised L (kernelTables L b m unmapped) := by
  have hrun : ∀ (addrs : List UInt32) (m' : Mem), Supervised L m' →
      Supervised L (addrs.foldl (fun m addr => (unmapPage L m addr).getD m) m') := by
    intro addrs
    induction addrs with
    | nil => exact fun _ h => h
    | cons addr addrs ih =>
      intro m' h
      refine ih _ ?_
      dsimp only
      cases hstep : unmapPage L m' addr with
      | none => exact h
      | some m'' => exact h.unmapPage hstep
  exact hrun _ _ (setupStructures_spec L b m).1.supervised

/-! ## The program's tables -/

/-- The frames for a program's tables: two, and none of the kernel's. -/
structure OwnFrames (L : Layout) (outPd outUserPt : Nat) : Prop where
  table_lt : outUserPt < 2 ^ 20
  apart : outPd ≠ outUserPt
  directory : outPd ≠ L.pageDirectory
  table : outUserPt ≠ L.pageDirectory
  directory_free : ¬ InUse L fbPageTableCount outPd
  table_free : ¬ InUse L fbPageTableCount outUserPt

theorem copyDirectory_apply {outPd outUserPt : Nat} (ho : OwnFrames L outPd outUserPt) (n f j : Nat) :
    copyDirectory L outPd outUserPt n m f j =
      if f = outPd ∧ j < n then m L.pageDirectory j
      else if f = outUserPt ∧ j < n then 0
      else m f j := by
  induction n generalizing f j with
  | zero => simp [copyDirectory]
  | succ n ih =>
    have hdir : copyDirectory L outPd outUserPt n m L.pageDirectory n = m L.pageDirectory n := by
      rw [ih, if_neg fun h => ho.directory h.1.symm, if_neg fun h => ho.table h.1.symm]
    simp only [copyDirectory, Mem.set, hdir, ih]
    by_cases hj : j = n
    · by_cases hpd : f = outPd
      · simp [hpd, hj, ho.apart]
      · simp [hpd, hj]
    · have hlt : j < n + 1 ↔ j < n := by omega
      simp [hj, hlt]

theorem mapUser_apply {outUserPt firstIndex : Nat} {phys : UInt32} (n f j : Nat) :
    mapUser outUserPt firstIndex phys n m f j =
      if f = outUserPt ∧ firstIndex ≤ j ∧ j < firstIndex + n then
        pageWord phys.toNat userFlags (j - firstIndex)
      else m f j := by
  induction n with
  | zero =>
    rw [mapUser, if_neg (by omega)]
  | succ n ih =>
    simp only [mapUser, Mem.set, ih]
    by_cases hf : f = outUserPt
    · by_cases hj : j = firstIndex + n
      · simp [hf, hj]
      · have hiff : (firstIndex ≤ j ∧ j < firstIndex + (n + 1)) ↔
            (firstIndex ≤ j ∧ j < firstIndex + n) := by omega
        simp [hf, hj, hiff]
    · simp [hf]

def roundUp (bytes : UInt32) : Nat := (bytes.toNat + 0xFFF) / 4096 * 4096

/-- What the checks of `paging_build_app_directory` leave. -/
structure Checked (L : Layout) (m : Mem) (appPhysBase appVirtBase appBytes : UInt32) : Prop where
  count : (appBytes.toNat + 0xFFF) % 2 ^ 32 / 4096 = (appBytes.toNat + 0xFFF) / 4096
  phys : appPhysBase.toNat % 4096 = 0
  virt : appVirtBase.toNat % 4096 = 0
  fits : appVirtBase.toNat / 4096 % 1024 + (appBytes.toNat + 0xFFF) / 4096 ≤ 1024
  free : m L.pageDirectory (appVirtBase.toNat / 2 ^ 22) = 0

section Build

variable {outPd outUserPt : Nat} {phys virt bytes : UInt32} {m' : Mem}

/-- The words of the two tables. -/
structure Built (L : Layout) (m m' : Mem) (outPd outUserPt : Nat) (phys virt bytes : UInt32) :
    Prop where
  directory : ∀ i < 1024, m' outPd i =
    if i = virt.toNat / 2 ^ 22 then entry outUserPt userFlags else m L.pageDirectory i
  table : ∀ j < 1024, m' outUserPt j =
    if virt.toNat / 4096 % 1024 ≤ j ∧
      j < virt.toNat / 4096 % 1024 + (bytes.toNat + 0xFFF) / 4096 then
      pageWord phys.toNat userFlags (j - virt.toNat / 4096 % 1024)
    else 0
  other : ∀ f, f ≠ outPd → f ≠ outUserPt → ∀ j, m' f j = m f j

theorem buildAppDirectory_spec (ho : OwnFrames L outPd outUserPt)
    (hrun : buildAppDirectory L m outPd outUserPt phys virt bytes = some m') :
    Checked L m phys virt bytes ∧ Built L m m' outPd outUserPt phys virt bytes := by
  simp only [buildAppDirectory] at hrun
  split at hrun
  case isTrue => cases hrun
  case isFalse hchecks =>
    simp only [not_or, appSlotBytes, lowmemPageTableCount] at hchecks
    obtain ⟨_, _, _, hslot, _, hphys, hvirt, _, hfits, _, hfree⟩ := hchecks
    have hcount : (bytes.toNat + 0xFFF) % 2 ^ 32 / 4096 = (bytes.toNat + 0xFFF) / 4096 := by omega
    rw [hcount] at hfits hrun
    obtain rfl := Option.some.inj hrun
    refine ⟨⟨hcount, by omega, by omega, by omega, by simpa using hfree⟩, fun i hi => ?_,
      fun j hj => ?_, fun f hpd hpt j => ?_⟩
    · simp only [Mem.set, mapUser_apply, copyDirectory_apply ho, ho.apart, hi, true_and, and_true,
        false_and, if_true, if_false]
    · simp only [Mem.set, mapUser_apply, copyDirectory_apply ho, ho.apart.symm, hj, true_and,
        false_and, if_true, if_false]
    · simp only [Mem.set, mapUser_apply, copyDirectory_apply ho, hpd, hpt, false_and, if_false]

theorem buildAppDirectory_some (hpd : outPd ≠ 0) (hpt : outUserPt ≠ 0) (hbytes : bytes ≠ 0)
    (hslot : bytes.toNat ≤ appSlotBytes) (hphys : phys.toNat % 4096 = 0)
    (hvirt : virt.toNat % 4096 = 0) (hlow : lowmemPageTableCount ≤ virt.toNat / 2 ^ 22)
    (hfits : virt.toNat / 4096 % 1024 + (bytes.toNat + 0xFFF) % 2 ^ 32 / 4096 ≤ 1024)
    (hfree : m L.pageDirectory (virt.toNat / 2 ^ 22) = 0) :
    ∃ m', buildAppDirectory L m outPd outUserPt phys virt bytes = some m' := by
  have hlt := virt.toNat_lt
  unfold buildAppDirectory
  dsimp only
  rw [if_neg]
  · exact ⟨_, rfl⟩
  · simp only [not_or]
    exact ⟨hpd, hpt, hbytes, by omega, by omega, by omega, by omega, by omega, by omega, by omega,
      not_not.mpr hfree⟩

/-! ## What the program sees -/

/-- The address is one of the program's. -/
def InSlot (virt bytes va : UInt32) : Prop :=
  virt.toNat ≤ va.toNat ∧ va.toNat < virt.toNat + roundUp bytes

theorem inSlot_iff (hc : Checked L m phys virt bytes) (va : UInt32) : InSlot virt bytes va ↔
    va.toNat / 2 ^ 22 = virt.toNat / 2 ^ 22 ∧
      (virt.toNat / 4096 % 1024 ≤ va.toNat / 4096 % 1024 ∧
        va.toNat / 4096 % 1024 < virt.toNat / 4096 % 1024 + (bytes.toNat + 0xFFF) / 4096) := by
  have hvirt := hc.virt
  have hfits := hc.fits
  unfold InSlot roundUp
  generalize (bytes.toNat + 0xFFF) / 4096 = pages at *
  omega

theorem pageWord_phys (hphys : phys.toNat % 4096 = 0) (flags : UInt32) (j : Nat) :
    pageWord phys.toNat flags j = entry (phys.toNat / 4096 + j) flags := by
  have h : phys.toNat + j * 0x1000 = (phys.toNat / 4096 + j) * 4096 := by omega
  rw [pageWord, entry, h]

theorem Built.walk_slot (hb : Built L m m' outPd outUserPt phys virt bytes)
    (ho : OwnFrames L outPd outUserPt) (hc : Checked L m phys virt bytes) {va : UInt32}
    (hva : InSlot virt bytes va) :
    walk m' outPd va = some ⟨phys + (va - virt), true, true⟩ := by
  obtain ⟨hregion, hpage⟩ := (inSlot_iff hc va).mp hva
  have hphys := hc.phys
  have hvirt := hc.virt
  have hpde := hb.directory (va.toNat / 2 ^ 22) (by have := va.toNat_lt; omega)
  have hpte := hb.table (va.toNat / 4096 % 1024) (Nat.mod_lt _ (by decide))
  rw [if_pos hregion] at hpde
  rw [if_pos hpage, pageWord_phys hphys] at hpte
  rw [walk_entry (by decide) (by decide) ho.table_lt hpde hpte]
  have haddr : UInt32.ofNat ((phys.toNat / 4096 + (va.toNat / 4096 % 1024 -
      virt.toNat / 4096 % 1024)) * 4096 + va.toNat % 4096) = phys + (va - virt) := by
    have hle : virt ≤ va := UInt32.le_iff_toNat_le.mpr hva.1
    rw [← UInt32.toNat_inj, UInt32.toNat_ofNat', UInt32.toNat_add, UInt32.toNat_sub_of_le _ _ hle]
    congr 1
    omega
  rw [haddr]
  rfl

theorem Built.walk_other (hb : Built L m m' outPd outUserPt phys virt bytes)
    (ho : OwnFrames L outPd outUserPt) (hc : Checked L m phys virt bytes) (hs : Supervised L m)
    {va : UInt32} (hva : ¬ InSlot virt bytes va) :
    walk m' outPd va = walk m L.pageDirectory va := by
  have hi : va.toNat / 2 ^ 22 < 1024 := by
    have hlt := va.toNat_lt
    omega
  have hpde := hb.directory _ hi
  by_cases hregion : va.toNat / 2 ^ 22 = virt.toNat / 2 ^ 22
  · have hpte := hb.table (va.toNat / 4096 % 1024) (Nat.mod_lt _ (by decide))
    rw [if_pos hregion] at hpde
    rw [if_neg fun hpage => hva ((inSlot_iff hc va).mpr ⟨hregion, hpage⟩)] at hpte
    rw [walk_none_of_table (by decide) ho.table_lt hpde hpte, walk_none (hregion ▸ hc.free)]
  · rw [if_neg hregion] at hpde
    by_cases h0 : m L.pageDirectory (va.toNat / 2 ^ 22) = 0
    · rw [walk_none (hpde.trans h0), walk_none h0]
    · have htable := (hs.table hi h0).1
      exact walk_congr hpde (hb.other _ (fun he => ho.directory_free (he ▸ htable))
        (fun he => ho.table_free (he ▸ htable)))

theorem Supervised.walk_user (hs : Supervised L m) {va : UInt32} {x : Mapping}
    (hx : walk m L.pageDirectory va = some x) : x.user = false := by
  have hi : va.toNat / 2 ^ 22 < 1024 := by
    have hlt := va.toNat_lt
    omega
  by_cases h0 : m L.pageDirectory (va.toNat / 2 ^ 22) = 0
  · rw [walk_none h0] at hx
    cases hx
  · exact Paging.walk_user (hs.table hi h0).2 hx

end Build

/-- A program may use an address. -/
def UserAccess (m : Mem) (pd : Nat) (va : UInt32) : Prop :=
  ∃ x, walk m pd va = some x ∧ x.user = true

/-- With the directory of `paging_build_app_directory` a program may use its slot and nothing else;
the slot is translated to its physical memory, and what is outside as in the kernel's directory,
where no program may use it. -/
theorem appDirectory_maps (L : Layout) (b : BootVideo) (m : Mem) (unmapped : List UInt32)
    {outPd outUserPt : Nat} (ho : OwnFrames L outPd outUserPt) {phys virt bytes : UInt32} {m' : Mem}
    (hrun : buildAppDirectory L (kernelTables L b m unmapped) outPd outUserPt phys virt bytes =
      some m') :
    (∀ va, UserAccess m' outPd va ↔ InSlot virt bytes va) ∧
    (∀ va, InSlot virt bytes va → walk m' outPd va = some ⟨phys + (va - virt), true, true⟩) ∧
    ∀ va, ¬ InSlot virt bytes va →
      walk m' outPd va = walk (kernelTables L b m unmapped) L.pageDirectory va ∧
        ¬ UserAccess (kernelTables L b m unmapped) L.pageDirectory va := by
  have hs := kernelTables_supervised L b m unmapped
  obtain ⟨hc, hb⟩ := buildAppDirectory_spec ho hrun
  have hkernel : ∀ va, ¬ UserAccess (kernelTables L b m unmapped) L.pageDirectory va := by
    rintro va ⟨x, hx, huser⟩
    rw [hs.walk_user hx] at huser
    cases huser
  refine ⟨fun va => ⟨fun h => ?_, fun h => ⟨_, hb.walk_slot ho hc h, rfl⟩⟩,
    fun va => hb.walk_slot ho hc, fun va hva => ⟨hb.walk_other ho hc hs hva, hkernel va⟩⟩
  by_contra hva
  obtain ⟨x, hx, huser⟩ := h
  rw [hb.walk_other ho hc hs hva] at hx
  exact hkernel va ⟨x, hx, huser⟩

theorem appDirectory_maps_slot : ∃ m', buildAppDirectory packed
      (kernelTables packed ⟨1, 0xFD000000, 1024, 768, 4096, 32⟩ (fun _ _ => 0) [])
      0x200 0x201 0x00700000 0x01000000 0x5000 = some m' ∧
    UserAccess m' 0x200 0x01004FFF ∧ ¬ UserAccess m' 0x200 0x01005000 := by
  have hfree : setupStructures packed ⟨1, 0xFD000000, 1024, 768, 4096, 32⟩ (fun _ _ => 0)
      packed.pageDirectory 4 = 0 := by
    have hpresent :=
      (setupStructures_spec packed ⟨1, 0xFD000000, 1024, 768, 4096, 32⟩ fun _ _ => 0).2 4
    by_contra h0
    rcases (hpresent (by decide)).mp h0 with hlow | ⟨_, _, hvisited⟩
    · exact absurd hlow (by decide)
    · exact absurd hvisited.1 (by decide)
  have hrun := buildAppDirectory_some (by decide : 0x200 ≠ 0) (by decide : 0x201 ≠ 0)
    (by decide : (0x5000 : UInt32) ≠ 0) (by decide) (by decide : (0x00700000 : UInt32).toNat % 4096 = 0)
    (by decide : (0x01000000 : UInt32).toNat % 4096 = 0) (by decide) (by decide) hfree
  obtain ⟨m', hm'⟩ := hrun
  have ho : OwnFrames packed 0x200 0x201 :=
    ⟨by decide, by decide, by decide, by decide, by unfold InUse Lowmem; decide,
      by unfold InUse Lowmem; decide⟩
  obtain ⟨huser, _⟩ := appDirectory_maps packed ⟨1, 0xFD000000, 1024, 768, 4096, 32⟩ (fun _ _ => 0) []
    ho hm'
  exact ⟨m', hm', (huser _).mpr ⟨by decide, by decide⟩, fun h => absurd ((huser _).mp h).2 (by decide)⟩

end PageTables
end MiniDos
