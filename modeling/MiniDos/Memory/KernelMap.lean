import MiniDos.Memory.Paging

/-!
# MiniDos.Memory.KernelMap

What `paging_setup_structures` maps.

* `KernelMap`: every entry of the directory is empty, or maps its region to itself for the kernel.
* `mapFb_present`: the entries that the loop over the framebuffer sets. There are two tables for it.
* `identity_iff`: when low memory and the framebuffer are mapped as a whole.
-/

namespace MiniDos
namespace PageTables

open Paging

variable {L : Layout} {m : Mem}
variable {flags : UInt32} {A : Nat → Prop}

/-! ## Entries -/

theorem pageWord_eq (i : Nat) (flags : UInt32) (j : Nat) :
    pageWord (i * 2 ^ 22) flags j = entry (i * 1024 + j) flags := by
  have h : i * 2 ^ 22 + j * 0x1000 = (i * 1024 + j) * 4096 := by ring
  rw [pageWord, entry, h]

def KernelFlags (flags : UInt32) : Prop := flags = lowFlags ∨ flags = fbFlags

theorem KernelFlags.lt (h : KernelFlags flags) : flags.toNat < 2 ^ 12 := by
  rcases h with rfl | rfl <;> decide

theorem KernelFlags.present (h : KernelFlags flags) :
    flags.toNat.testBit presentBit = true := by
  rcases h with rfl | rfl <;> decide

theorem KernelFlags.writable (h : KernelFlags flags) :
    flags.toNat.testBit writableBit = true := by
  rcases h with rfl | rfl <;> decide

theorem KernelFlags.user (h : KernelFlags flags) :
    flags.toNat.testBit userBit = false := by
  rcases h with rfl | rfl <;> decide

theorem KernelFlags.entry_ne_zero (h : KernelFlags flags) (t : Nat) :
    entry t flags ≠ 0 := by
  intro h0
  have hbit : (entry t flags).toNat.testBit presentBit = flags.toNat.testBit presentBit :=
    testBit_entry h.lt (by decide)
  rw [h0, h.present] at hbit
  simp at hbit

/-! ## The invariant -/

/-- Entry `i` maps its region to itself, by a table that `A` has. -/
structure Region (L : Layout) (A : Nat → Prop) (m : Mem) (i table : Nat) (flags : UInt32) : Prop where
  owned : A table
  bound : table < 2 ^ 20
  kernel : KernelFlags flags
  pde : m L.pageDirectory i = entry table flags
  pages : ∀ j < 1024, m table j = entry (i * 1024 + j) flags

def KernelMap (L : Layout) (A : Nat → Prop) (m : Mem) : Prop :=
  ∀ i < 1024, m L.pageDirectory i = 0 ∨ ∃ table flags, Region L A m i table flags

theorem installTable_directory {pdIndex table : Nat} (hne : table ≠ L.pageDirectory)
    (i : Nat) : installTable L pdIndex table flags m L.pageDirectory i =
      if i = pdIndex then entry table flags else m L.pageDirectory i := by
  simp [installTable, Mem.set, Mem.fill_apply, hne.symm]

theorem installTable_other {pdIndex table f : Nat} (hf : f ≠ L.pageDirectory)
    (hne : f ≠ table) (j : Nat) : installTable L pdIndex table flags m f j = m f j := by
  simp [installTable, Mem.set, Mem.fill_apply, hf, hne]

theorem installTable_table {pdIndex table : Nat} (hne : table ≠ L.pageDirectory)
    {j : Nat} (hj : j < 1024) :
    installTable L pdIndex table flags m table j = entry (pdIndex * 1024 + j) flags := by
  rw [← pageWord_eq]
  simp [installTable, Mem.set, Mem.fill_apply, hne, hj]

theorem KernelMap.install (h : KernelMap L A m) (hdir : ¬ A L.pageDirectory)
    (pdIndex : Nat) {table : Nat} (hfree : ¬ A table)
    (hne : table ≠ L.pageDirectory) (hlt : table < 2 ^ 20) (hflags : KernelFlags flags) :
    KernelMap L (fun f => A f ∨ f = table) (installTable L pdIndex table flags m) := by
  intro i hi
  rw [installTable_directory hne]
  by_cases hip : i = pdIndex
  · subst hip
    refine .inr ⟨table, flags, .inr rfl, hlt, hflags, ?_, fun j hj => installTable_table hne hj⟩
    rw [installTable_directory hne, if_pos rfl]
  · rw [if_neg hip]
    rcases h i hi with h0 | ⟨t, fl, hr⟩
    · exact .inl h0
    · have htt : t ≠ table := fun he => hfree (he ▸ hr.owned)
      have htd : t ≠ L.pageDirectory := fun he => hdir (he ▸ hr.owned)
      refine .inr ⟨t, fl, .inl hr.owned, hr.bound, hr.kernel, ?_, fun j hj => ?_⟩
      · rw [installTable_directory hne, if_neg hip, hr.pde]
      · rw [installTable_other htd htt, hr.pages j hj]

theorem KernelMap.mono {A B : Nat → Prop} (h : KernelMap L A m) (hAB : ∀ f, A f → B f) :
    KernelMap L B m := by
  intro i hi
  rcases h i hi with h0 | ⟨t, fl, hr⟩
  · exact .inl h0
  · exact .inr ⟨t, fl, hAB t hr.owned, hr.bound, hr.kernel, hr.pde, hr.pages⟩

theorem KernelMap.congr {m' : Mem} (h : KernelMap L A m)
    (hdir : ∀ i, m' L.pageDirectory i = m L.pageDirectory i)
    (htables : ∀ f, A f → ∀ j, m' f j = m f j) : KernelMap L A m' := by
  intro i hi
  rw [hdir i]
  rcases h i hi with h0 | ⟨t, fl, hr⟩
  · exact .inl h0
  · refine .inr ⟨t, fl, hr.owned, hr.bound, hr.kernel, (hdir i).trans hr.pde, fun j hj => ?_⟩
    rw [htables t hr.owned, hr.pages j hj]

/-! ## The loops -/

def Lowmem (L : Layout) (n f : Nat) : Prop := L.lowmemPageTables ≤ f ∧ f < L.lowmemPageTables + n

/-- The tables that are in use with `n` of the framebuffer's. -/
def InUse (L : Layout) (n f : Nat) : Prop :=
  Lowmem L lowmemPageTableCount f ∨ (L.fbPageTables ≤ f ∧ f < L.fbPageTables + n)

theorem directory_not_lowmem (L : Layout) {n : Nat} (hn : n ≤ lowmemPageTableCount) :
    ¬ Lowmem L n L.pageDirectory := by
  have h := L.directory_lowmem
  unfold Lowmem
  omega

theorem directory_not_inUse (L : Layout) {n : Nat} (hn : n ≤ fbPageTableCount) :
    ¬ InUse L n L.pageDirectory := by
  have h := L.directory_fb
  rintro (hlow | hfb)
  · exact directory_not_lowmem L (Nat.le_refl _) hlow
  · omega

theorem InUse.mono {n n' f : Nat} (h : InUse L n f) (hn : n ≤ n') : InUse L n' f :=
  h.imp_right fun hf => ⟨hf.1, by omega⟩

theorem InUse.next {n f : Nat} (h : InUse L n f ∨ f = L.fbPageTables + n) : InUse L (n + 1) f := by
  rcases h with h | rfl
  · exact h.mono (Nat.le_succ n)
  · exact .inr ⟨by omega, by omega⟩

theorem fb_not_inUse (L : Layout) {n : Nat} (hn : n < fbPageTableCount) :
    ¬ InUse L n (L.fbPageTables + n) := by
  have h := L.lowmem_fb
  unfold InUse Lowmem
  omega

/-- After `n` turns over low memory. -/
theorem setupLowmem_spec (hm : ∀ i < 1024, m L.pageDirectory i = 0) :
    ∀ n ≤ lowmemPageTableCount, KernelMap L (Lowmem L n) (setupLowmem L n m) ∧
      ∀ i < 1024, setupLowmem L n m L.pageDirectory i ≠ 0 ↔ i < n := by
  intro n
  induction n with
  | zero =>
    intro _
    refine ⟨fun i hi => .inl (hm i hi), fun i hi => ?_⟩
    simp [setupLowmem, hm i hi]
  | succ n ih =>
    intro hn
    obtain ⟨hmap, hpresent⟩ := ih (by omega)
    have hdir := L.directory_lowmem
    have hle := L.lowmem_le
    have hne : L.lowmemPageTables + n ≠ L.pageDirectory := by omega
    have hfree : ¬ Lowmem L n (L.lowmemPageTables + n) := fun h => absurd h.2 (by omega)
    constructor
    · refine (hmap.install (directory_not_lowmem L (by omega)) n hfree hne (by omega)
        (.inl rfl)).mono fun f hf => ?_
      unfold Lowmem at hf ⊢
      omega
    · intro i hi
      rw [setupLowmem, installTable_directory hne]
      split
      case isTrue hin =>
        have hentry := KernelFlags.entry_ne_zero (.inl rfl : KernelFlags lowFlags)
          (L.lowmemPageTables + n)
        simp only [hentry, ne_eq, not_false_eq_true, true_iff]
        omega
      case isFalse hin =>
        rw [hpresent i hi]
        omega

theorem clearFbTables_other {f : Nat} : ∀ n, ¬ (L.fbPageTables ≤ f ∧ f < L.fbPageTables + n) →
    ∀ j, clearFbTables L n m f j = m f j := by
  intro n
  induction n with
  | zero => exact fun _ _ => rfl
  | succ n ih =>
    intro hf j
    have hne : f ≠ L.fbPageTables + n := by omega
    rw [clearFbTables, Mem.fill_apply, if_neg (by simp [hne]), ih (by omega)]

/-- The entries that the framebuffer's loop visits, `n` of them from `pdIndex` on, and that it has a
table for. -/
def Visited (n pdIndex table i : Nat) : Prop :=
  max pdIndex 1 ≤ i ∧ i < pdIndex + n ∧ i < max pdIndex 1 + (fbPageTableCount - table)

theorem mapFb_spec : ∀ (n pdIndex table : Nat) (m : Mem), table ≤ fbPageTableCount →
    KernelMap L (InUse L table) m →
    KernelMap L (InUse L fbPageTableCount) (mapFb L n pdIndex table m) ∧
      ∀ i, mapFb L n pdIndex table m L.pageDirectory i ≠ 0 ↔
        (m L.pageDirectory i ≠ 0 ∨ Visited n pdIndex table i) := by
  intro n
  induction n with
  | zero =>
    intro pdIndex table m ht hm
    refine ⟨hm.mono fun f hf => hf.mono ht, fun i => ?_⟩
    have hno : ¬ Visited 0 pdIndex table i := fun h => by
      unfold Visited at h
      omega
    simp [mapFb, hno]
  | succ n ih =>
    intro pdIndex table m ht hm
    by_cases h0 : pdIndex = 0
    · obtain ⟨hmap, hpresent⟩ := ih (pdIndex + 1) table m ht hm
      rw [mapFb, if_pos h0]
      refine ⟨hmap, fun i => (hpresent i).trans (or_congr_right ?_)⟩
      unfold Visited
      omega
    · by_cases hfull : fbPageTableCount ≤ table
      · rw [mapFb, if_neg h0, if_pos hfull]
        have hno : ∀ i, ¬ Visited (n + 1) pdIndex table i := fun i h => by
          unfold Visited at h
          omega
        exact ⟨hm.mono fun f hf => hf.mono ht, fun i => by simp [hno i]⟩
      · have hdir := L.directory_fb
        have hle := L.fb_le
        have hne : L.fbPageTables + table ≠ L.pageDirectory := by omega
        have hmap := hm.install (directory_not_inUse L ht) pdIndex
          (fb_not_inUse L (by omega)) hne (by omega) (.inr rfl)
        obtain ⟨hmap', hpresent⟩ := ih (pdIndex + 1) (table + 1) _ (by omega)
          (hmap.mono fun f hf => InUse.next hf)
        rw [mapFb, if_neg h0, if_neg hfull]
        refine ⟨hmap', fun i => (hpresent i).trans ?_⟩
        rw [installTable_directory hne]
        by_cases hi : i = pdIndex
        · have hentry := KernelFlags.entry_ne_zero (.inr rfl : KernelFlags fbFlags)
            (L.fbPageTables + table)
          have hvisited : Visited (n + 1) pdIndex table i := by
            unfold Visited
            omega
          simp [hi, hentry, hi ▸ hvisited]
        · rw [if_neg hi]
          refine or_congr_right ?_
          unfold Visited
          omega

/-- The directory that `paging_setup_structures` builds. -/
theorem setupStructures_spec (L : Layout) (b : BootVideo) (m : Mem) :
    KernelMap L (InUse L fbPageTableCount) (setupStructures L b m) ∧
      ∀ i < 1024, setupStructures L b m L.pageDirectory i ≠ 0 ↔
        (i < lowmemPageTableCount ∨ (b.fbAddr ≠ 0 ∧ b.fbSize ≠ 0 ∧
          Visited (b.endPd + 1 - b.startPd) b.startPd 0 i)) := by
  have hzero : ∀ i < 1024,
      Mem.fill L.pageDirectory (fun _ => 0) 1024 m L.pageDirectory i = 0 := fun i hi => by
    rw [Mem.fill_apply, if_pos ⟨rfl, hi⟩]
  obtain ⟨hlow, hpresent⟩ := setupLowmem_spec hzero lowmemPageTableCount (Nat.le_refl _)
  have hdirfb := L.directory_fb
  have hlowfb := L.lowmem_fb
  have hdir : ∀ (m' : Mem) (i : Nat), clearFbTables L fbPageTableCount m' L.pageDirectory i =
      m' L.pageDirectory i := fun _ => clearFbTables_other fbPageTableCount (by omega)
  have hclear : KernelMap L (InUse L 0) (clearFbTables L fbPageTableCount
      (setupLowmem L lowmemPageTableCount (Mem.fill L.pageDirectory (fun _ => 0) 1024 m))) :=
    (hlow.congr (hdir _) fun f hf => clearFbTables_other fbPageTableCount
      (by unfold Lowmem at hf; omega)).mono fun f hf => .inl hf
  unfold setupStructures
  dsimp only
  split
  case isTrue hfb =>
    obtain ⟨hmap, hfbpresent⟩ := mapFb_spec (b.endPd + 1 - b.startPd) b.startPd 0 _
      (Nat.zero_le _) hclear
    refine ⟨hmap, fun i hi => (hfbpresent i).trans ?_⟩
    rw [hdir, hpresent i hi]
    simp [hfb]
  case isFalse hfb =>
    refine ⟨hclear.mono fun f hf => hf.mono (Nat.zero_le _), fun i hi => ?_⟩
    rw [hdir, hpresent i hi]
    exact ⟨.inl, fun h => h.elim id fun h => absurd ⟨h.1, h.2.1⟩ hfb⟩

/-! ## What is mapped -/

/-- The address is present in the directory and translated to itself. -/
def MapsToSelf (m : Mem) (pd a : Nat) : Prop :=
  a < 2 ^ 32 ∧ ∃ x, walk m pd (UInt32.ofNat a) = some x ∧ x.phys.toNat = a

theorem KernelMap.walk_eq (h : KernelMap L A m) (va : UInt32) :
    walk m L.pageDirectory va =
      if m L.pageDirectory (va.toNat / 2 ^ 22) = 0 then none else some ⟨va, true, false⟩ := by
  have hi : va.toNat / 2 ^ 22 < 1024 := by
    have hlt := va.toNat_lt
    omega
  split
  case isTrue h0 => exact walk_none h0
  case isFalse h0 =>
    obtain ⟨t, fl, hr⟩ := (h _ hi).resolve_left h0
    have hbacks : Backs m L.pageDirectory (va.toNat / 2 ^ 22) (va.toNat / 2 ^ 22 * 1024) fl :=
      ⟨t, hr.bound, hr.pde, hr.pages⟩
    rw [hbacks.walk_self hr.kernel.lt hr.kernel.present, hr.kernel.writable, hr.kernel.user]

theorem KernelMap.mapsToSelf_iff (h : KernelMap L A m) (a : Nat) :
    MapsToSelf m L.pageDirectory a ↔ a < 2 ^ 32 ∧ m L.pageDirectory (a / 2 ^ 22) ≠ 0 := by
  unfold MapsToSelf
  refine and_congr_right fun ha => ?_
  have hof : (UInt32.ofNat a).toNat = a := UInt32.toNat_ofNat_of_lt' ha
  rw [h.walk_eq, hof]
  split
  case isTrue h0 => exact ⟨fun ⟨_, hx, _⟩ => (nomatch hx), fun h => absurd h0 h⟩
  case isFalse h0 => exact ⟨fun _ => h0, fun _ => ⟨_, rfl, hof⟩⟩

/-- Low memory, and the bytes of the framebuffer. -/
def BootVideo.Covers (b : BootVideo) (a : Nat) : Prop :=
  a < lowmemPageTableCount * 2 ^ 22 ∨
    (b.fbAddr.toNat ≤ a ∧ a < b.fbAddr.toNat + b.height.toNat * b.pitch.toNat)

theorem BootVideo.Accepted.fbSize {b : BootVideo} (h : b.Accepted) :
    b.fbSize = b.height.toNat * b.pitch.toNat ∧ 0 < b.height.toNat * b.pitch.toNat := by
  obtain ⟨hflag, _, hw, hh, hp, _⟩ := h
  have hh' : 200 ≤ b.height.toNat := hh
  have hw' : 320 ≤ b.width.toNat := hw
  have hp' : b.width.toNat ≤ b.pitch.toNat := hp
  have hne : b.height ≠ 0 ∧ b.pitch ≠ 0 := by
    constructor
    · rintro h0
      rw [h0] at hh'
      exact absurd hh' (by decide)
    · rintro h0
      rw [h0] at hp'
      exact absurd (Nat.le_trans hw' hp') (by decide)
  exact ⟨if_pos ⟨hflag, hne⟩, Nat.mul_pos (by omega) (by omega)⟩

theorem lowmem_mapsToSelf (L : Layout) (b : BootVideo) (m : Mem) {a : Nat}
    (ha : a < lowmemPageTableCount * 2 ^ 22) :
    MapsToSelf (setupStructures L b m) L.pageDirectory a := by
  obtain ⟨hmap, hpresent⟩ := setupStructures_spec L b m
  simp only [lowmemPageTableCount] at ha
  refine (hmap.mapsToSelf_iff a).mpr ⟨by omega, (hpresent _ (by omega)).mpr (.inl ?_)⟩
  simp only [lowmemPageTableCount]
  omega

/-- Low memory and the framebuffer are mapped as a whole exactly if the framebuffer ends within the
address space, and its last region is one of low memory's or one of the two that there are tables
for. -/
theorem identity_iff (L : Layout) (m : Mem) {b : BootVideo} (hb : b.Accepted) :
    (∀ a, b.Covers a → MapsToSelf (setupStructures L b m) L.pageDirectory a) ↔
      b.fbAddr.toNat + b.height.toNat * b.pitch.toNat ≤ 2 ^ 32 ∧
        ((b.fbAddr.toNat + b.height.toNat * b.pitch.toNat - 1) / 2 ^ 22 < lowmemPageTableCount ∨
          (b.fbAddr.toNat + b.height.toNat * b.pitch.toNat - 1) / 2 ^ 22 <
            max b.startPd 1 + fbPageTableCount) := by
  obtain ⟨hmap, hpresent⟩ := setupStructures_spec L b m
  obtain ⟨hsize, hpos⟩ := hb.fbSize
  have hend : b.endPd = (b.fbAddr.toNat + b.height.toNat * b.pitch.toNat - 1) % 2 ^ 32 / 2 ^ 22 := by
    rw [BootVideo.endPd, BootVideo.fbEnd, hsize]
  have hstart : b.startPd = b.fbAddr.toNat / 2 ^ 22 := rfl
  generalize hbytes : b.height.toNat * b.pitch.toNat = bytes at *
  constructor
  · intro h
    obtain ⟨hlt, hne⟩ := (hmap.mapsToSelf_iff _).mp
      (h (b.fbAddr.toNat + bytes - 1) (.inr ⟨by omega, by omega⟩))
    refine ⟨by omega, ?_⟩
    rcases (hpresent _ (by omega)).mp hne with hlow | ⟨_, _, hvisited⟩
    · exact .inl hlow
    · exact .inr hvisited.2.2
  · rintro ⟨hle, hlast⟩ a (hlow | ⟨hfrom, hto⟩)
    · exact lowmem_mapsToSelf L b m hlow
    · refine (hmap.mapsToSelf_iff a).mpr ⟨by omega, (hpresent _ (by omega)).mpr ?_⟩
      by_cases hlow : a / 2 ^ 22 < lowmemPageTableCount
      · exact .inl hlow
      · refine .inr ⟨hb.2.1, by omega, ?_⟩
        simp only [lowmemPageTableCount] at hlow hlast
        simp only [Visited, fbPageTableCount] at hlast ⊢
        omega

/-- The tables one behind the other. -/
def packed : Layout where
  pageDirectory := 0x100
  lowmemPageTables := 0x101
  fbPageTables := 0x105
  directory_lt := by decide
  lowmem_le := by decide
  fb_le := by decide
  directory_lowmem := by decide
  directory_fb := by decide
  lowmem_fb := by decide

/-- The last byte of a framebuffer that takes one region. -/
theorem identity_1024x768 :
    MapsToSelf (setupStructures packed ⟨1, 0xFD000000, 1024, 768, 4096, 32⟩ fun _ _ => 0)
      packed.pageDirectory 0xFD2FFFFF :=
  (identity_iff packed (fun _ _ => 0) (by decide)).mpr ⟨by decide, .inr (by decide)⟩ 0xFD2FFFFF
    (.inr (by decide))

/-- A framebuffer that takes three regions. -/
theorem not_identity_1920x1200 :
    BootVideo.Accepted ⟨1, 0xE0000000, 1920, 1200, 7680, 32⟩ ∧
    BootVideo.Covers ⟨1, 0xE0000000, 1920, 1200, 7680, 32⟩ 0xE0800000 ∧
    ¬ MapsToSelf (setupStructures packed ⟨1, 0xE0000000, 1920, 1200, 7680, 32⟩ fun _ _ => 0)
      packed.pageDirectory 0xE0800000 := by
  refine ⟨by decide, .inr (by decide), fun h => ?_⟩
  obtain ⟨hmap, hpresent⟩ :=
    setupStructures_spec packed ⟨1, 0xE0000000, 1920, 1200, 7680, 32⟩ fun _ _ => 0
  rcases (hpresent _ (by decide)).mp ((hmap.mapsToSelf_iff _).mp h).2 with hlow | ⟨_, _, hvisited⟩
  · exact absurd hlow (by decide)
  · exact absurd hvisited.2.2 (by decide)

end PageTables
end MiniDos
