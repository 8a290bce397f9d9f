import MiniDos.Fat.TableSpec

/-!
# MiniDos.Fat.Entries

Reading back what was written, on a device without faults.

* `writeFatEntry_codec`: an entry inside the table copies.
* `Globals.flat`: the table from one copy on, as the driver addresses it: on and on, past the end
  of the copy.
* `wp_writeFatCopy_flat`: one copy written, whether or not the entry lies inside it.
-/

namespace MiniDos
namespace Fat16

open BlockIO

variable {g : Globals} {m : DriverMem}

/-! ## Entries inside the copies -/

theorem writeFatCopy_masked (g : Globals) (c fat : Nat) {v : Nat} (hv : v < 65536) :
    writeFatCopy g c v fat = writeFatCopy g c (v % 16 ^ g.fatType.width) fat := by
  unfold writeFatCopy
  cases g.fatType with
  | fat12 =>
    have hmask : v % 16 ^ FatType.fat12.width &&& 0x0FFF = v &&& 0x0FFF := by
      rw [and_0xFFF, and_0xFFF]
      exact Nat.mod_mod _ _
    simp only [hmask]
  | fat16 =>
    have hsame : v % 16 ^ FatType.fat16.width = v := Nat.mod_eq_of_lt hv
    simp only [hsame]

theorem writeFatCopies_masked (g : Globals) (c : Nat) {v : Nat} (hv : v < 65536) :
    ∀ n fat, writeFatCopies g c v n fat = writeFatCopies g c (v % 16 ^ g.fatType.width) n fat := by
  intro n
  induction n with
  | zero => exact fun _ => rfl
  | succ n ih =>
    intro fat
    unfold writeFatCopies
    rw [writeFatCopy_masked g c fat hv, ih]

/-- The entry codec: written in every copy, read back, and nothing else changed. -/
theorem writeFatEntry_codec {c : Nat} (hcopies : 0 < g.bpb.fatCount) (hc : g.inTable c)
    (v : UInt16) (m : DriverMem) :
    ∃ m', (writeFatEntry g c v.toNat).run noFaults m = some (true, m') ∧
      (∃ m'', (readFatEntry g c).run noFaults m' = some (v.toNat % 16 ^ g.fatType.width, m'')) ∧
      (∀ k < g.bpb.fatCount,
        fatValue g.fatType m'.disk (g.copyStart k) c = v.toNat % 16 ^ g.fatType.width) ∧
      (∀ k < g.bpb.fatCount, ∀ c', c' ≠ c → g.inTable c' →
        fatValue g.fatType m'.disk (g.copyStart k) c' =
          fatValue g.fatType m.disk (g.copyStart k) c') ∧
      ∀ lba, ¬ g.isFatSector lba → m'.disk lba = m.disk lba := by
  have hlt : v.toNat % 16 ^ g.fatType.width < 16 ^ g.fatType.width :=
    Nat.mod_lt _ (Nat.pow_pos (by decide))
  have hmask : writeFatEntry g c v.toNat =
      writeFatEntry g c (v.toNat % 16 ^ g.fatType.width) :=
    writeFatCopies_masked g c v.toNat_lt g.bpb.fatCount 0
  have hwp : (writeFatEntry g c (v.toNat % 16 ^ g.fatType.width)).wp (.total fun _ => True) _ m :=
    wp_writeFatEntry hc hlt (fun _ _ => trivial)
  obtain ⟨ok, m', hrun, hend⟩ := Prog.exists_run hwp
  have hok : ok = true := by
    cases ok with
    | true => rfl
    | false => exact absurd (hend.failed rfl).faulty (Ctx.total_not_faulty _)
  subst hok
  have hdisk := hend.done rfl
  have hself : ∀ k < g.bpb.fatCount,
      fatValue g.fatType m'.disk (g.copyStart k) c = v.toNat % 16 ^ g.fatType.width := by
    intro k hk
    rw [hdisk]
    exact fatValue_fatPut_self hk hc hlt m.disk
  refine ⟨m', hmask ▸ hrun, ?_, hself, fun k hk c' hne hc' => ?_, fun lba hl => ?_⟩
  · have hback : (readFatEntry g c).wp (.total fun _ => True) _ m' := wp_readFatEntry c
    obtain ⟨w, m'', hread, _, _, hw⟩ := Prog.exists_run hback
    have hval : w = v.toNat % 16 ^ g.fatType.width := by
      rcases hw with hw | ⟨hf, _⟩
      · rw [hw, fatGet, ← copyStart_zero]
        exact hself 0 hcopies
      · exact absurd hf.faulty (Ctx.total_not_faulty _)
    exact ⟨m'', hval ▸ hread⟩
  · rw [hdisk]
    exact (fatPut_touches g c _ m.disk).fatValue_eq hk hc' hne
  · rw [hdisk]
    exact fatPut_of_not_fatSector hl c _ m.disk

def tableVolume : Globals := ⟨⟨512, 1, 1, 2, 16, 0, 0xF8, 2, 0, 0, 0, 600⟩, .fat12⟩

/-- Entry 341 straddles the two sectors of a copy. -/
theorem writeFatEntry_codec_straddle :
    ∃ m', (writeFatEntry tableVolume 341 0xABC).run noFaults
        { buf := fun _ => Sector.zero, disk := fun _ => Sector.zero } = some (true, m') ∧
      ∃ m'', (readFatEntry tableVolume 341).run noFaults m' = some (0xABC, m'') := by
  obtain ⟨m', hrun, hread, _⟩ := @writeFatEntry_codec tableVolume 341 (by decide)
    (by unfold Globals.inTable; decide) 0xABC
    { buf := fun _ => Sector.zero, disk := fun _ => Sector.zero }
  exact ⟨m', hrun, hread⟩

/-! ## Any entry -/

/-- The table from copy `k` on as one copy, with room for every cluster number of 16 bits. -/
def Globals.flat (g : Globals) (k : Nat) : Globals :=
  { g with bpb := { g.bpb with
      reservedSectors := g.copyStart k
      fatCount := 1
      sectorsPerFat := g.bpb.sectorsPerFat + 256 } }

theorem inTable_flat (k : Nat) {c : Nat} (hc : c < 65536) : (g.flat k).inTable c := by
  show g.fatType.width * c + g.fatType.width ≤ 1024 * (g.bpb.sectorsPerFat + 256)
  cases g.fatType <;> simp only [FatType.width] <;> omega

theorem copyStart_flat (g : Globals) (k : Nat) : (g.flat k).copyStart 0 = g.copyStart k :=
  copyStart_zero (g.flat k)

theorem writeFatCopy_flat (g : Globals) (c v k : Nat) :
    writeFatCopy (g.flat k) c v 0 = writeFatCopy g c v k := by
  have hstart : (g.flat k).bpb.reservedSectors + 0 * (g.flat k).bpb.sectorsPerFat =
      g.bpb.reservedSectors + k * g.bpb.sectorsPerFat := copyStart_flat g k
  unfold writeFatCopy
  simp only [hstart]
  rfl

theorem wp_writeFatCopy_flat (k : Nat) {c v : Nat} (hc : c < 65536)
    (hv : v < 16 ^ g.fatType.width) (m : DriverMem) :
    (writeFatCopy g c v k).wp (.total fun _ => True) (fun ok m' => ok = true ∧
      m'.disk = fatPut (g.flat k) c v m.disk) m := by
  rw [← writeFatCopy_flat]
  have hwp : (writeFatCopy (g.flat k) c v 0).wp (.total fun _ => True) _ m :=
    wp_writeFatCopy (inTable_flat k hc) Nat.zero_lt_one hv (fatPutN_zero _ _ _ m.disk).symm
      (fun _ _ => trivial)
  refine Prog.wp_mono hwp (fun ok m' h => ?_)
  cases ok with
  | true => exact ⟨rfl, h.done rfl⟩
  | false => exact absurd (h.failed rfl).faulty (Ctx.total_not_faulty _)

theorem nib_copyStart (g : Globals) (d : Disk) (k q : Nat) :
    nib d (g.copyStart k) q = nib d g.bpb.reservedSectors (1024 * (k * g.bpb.sectorsPerFat) + q) := by
  unfold nib fatByte Globals.copyStart
  rw [show (1024 * (k * g.bpb.sectorsPerFat) + q) % 2 = q % 2 by omega,
    show (1024 * (k * g.bpb.sectorsPerFat) + q) / 2 = 512 * (k * g.bpb.sectorsPerFat) + q / 2 by omega,
    show (512 * (k * g.bpb.sectorsPerFat) + q / 2) / 512 = k * g.bpb.sectorsPerFat + q / 2 / 512 by omega,
    show (512 * (k * g.bpb.sectorsPerFat) + q / 2) % 512 = q / 2 % 512 by omega, ← Nat.add_assoc]

theorem nib_fatPut_flat {k q : Nat} (hq : q < 1024 * 256) (c v : Nat) (d : Disk) :
    nib (fatPut (g.flat k) c v d) g.bpb.reservedSectors q =
      if 1024 * (k * g.bpb.sectorsPerFat) ≤ q then
        patchNib g.fatType.width c v (q - 1024 * (k * g.bpb.sectorsPerFat))
          (nib d g.bpb.reservedSectors q)
      else nib d g.bpb.reservedSectors q := by
  by_cases hle : 1024 * (k * g.bpb.sectorsPerFat) ≤ q
  · rw [if_pos hle]
    have hin := nib_fatPutN (g := g.flat k) (n := 1) (k := 0)
      (q := q - 1024 * (k * g.bpb.sectorsPerFat)) Nat.zero_lt_one
      (by show _ < 1024 * (g.bpb.sectorsPerFat + 256); omega) c v d
    rw [copyStart_flat, nib_copyStart, nib_copyStart, Nat.add_sub_cancel' hle] at hin
    exact hin
  · rw [if_neg hle]
    have hout : ¬ (g.flat k).isFatSector (g.bpb.reservedSectors + q / 2 / 512) := by
      unfold Globals.isFatSector
      show ¬ (g.copyStart k ≤ _ ∧ _)
      unfold Globals.copyStart
      omega
    unfold nib fatByte
    rw [fatPut_of_not_fatSector hout]

/-- An entry has its value in its nibbles. -/
theorem nib_of_fatValue_eq {t : FatType} {d d' : Disk} {base c i : Nat}
    (h : fatValue t d base c = fatValue t d' base c) (hi : i < t.width) :
    nib d base (t.width * c + i) = nib d' base (t.width * c + i) := by
  have hlt := nib_lt d base
  have hlt' := nib_lt d' base
  cases t with
  | fat12 =>
    have h0 := hlt (3 * c)
    have h1 := hlt (3 * c + 1)
    have h0' := hlt' (3 * c)
    have h1' := hlt' (3 * c + 1)
    simp only [fatValue, FatType.width] at h hi ⊢
    obtain rfl | rfl | rfl : i = 0 ∨ i = 1 ∨ i = 2 := by omega
    · rw [Nat.add_zero]
      omega
    · omega
    · omega
  | fat16 =>
    have h0 := hlt (4 * c)
    have h1 := hlt (4 * c + 1)
    have h2 := hlt (4 * c + 2)
    have h0' := hlt' (4 * c)
    have h1' := hlt' (4 * c + 1)
    have h2' := hlt' (4 * c + 2)
    simp only [fatValue, FatType.width] at h hi ⊢
    obtain rfl | rfl | rfl | rfl : i = 0 ∨ i = 1 ∨ i = 2 ∨ i = 3 := by omega
    · rw [Nat.add_zero]
      omega
    · omega
    · omega
    · omega

end Fat16
end MiniDos
