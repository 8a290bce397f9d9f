import MiniDos.Fat.Codec

/-!
# MiniDos.Fat.TableSpec

What the table functions of the driver do, one specification for each. They hold in every
context: with faulty sectors too, where a failed access shows as the result `false` (or as the
end-of-chain value of a read) and leaves the disk between two table states.
-/

namespace MiniDos
namespace Fat16

open BlockIO

variable {ctx : Ctx Buffer Sector} {g : Globals} {m : DriverMem}
variable {d : Disk} {s : Sector} {c v k : Nat}

/-! ## Single entries -/

theorem fatValue_fat12 (d : Disk) (base c : Nat) :
    fatValue .fat12 d base c =
      fat12Value c (fatByte d base (c + c / 2) + 256 * fatByte d base (c + c / 2 + 1)) := by
  have h0 := fatByte_lt d base (c + c / 2)
  have h1 := fatByte_lt d base (c + c / 2 + 1)
  rw [fat12Value_eq]
  simp only [fatValue, nib]
  by_cases hodd : c % 2 = 1
  · rw [if_pos hodd, if_neg (by omega), if_pos (by omega), if_neg (by omega),
      show 3 * c / 2 = c + c / 2 by omega, show (3 * c + 1) / 2 = c + c / 2 + 1 by omega,
      show (3 * c + 2) / 2 = c + c / 2 + 1 by omega]
    omega
  · rw [if_neg hodd, if_pos (by omega), if_neg (by omega), if_pos (by omega),
      show 3 * c / 2 = c + c / 2 by omega, show (3 * c + 1) / 2 = c + c / 2 by omega,
      show (3 * c + 2) / 2 = c + c / 2 + 1 by omega]
    omega

theorem fatValue_fat16 (d : Disk) (base c : Nat) :
    fatValue .fat16 d base c = fatByte d base (c * 2) + 256 * fatByte d base (c * 2 + 1) := by
  have h0 := fatByte_lt d base (c * 2)
  have h1 := fatByte_lt d base (c * 2 + 1)
  simp only [fatValue, nib]
  rw [if_pos (by omega), if_neg (by omega), if_pos (by omega), if_neg (by omega),
    show 4 * c / 2 = c * 2 by omega, show (4 * c + 1) / 2 = c * 2 by omega,
    show (4 * c + 2) / 2 = c * 2 + 1 by omega, show (4 * c + 3) / 2 = c * 2 + 1 by omega]
  omega

theorem fatByte_succ_same {base j : Nat} (h : j % 512 ≠ 511) :
    fatByte d base (j + 1) = ((d (base + j / 512)).get (j % 512 + 1)).toNat := by
  unfold fatByte
  rw [show (j + 1) / 512 = j / 512 by omega, show (j + 1) % 512 = j % 512 + 1 by omega]

theorem fatByte_succ_next {base j : Nat} (h : j % 512 = 511) :
    fatByte d base (j + 1) = ((d (base + j / 512 + 1)).get 0).toNat := by
  unfold fatByte
  rw [show (j + 1) / 512 = j / 512 + 1 by omega, show (j + 1) % 512 = 0 by omega, ← Nat.add_assoc]

theorem wp_readFatEntry (c : Nat) :
    (readFatEntry g c).wp ctx (fun v m' => m'.disk = m.disk ∧ m'.stores = m.stores ∧
      (v = fatGet g m.disk c ∨ (ctx.Failed m ∧ v = g.endOfChainValue))) m := by
  unfold readFatEntry fatGet
  cases g.fatType with
  | fat12 =>
    simp only [Prog.wp_bind, wp_readSector, sectorSize]
    refine ⟨fun hf => ⟨rfl, rfl, .inr ⟨⟨m, hf, rfl⟩, rfl⟩⟩, ?_⟩
    by_cases hs : (c + c / 2) % 512 = 512 - 1
    · simp only [hs, if_true, Prog.wp_bind, wp_readSector]
      refine ⟨fun hf => ⟨rfl, rfl, .inr ⟨⟨_, hf, rfl⟩, rfl⟩⟩, rfl, rfl, .inl ?_⟩
      have haux : (Buffer.main : Buffer) ≠ .aux := by decide
      rw [fatValue_fat12, bytePair_eq, Mem.fetch_buf, Mem.fetch_buf_ne _ _ haux, Mem.fetch_buf,
        Mem.fetch_disk, fatByte_succ_next hs]
      simp only [fatByte, hs]
    · simp only [hs, if_false, if_true]
      refine ⟨rfl, rfl, .inl ?_⟩
      rw [fatValue_fat12, bytePair_eq, Mem.fetch_buf, fatByte_succ_same hs]
      rfl
  | fat16 =>
    simp only [Prog.wp_bind, wp_readSector, sectorSize]
    refine ⟨fun hf => ⟨rfl, rfl, .inr ⟨⟨m, hf, rfl⟩, rfl⟩⟩, rfl, rfl, .inl ?_⟩
    rw [fatValue_fat16, fatByte_succ_same (by omega), Mem.fetch_buf]
    rfl

/-! ## Writing one copy -/

/-- First of the two bytes that hold entry `c`. -/
def FatType.entryByte : FatType → Nat → Nat
  | .fat12, c => c + c / 2
  | .fat16, c => c * 2

/-- The table entry of the cluster does not straddle two sectors. -/
def Globals.whole (g : Globals) (c : Nat) : Prop := g.fatType.entryByte c % 512 ≠ 511

theorem patchByte_other (t : FatType) {c v j b : Nat} (h0 : j ≠ t.entryByte c)
    (h1 : j ≠ t.entryByte c + 1) : patchByte t.width c v j b = b := by
  cases t <;> simp only [FatType.entryByte, FatType.width] at h0 h1 ⊢ <;>
    unfold patchByte patchNib <;>
    rw [if_neg (by omega), if_neg (by omega)] <;> omega

theorem patchByte_fat16 {c v b : Nat} (hv : v < 65536) :
    patchByte 4 c v (c * 2) b = v % 256 ∧ patchByte 4 c v (c * 2 + 1) b = v / 256 := by
  unfold patchByte patchNib
  rw [if_pos (by omega), if_pos (by omega), if_pos (by omega), if_pos (by omega),
    show 2 * (c * 2) % 4 = 0 by omega, show (2 * (c * 2) + 1) % 4 = 1 by omega,
    show 2 * (c * 2 + 1) % 4 = 2 by omega, show (2 * (c * 2 + 1) + 1) % 4 = 3 by omega]
  simp only [digit]
  omega

theorem patchByte_fat12 {c v a b : Nat} (ha : a < 256) (hb : b < 256) (hv : v < 4096) :
    patchByte 3 c v (c + c / 2) a = fat12Merge c (a + 256 * b) v % 256 ∧
      patchByte 3 c v (c + c / 2 + 1) b = fat12Merge c (a + 256 * b) v / 256 := by
  rw [fat12Merge_eq (by omega) hv]
  unfold patchByte patchNib
  by_cases hodd : c % 2 = 1
  · rw [if_pos hodd, if_neg (by omega), if_pos (by omega), if_pos (by omega), if_pos (by omega),
      show (2 * (c + c / 2) + 1) % 3 = 0 by omega, show 2 * (c + c / 2 + 1) % 3 = 1 by omega,
      show (2 * (c + c / 2 + 1) + 1) % 3 = 2 by omega]
    simp only [digit]
    omega
  · rw [if_neg hodd, if_pos (by omega), if_pos (by omega), if_pos (by omega), if_neg (by omega),
      show 2 * (c + c / 2) % 3 = 0 by omega, show (2 * (c + c / 2) + 1) % 3 = 1 by omega,
      show 2 * (c + c / 2 + 1) % 3 = 2 by omega]
    simp only [digit]
    omega

/-- Sector `i` of a copy, with the nibbles of entry `c` replaced. -/
def patchSector (g : Globals) (c v i : Nat) (s : Sector) : Sector :=
  fun b => UInt8.ofNat (patchByte g.fatType.width c v (i * 512 + b.val) (s b).toNat)

theorem patchSector_other {c v i : Nat} (h0 : i ≠ g.fatType.entryByte c / 512)
    (h1 : i ≠ (g.fatType.entryByte c + 1) / 512) : patchSector g c v i s = s := by
  funext b
  have hb := b.isLt
  unfold patchSector
  rw [patchByte_other _ (by omega) (by omega)]
  simp

theorem fatPutN_in {n k i : Nat} (hk : k < n) (hi : i < g.bpb.sectorsPerFat) (c v : Nat)
    (d : Disk) : fatPutN g n c v d (g.copyStart k + i) =
      patchSector g c v i (d (g.copyStart k + i)) := by
  have hle : (k + 1) * g.bpb.sectorsPerFat ≤ n * g.bpb.sectorsPerFat :=
    Nat.mul_le_mul_right _ hk
  rw [Nat.add_mul] at hle
  have hmod : (g.copyStart k + i - g.bpb.reservedSectors) % g.bpb.sectorsPerFat = i := by
    have : g.copyStart k + i - g.bpb.reservedSectors = i + k * g.bpb.sectorsPerFat := by
      unfold Globals.copyStart
      omega
    rw [this, Nat.add_mul_mod_self_right, Nat.mod_eq_of_lt hi]
  unfold fatPutN
  rw [if_pos (by unfold Globals.copyStart; omega), hmod]
  rfl

theorem fatPutN_out {n lba : Nat} (h : g.copyStart n ≤ lba) (c v : Nat) (d : Disk) :
    fatPutN g n c v d lba = d lba := by
  unfold fatPutN
  rw [if_neg (by omega)]

theorem fatPutN_succ {k lba : Nat} (c v : Nat) (d : Disk)
    (h : ∀ i < g.bpb.sectorsPerFat, lba = g.copyStart k + i →
      patchSector g c v i (d lba) = d lba) :
    fatPutN g (k + 1) c v d lba = fatPutN g k c v d lba := by
  have hk : g.copyStart (k + 1) = g.copyStart k + g.bpb.sectorsPerFat := by
    unfold Globals.copyStart
    rw [Nat.add_mul]
    omega
  by_cases hlo : g.copyStart k ≤ lba
  · rw [fatPutN_out hlo]
    by_cases hhi : lba < g.copyStart (k + 1)
    · have hin := fatPutN_in (g := g) (Nat.lt_succ_self k)
        (i := lba - g.copyStart k) (by omega) c v d
      rw [show g.copyStart k + (lba - g.copyStart k) = lba by omega] at hin
      rw [hin]
      exact h _ (by omega) (by omega)
    · rw [fatPutN_out (by omega)]
  · unfold fatPutN
    by_cases hr : g.bpb.reservedSectors ≤ lba
    · rw [if_pos ⟨hr, by omega⟩, if_pos ⟨hr, by omega⟩]
    · rw [if_neg (fun h => hr h.1), if_neg (fun h => hr h.1)]

theorem fatPutN_succ_single {k c : Nat} (v : Nat) (d : Disk)
    (hc : g.fatType.entryByte c / 512 < g.bpb.sectorsPerFat)
    (hs : g.fatType.entryByte c % 512 ≠ 511) :
    fatPutN g (k + 1) c v d = putSector (fatPutN g k c v d)
      (g.copyStart k + g.fatType.entryByte c / 512)
      (patchSector g c v (g.fatType.entryByte c / 512)
        (d (g.copyStart k + g.fatType.entryByte c / 512))) := by
  funext lba
  by_cases h : lba = g.copyStart k + g.fatType.entryByte c / 512
  · subst h
    rw [putSector_self, fatPutN_in (Nat.lt_succ_self k) hc]
  · rw [putSector_of_ne _ _ h]
    refine fatPutN_succ c v d (fun i hi he => patchSector_other ?_ ?_) <;> omega

theorem fatPutN_succ_straddle {k c : Nat} (v : Nat) (d : Disk)
    (hc : (g.fatType.entryByte c + 1) / 512 < g.bpb.sectorsPerFat)
    (hs : g.fatType.entryByte c % 512 = 511) :
    fatPutN g (k + 1) c v d = putSector (putSector (fatPutN g k c v d)
      (g.copyStart k + g.fatType.entryByte c / 512)
      (patchSector g c v (g.fatType.entryByte c / 512)
        (d (g.copyStart k + g.fatType.entryByte c / 512))))
      (g.copyStart k + g.fatType.entryByte c / 512 + 1)
      (patchSector g c v (g.fatType.entryByte c / 512 + 1)
        (d (g.copyStart k + g.fatType.entryByte c / 512 + 1))) := by
  funext lba
  by_cases h1 : lba = g.copyStart k + g.fatType.entryByte c / 512 + 1
  · subst h1
    rw [putSector_self, Nat.add_assoc, fatPutN_in (Nat.lt_succ_self k) (by omega)]
  · rw [putSector_of_ne _ _ h1]
    by_cases h : lba = g.copyStart k + g.fatType.entryByte c / 512
    · subst h
      rw [putSector_self, fatPutN_in (Nat.lt_succ_self k) (by omega)]
    · rw [putSector_of_ne _ _ h]
      refine fatPutN_succ c v d (fun i hi he => patchSector_other ?_ ?_) <;> omega

theorem between_fatPutN {n : Nat} (hn : n ≤ g.bpb.fatCount) (c v : Nat) (d : Disk) :
    Between d (fatPut g c v d) (fatPutN g n c v d) := by
  intro lba
  have hle : g.copyStart n ≤ g.copyStart g.bpb.fatCount := by
    have := Nat.mul_le_mul_right g.bpb.sectorsPerFat hn
    unfold Globals.copyStart
    omega
  by_cases h : g.bpb.reservedSectors ≤ lba ∧ lba < g.copyStart n
  · right
    unfold fatPut fatPutN
    rw [if_pos h, if_pos ⟨h.1, by omega⟩]
  · left
    unfold fatPutN
    rw [if_neg h]

theorem Between.put {d d' e : Disk} (h : Between d d' e) (lba : Nat) :
    Between d d' (putSector e lba (d' lba)) := by
  intro n
  by_cases hn : n = lba
  · subst hn; right; rw [putSector_self]
  · rw [putSector_of_ne _ _ hn]; exact h n

theorem Between.fatGet_eq {d d' e : Disk} (h : Between d d' e) {c : Nat} (hs : g.whole c) :
    fatGet g e c = fatGet g d c ∨ fatGet g e c = fatGet g d' c := by
  unfold Globals.whole at hs
  have hsec : ∀ x y : Disk, x (g.bpb.reservedSectors + g.fatType.entryByte c / 512) =
      y (g.bpb.reservedSectors + g.fatType.entryByte c / 512) → fatGet g x c = fatGet g y c := by
    intro x y hxy
    unfold fatGet
    cases ht : g.fatType with
    | fat12 =>
      simp only [ht, FatType.entryByte] at hs hxy
      rw [fatValue_fat12, fatValue_fat12, fatByte_succ_same hs, fatByte_succ_same hs]
      unfold fatByte
      rw [hxy]
    | fat16 =>
      simp only [ht, FatType.entryByte] at hs hxy
      rw [fatValue_fat16, fatValue_fat16, fatByte_succ_same hs, fatByte_succ_same hs]
      unfold fatByte
      rw [hxy]
  rcases h (g.bpb.reservedSectors + g.fatType.entryByte c / 512) with h | h
  · exact .inl (hsec _ _ h)
  · exact .inr (hsec _ _ h)

/-- The driver's two byte stores make the patched sector. -/
theorem set_set_eq_patchSector {c v i : Nat} {x y : Byte}
    (hi : i = g.fatType.entryByte c / 512) (hs : g.fatType.entryByte c % 512 ≠ 511)
    (hx : x.toNat = patchByte g.fatType.width c v (g.fatType.entryByte c)
      (s.get (g.fatType.entryByte c % 512)).toNat)
    (hy : y.toNat = patchByte g.fatType.width c v (g.fatType.entryByte c + 1)
      (s.get (g.fatType.entryByte c % 512 + 1)).toNat) :
    (s.set (g.fatType.entryByte c % 512) x).set (g.fatType.entryByte c % 512 + 1) y =
      patchSector g c v i s := by
  subst hi
  funext b
  have hb := b.isLt
  apply UInt8.toNat_inj.mp
  have hlt := patchByte_lt (w := g.fatType.width) (c := c) (v := v)
    (j := g.fatType.entryByte c / 512 * 512 + b.val) (UInt8.toNat_lt (s b))
  simp only [patchSector, UInt8.toNat_ofNat', Nat.mod_eq_of_lt hlt]
  unfold Sector.set
  by_cases h1 : b = Fin.ofNat 512 (g.fatType.entryByte c % 512 + 1)
  · rw [if_pos h1, hy, Sector.get, ← h1]
    have : b.val = (g.fatType.entryByte c % 512 + 1) % 512 := congrArg Fin.val h1
    rw [show g.fatType.entryByte c / 512 * 512 + b.val = g.fatType.entryByte c + 1 by omega]
  · rw [if_neg h1]
    by_cases h0 : b = Fin.ofNat 512 (g.fatType.entryByte c % 512)
    · rw [if_pos h0, hx, Sector.get, ← h0]
      have : b.val = g.fatType.entryByte c % 512 % 512 := congrArg Fin.val h0
      rw [show g.fatType.entryByte c / 512 * 512 + b.val = g.fatType.entryByte c by omega]
    · rw [if_neg h0, patchByte_other]
      · intro he
        exact h0 (Fin.ext (by simp only [Fin.ofNat]; omega))
      · intro he
        exact h1 (Fin.ext (by simp only [Fin.ofNat]; omega))

theorem set_eq_patchSector {c v i off : Nat} {x : Byte}
    (hx : x.toNat = patchByte g.fatType.width c v (i * 512 + off) (s.get off).toNat)
    (hoff : off < 512)
    (hother : ∀ b < 512, b ≠ off → i * 512 + b ≠ g.fatType.entryByte c ∧
      i * 512 + b ≠ g.fatType.entryByte c + 1) :
    s.set off x = patchSector g c v i s := by
  funext b
  have hb := b.isLt
  apply UInt8.toNat_inj.mp
  have hlt := patchByte_lt (w := g.fatType.width) (c := c) (v := v)
    (j := i * 512 + b.val) (UInt8.toNat_lt (s b))
  simp only [patchSector, UInt8.toNat_ofNat', Nat.mod_eq_of_lt hlt]
  unfold Sector.set
  by_cases h0 : b = Fin.ofNat 512 off
  · rw [if_pos h0, hx, Sector.get, ← h0]
    have : b.val = off % 512 := congrArg Fin.val h0
    rw [show i * 512 + b.val = i * 512 + off by omega]
  · rw [if_neg h0]
    have hne : b.val ≠ off := fun he => h0 (Fin.ext (by simp only [Fin.ofNat]; omega))
    rw [patchByte_other _ (hother b.val hb hne).1 (hother b.val hb hne).2]

theorem entryByte_inTable {c : Nat} (hc : g.inTable c) :
    g.fatType.entryByte c + 1 < 512 * g.bpb.sectorsPerFat := by
  unfold Globals.inTable at hc
  cases ht : g.fatType <;> simp only [ht, FatType.entryByte, FatType.width] at hc ⊢ <;> omega

/-- How an update of the table entries from `d` to `d'` ends: on success in the state `goal`, on
failure somewhere between the two. -/
structure Outcome (ctx : Ctx Buffer Sector) (d d' goal : Disk) (ok : Bool) (m : DriverMem) :
    Prop where
  between : Between d d' m.disk
  done : ok = true → m.disk = goal
  failed : ok = false → ctx.Failed m

theorem Outcome.success {d d' goal : Disk} (hb : Between d d' goal) (h : m.disk = goal) :
    Outcome ctx d d' goal true m :=
  ⟨h ▸ hb, fun _ => h, fun hf => absurd hf (by decide)⟩

theorem Outcome.failure {d d' : Disk} (goal : Disk) (hf : ctx.mayFail m)
    (hb : Between d d' m.disk) : Outcome ctx d d' goal false m.tick :=
  ⟨hb, fun h => absurd h (by decide), fun _ => ⟨m, hf, rfl⟩⟩

theorem wp_writeFatCopy_fat16 (ht : g.fatType = .fat16)
    (hc : g.inTable c) (hk : k < g.bpb.fatCount) (hv : v < 16 ^ g.fatType.width)
    (hd : m.disk = fatPutN g k c v d) (hinv : ∀ e, Between d (fatPut g c v d) e → ctx.inv e) :
    (writeFatCopy g c v k).wp ctx
      (Outcome ctx d (fatPut g c v d) (fatPutN g (k + 1) c v d)) m := by
  have hin := entryByte_inTable hc
  have hbk := between_fatPutN (g := g) (Nat.le_of_lt hk) c v d
  have hbk1 := between_fatPutN (g := g) hk c v d
  have ho : g.fatType.entryByte c = c * 2 := by rw [ht]; rfl
  have hw : g.fatType.width = 4 := by rw [ht]; rfl
  have hv' : v < 65536 := by simpa [hw] using hv
  have hs : g.fatType.entryByte c % 512 ≠ 511 := by rw [ho]; omega
  -- the sector after the two stores is the one of the new table
  have hset : ∀ s : Sector, (s.set (c * 2 % 512) (UInt8.ofNat (v % 256))).set (c * 2 % 512 + 1)
      (UInt8.ofNat (v / 256)) = patchSector g c v (c * 2 / 512) s := by
    intro s
    have := set_set_eq_patchSector (g := g) (c := c) (v := v) (i := c * 2 / 512) (s := s)
      (x := UInt8.ofNat (v % 256)) (y := UInt8.ofNat (v / 256)) (by rw [ho]) hs
      (by rw [hw, ho, (patchByte_fat16 hv').1, UInt8.toNat_ofNat']; omega)
      (by rw [hw, ho, (patchByte_fat16 hv').2, UInt8.toNat_ofNat']; omega)
    rwa [ho] at this
  have hnew := fatPutN_succ_single (g := g) (k := k) (c := c) v d (by omega) hs
  rw [ho] at hin hnew
  have hread : m.disk (g.copyStart k + c * 2 / 512) = d (g.copyStart k + c * 2 / 512) := by
    rw [hd, fatPutN_out (Nat.le_add_right _ _)]
  have hdisk : putSector m.disk (g.copyStart k + c * 2 / 512) (patchSector g c v (c * 2 / 512)
      (m.disk (g.copyStart k + c * 2 / 512))) = fatPutN g (k + 1) c v d := by
    rw [hread, hnew, hd]
  unfold writeFatCopy
  simp only [ht, sectorSize, Prog.wp_bind, wp_readSector]
  refine ⟨fun hf => .failure _ hf (hd ▸ hbk), ?_⟩
  simp only [if_true, Prog.wp_bind, wp_load, wp_store, wp_writeSector, Mem.fetch_buf, hset]
  refine ⟨fun hf => .failure _ hf ?_, hinv _ ?_, .success hbk1 ?_⟩
  · rw [Mem.setBuf_disk, Mem.fetch_disk, hd]; exact hbk
  · rw [Mem.setBuf_disk, Mem.setBuf_buf, Mem.fetch_disk]; exact hdisk ▸ hbk1
  · rw [Mem.flush_disk, Mem.setBuf_disk, Mem.setBuf_buf, Mem.fetch_disk]; exact hdisk

theorem wp_writeFatCopy_fat12 (ht : g.fatType = .fat12)
    (hc : g.inTable c) (hk : k < g.bpb.fatCount) (hv : v < 16 ^ g.fatType.width)
    (hd : m.disk = fatPutN g k c v d) (hinv : ∀ e, Between d (fatPut g c v d) e → ctx.inv e) :
    (writeFatCopy g c v k).wp ctx
      (Outcome ctx d (fatPut g c v d) (fatPutN g (k + 1) c v d)) m := by
  have hin := entryByte_inTable hc
  have hbk := between_fatPutN (g := g) (Nat.le_of_lt hk) c v d
  have hbk1 := between_fatPutN (g := g) hk c v d
  have ho : g.fatType.entryByte c = c + c / 2 := by rw [ht]; rfl
  have hw : g.fatType.width = 3 := by rw [ht]; rfl
  have hv' : v < 4096 := by simpa [hw] using hv
  have hmask : v &&& 0x0FFF = v := by rw [and_0xFFF]; omega
  -- the two bytes the driver stores
  have hlo : ∀ x y : Byte, (UInt8.ofNat (fat12Merge c (bytePair x y) v &&& 0xFF)).toNat =
      patchByte g.fatType.width c v (c + c / 2) x.toNat := by
    intro x y
    rw [hw, (patchByte_fat12 (UInt8.toNat_lt x) (UInt8.toNat_lt y) hv').1, bytePair_eq, and_0xFF,
      UInt8.toNat_ofNat']
    omega
  have hhi : ∀ x y : Byte, (UInt8.ofNat (fat12Merge c (bytePair x y) v >>> 8 &&& 0xFF)).toNat =
      patchByte g.fatType.width c v (c + c / 2 + 1) y.toNat := by
    intro x y
    have hp := patchByte_fat12 (c := c) (UInt8.toNat_lt x) (UInt8.toNat_lt y) hv'
    have hlt := patchByte_lt (w := 3) (c := c) (v := v) (j := c + c / 2 + 1) (UInt8.toNat_lt y)
    rw [hw, hp.2, bytePair_eq, and_0xFF, Nat.shiftRight_eq_div_pow, UInt8.toNat_ofNat']
    rw [hp.2] at hlt
    omega
  have hread : ∀ i, m.disk (g.copyStart k + i) = d (g.copyStart k + i) := by
    intro i
    rw [hd, fatPutN_out (Nat.le_add_right _ _)]
  unfold writeFatCopy
  simp only [ht, sectorSize, Prog.wp_bind, wp_readSector, hmask]
  refine ⟨fun hf => .failure _ hf (hd ▸ hbk), ?_⟩
  by_cases hs : (c + c / 2) % 512 = 512 - 1
  · -- the entry straddles two sectors
    have hnew := fatPutN_succ_straddle (g := g) (k := k) (c := c) v d (by omega) (by rw [ho]; exact hs)
    have hmid := hbk.put (g.copyStart k + (c + c / 2) / 512)
    have hfst : ∀ s : Sector, ∀ y : Byte, s.set 511
        (UInt8.ofNat (fat12Merge c (bytePair (s.get 511) y) v &&& 0xFF)) =
        patchSector g c v ((c + c / 2) / 512) s := by
      intro s y
      refine set_eq_patchSector ?_ (by omega) (fun b hb hne => ?_)
      · rw [hlo, show (c + c / 2) / 512 * 512 + 511 = c + c / 2 by omega]
      · rw [ho]; omega
    have hsnd : ∀ s : Sector, ∀ x : Byte, s.set 0
        (UInt8.ofNat (fat12Merge c (bytePair x (s.get 0)) v >>> 8 &&& 0xFF)) =
        patchSector g c v ((c + c / 2) / 512 + 1) s := by
      intro s x
      refine set_eq_patchSector ?_ (by omega) (fun b hb hne => ?_)
      · rw [hhi, show ((c + c / 2) / 512 + 1) * 512 + 0 = c + c / 2 + 1 by omega]
      · rw [ho]; omega
    have hput : fatPut g c v d (g.copyStart k + (c + c / 2) / 512) =
        patchSector g c v ((c + c / 2) / 512) (m.disk (g.copyStart k + (c + c / 2) / 512)) := by
      rw [hread]
      exact fatPutN_in hk (by omega) c v d
    rw [hput, ← hd] at hmid
    rw [ho] at hnew
    have hdisk : putSector (putSector m.disk (g.copyStart k + (c + c / 2) / 512)
        (patchSector g c v ((c + c / 2) / 512) (m.disk (g.copyStart k + (c + c / 2) / 512))))
        (g.copyStart k + (c + c / 2) / 512 + 1) (patchSector g c v ((c + c / 2) / 512 + 1)
          (m.disk (g.copyStart k + (c + c / 2) / 512 + 1))) = fatPutN g (k + 1) c v d := by
      rw [hnew, hread, Nat.add_assoc (g.copyStart k), hread, hd]
    have haux : (Buffer.main : Buffer) ≠ .aux := by decide
    simp only [hs, if_true, Prog.wp_bind, wp_readSector]
    refine ⟨fun hf => .failure _ hf (hd ▸ hbk), ?_⟩
    simp only [if_true, wp_load, wp_store, wp_writeSector, Mem.fetch_buf,
      Mem.fetch_buf_ne _ _ haux, Mem.fetch_disk, hfst, hsnd, Mem.setBuf_disk, Mem.setBuf_buf,
      Mem.setBuf_buf_ne _ _ haux, Mem.flush_disk, Mem.flush_buf]
    refine ⟨fun hf => .failure _ hf (hd ▸ hbk), hinv _ hmid, fun hf => .failure _ hf hmid,
      hinv _ ?_, .success hbk1 ?_⟩
    · exact hdisk ▸ hbk1
    · simp only [Mem.flush_disk, Mem.flush_buf, Mem.setBuf_disk, Mem.fetch_disk, Mem.setBuf_buf,
        Mem.setBuf_buf_ne _ _ haux]
      exact hdisk
  · -- the entry lies in one sector
    have hnew := fatPutN_succ_single (g := g) (k := k) (c := c) v d (by omega) (by rw [ho]; exact hs)
    have hset : ∀ s : Sector, (s.set ((c + c / 2) % 512) (UInt8.ofNat
        (fat12Merge c (bytePair (s.get ((c + c / 2) % 512)) (s.get ((c + c / 2) % 512 + 1))) v
          &&& 0xFF))).set ((c + c / 2) % 512 + 1) (UInt8.ofNat
        (fat12Merge c (bytePair (s.get ((c + c / 2) % 512)) (s.get ((c + c / 2) % 512 + 1))) v
          >>> 8 &&& 0xFF)) = patchSector g c v ((c + c / 2) / 512) s := by
      intro s
      have := set_set_eq_patchSector (g := g) (c := c) (v := v) (i := (c + c / 2) / 512) (s := s)
        (x := UInt8.ofNat (fat12Merge c (bytePair (s.get ((c + c / 2) % 512))
          (s.get ((c + c / 2) % 512 + 1))) v &&& 0xFF))
        (y := UInt8.ofNat (fat12Merge c (bytePair (s.get ((c + c / 2) % 512))
          (s.get ((c + c / 2) % 512 + 1))) v >>> 8 &&& 0xFF))
        (by rw [ho]) (by rw [ho]; exact hs) (by rw [hlo, ho]) (by rw [hhi, ho])
      rwa [ho] at this
    rw [ho] at hnew
    have hdisk : putSector m.disk (g.copyStart k + (c + c / 2) / 512)
        (patchSector g c v ((c + c / 2) / 512) (m.disk (g.copyStart k + (c + c / 2) / 512))) =
        fatPutN g (k + 1) c v d := by
      rw [hnew, hread, hd]
    simp only [hs, if_false, if_true, Prog.wp_bind, wp_load, wp_store, wp_writeSector,
      Mem.fetch_buf, hset]
    refine ⟨fun hf => .failure _ hf ?_, hinv _ ?_, .success hbk1 ?_⟩
    · rw [Mem.setBuf_disk, Mem.fetch_disk, hd]; exact hbk
    · rw [Mem.setBuf_disk, Mem.setBuf_buf, Mem.fetch_disk]; exact hdisk ▸ hbk1
    · rw [Mem.flush_disk, Mem.setBuf_disk, Mem.setBuf_buf, Mem.fetch_disk]; exact hdisk

theorem wp_writeFatCopy (hc : g.inTable c) (hk : k < g.bpb.fatCount)
    (hv : v < 16 ^ g.fatType.width) (hd : m.disk = fatPutN g k c v d)
    (hinv : ∀ e, Between d (fatPut g c v d) e → ctx.inv e) :
    (writeFatCopy g c v k).wp ctx
      (Outcome ctx d (fatPut g c v d) (fatPutN g (k + 1) c v d)) m := by
  cases ht : g.fatType with
  | fat12 => exact wp_writeFatCopy_fat12 ht hc hk hv hd hinv
  | fat16 => exact wp_writeFatCopy_fat16 ht hc hk hv hd hinv

theorem fatPutN_zero (g : Globals) (c v : Nat) (d : Disk) : fatPutN g 0 c v d = d := by
  funext lba
  unfold fatPutN
  rw [if_neg]
  simp [Globals.copyStart]

theorem wp_writeFatCopies {c v : Nat} (hc : g.inTable c)
    (hv : v < 16 ^ g.fatType.width) (hinv : ∀ e, Between d (fatPut g c v d) e → ctx.inv e) :
    ∀ (n k : Nat) (m : DriverMem), k + n = g.bpb.fatCount → m.disk = fatPutN g k c v d →
      (writeFatCopies g c v n k).wp ctx (Outcome ctx d (fatPut g c v d) (fatPut g c v d)) m := by
  intro n
  induction n with
  | zero =>
    intro k m hk hd
    have : k = g.bpb.fatCount := by omega
    subst this
    exact .success (Between.right _ _) hd
  | succ n ih =>
    intro k m hk hd
    unfold writeFatCopies
    rw [Prog.wp_bind]
    refine Prog.wp_mono (wp_writeFatCopy hc (by omega) hv hd hinv) ?_
    intro ok m' h
    cases ok with
    | true => exact ih (k + 1) m' (by omega) (h.done rfl)
    | false => exact ⟨h.between, fun hf => absurd hf (by decide), fun _ => h.failed rfl⟩

theorem wp_writeFatEntry {c v : Nat} (hc : g.inTable c) (hv : v < 16 ^ g.fatType.width)
    (hinv : ∀ e, Between m.disk (fatPut g c v m.disk) e → ctx.inv e) :
    (writeFatEntry g c v).wp ctx
      (Outcome ctx m.disk (fatPut g c v m.disk) (fatPut g c v m.disk)) m :=
  wp_writeFatCopies hc hv hinv g.bpb.fatCount 0 m (by omega) (fatPutN_zero g c v m.disk).symm

/-! ## Allocation -/

/-- What `fat16_alloc_cluster_internal` does from disk `d`: it takes a free data cluster, the
lowest one when no access fails, or reports that there is none. -/
inductive Alloc (ctx : Ctx Buffer Sector) (g : Globals) (d : Disk) :
    Option Nat → DriverMem → Prop where
  | took {c : Nat} {m : DriverMem} (hc : g.isDataCluster c = true) (hfree : fatGet g d c = 0)
      (hlow : ¬ ctx.Faulty → ∀ c', g.isDataCluster c' = true → c' < c → fatGet g d c' ≠ 0)
      (hd : m.disk = fatPut g c g.endOfChainValue d) : Alloc ctx g d (some c) m
  | full {m : DriverMem} (hd : m.disk = d)
      (hfull : ¬ ctx.Faulty → ∀ c, g.isDataCluster c = true → fatGet g d c ≠ 0) :
      Alloc ctx g d none m
  | broke {c : Nat} {m : DriverMem} (hc : g.isDataCluster c = true) (hfree : fatGet g d c = 0)
      (hd : Between d (fatPut g c g.endOfChainValue d) m.disk) (hf : ctx.Failed m) :
      Alloc ctx g d none m

theorem wp_allocFrom (hg : g.Valid)
    (hinv : ∀ c, g.isDataCluster c = true → fatGet g d c = 0 →
      ∀ e, Between d (fatPut g c g.endOfChainValue d) e → ctx.inv e) :
    ∀ (n c : Nat) (m : DriverMem), 2 ≤ c → c + n = g.getTotalClusters + 2 → m.disk = d →
      (¬ ctx.Faulty → ∀ c', g.isDataCluster c' = true → c' < c → fatGet g d c' ≠ 0) →
      (allocFrom g n c).wp ctx (Alloc ctx g d) m := by
  intro n
  induction n with
  | zero =>
    intro c m _ hn hd hlow
    refine .full hd (fun hnf c' hc' => hlow hnf c' hc' ?_)
    have := (isDataCluster_iff.mp hc').2
    omega
  | succ n ih =>
    intro c m h2 hn hd hlow
    have hc : g.isDataCluster c = true := isDataCluster_iff.mpr ⟨h2, by omega⟩
    have hmod : c % 65536 = c := Nat.mod_eq_of_lt (data_lt hg hc)
    unfold allocFrom
    rw [Prog.wp_bind, hmod]
    refine Prog.wp_mono (wp_readFatEntry c) ?_
    rintro v m' ⟨hd', _, hv⟩
    rw [hd] at hv hd'
    by_cases hz : v = 0
    · rw [if_pos hz, Prog.wp_bind]
      have hfree : fatGet g d c = 0 := by
        rcases hv with hv | ⟨_, hv⟩
        · rw [← hv, hz]
        · exact absurd (hv ▸ hz) (endMark_ne_zero (endOfChain_isEndMark g))
      have hw : (writeFatEntry g c g.endOfChainValue).wp ctx _ m' :=
        wp_writeFatEntry (inTable_of_data hg hc) (endOfChain_lt g)
        (by rw [hd']; exact hinv c hc hfree)
      rw [hd'] at hw
      refine Prog.wp_mono hw ?_
      intro ok m'' h
      cases ok with
      | true => exact .took hc hfree hlow (h.done rfl)
      | false => exact .broke hc hfree h.between (h.failed rfl)
    · rw [if_neg hz]
      refine ih (c + 1) m' (by omega) (by omega) hd' ?_
      intro hnf c' hc' hlt
      by_cases he : c' = c
      · subst he
        rcases hv with hv | ⟨hf, _⟩
        · rw [← hv]; exact hz
        · exact absurd hf.faulty hnf
      · exact hlow hnf c' hc' (by omega)

theorem wp_allocCluster (hg : g.Valid)
    (hinv : ∀ c, g.isDataCluster c = true → fatGet g m.disk c = 0 →
      ∀ e, Between m.disk (fatPut g c g.endOfChainValue m.disk) e → ctx.inv e) :
    (allocCluster g).wp ctx (Alloc ctx g m.disk) m := by
  refine wp_allocFrom hg hinv g.getTotalClusters 2 m (Nat.le_refl _) (by omega) rfl ?_
  intro _ c' hc' hlt
  have := (isDataCluster_iff.mp hc').1
  omega

end Fat16
end MiniDos
