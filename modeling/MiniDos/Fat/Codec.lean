import MiniDos.Fat.Table

/-!
# MiniDos.Fat.Codec

The file allocation table as an array of nibbles. Entry `c` of a FAT12 table is the nibbles
`3c, 3c+1, 3c+2` of the copy, of a FAT16 table the nibbles `4c, ..., 4c+3`, low nibble first: a
window of `width` nibbles in both cases, whether or not it straddles a byte or a sector.

* `fatGet`: the value of an entry; `fatPut`: the disk with an entry replaced in every copy.
* `fatPut` changes the nibbles of its own window only (`nib_fatPut`), hence the laws of `fatGet`
  after `fatPut`.
* `wp_readFatEntry`, `wp_writeFatEntry`: the driver's byte and bit operations compute these.
-/

namespace MiniDos
namespace Fat16

open BlockIO

variable {c : Nat}

/-! ## The bit operations of the source as arithmetic -/

theorem bytePair_eq (a b : Byte) : bytePair a b = a.toNat + 256 * b.toNat := by
  have ha := a.toNat_lt
  unfold bytePair
  rw [Nat.or_comm, ← Nat.shiftLeft_add_eq_or_of_lt (i := 8) (by omega), Nat.shiftLeft_eq]
  omega

theorem and_one (c : Nat) : c &&& 1 = c % 2 := Nat.and_two_pow_sub_one_eq_mod c 1
theorem and_0xF (c : Nat) : c &&& 0xF = c % 16 := Nat.and_two_pow_sub_one_eq_mod c 4
theorem and_0xFF (c : Nat) : c &&& 0xFF = c % 256 := Nat.and_two_pow_sub_one_eq_mod c 8
theorem and_0xFFF (c : Nat) : c &&& 0x0FFF = c % 4096 := Nat.and_two_pow_sub_one_eq_mod c 12

theorem and_0xF000 {p : Nat} (hp : p < 65536) : p &&& 0xF000 = p / 4096 * 4096 := by
  have hdiv : (p &&& 0xF000) / 2 ^ 12 = p / 2 ^ 12 &&& 0xF := by rw [Nat.and_div_two_pow]
  have hmod : (p &&& 0xF000) % 2 ^ 12 = 0 := by rw [Nat.and_mod_two_pow]; simp
  rw [and_0xF] at hdiv
  omega

theorem fat12Value_eq (c p : Nat) :
    fat12Value c p = if c % 2 = 1 then p / 16 % 4096 else p % 4096 := by
  unfold fat12Value
  rw [and_one, and_0xFFF, and_0xFFF, Nat.shiftRight_eq_div_pow]
  split <;> split <;> omega

theorem fat12Merge_eq {c p v : Nat} (hp : p < 65536) (hv : v < 4096) :
    fat12Merge c p v = if c % 2 = 1 then p % 16 + 16 * v else p / 4096 * 4096 + v := by
  unfold fat12Merge
  rw [and_one]
  by_cases h : c % 2 = 1
  · rw [if_pos (by omega), if_pos h, and_0xF, Nat.or_comm,
      ← Nat.shiftLeft_add_eq_or_of_lt (i := 4) (by omega), Nat.shiftLeft_eq]
    omega
  · have hs : p / 4096 * 4096 = (p / 4096) <<< 12 := by rw [Nat.shiftLeft_eq]
    rw [if_neg (by omega), if_neg h, and_0xF000 hp, hs,
      ← Nat.shiftLeft_add_eq_or_of_lt (i := 12) (by omega)]

/-! ## Nibbles -/

/-- Nibbles in one table entry. -/
def FatType.width : FatType → Nat
  | .fat12 => 3
  | .fat16 => 4

/-- Byte `j` of the table copy that starts at sector `base`. -/
def fatByte (d : Disk) (base j : Nat) : Nat := ((d (base + j / 512)).get (j % 512)).toNat

def nib (d : Disk) (base q : Nat) : Nat :=
  if q % 2 = 0 then fatByte d base (q / 2) % 16 else fatByte d base (q / 2) / 16

/-- Nibble `i` of a value. -/
def digit (v : Nat) : Nat → Nat
  | 0 => v % 16
  | 1 => v / 16 % 16
  | 2 => v / 256 % 16
  | _ => v / 4096 % 16

/-- The value of entry `c` in the copy that starts at sector `base`. -/
def fatValue (t : FatType) (d : Disk) (base c : Nat) : Nat :=
  match t with
  | .fat12 => nib d base (3 * c) + 16 * nib d base (3 * c + 1) + 256 * nib d base (3 * c + 2)
  | .fat16 => nib d base (4 * c) + 16 * nib d base (4 * c + 1) + 256 * nib d base (4 * c + 2) +
      4096 * nib d base (4 * c + 3)

/-- First sector of table copy `k`. -/
def Globals.copyStart (g : Globals) (k : Nat) : Nat :=
  g.bpb.reservedSectors + k * g.bpb.sectorsPerFat

/-- The entry as the driver reads it, from the first copy. -/
def fatGet (g : Globals) (d : Disk) (c : Nat) : Nat := fatValue g.fatType d g.bpb.reservedSectors c

theorem copyStart_zero (g : Globals) : g.copyStart 0 = g.bpb.reservedSectors := by
  simp [Globals.copyStart]

theorem fatByte_lt (d : Disk) (base j : Nat) : fatByte d base j < 256 := UInt8.toNat_lt _

theorem nib_lt (d : Disk) (base q : Nat) : nib d base q < 16 := by
  have := fatByte_lt d base (q / 2)
  unfold nib
  split <;> omega

def patchNib (w c v q x : Nat) : Nat := if q / w = c then digit v (q % w) else x

/-- Byte `j` of a copy, with the nibbles of entry `c` replaced by those of `v`. -/
def patchByte (w c v j b : Nat) : Nat :=
  patchNib w c v (2 * j) (b % 16) + 16 * patchNib w c v (2 * j + 1) (b / 16)

/-- Entry `c` set to `v` in the first `n` copies. -/
def fatPutN (g : Globals) (n c v : Nat) (d : Disk) : Disk := fun lba =>
  if g.bpb.reservedSectors ≤ lba ∧ lba < g.copyStart n then
    fun k => UInt8.ofNat (patchByte g.fatType.width c v
      ((lba - g.bpb.reservedSectors) % g.bpb.sectorsPerFat * 512 + k.val) (d lba k).toNat)
  else d lba

/-- Entry `c` set to `v` in every copy. -/
def fatPut (g : Globals) (c v : Nat) (d : Disk) : Disk := fatPutN g g.bpb.fatCount c v d

theorem digit_lt (v i : Nat) : digit v i < 16 := by
  unfold digit
  split <;> omega

theorem patchNib_lt {w c v q x : Nat} (hx : x < 16) : patchNib w c v q x < 16 := by
  unfold patchNib
  split
  · exact digit_lt _ _
  · exact hx

theorem patchByte_lt {w c v j b : Nat} (hb : b < 256) : patchByte w c v j b < 256 := by
  have h1 := patchNib_lt (w := w) (c := c) (v := v) (q := 2 * j) (x := b % 16) (by omega)
  have h2 := patchNib_lt (w := w) (c := c) (v := v) (q := 2 * j + 1) (x := b / 16) (by omega)
  unfold patchByte
  omega

/-! ## The area of the table -/

def Globals.isFatSector (g : Globals) (lba : Nat) : Prop :=
  g.bpb.reservedSectors ≤ lba ∧ lba < g.getRootDirStart

theorem copyStart_count (g : Globals) : g.copyStart g.bpb.fatCount = g.getRootDirStart := rfl

theorem fatPut_of_not_fatSector {g : Globals} {lba : Nat} (h : ¬ g.isFatSector lba) (c v : Nat)
    (d : Disk) : fatPut g c v d lba = d lba := by
  unfold fatPut fatPutN
  rw [copyStart_count]
  exact if_neg h

theorem fatByte_fatPutN {g : Globals} {n k j : Nat} (hk : k < n)
    (hj : j < 512 * g.bpb.sectorsPerFat) (c v : Nat) (d : Disk) :
    fatByte (fatPutN g n c v d) (g.copyStart k) j =
      patchByte g.fatType.width c v j (fatByte d (g.copyStart k) j) := by
  have hi : j / 512 < g.bpb.sectorsPerFat := by omega
  have hle : (k + 1) * g.bpb.sectorsPerFat ≤ n * g.bpb.sectorsPerFat :=
    Nat.mul_le_mul_right _ hk
  rw [Nat.add_mul] at hle
  have hin : g.bpb.reservedSectors ≤ g.copyStart k + j / 512 ∧
      g.copyStart k + j / 512 < g.copyStart n := by
    unfold Globals.copyStart
    omega
  have hpos : (g.copyStart k + j / 512 - g.bpb.reservedSectors) % g.bpb.sectorsPerFat * 512 +
      (Fin.ofNat 512 (j % 512)).val = j := by
    have : g.copyStart k + j / 512 - g.bpb.reservedSectors = j / 512 + k * g.bpb.sectorsPerFat := by
      unfold Globals.copyStart
      omega
    rw [this, Nat.add_mul_mod_self_right, Nat.mod_eq_of_lt hi]
    simp only [Fin.ofNat]
    omega
  have hb := patchByte_lt (w := g.fatType.width) (c := c) (v := v) (j := j)
    (fatByte_lt d (g.copyStart k) j)
  unfold fatByte Sector.get fatPutN at *
  rw [if_pos hin]
  simp only [hpos, UInt8.toNat_ofNat']
  exact Nat.mod_eq_of_lt hb

theorem nib_fatPutN {g : Globals} {n k q : Nat} (hk : k < n) (hq : q < 1024 * g.bpb.sectorsPerFat)
    (c v : Nat) (d : Disk) :
    nib (fatPutN g n c v d) (g.copyStart k) q =
      patchNib g.fatType.width c v q (nib d (g.copyStart k) q) := by
  have hb := fatByte_lt d (g.copyStart k) (q / 2)
  have h1 := patchNib_lt (w := g.fatType.width) (c := c) (v := v) (q := 2 * (q / 2))
    (x := fatByte d (g.copyStart k) (q / 2) % 16) (by omega)
  unfold nib
  rw [fatByte_fatPutN hk (by omega)]
  unfold patchByte
  by_cases h : q % 2 = 0
  · rw [if_pos h, if_pos h]
    have : 2 * (q / 2) = q := by omega
    rw [this] at h1 ⊢
    omega
  · rw [if_neg h, if_neg h]
    have : 2 * (q / 2) + 1 = q := by omega
    rw [this]
    omega

/-! ## Valid volumes -/

/-- A FAT12 or FAT16 volume with 512-byte sectors whose table copies have room for an entry of
every cluster. -/
structure Globals.Valid (g : Globals) : Prop where
  bytesPerSector : g.bpb.bytesPerSector = 512
  sectorsPerCluster : 0 < g.bpb.sectorsPerCluster
  fatCount : 0 < g.bpb.fatCount
  room : g.fatType.width * (g.getTotalClusters + 2) ≤ 1024 * g.bpb.sectorsPerFat
  clusters : g.getTotalClusters < (match g.fatType with | .fat12 => 4085 | .fat16 => 65525)

def Globals.isEndMark (g : Globals) (v : Nat) : Prop :=
  match g.fatType with
  | .fat12 => 0x0FF8 ≤ v
  | .fat16 => 0xFFF8 ≤ v

theorem isDataCluster_iff {g : Globals} :
    g.isDataCluster c = true ↔ 2 ≤ c ∧ c ≤ g.getTotalClusters + 1 := by
  rw [Globals.isDataCluster, Bool.and_eq_true, decide_eq_true_eq, decide_eq_true_eq]

/-- The entry of cluster `c` lies inside the table copies. -/
def Globals.inTable (g : Globals) (c : Nat) : Prop :=
  g.fatType.width * c + g.fatType.width ≤ 1024 * g.bpb.sectorsPerFat

section Valid

variable {g : Globals} (hg : g.Valid)

include hg

theorem inTable_of_data (hc : g.isDataCluster c = true) : g.inTable c := by
  have h := (isDataCluster_iff.mp hc).2
  have hr := hg.room
  have : g.fatType.width * (c + 1) ≤ g.fatType.width * (g.getTotalClusters + 2) :=
    Nat.mul_le_mul_left _ (by omega)
  unfold Globals.inTable
  rw [Nat.mul_add] at this
  omega

theorem data_lt (hc : g.isDataCluster c = true) : c < 65536 := by
  have h := (isDataCluster_iff.mp hc).2
  have hr := hg.clusters
  cases ht : g.fatType <;> simp only [ht] at hr <;> omega

theorem data_lt_limit (hc : g.isDataCluster c = true) :
    c < 16 ^ g.fatType.width := by
  have h := (isDataCluster_iff.mp hc).2
  have hr := hg.clusters
  cases ht : g.fatType <;> simp only [ht, FatType.width] at hr ⊢ <;> omega

theorem data_not_endMark (hc : g.isDataCluster c = true) : ¬ g.isEndMark c := by
  have h := (isDataCluster_iff.mp hc).2
  have hr := hg.clusters
  unfold Globals.isEndMark
  cases ht : g.fatType <;> simp only [ht] at hr ⊢ <;> omega

end Valid

theorem endOfChain_isEndMark (g : Globals) : g.isEndMark g.endOfChainValue := by
  unfold Globals.isEndMark Globals.endOfChainValue
  cases g.fatType <;> simp

theorem endOfChain_lt (g : Globals) : g.endOfChainValue < 16 ^ g.fatType.width := by
  unfold Globals.endOfChainValue
  cases g.fatType <;> simp [FatType.width]

theorem endMark_ne_zero {g : Globals} {v : Nat} (h : g.isEndMark v) : v ≠ 0 := by
  unfold Globals.isEndMark at h
  cases ht : g.fatType <;> simp only [ht] at h <;> omega

theorem zero_not_data (g : Globals) : g.isDataCluster 0 = false := by
  simp [Globals.isDataCluster]

theorem endMark_not_data {g : Globals} (hg : g.Valid) {v : Nat} (h : g.isEndMark v) :
    g.isDataCluster v = false := by
  cases hd : g.isDataCluster v with
  | false => rfl
  | true => exact absurd h (data_not_endMark hg hd)

/-! ## Frames -/

/-- At most the table entries of the clusters in `X` and the other sectors in `S` differ. -/
structure Touches (g : Globals) (X S : Nat → Prop) (d d' : Disk) : Prop where
  fat : ∀ k < g.bpb.fatCount, ∀ q < 1024 * g.bpb.sectorsPerFat, ¬ X (q / g.fatType.width) →
    nib d' (g.copyStart k) q = nib d (g.copyStart k) q
  sec : ∀ lba, ¬ g.isFatSector lba → ¬ S lba → d' lba = d lba

namespace Touches

variable {g : Globals} {X X' S S' : Nat → Prop} {d d' d'' : Disk}

theorem refl : Touches g X S d d := ⟨fun _ _ _ _ _ => rfl, fun _ _ _ => rfl⟩

theorem symm (h : Touches g X S d d') : Touches g X S d' d :=
  ⟨fun k hk q hq hX => (h.fat k hk q hq hX).symm, fun lba hl hS => (h.sec lba hl hS).symm⟩

theorem trans (h : Touches g X S d d') (h' : Touches g X S d' d'') : Touches g X S d d'' := by
  refine ⟨fun k hk q hq hX => ?_, fun lba hl hS => ?_⟩
  · rw [h'.fat k hk q hq hX, h.fat k hk q hq hX]
  · rw [h'.sec lba hl hS, h.sec lba hl hS]

theorem mono (h : Touches g X S d d') (hX : ∀ c, X c → X' c) (hS : ∀ s, S s → S' s) :
    Touches g X' S' d d' :=
  ⟨fun k hk q hq hn => h.fat k hk q hq (fun hx => hn (hX _ hx)),
    fun lba hl hn => h.sec lba hl (fun hs => hn (hS _ hs))⟩

theorem of_sectors (hS : ∀ lba, S lba → ¬ g.isFatSector lba)
    (h : ∀ lba, ¬ S lba → d' lba = d lba) : Touches g X S d d' := by
  refine ⟨fun k hk q hq _ => ?_, fun lba _ hl => h lba hl⟩
  have hfat : g.isFatSector (g.copyStart k + q / 2 / 512) := by
    have hle : (k + 1) * g.bpb.sectorsPerFat ≤ g.bpb.fatCount * g.bpb.sectorsPerFat :=
      Nat.mul_le_mul_right _ hk
    rw [Nat.add_mul] at hle
    unfold Globals.isFatSector Globals.getRootDirStart Globals.copyStart
    omega
  unfold nib fatByte
  rw [h _ (fun hs => hS _ hs hfat)]

theorem fatValue_eq (h : Touches g X S d d') {k c : Nat} (hk : k < g.bpb.fatCount)
    (hc : g.inTable c) (hX : ¬ X c) :
    fatValue g.fatType d' (g.copyStart k) c = fatValue g.fatType d (g.copyStart k) c := by
  have hn : ∀ i < g.fatType.width, nib d' (g.copyStart k) (g.fatType.width * c + i) =
      nib d (g.copyStart k) (g.fatType.width * c + i) := by
    intro i hi
    unfold Globals.inTable at hc
    refine h.fat k hk _ (by omega) ?_
    have : (g.fatType.width * c + i) / g.fatType.width = c := by
      rw [Nat.mul_add_div (by omega), Nat.div_eq_of_lt hi, Nat.add_zero]
    rwa [this]
  cases ht : g.fatType with
  | fat12 =>
    simp only [ht, FatType.width] at hn
    have h0 := hn 0 (by omega)
    simp only [Nat.add_zero] at h0
    simp only [fatValue, h0, hn 1 (by omega), hn 2 (by omega)]
  | fat16 =>
    simp only [ht, FatType.width] at hn
    have h0 := hn 0 (by omega)
    simp only [Nat.add_zero] at h0
    simp only [fatValue, h0, hn 1 (by omega), hn 2 (by omega), hn 3 (by omega)]

theorem fatGet_eq (h : Touches g X S d d') (hg : g.Valid) (hc : g.inTable c)
    (hX : ¬ X c) : fatGet g d' c = fatGet g d c := by
  have := h.fatValue_eq hg.fatCount hc hX
  rwa [copyStart_zero] at this

theorem fatByte_eq (h : Touches g (fun _ => False) S d d') {k j : Nat} (hk : k < g.bpb.fatCount)
    (hj : j < 512 * g.bpb.sectorsPerFat) :
    fatByte d' (g.copyStart k) j = fatByte d (g.copyStart k) j := by
  have hlo := h.fat k hk (2 * j) (by omega) not_false
  have hhi := h.fat k hk (2 * j + 1) (by omega) not_false
  unfold nib at hlo hhi
  rw [if_pos (by omega), if_pos (by omega), show 2 * j / 2 = j by omega] at hlo
  rw [if_neg (by omega), if_neg (by omega), show (2 * j + 1) / 2 = j by omega] at hhi
  omega

/-- With no table entry in the frame the table is unchanged, byte for byte. -/
theorem fatSector_eq (h : Touches g (fun _ => False) S d d') {lba : Nat} (hl : g.isFatSector lba) :
    d' lba = d lba := by
  obtain ⟨hlo, hhi⟩ := hl
  unfold Globals.getRootDirStart at hhi
  have hspf : 0 < g.bpb.sectorsPerFat := by
    rcases Nat.eq_zero_or_pos g.bpb.sectorsPerFat with h0 | h0
    · rw [h0, Nat.mul_zero] at hhi; omega
    · exact h0
  have hk : (lba - g.bpb.reservedSectors) / g.bpb.sectorsPerFat < g.bpb.fatCount :=
    Nat.div_lt_of_lt_mul (by rw [Nat.mul_comm]; omega)
  have hi := Nat.mod_lt (lba - g.bpb.reservedSectors) hspf
  have hlba : g.copyStart ((lba - g.bpb.reservedSectors) / g.bpb.sectorsPerFat) +
      (lba - g.bpb.reservedSectors) % g.bpb.sectorsPerFat = lba := by
    have := Nat.div_add_mod' (lba - g.bpb.reservedSectors) g.bpb.sectorsPerFat
    unfold Globals.copyStart
    omega
  funext b
  have hb := b.isLt
  have hbyte := h.fatByte_eq hk
    (j := (lba - g.bpb.reservedSectors) % g.bpb.sectorsPerFat * 512 + b.val) (by omega)
  unfold fatByte at hbyte
  rw [show ((lba - g.bpb.reservedSectors) % g.bpb.sectorsPerFat * 512 + b.val) / 512 =
      (lba - g.bpb.reservedSectors) % g.bpb.sectorsPerFat by omega,
    show ((lba - g.bpb.reservedSectors) % g.bpb.sectorsPerFat * 512 + b.val) % 512 = b.val by omega,
    hlba] at hbyte
  have hfin : Fin.ofNat 512 b.val = b := Fin.ext (Nat.mod_eq_of_lt hb)
  unfold Sector.get at hbyte
  rw [hfin] at hbyte
  exact UInt8.toNat_inj.mp hbyte

end Touches

/-! ## The laws of an entry -/

/-- Every sector is that of `d` or that of `d'`: the states between two updates. -/
def Between (d d' e : Disk) : Prop := ∀ lba, e lba = d lba ∨ e lba = d' lba

theorem Between.right (d d' : Disk) : Between d d' d' := fun _ => .inr rfl

theorem fatByte_of_between {d d' e : Disk} (h : Between d d' e) (base j : Nat) :
    fatByte e base j = fatByte d base j ∨ fatByte e base j = fatByte d' base j := by
  unfold fatByte Sector.get
  rcases h (base + j / 512) with h | h <;> simp [h]

theorem Between.touches {g : Globals} {c v : Nat} {d e : Disk} (h : Between d (fatPut g c v d) e) :
    Touches g (fun x => x = c) (fun _ => False) d e := by
  refine ⟨fun k hk q hq hc => ?_, fun lba hl _ => ?_⟩
  · have hb := fatByte_lt d (g.copyStart k) (q / 2)
    have hn := nib_fatPutN hk hq c v d
    unfold patchNib at hn
    rw [if_neg hc] at hn
    rcases fatByte_of_between h (g.copyStart k) (q / 2) with h | h
    · simp only [nib, h]
    · rw [← hn]; simp only [nib, h, fatPut]
  · rcases h lba with h | h
    · exact h
    · rw [h, fatPut_of_not_fatSector hl]

theorem fatPut_touches (g : Globals) (c v : Nat) (d : Disk) :
    Touches g (fun x => x = c) (fun _ => False) d (fatPut g c v d) :=
  (Between.right d _).touches

theorem Touches.of_between {g : Globals} {X S : Nat → Prop} {c v : Nat} {d e : Disk}
    (h : Between d (fatPut g c v d) e) (hX : X c) : Touches g X S d e :=
  h.touches.mono (fun _ hx => hx ▸ hX) (fun _ hs => hs.elim)

theorem Touches.of_fatPut {g : Globals} {X S : Nat → Prop} {c v : Nat} {d e : Disk}
    (h : e = fatPut g c v d) (hX : X c) : Touches g X S d e := by
  subst h
  exact .of_between (Between.right d _) hX

theorem fatValue_fatPut_self {g : Globals} {k c v : Nat} (hk : k < g.bpb.fatCount)
    (hc : g.inTable c) (hv : v < 16 ^ g.fatType.width) (d : Disk) :
    fatValue g.fatType (fatPut g c v d) (g.copyStart k) c = v := by
  have hn : ∀ i < g.fatType.width,
      nib (fatPut g c v d) (g.copyStart k) (g.fatType.width * c + i) = digit v i := by
    intro i hi
    unfold Globals.inTable at hc
    unfold fatPut
    rw [nib_fatPutN hk (by omega)]
    unfold patchNib
    rw [if_pos, Nat.mul_add_mod, Nat.mod_eq_of_lt hi]
    rw [Nat.mul_add_div (by omega), Nat.div_eq_of_lt hi, Nat.add_zero]
  cases ht : g.fatType with
  | fat12 =>
    simp only [ht, FatType.width] at hn hv
    have h0 := hn 0 (by omega)
    simp only [Nat.add_zero] at h0
    simp only [fatValue, h0, hn 1 (by omega), hn 2 (by omega), digit]
    omega
  | fat16 =>
    simp only [ht, FatType.width] at hn hv
    have h0 := hn 0 (by omega)
    simp only [Nat.add_zero] at h0
    simp only [fatValue, h0, hn 1 (by omega), hn 2 (by omega), hn 3 (by omega), digit]
    omega

theorem fatGet_fatPut_self {g : Globals} (hg : g.Valid) {c v : Nat} (hc : g.inTable c)
    (hv : v < 16 ^ g.fatType.width) (d : Disk) : fatGet g (fatPut g c v d) c = v := by
  have := fatValue_fatPut_self hg.fatCount hc hv d
  rwa [copyStart_zero] at this

theorem fatGet_fatPut_of_ne {g : Globals} (hg : g.Valid) {c c' : Nat} (hc' : g.inTable c')
    (hne : c' ≠ c) (v : Nat) (d : Disk) : fatGet g (fatPut g c v d) c' = fatGet g d c' :=
  (fatPut_touches g c v d).fatGet_eq hg hc' hne

end Fat16
end MiniDos
