import MiniDos.Fat.Volume

/-!
# MiniDos.Fat.Boot

The two parsers of a boot sector: `fat16_init` of `fat16.c`, which fills the globals of the driver,
and `detect_fat_type` of `drive.c`, which decides whether an unpartitioned disk is a FAT volume.
Both compute with `unsigned int`, by `Arith.cpu`; under `Arith.exact` a borrow traps as well, so a
computation that comes back under both has neither divided by zero nor wrapped.

* `fat16Init_accepted`: what the driver knows of the globals of a mounted volume.
* `boot_parsers_agree`: the boot sectors on which the two parsers agree and the table has room for
  every cluster.
-/

namespace MiniDos
namespace Fat16

open BlockIO

/-- How `-` and `/` on `unsigned int` are carried out; `none` is a trap. -/
structure Arith where
  sub : Nat → Nat → Option Nat
  div : Nat → Nat → Option Nat

/-- The processor: a subtraction wraps, a zero divisor raises an exception. -/
def Arith.cpu : Arith where
  sub a b := some ((a + 2 ^ 32 - b) % 2 ^ 32)
  div a b := if b = 0 then none else some (a / b)

/-- A borrow traps as well. -/
def Arith.exact : Arith where
  sub a b := if a < b then none else some (a - b)
  div a b := if b = 0 then none else some (a / b)

/-! ## The driver -/

def Bpb.ofSector (s : Sector) : Bpb where
  bytesPerSector := s.word 11
  sectorsPerCluster := (s.get 13).toNat
  reservedSectors := s.word 14
  fatCount := (s.get 16).toNat
  rootEntries := s.word 17
  totalSectors16 := s.word 19
  mediaType := (s.get 21).toNat
  sectorsPerFat := s.word 22
  sectorsPerTrack := s.word 24
  heads := s.word 26
  hiddenSectors := s.dword 28
  totalSectors32 := s.dword 32

def Bpb.totalSectors (b : Bpb) : Nat :=
  if b.totalSectors16 ≠ 0 then b.totalSectors16 else b.totalSectors32

/-- `get_total_clusters`. -/
def Bpb.totalClusters (ar : Arith) (b : Bpb) : Option Nat := do
  let rootDirSectors ← ar.div (b.rootEntries * 32 + (b.bytesPerSector - 1)) b.bytesPerSector
  let dataSectors ← ar.sub b.totalSectors
    (b.reservedSectors + b.fatCount * b.sectorsPerFat + rootDirSectors)
  ar.div dataSectors b.sectorsPerCluster

/-- The bytes `0x55`, `0xAA` at the end of a boot sector. -/
def Signed (s : Sector) : Prop := s.get 510 = 0x55 ∧ s.get 511 = 0xAA

instance (s : Sector) : Decidable (Signed s) := inferInstanceAs (Decidable (_ ∧ _))

/-- `fat16_init` behind the read of sector 0: the globals it leaves and its return value. -/
def fat16Init (ar : Arith) (g : Globals) (s : Sector) : Option (Globals × Bool) :=
  if ¬ Signed s then some (g, false)
  else
    let b := Bpb.ofSector s
    if b.bytesPerSector = 0 ∨ b.sectorsPerFat = 0 ∨ b.rootEntries = 0 then
      some (⟨b, g.fatType⟩, false)
    else do
      let n ← b.totalClusters ar
      if n < 4085 then some (⟨b, .fat12⟩, true)
      else if n < 65525 then some (⟨b, .fat16⟩, true)
      else some (⟨b, g.fatType⟩, false)

/-! ## The drive table -/

/-- `detect_fat_type`: 0x01 for FAT12, 0x06 for FAT16, 0 for anything else. -/
def detectFatType (ar : Arith) (s : Sector) : Option Nat :=
  let bytesPerSector := s.word 11
  let sectorsPerCluster := (s.get 13).toNat
  let reservedSectors := s.word 14
  let fatCount := (s.get 16).toNat
  let rootEntries := s.word 17
  let totalSectors16 := s.word 19
  let sectorsPerFat := s.word 22
  let totalSectors32 := s.dword 32
  let totalSectors := if totalSectors16 ≠ 0 then totalSectors16 else totalSectors32
  if bytesPerSector ≠ sectorSize ∨ sectorsPerCluster = 0 ∨ reservedSectors = 0 ∨ fatCount = 0 ∨
      sectorsPerFat = 0 ∨ rootEntries = 0 ∨ totalSectors = 0 then some 0
  else do
    let rootDirSectors ← ar.div (rootEntries * 32 + (bytesPerSector - 1)) bytesPerSector
    if totalSectors ≤ reservedSectors + fatCount * sectorsPerFat + rootDirSectors then some 0
    else do
      let dataSectors ← ar.sub totalSectors
        (reservedSectors + fatCount * sectorsPerFat + rootDirSectors)
      let clusterCount ← ar.div dataSectors sectorsPerCluster
      if clusterCount < 4085 then some 0x01
      else if clusterCount < 65525 then some 0x06
      else some 0

def FatType.fsType : FatType → Nat
  | .fat12 => 0x01
  | .fat16 => 0x06

/-! ## Bounds of the fields -/

theorem Sector.word_lt (s : Sector) (i : Nat) : s.word i < 65536 := by
  have h := (s.get i).toNat_lt
  have h' := (s.get (i + 1)).toNat_lt
  unfold Sector.word
  omega

theorem Sector.dword_lt (s : Sector) (i : Nat) : s.dword i < 2 ^ 32 := by
  have h := s.word_lt i
  have h' := s.word_lt (i + 2)
  unfold Sector.dword
  omega

/-- Sectors in front of the data area. -/
def Bpb.overhead (b : Bpb) : Nat :=
  b.reservedSectors + b.fatCount * b.sectorsPerFat +
    (b.rootEntries * 32 + (b.bytesPerSector - 1)) / b.bytesPerSector

theorem totalSectors_lt (s : Sector) : (Bpb.ofSector s).totalSectors < 2 ^ 32 := by
  have h := s.word_lt 19
  have h' := s.dword_lt 32
  simp only [Bpb.totalSectors, Bpb.ofSector]
  by_cases hz : s.word 19 = 0
  · simpa [hz] using h'
  · simp only [ne_eq, hz, not_false_eq_true, if_true]
    omega

theorem overhead_lt (s : Sector) : (Bpb.ofSector s).overhead < 20000000 := by
  have hr := s.word_lt 14
  have hf := (s.get 16).toNat_lt
  have hs := s.word_lt 22
  have hn := s.word_lt 17
  have hb := s.word_lt 11
  have hfat : (s.get 16).toNat * s.word 22 ≤ 255 * 65535 := Nat.mul_le_mul (by omega) (by omega)
  have hroot : (s.word 17 * 32 + (s.word 11 - 1)) / s.word 11 ≤ s.word 17 * 32 + (s.word 11 - 1) :=
    Nat.div_le_self _ _
  simp only [Bpb.overhead, Bpb.ofSector]
  omega

def Bpb.clusters (b : Bpb) : Nat := (b.totalSectors - b.overhead) / b.sectorsPerCluster

/-! ## How the computations end -/

/-- Where there is no borrow and no zero divisor, both arithmetics compute the same. -/
structure Arith.Sound (ar : Arith) : Prop where
  sub : ∀ a b, b ≤ a → a < 2 ^ 32 → ar.sub a b = some (a - b)
  div : ∀ a b, b ≠ 0 → ar.div a b = some (a / b)

theorem cpu_sound : Arith.cpu.Sound where
  sub a b hle hlt := by
    simp only [Arith.cpu, Option.some.injEq]
    omega
  div a b hb := by simp [Arith.cpu, hb]

theorem exact_sound : Arith.exact.Sound where
  sub a b hle _ := by simp [Arith.exact, Nat.not_lt.mpr hle]
  div a b hb := by simp [Arith.exact, hb]

theorem totalClusters_sound {ar : Arith} (har : ar.Sound) (s : Sector)
    (hb : (Bpb.ofSector s).bytesPerSector ≠ 0) (hs : (Bpb.ofSector s).sectorsPerCluster ≠ 0)
    (hle : (Bpb.ofSector s).overhead ≤ (Bpb.ofSector s).totalSectors) :
    (Bpb.ofSector s).totalClusters ar = some (Bpb.ofSector s).clusters := by
  have hdata := har.sub _ _ hle (totalSectors_lt s)
  unfold Bpb.overhead at hdata
  simp only [Bpb.totalClusters, har.div _ _ hb, bind, Option.bind_some, hdata, har.div _ _ hs,
    Bpb.clusters, Bpb.overhead]

theorem totalClusters_borrow {b : Bpb} (hb : b.bytesPerSector ≠ 0)
    (hlt : b.totalSectors < b.overhead) : b.totalClusters .exact = none := by
  unfold Bpb.overhead at hlt
  simp [Bpb.totalClusters, Arith.exact, hb, hlt]

theorem totalClusters_zero {b : Bpb} (hb : b.bytesPerSector ≠ 0) (hs : b.sectorsPerCluster = 0) :
    b.totalClusters .cpu = none := by
  simp [Bpb.totalClusters, Arith.cpu, hb, hs]

theorem totalClusters_wraps (s : Sector) (hb : (Bpb.ofSector s).bytesPerSector ≠ 0)
    (hs : (Bpb.ofSector s).sectorsPerCluster ≠ 0)
    (hlt : (Bpb.ofSector s).totalSectors < (Bpb.ofSector s).overhead) :
    ∃ n, 65525 ≤ n ∧ (Bpb.ofSector s).totalClusters .cpu = some n := by
  have hover := overhead_lt s
  have hspc : (Bpb.ofSector s).sectorsPerCluster < 256 := (s.get 13).toNat_lt
  have heval : (Bpb.ofSector s).totalClusters .cpu =
      some (((Bpb.ofSector s).totalSectors + 2 ^ 32 - (Bpb.ofSector s).overhead) % 2 ^ 32 /
        (Bpb.ofSector s).sectorsPerCluster) := by
    simp [Bpb.totalClusters, Bpb.overhead, Arith.cpu, hb, hs]
  refine ⟨_, ?_, heval⟩
  rw [Nat.mod_eq_of_lt (by omega), Nat.le_div_iff_mul_le (by omega)]
  have : 65525 * (Bpb.ofSector s).sectorsPerCluster ≤ 65525 * 255 :=
    Nat.mul_le_mul_left _ (by omega)
  omega

/-- What `fat16_init` reaches its computation with. -/
def Bpb.Filled (b : Bpb) : Prop :=
  b.bytesPerSector ≠ 0 ∧ b.sectorsPerFat ≠ 0 ∧ b.rootEntries ≠ 0

def typeOfCount (n : Nat) : Option FatType :=
  if n < 4085 then some .fat12 else if n < 65525 then some .fat16 else none

section Signed

variable {s : Sector} (hs : Signed s) (g : Globals) (ar : Arith)

include hs

theorem fat16Init_unfilled (hb : ¬ (Bpb.ofSector s).Filled) :
    fat16Init ar g s = some (⟨Bpb.ofSector s, g.fatType⟩, false) := by
  have hb' : (Bpb.ofSector s).bytesPerSector = 0 ∨ (Bpb.ofSector s).sectorsPerFat = 0 ∨
      (Bpb.ofSector s).rootEntries = 0 := by
    unfold Bpb.Filled at hb
    omega
  simp [fat16Init, hs, hb']

theorem fat16Init_filled (hb : (Bpb.ofSector s).Filled) :
    fat16Init ar g s = ((Bpb.ofSector s).totalClusters ar).map (fun n =>
      match typeOfCount n with
      | some t => (⟨Bpb.ofSector s, t⟩, true)
      | none => (⟨Bpb.ofSector s, g.fatType⟩, false)) := by
  cases h : (Bpb.ofSector s).totalClusters ar with
  | none => simp [fat16Init, hs, hb.1, hb.2.1, hb.2.2, h]
  | some n =>
    by_cases h1 : n < 4085
    · simp [fat16Init, hs, hb.1, hb.2.1, hb.2.2, h, typeOfCount, h1]
    · by_cases h2 : n < 65525
      · simp [fat16Init, hs, hb.1, hb.2.1, hb.2.2, h, typeOfCount, h1, h2]
      · simp [fat16Init, hs, hb.1, hb.2.1, hb.2.2, h, typeOfCount, h1, h2]

theorem fat16Init_accepted {g' : Globals} (h : fat16Init .cpu g s = some (g', true)) :
    g'.bpb = Bpb.ofSector s ∧ g'.bpb.Filled ∧ g'.bpb.sectorsPerCluster ≠ 0 ∧
      g'.bpb.overhead ≤ g'.bpb.totalSectors ∧ typeOfCount g'.bpb.clusters = some g'.fatType := by
  by_cases hb : (Bpb.ofSector s).Filled
  · rw [fat16Init_filled hs g .cpu hb] at h
    by_cases hspc : (Bpb.ofSector s).sectorsPerCluster = 0
    · simp [totalClusters_zero hb.1 hspc] at h
    · by_cases hle : (Bpb.ofSector s).overhead ≤ (Bpb.ofSector s).totalSectors
      · rw [totalClusters_sound cpu_sound s hb.1 hspc hle, Option.map_some] at h
        cases ht : typeOfCount (Bpb.ofSector s).clusters with
        | none => simp [ht] at h
        | some t =>
          simp only [ht, Option.some.injEq, Prod.mk.injEq, and_true] at h
          subst h
          exact ⟨rfl, hb, hspc, hle, ht⟩
      · obtain ⟨n, hn, he⟩ := totalClusters_wraps s hb.1 hspc (by omega)
        have ht : typeOfCount n = none := by
          simp only [typeOfCount, if_neg (show ¬ n < 4085 by omega),
            if_neg (show ¬ n < 65525 by omega)]
        simp [he, ht] at h
  · simp [fat16Init_unfilled hs g .cpu hb] at h

end Signed

/-- The fields as `detect_fat_type` wants them. -/
def Bpb.Formatted (b : Bpb) : Prop :=
  b.bytesPerSector = sectorSize ∧ b.sectorsPerCluster ≠ 0 ∧ b.reservedSectors ≠ 0 ∧
    b.fatCount ≠ 0 ∧ b.sectorsPerFat ≠ 0 ∧ b.rootEntries ≠ 0 ∧ b.overhead < b.totalSectors

section Detect

variable {ar : Arith} (har : ar.Sound) (s : Sector)

include har

theorem detectFatType_formatted (hb : (Bpb.ofSector s).Formatted) :
    detectFatType ar s =
      some (((typeOfCount (Bpb.ofSector s).clusters).map FatType.fsType).getD 0) := by
  obtain ⟨h1, h2, h3, h4, h5, h6, h7⟩ := hb
  have htotal := totalSectors_lt s
  have hne : (Bpb.ofSector s).totalSectors ≠ 0 := by omega
  have hrefuse : ¬ (s.word 11 ≠ sectorSize ∨ (s.get 13).toNat = 0 ∨ s.word 14 = 0 ∨
      (s.get 16).toNat = 0 ∨ s.word 22 = 0 ∨ s.word 17 = 0 ∨ (Bpb.ofSector s).totalSectors = 0) := by
    rintro (h | h | h | h | h | h | h)
    exacts [h h1, h2 h, h3 h, h4 h, h5 h, h6 h, hne h]
  have hbytes : s.word 11 ≠ 0 := by
    rw [show s.word 11 = sectorSize from h1]
    decide
  have hroot := har.div (s.word 17 * 32 + (s.word 11 - 1)) (s.word 11) hbytes
  have hdata := har.sub (Bpb.ofSector s).totalSectors (Bpb.ofSector s).overhead (Nat.le_of_lt h7) htotal
  have hcount := har.div ((Bpb.ofSector s).totalSectors - (Bpb.ofSector s).overhead)
    (Bpb.ofSector s).sectorsPerCluster h2
  have heval : detectFatType ar s = ((ar.sub (Bpb.ofSector s).totalSectors
      (Bpb.ofSector s).overhead).bind (ar.div · (Bpb.ofSector s).sectorsPerCluster)).bind
      (fun n => if n < 4085 then some 0x01 else if n < 65525 then some 0x06 else some 0) := by
    unfold detectFatType
    simp only [show ¬ (s.word 11 ≠ sectorSize ∨ (s.get 13).toNat = 0 ∨ s.word 14 = 0 ∨
      (s.get 16).toNat = 0 ∨ s.word 22 = 0 ∨ s.word 17 = 0 ∨
      (if s.word 19 ≠ 0 then s.word 19 else s.dword 32) = 0) from hrefuse, if_false, hroot,
      Option.bind_some, bind]
    refine (if_neg (Nat.not_le.mpr h7)).trans ?_
    rw [Option.bind_assoc]
    rfl
  rw [heval, hdata, Option.bind_some, hcount, Option.bind_some, Bpb.clusters, typeOfCount]
  split
  · rfl
  · split
    · rfl
    · rfl

theorem detectFatType_unformatted (hb : ¬ (Bpb.ofSector s).Formatted) :
    detectFatType ar s = some 0 := by
  by_cases hrefuse : s.word 11 ≠ sectorSize ∨ (s.get 13).toNat = 0 ∨ s.word 14 = 0 ∨
      (s.get 16).toNat = 0 ∨ s.word 22 = 0 ∨ s.word 17 = 0 ∨
      (if s.word 19 ≠ 0 then s.word 19 else s.dword 32) = 0
  · unfold detectFatType
    simp only [hrefuse, if_true]
  · have hbytes : s.word 11 ≠ 0 := by
      intro h
      exact hrefuse (.inl (by rw [h]; decide))
    have hroot := har.div (s.word 17 * 32 + (s.word 11 - 1)) (s.word 11) hbytes
    have hle : (Bpb.ofSector s).totalSectors ≤ (Bpb.ofSector s).overhead := by
      by_contra hlt
      simp only [not_or, not_not] at hrefuse
      obtain ⟨h1, h2, h3, h4, h5, h6, _⟩ := hrefuse
      exact hb ⟨h1, h2, h3, h4, h5, h6, by omega⟩
    unfold detectFatType
    simp only [hrefuse, if_false, hroot, Option.bind_some, bind]
    exact if_pos hle

end Detect

/-! ## Agreement -/

/-- On this boot sector the driver mounts what the drive table recognises, with the same type, none
of the two computations traps or wraps, and the table of a mounted volume has an entry for every
cluster. -/
structure ParsersAgree (g : Globals) (s : Sector) : Prop where
  initExact : ∃ r, fat16Init .exact g s = some r ∧ fat16Init .cpu g s = some r
  detectExact : ∃ r, detectFatType .exact s = some r ∧ detectFatType .cpu s = some r
  accepts : (∃ g', fat16Init .cpu g s = some (g', true)) ↔
    ∃ t : FatType, detectFatType .cpu s = some t.fsType
  sameType : ∀ g', fat16Init .cpu g s = some (g', true) →
    detectFatType .cpu s = some g'.fatType.fsType
  inTable : ∀ g', fat16Init .cpu g s = some (g', true) → ∀ c, g'.isDataCluster c = true →
    g'.inTable c

/-- The count of clusters is too large for FAT16, or the fields are as a formatter leaves them and
the table has room. -/
def Bpb.Settled (b : Bpb) : Prop :=
  65525 ≤ b.clusters ∨ b.Formatted ∧ (b.clusters = 0 ∨
    (if b.clusters < 4085 then 3 else 4) * (b.clusters + 2) ≤ 1024 * b.sectorsPerFat)

/-- A field that `fat16_init` checks is zero, or there are sectors per cluster, the overhead fits
into the volume, and the fields are settled. -/
def BootSound (s : Sector) : Prop :=
  (Bpb.ofSector s).Filled → (Bpb.ofSector s).sectorsPerCluster ≠ 0 ∧
    (Bpb.ofSector s).overhead ≤ (Bpb.ofSector s).totalSectors ∧ (Bpb.ofSector s).Settled

theorem getTotalClusters_eq {g : Globals} (hle : g.bpb.overhead ≤ g.bpb.totalSectors)
    (hlt : g.bpb.totalSectors < 2 ^ 32) : g.getTotalClusters = g.bpb.clusters := by
  unfold Globals.getTotalClusters Bpb.clusters
  congr 1
  have htotal : g.getTotalSectors = g.bpb.totalSectors := rfl
  have hover : g.bpb.reservedSectors + g.bpb.fatCount * g.bpb.sectorsPerFat + g.getRootDirSectors =
      g.bpb.overhead := rfl
  rw [htotal, hover]
  omega

theorem typeOfCount_eq_none {n : Nat} : typeOfCount n = none ↔ 65525 ≤ n := by
  unfold typeOfCount
  split
  · simp only [reduceCtorEq, false_iff]
    omega
  · split
    · simp only [reduceCtorEq, false_iff]
      omega
    · simp only [true_iff]
      omega

theorem typeOfCount_width {n : Nat} {t : FatType} (h : typeOfCount n = some t) :
    t.width = if n < 4085 then 3 else 4 := by
  unfold typeOfCount at h
  split at h
  case isTrue hn =>
    cases h
    rw [if_pos hn]
    rfl
  case isFalse hn =>
    split at h
    · cases h
      rw [if_neg hn]
      rfl
    · cases h

theorem fsType_ne_zero (t : FatType) : t.fsType ≠ 0 := by cases t <;> decide

theorem Bpb.Formatted.filled {b : Bpb} (h : b.Formatted) : b.Filled := by
  obtain ⟨h1, _, _, _, h5, h6, _⟩ := h
  refine ⟨?_, h5, h6⟩
  rw [h1]
  decide

section Agreement

variable {s : Sector} (hs : Signed s) (g : Globals)

include hs

theorem parsersAgree_of_sound (h : BootSound s) : ParsersAgree g s := by
  by_cases hb : (Bpb.ofSector s).Filled
  case neg =>
    -- both turn the sector down before they compute anything
    have hdetect : ∀ {ar : Arith}, ar.Sound → detectFatType ar s = some 0 := fun har =>
      detectFatType_unformatted har s (fun hf => hb hf.filled)
    have hinit := fun ar => fat16Init_unfilled hs g ar hb
    constructor
    · exact ⟨_, hinit .exact, hinit .cpu⟩
    · exact ⟨0, hdetect exact_sound, hdetect cpu_sound⟩
    · simp only [hinit, hdetect cpu_sound, Option.some.injEq, Prod.mk.injEq, Bool.false_eq_true,
        and_false, exists_false, false_iff, not_exists]
      exact fun t ht => fsType_ne_zero t ht.symm
    · simp [hinit]
    · simp [hinit]
  case pos =>
    obtain ⟨hspc, hle, hset⟩ := h hb
    have hinit : ∀ {ar : Arith}, ar.Sound → fat16Init ar g s = some (
        match typeOfCount (Bpb.ofSector s).clusters with
        | some t => (⟨Bpb.ofSector s, t⟩, true)
        | none => (⟨Bpb.ofSector s, g.fatType⟩, false)) := by
      intro ar har
      rw [fat16Init_filled hs g ar hb, totalClusters_sound har s hb.1 hspc hle, Option.map_some]
    cases ht : typeOfCount (Bpb.ofSector s).clusters with
    | none =>
      have hdetect : ∀ {ar : Arith}, ar.Sound → detectFatType ar s = some 0 := by
        intro ar har
        by_cases hf : (Bpb.ofSector s).Formatted
        · rw [detectFatType_formatted har s hf, ht]
          rfl
        · exact detectFatType_unformatted har s hf
      simp only [ht] at hinit
      constructor
      · exact ⟨_, hinit exact_sound, hinit cpu_sound⟩
      · exact ⟨0, hdetect exact_sound, hdetect cpu_sound⟩
      · simp only [hinit cpu_sound, hdetect cpu_sound, Option.some.injEq, Prod.mk.injEq,
          Bool.false_eq_true, and_false, exists_false, false_iff, not_exists]
        exact fun t ht => fsType_ne_zero t ht.symm
      · simp [hinit cpu_sound]
      · simp [hinit cpu_sound]
    | some t =>
      have hsmall : ¬ 65525 ≤ (Bpb.ofSector s).clusters := by
        rw [← typeOfCount_eq_none, ht]
        exact Option.some_ne_none t
      obtain ⟨hf, hroom⟩ := hset.resolve_left hsmall
      have hdetect : ∀ {ar : Arith}, ar.Sound → detectFatType ar s = some t.fsType := by
        intro ar har
        rw [detectFatType_formatted har s hf, ht]
        rfl
      simp only [ht] at hinit
      have hmount : ∀ g', fat16Init .cpu g s = some (g', true) → g' = ⟨Bpb.ofSector s, t⟩ := by
        intro g' he
        rw [hinit cpu_sound] at he
        simp only [Option.some.injEq, Prod.mk.injEq, and_true] at he
        exact he.symm
      constructor
      · exact ⟨_, hinit exact_sound, hinit cpu_sound⟩
      · exact ⟨_, hdetect exact_sound, hdetect cpu_sound⟩
      · exact ⟨fun _ => ⟨t, hdetect cpu_sound⟩, fun _ => ⟨_, hinit cpu_sound⟩⟩
      · intro g' he
        rw [hmount g' he]
        exact hdetect cpu_sound
      · intro g' he c hc
        rw [hmount g' he] at hc ⊢
        obtain ⟨h2, hmax⟩ := isDataCluster_iff.mp hc
        rw [getTotalClusters_eq hle (totalSectors_lt s)] at hmax
        change c ≤ (Bpb.ofSector s).clusters + 1 at hmax
        have hwide := hroom.resolve_left (by omega)
        rw [← typeOfCount_width ht] at hwide
        have hmul : t.width * (c + 1) ≤ t.width * ((Bpb.ofSector s).clusters + 2) :=
          Nat.mul_le_mul_left _ (by omega)
        rw [Nat.mul_add] at hmul
        show t.width * c + t.width ≤ 1024 * (Bpb.ofSector s).sectorsPerFat
        omega

theorem sound_of_parsersAgree (h : ParsersAgree g s) : BootSound s := by
  intro hb
  obtain ⟨r, hexact, hcpu⟩ := h.initExact
  have hspc : (Bpb.ofSector s).sectorsPerCluster ≠ 0 := by
    intro hz
    rw [fat16Init_filled hs g _ hb, totalClusters_zero hb.1 hz] at hcpu
    cases hcpu
  have hle : (Bpb.ofSector s).overhead ≤ (Bpb.ofSector s).totalSectors := by
    by_contra hlt
    rw [fat16Init_filled hs g _ hb, totalClusters_borrow hb.1 (by omega)] at hexact
    cases hexact
  refine ⟨hspc, hle, ?_⟩
  cases ht : typeOfCount (Bpb.ofSector s).clusters with
  | none => exact .inl (typeOfCount_eq_none.mp ht)
  | some t =>
    have hmount : fat16Init .cpu g s = some (⟨Bpb.ofSector s, t⟩, true) := by
      rw [fat16Init_filled hs g _ hb, totalClusters_sound cpu_sound s hb.1 hspc hle,
        Option.map_some, ht]
    refine .inr ⟨?_, ?_⟩
    · by_contra hf
      have hdetect := h.sameType _ hmount
      rw [detectFatType_unformatted cpu_sound s hf] at hdetect
      exact fsType_ne_zero t (Option.some.inj hdetect).symm
    · by_cases hz : (Bpb.ofSector s).clusters = 0
      · exact .inl hz
      · -- the entry of the last cluster
        have hlast : (⟨Bpb.ofSector s, t⟩ : Globals).isDataCluster
            ((Bpb.ofSector s).clusters + 1) = true := by
          rw [isDataCluster_iff, getTotalClusters_eq hle (totalSectors_lt s)]
          exact ⟨by omega, Nat.le_refl _⟩
        have hin := h.inTable _ hmount _ hlast
        unfold Globals.inTable at hin
        rw [← typeOfCount_width ht, Nat.mul_add]
        simp only [Nat.mul_add] at hin
        right
        omega

/-- The parsers agree exactly on the sound boot sectors. -/
theorem boot_parsers_agree : ParsersAgree g s ↔ BootSound s :=
  ⟨sound_of_parsersAgree hs g, parsersAgree_of_sound hs g⟩

end Agreement

def bootSector (sectorsPerCluster : Byte) : Sector :=
  ((((((((Sector.zero.set 12 2).set 13 sectorsPerCluster).set 14 1).set 16 2).set 17 16).set 19 20).set
    22 1).set 510 0x55).set 511 0xAA

theorem boot_parsers_agree_small :
    Signed (bootSector 1) ∧ ParsersAgree smallVolume (bootSector 1) := by
  have hsigned : Signed (bootSector 1) := by decide
  refine ⟨hsigned, (boot_parsers_agree hsigned smallVolume).mpr (fun _ => ⟨by decide, by decide, ?_⟩)⟩
  exact .inr ⟨⟨rfl, by decide, by decide, by decide, by decide, by decide, by decide⟩, .inr (by decide)⟩

/-- No sectors per cluster: the drive table turns the sector down, `fat16_init` divides by zero. -/
theorem fat16Init_divides_by_zero : Signed (bootSector 0) ∧
    detectFatType .cpu (bootSector 0) = some 0 ∧ fat16Init .cpu smallVolume (bootSector 0) = none ∧
      ¬ ParsersAgree smallVolume (bootSector 0) := by
  have htrap : fat16Init .cpu smallVolume (bootSector 0) = none := by decide
  refine ⟨by decide, by decide, htrap, fun h => ?_⟩
  obtain ⟨r, _, hcpu⟩ := h.initExact
  rw [htrap] at hcpu
  cases hcpu

end Fat16
end MiniDos
