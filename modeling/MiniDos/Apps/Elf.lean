import MiniDos.Apps.Slot

/-!
# MiniDos.Apps.Elf

Loading an ELF image (`shell_apps_launch.inc`). The file is a string of bytes of any length and
content; an access behind its end is `none`.

* `probeElfImage`, `loadElfImage`: the checks and the load of the source, which makes them twice.
* `SegmentOk`: what a probe that succeeds has found out about every header.
* `imageByte`: the byte of the image at an address, from the last segment that covers it.
* `elf_loads`: no access behind the end of the file, and what a probed image loads to.
-/

namespace MiniDos
namespace Apps

open Sched Cells

/-! ## The file -/

/-- `n` bytes of the file from `i` on. -/
def fileBytes (data : List UInt8) : Nat → Nat → Option (List UInt8)
  | _, 0 => some []
  | i, n + 1 => do
    let b ← data[i]?
    let bs ← fileBytes data (i + 1) n
    some (b :: bs)

def halfAt (bs : List UInt8) (i : Nat) : Nat := (bs.getD i 0).toNat + 256 * (bs.getD (i + 1) 0).toNat

def wordAt (bs : List UInt8) (i : Nat) : Nat := halfAt bs i + 65536 * halfAt bs (i + 2)

/-- `elf32_header_t`. -/
structure Elf32Header where
  ident : List UInt8
  type : Nat
  machine : Nat
  version : Nat
  entry : Nat
  phoff : Nat
  phentsize : Nat
  phnum : Nat

def headerSize : Nat := 52

def headerOf (bs : List UInt8) : Elf32Header where
  ident := bs.take 16
  type := halfAt bs 16
  machine := halfAt bs 18
  version := wordAt bs 20
  entry := wordAt bs 24
  phoff := wordAt bs 28
  phentsize := halfAt bs 42
  phnum := halfAt bs 44

/-- `elf32_program_header_t`. -/
structure Elf32ProgramHeader where
  type : Nat
  offset : Nat
  vaddr : Nat
  filesz : Nat
  memsz : Nat

def programHeaderSize : Nat := 32

def programHeaderOf (bs : List UInt8) : Elf32ProgramHeader where
  type := wordAt bs 0
  offset := wordAt bs 4
  vaddr := wordAt bs 8
  filesz := wordAt bs 16
  memsz := wordAt bs 20

def readHeader (data : List UInt8) : Option Elf32Header := do
  let bs ← fileBytes data 0 headerSize
  some (headerOf bs)

/-- Program header `i`. -/
def readProgramHeader (data : List UInt8) (ehdr : Elf32Header) (i : Nat) :
    Option Elf32ProgramHeader := do
  let bs ← fileBytes data (ehdr.phoff + i * ehdr.phentsize) programHeaderSize
  some (programHeaderOf bs)

/-! ## `shell_apps_probe_elf_image` -/

/-- The loop over the program headers from `i` on, with `n` of them left: the highest end of a
segment and whether there was one, or `none` when it returned -1. -/
def probeSegments (data : List UInt8) (ehdr : Elf32Header) :
    Nat → Nat → Nat → Bool → Option (Option (Nat × Bool))
  | 0, _, highestEnd, sawLoad => some (some (highestEnd, sawLoad))
  | n + 1, i, highestEnd, sawLoad => do
    let phdr ← readProgramHeader data ehdr i
    if phdr.type ≠ 1 then probeSegments data ehdr n (i + 1) highestEnd sawLoad
    else if phdr.memsz = 0 then probeSegments data ehdr n (i + 1) highestEnd sawLoad
    else if phdr.memsz < phdr.filesz then some none
    else if data.length < phdr.offset ∨ data.length - phdr.offset < phdr.filesz then some none
    else if phdr.vaddr < loadVirtBase ∨ 0xFFFFFFFF - phdr.vaddr < phdr.memsz then some none
    else
      let segmentEnd := (phdr.vaddr + phdr.memsz) % 2 ^ 32
      if userImageLimitForSlot slotMaxSize < segmentEnd then some none
      else
        probeSegments data ehdr n (i + 1)
          (if highestEnd < segmentEnd then segmentEnd else highestEnd) true

/-- The checks of the header in front of that loop. -/
def headerAccepted (data : List UInt8) (ehdr : Elf32Header) : Bool :=
  !(ehdr.ident.getD 0 0 != 0x7F || ehdr.ident.getD 1 0 != 0x45 || ehdr.ident.getD 2 0 != 0x4C ||
    ehdr.ident.getD 3 0 != 0x46) &&
  !(ehdr.ident.getD 4 0 != 1 || ehdr.ident.getD 5 0 != 1 || ehdr.version != 1) &&
  !(ehdr.type != 2 || ehdr.machine != 3) &&
  ehdr.phentsize == programHeaderSize &&
  !(ehdr.phnum == 0 || decide (16 < ehdr.phnum)) &&
  !decide (data.length < ehdr.phoff) &&
  !decide (data.length - ehdr.phoff < ehdr.phnum * ehdr.phentsize)

/-- Entry point and slot size; `none`: it returned -1. -/
def probeElfImage (data : List UInt8) : Option (Option (Nat × Nat)) :=
  if data.length < headerSize then some none
  else do
    let ehdr ← readHeader data
    if !headerAccepted data ehdr then some none
    else do
      let r ← probeSegments data ehdr ehdr.phnum 0 loadVirtBase false
      match r with
      | none => some none
      | some (highestEnd, sawLoad) =>
        if !sawLoad then some none
        else
          let slotBytes := requiredSlotBytes (highestEnd - loadVirtBase)
          let imageLimit := userImageLimitForSlot slotBytes
          if slotBytes = 0 ∨ imageLimit = 0 ∨ imageLimit < highestEnd then some none
          else if ehdr.entry < loadVirtBase ∨ imageLimit ≤ ehdr.entry then some none
          else some (some (ehdr.entry, slotBytes))

/-! ## `shell_apps_load_elf_image` -/

/-- One segment stored: its bytes of the file, and zeros behind them. -/
def loadSegment (mem : Memory) (loadPhysBase : Nat) (phdr : Elf32ProgramHeader)
    (bs : List UInt8) : Memory :=
  let dst := (loadPhysBase + (phdr.vaddr - loadVirtBase)) % 2 ^ 32
  let mem := storeBytes mem dst bs
  if phdr.filesz < phdr.memsz then
    memZero mem ((dst + phdr.filesz) % 2 ^ 32) (phdr.memsz - phdr.filesz)
  else mem

/-- The loop over the program headers; `false`: it returned -1. -/
def loadSegments (data : List UInt8) (ehdr : Elf32Header) (loadPhysBase imageLimit : Nat) :
    Nat → Nat → Memory → Option (Bool × Memory)
  | 0, _, mem => some (true, mem)
  | n + 1, i, mem => do
    let phdr ← readProgramHeader data ehdr i
    if phdr.type ≠ 1 ∨ phdr.memsz = 0 then
      loadSegments data ehdr loadPhysBase imageLimit n (i + 1) mem
    else
      let segmentEnd := (phdr.vaddr + phdr.memsz) % 2 ^ 32
      if phdr.vaddr < loadVirtBase ∨ imageLimit < segmentEnd then some (false, mem)
      else do
        let bs ← fileBytes data phdr.offset phdr.filesz
        loadSegments data ehdr loadPhysBase imageLimit n (i + 1)
          (loadSegment mem loadPhysBase phdr bs)

/-- The memory, and the entry point or `none` when it returned -1. -/
def loadElfImage (data : List UInt8) (loadPhysBase slotBytes : Nat) (mem : Memory) :
    Option (Memory × Option Nat) :=
  if data.length < headerSize then some (mem, none)
  else do
    let ehdr ← readHeader data
    let imageLimit := userImageLimitForSlot slotBytes
    if imageLimit = 0 then some (mem, none)
    else do
      let probed ← probeElfImage data
      match probed with
      | none => some (mem, none)
      | some (_, requiredSlotBytes) =>
        if slotBytes < requiredSlotBytes then some (mem, none)
        else do
          let r ← loadSegments data ehdr loadPhysBase imageLimit ehdr.phnum 0 mem
          if !r.1 then some (r.2, none)
          else if ehdr.entry < loadVirtBase ∨ imageLimit ≤ ehdr.entry then some (r.2, none)
          else some (r.2, some ehdr.entry)

/-! ## What is read lies in the file -/

section Reading

variable {data : List UInt8}

theorem fileBytes_eq {n : Nat} : ∀ {i : Nat}, i + n ≤ data.length →
    fileBytes data i n = some ((data.drop i).take n) := by
  induction n with
  | zero =>
    intro i _
    simp [fileBytes]
  | succ n ih =>
    intro i h
    have hi : i < data.length := by omega
    have hrest := ih (i := i + 1) (by omega)
    rw [List.drop_eq_getElem_cons hi, List.take_succ_cons]
    simp [fileBytes, hi, hrest]

/-- The header of a file that is long enough to have one. -/
def headerIn (data : List UInt8) : Elf32Header := headerOf (data.take headerSize)

theorem readHeader_eq (h : headerSize ≤ data.length) : readHeader data = some (headerIn data) := by
  have hbytes : fileBytes data 0 headerSize = some ((data.drop 0).take headerSize) :=
    fileBytes_eq (by omega)
  simp only [readHeader, hbytes, List.drop_zero, Option.bind_eq_bind, Option.bind_some, headerIn]

def programHeaderAt (data : List UInt8) (ehdr : Elf32Header) (i : Nat) : Elf32ProgramHeader :=
  programHeaderOf ((data.drop (ehdr.phoff + i * ehdr.phentsize)).take programHeaderSize)

def programHeaders (data : List UInt8) (ehdr : Elf32Header) : List Elf32ProgramHeader :=
  (List.range' 0 ehdr.phnum).map (programHeaderAt data ehdr)

/-- Headers `i` to `i + n` of the table lie in the file. -/
def TableFits (data : List UInt8) (ehdr : Elf32Header) (i n : Nat) : Prop :=
  ∀ j ∈ List.range' i n, ehdr.phoff + j * ehdr.phentsize + programHeaderSize ≤ data.length

variable {ehdr : Elf32Header} {i n : Nat}

theorem TableFits.head (h : TableFits data ehdr i (n + 1)) :
    readProgramHeader data ehdr i = some (programHeaderAt data ehdr i) := by
  have hi := h i (by simp)
  simp [readProgramHeader, fileBytes_eq hi, programHeaderAt]

theorem TableFits.tail (h : TableFits data ehdr i (n + 1)) : TableFits data ehdr (i + 1) n := by
  intro j hj
  exact h j (by simp [List.range'_succ, hj])

theorem headerAccepted_fits (h : headerAccepted data ehdr = true) :
    TableFits data ehdr 0 ehdr.phnum := by
  simp only [headerAccepted, Bool.and_eq_true, beq_iff_eq, Bool.not_eq_true', decide_eq_false_iff_not,
    Nat.not_lt] at h
  obtain ⟨⟨⟨⟨-, hsize⟩, -⟩, hoff⟩, htable⟩ := h
  intro j hj
  have hj : j < ehdr.phnum := by simpa [List.mem_range'_1] using hj
  have hentry := Nat.mul_le_mul_right ehdr.phentsize (Nat.succ_le_of_lt hj)
  rw [Nat.succ_mul] at hentry
  simp only [hsize] at htable hentry ⊢
  omega

end Reading

/-! ## The probe -/

def Elf32ProgramHeader.Loads (phdr : Elf32ProgramHeader) : Prop := phdr.type = 1 ∧ phdr.memsz ≠ 0

instance (phdr : Elf32ProgramHeader) : Decidable phdr.Loads :=
  inferInstanceAs (Decidable (_ ∧ _))

/-- A segment whose bytes are in the file and whose place is in an image that ends at `limit`. -/
structure SegmentOk (data : List UInt8) (limit : Nat) (phdr : Elf32ProgramHeader) : Prop where
  filesz_le : phdr.filesz ≤ phdr.memsz
  inFile : phdr.offset + phdr.filesz ≤ data.length
  aboveBase : loadVirtBase ≤ phdr.vaddr
  belowLimit : phdr.vaddr + phdr.memsz ≤ limit
  noWrap : phdr.vaddr + phdr.memsz < 2 ^ 32

theorem SegmentOk.mono {data : List UInt8} {limit limit' : Nat} {phdr : Elf32ProgramHeader}
    (h : SegmentOk data limit phdr) (hle : limit ≤ limit') : SegmentOk data limit' phdr :=
  { h with belowLimit := Nat.le_trans h.belowLimit hle }

section Probe

variable {data : List UInt8} {ehdr : Elf32Header}

theorem probeSegments_spec {n : Nat} : ∀ (i highestEnd : Nat) (sawLoad : Bool),
    TableFits data ehdr i n →
    ∃ r, probeSegments data ehdr n i highestEnd sawLoad = some r ∧
      ∀ end' saw', r = some (end', saw') → highestEnd ≤ end' ∧
        ∀ j ∈ List.range' i n, (programHeaderAt data ehdr j).Loads →
          SegmentOk data end' (programHeaderAt data ehdr j) := by
  induction n with
  | zero =>
    intro i highestEnd sawLoad _
    refine ⟨_, rfl, fun end' saw' h => ?_⟩
    cases h
    simp
  | succ n ih =>
    intro i highestEnd sawLoad hfits
    -- a header that is passed over: it does not load
    have hskip : ∀ h : ¬ (programHeaderAt data ehdr i).Loads,
        ∃ r, probeSegments data ehdr n (i + 1) highestEnd sawLoad = some r ∧
          ∀ end' saw', r = some (end', saw') → highestEnd ≤ end' ∧
            ∀ j ∈ List.range' i (n + 1), (programHeaderAt data ehdr j).Loads →
              SegmentOk data end' (programHeaderAt data ehdr j) := by
      intro h
      obtain ⟨r, he, hr⟩ := ih (i + 1) highestEnd sawLoad hfits.tail
      refine ⟨r, he, fun end' saw' hend => ⟨(hr _ _ hend).1, fun j hj hloads => ?_⟩⟩
      rw [List.range'_succ, List.mem_cons] at hj
      obtain rfl | hj := hj
      · exact absurd hloads h
      · exact (hr _ _ hend).2 j hj hloads
    simp only [probeSegments, hfits.head, Option.bind_eq_bind, Option.bind_some]
    split
    · rename_i htype
      exact hskip fun h => htype h.1
    split
    · rename_i hmemsz
      exact hskip fun h => h.2 hmemsz
    rename_i hmemsz
    split
    · exact ⟨none, rfl, by simp⟩
    split
    · exact ⟨none, rfl, by simp⟩
    split
    · exact ⟨none, rfl, by simp⟩
    split
    · exact ⟨none, rfl, by simp⟩
    rename_i hfilesz hfile hvaddr hlimit
    -- the segment is good up to its own end, which the highest end reaches
    have hwrap : (programHeaderAt data ehdr i).vaddr + (programHeaderAt data ehdr i).memsz < 2 ^ 32 := by
      omega
    rw [Nat.mod_eq_of_lt hwrap]
    obtain ⟨r, he, hr⟩ := ih (i + 1) (if highestEnd <
        (programHeaderAt data ehdr i).vaddr + (programHeaderAt data ehdr i).memsz then
        (programHeaderAt data ehdr i).vaddr + (programHeaderAt data ehdr i).memsz else highestEnd)
      true hfits.tail
    refine ⟨r, he, fun end' saw' hend => ?_⟩
    obtain ⟨hle, hall⟩ := hr _ _ hend
    have hreach : highestEnd ≤ end' ∧
        (programHeaderAt data ehdr i).vaddr + (programHeaderAt data ehdr i).memsz ≤ end' := by
      split at hle <;> omega
    refine ⟨hreach.1, fun j hj hloads => ?_⟩
    rw [List.range'_succ, List.mem_cons] at hj
    obtain rfl | hj := hj
    · exact ⟨by omega, by omega, by omega, hreach.2, hwrap⟩
    · exact hall j hj hloads

/-- What a probe that succeeds has found out. -/
structure Probed (data : List UInt8) (entry slotBytes : Nat) : Prop where
  long : headerSize ≤ data.length
  table : TableFits data (headerIn data) 0 (headerIn data).phnum
  entry_eq : (headerIn data).entry = entry
  sized : Sized slotBytes
  entryAbove : loadVirtBase ≤ entry
  entryBelow : entry < userImageLimitForSlot slotBytes
  segments : ∀ phdr ∈ programHeaders data (headerIn data), phdr.Loads →
    SegmentOk data (userImageLimitForSlot slotBytes) phdr

theorem probeElfImage_spec (data : List UInt8) : ∃ r, probeElfImage data = some r ∧
    ∀ entry slotBytes, r = some (entry, slotBytes) → Probed data entry slotBytes := by
  by_cases hlong : data.length < headerSize
  · exact ⟨none, by simp [probeElfImage, hlong], by simp⟩
  by_cases haccept : headerAccepted data (headerIn data) = true
  · have hfits := headerAccepted_fits haccept
    obtain ⟨r, he, hr⟩ := probeSegments_spec 0 loadVirtBase false hfits
    simp only [probeElfImage, if_neg hlong, readHeader_eq (Nat.le_of_not_lt hlong), haccept, he,
      Option.bind_eq_bind, Option.bind_some, Bool.not_true, Bool.false_eq_true, if_false]
    match r, hr with
    | none, _ => exact ⟨none, rfl, by simp⟩
    | some (highestEnd, sawLoad), hr =>
      dsimp only
      split
      · exact ⟨none, rfl, by simp⟩
      split
      · exact ⟨none, rfl, by simp⟩
      split
      · exact ⟨none, rfl, by simp⟩
      rename_i hslot hentry
      refine ⟨_, rfl, fun entry slotBytes h => ?_⟩
      cases h
      have hne : requiredSlotBytes (highestEnd - loadVirtBase) ≠ 0 := fun h => hslot (.inl h)
      refine ⟨by omega, hfits, rfl, (requiredSlotBytes_sized rfl hne).1, by omega, by omega, ?_⟩
      intro phdr hmem hloads
      obtain ⟨j, hj, rfl⟩ := List.mem_map.mp hmem
      exact ((hr _ _ rfl).2 j hj hloads).mono (by omega)
  · refine ⟨none, ?_, by simp⟩
    simp [probeElfImage, hlong, readHeader_eq (Nat.le_of_not_lt hlong), haccept]

end Probe

/-! ## The load -/

theorem userImageLimitForSlot_eq {slotBytes : Nat} (h : Sized slotBytes) :
    userImageLimitForSlot slotBytes = loadVirtBase + slotBytes - runtimeReservedBytes := by
  obtain ⟨h1, h2⟩ := h
  rw [userImageLimitForSlot, if_neg (by omega)]

def placeSegment (data : List UInt8) (loadPhysBase : Nat) (mem : Memory)
    (phdr : Elf32ProgramHeader) : Memory :=
  if phdr.Loads then
    loadSegment mem loadPhysBase phdr ((data.drop phdr.offset).take phdr.filesz)
  else mem

section Load

variable {data : List UInt8} {ehdr : Elf32Header} {loadPhysBase limit : Nat}

theorem loadSegments_eq {n : Nat} : ∀ {i : Nat} {mem : Memory}, TableFits data ehdr i n →
    (∀ j ∈ List.range' i n, (programHeaderAt data ehdr j).Loads →
      SegmentOk data limit (programHeaderAt data ehdr j)) →
    loadSegments data ehdr loadPhysBase limit n i mem =
      some (true, ((List.range' i n).map (programHeaderAt data ehdr)).foldl
        (placeSegment data loadPhysBase) mem) := by
  induction n with
  | zero =>
    intro i mem _ _
    rfl
  | succ n ih =>
    intro i mem hfits hok
    have hrest : ∀ j ∈ List.range' (i + 1) n, (programHeaderAt data ehdr j).Loads →
        SegmentOk data limit (programHeaderAt data ehdr j) := by
      intro j hj
      exact hok j (by simp [List.range'_succ, hj])
    simp only [loadSegments, hfits.head, Option.bind_eq_bind, Option.bind_some, List.range'_succ,
      List.map_cons, List.foldl_cons]
    by_cases hloads : (programHeaderAt data ehdr i).Loads
    · have hseg := hok i (by simp) hloads
      have hwrap := hseg.noWrap
      have hlow := hseg.aboveBase
      have hhigh := hseg.belowLimit
      have htake : ¬ ((programHeaderAt data ehdr i).type ≠ 1 ∨
          (programHeaderAt data ehdr i).memsz = 0) := by
        simp only [Elf32ProgramHeader.Loads] at hloads
        omega
      rw [if_neg htake, Nat.mod_eq_of_lt hwrap, if_neg (by omega), fileBytes_eq hseg.inFile,
        Option.bind_some, ih hfits.tail hrest]
      simp only [placeSegment, if_pos hloads]
    · have hskip : (programHeaderAt data ehdr i).type ≠ 1 ∨ (programHeaderAt data ehdr i).memsz = 0 := by
        simp only [Elf32ProgramHeader.Loads] at hloads
        omega
      rw [if_pos hskip, ih hfits.tail hrest]
      simp only [placeSegment, if_neg hloads]

theorem loadElfImage_eq {entry required slotBytes : Nat} {mem : Memory}
    (hprobe : probeElfImage data = some (some (entry, required))) (hsized : Sized slotBytes)
    (hle : required ≤ slotBytes) :
    loadElfImage data loadPhysBase slotBytes mem =
      some ((programHeaders data (headerIn data)).foldl (placeSegment data loadPhysBase) mem,
        some entry) := by
  obtain ⟨r, he, hr⟩ := probeElfImage_spec data
  rw [hprobe, Option.some.injEq] at he
  obtain ⟨hlong, hfits, hentry, hreq, habove, hbelow, hsegs⟩ := hr entry required he.symm
  have hlimit : userImageLimitForSlot required ≤ userImageLimitForSlot slotBytes := by
    rw [userImageLimitForSlot_eq hreq, userImageLimitForSlot_eq hsized]
    omega
  have hload : loadSegments data (headerIn data) loadPhysBase (userImageLimitForSlot slotBytes)
      (headerIn data).phnum 0 mem = some (true, (programHeaders data (headerIn data)).foldl
        (placeSegment data loadPhysBase) mem) := loadSegments_eq hfits
    (fun j hj hloads => (hsegs _ (List.mem_map_of_mem hj) hloads).mono hlimit)
  simp only [loadElfImage, if_neg (Nat.not_lt.mpr hlong), readHeader_eq hlong, hprobe, hload,
    Option.bind_eq_bind, Option.bind_some, hentry]
  rw [if_neg (by omega), if_neg (by omega), if_neg (by simp), if_neg (by omega)]

theorem loadElfImage_reads {slotBytes : Nat} {mem : Memory} :
    (loadElfImage data loadPhysBase slotBytes mem).isSome := by
  by_cases hlong : data.length < headerSize
  · simp [loadElfImage, hlong]
  by_cases hlimit : userImageLimitForSlot slotBytes = 0
  · simp [loadElfImage, hlong, hlimit, readHeader_eq (Nat.le_of_not_lt hlong)]
  obtain ⟨r, he, hr⟩ := probeElfImage_spec data
  match r with
  | none => simp [loadElfImage, hlong, hlimit, readHeader_eq (Nat.le_of_not_lt hlong), he]
  | some (entry, required) =>
    by_cases hle : required ≤ slotBytes
    · have hsized : Sized slotBytes := by
        simp only [userImageLimitForSlot] at hlimit
        split at hlimit
        · exact absurd rfl hlimit
        · exact ⟨by omega, by omega⟩
      simp [loadElfImage_eq he hsized hle]
    · simp [loadElfImage, hlong, hlimit, readHeader_eq (Nat.le_of_not_lt hlong), he,
        Nat.lt_of_not_le hle]

end Load

/-! ## The image -/

/-- The segment is loaded and the address `v` is one of its own. -/
def Elf32ProgramHeader.Covers (phdr : Elf32ProgramHeader) (v : Nat) : Prop :=
  phdr.Loads ∧ phdr.vaddr ≤ v ∧ v < phdr.vaddr + phdr.memsz

instance (phdr : Elf32ProgramHeader) (v : Nat) : Decidable (phdr.Covers v) :=
  inferInstanceAs (Decidable (_ ∧ _))

/-- What a segment has at `v`: its byte of the file, or zero behind the last of those. -/
def segmentByte (data : List UInt8) (phdr : Elf32ProgramHeader) (v : Nat) : UInt8 :=
  if v < phdr.vaddr + phdr.filesz then data.getD (phdr.offset + (v - phdr.vaddr)) 0 else 0

/-- What the last segment that covers `v` has there, and zero where none covers it. -/
def imageByte (data : List UInt8) (v : Nat) : UInt8 :=
  match (programHeaders data (headerIn data)).reverse.find? (fun phdr => decide (phdr.Covers v)) with
  | some phdr => segmentByte data phdr v
  | none => 0

section Image

variable {data : List UInt8} {loadPhysBase limit : Nat} {phdr : Elf32ProgramHeader} {mem : Memory}

/-- The bytes of the file and the zeros behind them fill the segment's run of the memory. -/
theorem loadSegment_apply {bs : List UInt8} {dst : Nat} (hlen : bs.length = phdr.filesz)
    (hdst : loadPhysBase + (phdr.vaddr - loadVirtBase) = dst) (hpos : 0 < phdr.memsz)
    (hle : phdr.filesz ≤ phdr.memsz) (hfit : dst + phdr.memsz ≤ 2 ^ 32) (x : Nat) :
    loadSegment mem loadPhysBase phdr bs x =
      if dst ≤ x ∧ x < dst + phdr.memsz then
        if x < dst + phdr.filesz then bs.getD (x - dst) 0 else 0
      else mem x := by
  have hmod : dst % 2 ^ 32 = dst := Nat.mod_eq_of_lt (by omega)
  simp only [loadSegment, hdst, hmod]
  have hin : dst ≤ x → x < dst + phdr.filesz → storeBytes mem dst bs x = bs.getD (x - dst) 0 := by
    intro h1 h2
    have hk : x - dst < bs.length := by omega
    have : storeBytes mem dst bs (dst + (x - dst)) = bs[x - dst] := storeBytes_apply (by omega) hk
    rw [show dst + (x - dst) = x by omega] at this
    simp [this, hk]
  have hout : ¬ (dst ≤ x ∧ x < dst + phdr.filesz) → storeBytes mem dst bs x = mem x := by
    intro h
    exact storeBytes_frame (by omega) (by omega)
  by_cases hzeros : phdr.filesz < phdr.memsz
  · have hstart : (dst + phdr.filesz) % 2 ^ 32 = dst + phdr.filesz := Nat.mod_eq_of_lt (by omega)
    rw [if_pos hzeros, hstart]
    by_cases hrun : dst ≤ x ∧ x < dst + phdr.memsz
    · rw [if_pos hrun]
      by_cases hx : x < dst + phdr.filesz
      · rw [if_pos hx, memZero_frame (by omega) (by omega), hin hrun.1 hx]
      · rw [if_neg hx, memZero_apply (by omega) (by omega) (by omega)]
    · rw [if_neg hrun, memZero_frame (by omega) (by omega), hout (by omega)]
  · rw [if_neg hzeros]
    by_cases hrun : dst ≤ x ∧ x < dst + phdr.memsz
    · rw [if_pos hrun, if_pos (by omega), hin hrun.1 (by omega)]
    · rw [if_neg hrun, hout (by omega)]

theorem placeSegment_apply (hok : phdr.Loads → SegmentOk data limit phdr)
    (hfit : loadPhysBase + (limit - loadVirtBase) ≤ 2 ^ 32) (x : Nat) :
    placeSegment data loadPhysBase mem phdr x =
      if loadPhysBase ≤ x ∧ phdr.Covers (loadVirtBase + (x - loadPhysBase)) then
        segmentByte data phdr (loadVirtBase + (x - loadPhysBase))
      else mem x := by
  by_cases hloads : phdr.Loads
  · obtain ⟨hfilesz, hfile, hlow, hhigh, -⟩ := hok hloads
    have hpos : 0 < phdr.memsz := Nat.pos_of_ne_zero hloads.2
    have hlen : ((data.drop phdr.offset).take phdr.filesz).length = phdr.filesz := by
      simp
      omega
    simp only [placeSegment, if_pos hloads]
    rw [loadSegment_apply hlen rfl hpos hfilesz (by omega) x]
    by_cases hrun : loadPhysBase + (phdr.vaddr - loadVirtBase) ≤ x ∧
        x < loadPhysBase + (phdr.vaddr - loadVirtBase) + phdr.memsz
    · have hcover : loadPhysBase ≤ x ∧ phdr.Covers (loadVirtBase + (x - loadPhysBase)) :=
        ⟨by omega, hloads, by omega, by omega⟩
      rw [if_pos hrun, if_pos hcover, segmentByte]
      by_cases hbyte : x < loadPhysBase + (phdr.vaddr - loadVirtBase) + phdr.filesz
      · have hplace : loadVirtBase + (x - loadPhysBase) - phdr.vaddr =
            x - (loadPhysBase + (phdr.vaddr - loadVirtBase)) := by omega
        rw [if_pos hbyte, if_pos (by omega), hplace]
        have hin : x - (loadPhysBase + (phdr.vaddr - loadVirtBase)) < phdr.filesz := by omega
        simp [hin]
      · rw [if_neg hbyte, if_neg (by omega)]
    · have hcover : ¬ (loadPhysBase ≤ x ∧ phdr.Covers (loadVirtBase + (x - loadPhysBase))) := by
        rintro ⟨hx, -, h1, h2⟩
        omega
      rw [if_neg hrun, if_neg hcover]
  · have hcover : ¬ (loadPhysBase ≤ x ∧ phdr.Covers (loadVirtBase + (x - loadPhysBase))) :=
      fun h => hloads h.2.1
    simp [placeSegment, hloads, hcover]

end Image

/-- The probe and the load read no byte outside the file, and what the probe gives is what the load
needs: it stores in the image area only, and leaves there what the segments say. -/
theorem elf_loads (data : List UInt8) :
    (probeElfImage data).isSome ∧
    (∀ loadPhysBase slotBytes mem, (loadElfImage data loadPhysBase slotBytes mem).isSome) ∧
    ∀ entry slotBytes, probeElfImage data = some (some (entry, slotBytes)) →
      ∀ loadPhysBase, loadPhysBase + slotBytes ≤ 2 ^ 32 → ∀ mem,
        ∃ mem', loadElfImage data loadPhysBase slotBytes mem = some (mem', some entry) ∧
          loadVirtBase ≤ entry ∧ entry < userImageLimitForSlot slotBytes ∧
          (∀ x, ¬ (loadPhysBase ≤ x ∧ x < loadPhysBase + (slotBytes - runtimeReservedBytes)) →
            mem' x = mem x) ∧
          ((∀ k < slotBytes, mem (loadPhysBase + k) = 0) →
            ∀ k < slotBytes - runtimeReservedBytes,
              mem' (loadPhysBase + k) = imageByte data (loadVirtBase + k)) := by
  obtain ⟨r, hprobe, hr⟩ := probeElfImage_spec data
  refine ⟨by simp [hprobe], fun _ _ _ => loadElfImage_reads, fun entry slotBytes he => ?_⟩
  intro loadPhysBase hfit mem
  rw [hprobe, Option.some.injEq] at he
  obtain ⟨-, -, -, hsized, habove, hbelow, hsegs⟩ := hr entry slotBytes he
  have hlimit := userImageLimitForSlot_eq hsized
  have hroom : loadPhysBase + (userImageLimitForSlot slotBytes - loadVirtBase) ≤ 2 ^ 32 := by omega
  refine ⟨_, loadElfImage_eq (by rw [hprobe, he]) hsized (Nat.le_refl _), habove, hbelow, ?_, ?_⟩
  · intro x hx
    have hnone : ∀ phdr ∈ programHeaders data (headerIn data),
        ¬ (loadPhysBase ≤ x ∧ phdr.Covers (loadVirtBase + (x - loadPhysBase))) := by
      rintro phdr hmem ⟨hge, hloads, -, hlt⟩
      have hend := (hsegs phdr hmem hloads).belowLimit
      omega
    rw [foldl_last (fun phdr hmem m => placeSegment_apply (hsegs phdr hmem) hroom x)]
    rw [List.find?_eq_none.mpr fun phdr hmem => by
      simpa only [decide_eq_true_eq] using hnone phdr (List.mem_reverse.mp hmem)]
    rfl
  · intro hzero k hk
    rw [foldl_last (fun phdr hmem m => placeSegment_apply (hsegs phdr hmem) hroom _)]
    simp only [Nat.le_add_right, true_and, Nat.add_sub_cancel_left, imageByte]
    cases hlast : (programHeaders data (headerIn data)).reverse.find?
        (fun phdr => decide (phdr.Covers (loadVirtBase + k))) with
    | some phdr => rfl
    | none => exact hzero k (by omega)

/-- A file with two segments of which the second lies on the end of the first. -/
def twoSegments : List UInt8 :=
  [0x7F, 0x45, 0x4C, 0x46, 1, 1, 1, 0, 0, 0, 0, 0, 0, 0, 0, 0, 2, 0, 3, 0, 1, 0, 0, 0,
    0, 0, 0, 1, 52, 0, 0, 0, 0, 0, 0, 0, 0, 0, 0, 0, 52, 0, 32, 0, 2, 0, 0, 0, 0, 0, 0, 0,
    1, 0, 0, 0, 116, 0, 0, 0, 0, 0, 0, 1, 0, 0, 0, 0, 4, 0, 0, 0, 4, 0, 0, 0, 0, 0, 0, 0, 0, 0, 0, 0,
    1, 0, 0, 0, 118, 0, 0, 0, 2, 0, 0, 1, 0, 0, 0, 0, 1, 0, 0, 0, 8, 0, 0, 0, 0, 0, 0, 0, 0, 0, 0, 0,
    0xB8, 0xB9, 0xC3, 0xCC]

theorem elf_loads_two_segments : ∃ mem',
    loadElfImage twoSegments arenaPhysBase 0x16000 (fun _ => 0) = some (mem', some loadVirtBase) ∧
      mem' (arenaPhysBase + 1) = 0xB9 ∧ mem' (arenaPhysBase + 2) = 0xC3 ∧
      mem' (arenaPhysBase + 3) = 0 := by
  have hprobe : probeElfImage twoSegments = some (some (loadVirtBase, 0x16000)) := by
    decide +kernel
  obtain ⟨mem', hload, -, -, -, himage⟩ := (elf_loads twoSegments).2.2 loadVirtBase 0x16000 hprobe
    arenaPhysBase (by decide) (fun _ => 0)
  have hbyte := himage (fun _ _ => rfl)
  have h1 : imageByte twoSegments (loadVirtBase + 1) = 0xB9 := by decide
  have h2 : imageByte twoSegments (loadVirtBase + 2) = 0xC3 := by decide
  have h3 : imageByte twoSegments (loadVirtBase + 3) = 0 := by decide
  exact ⟨mem', hload, (hbyte 1 (by decide)).trans h1, (hbyte 2 (by decide)).trans h2,
    (hbyte 3 (by decide)).trans h3⟩

end Apps
end MiniDos
