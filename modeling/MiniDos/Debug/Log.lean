import MiniDos.Fat.Listing
import MiniDos.Lib.Ring

/-!
# MiniDos.Debug.Log

`logger.c`: messages for the screen and for the serial port, and the ring of the last ones that
`log_dump_buffer` shows.

* `print_char`, `print_string`, `serial_putchar` and `serial_print` are modelled by what they print.
* `appended`: what the calls put into the ring. `logDump_exact`: what a dump prints of it.
-/

namespace MiniDos
namespace Debug

open Fat16

/-- `LOG_BUFFER_SIZE`. -/
def logBufferSize : Nat := 8192

theorem logBufferSize_pos : 0 < logBufferSize := Nat.succ_pos 8191

/-! ## Levels and destinations -/

def logLevelError : Int := 0
def logLevelWarn : Int := 1
def logLevelInfo : Int := 2
def logLevelDebug : Int := 3
def logLevelTrace : Int := 4

def minLogLevel : Int := logLevelDebug

def levelName (level : Int) : CStr :=
  if level = logLevelError then textOf "ERROR"
  else if level = logLevelWarn then textOf "WARN"
  else if level = logLevelInfo then textOf "INFO"
  else if level = logLevelDebug then textOf "DEBUG"
  else if level = logLevelTrace then textOf "TRACE"
  else textOf "UNK"

abbrev LogDest := UInt32

def logDestScreen : LogDest := 1
def logDestSerial : LogDest := 2
def logDestBoth : LogDest := 3

/-- `dest & bit`. -/
def reaches (dest bit : LogDest) : Bool := dest &&& bit ≠ 0

/-! ## The logger -/

structure Logger where
  ring : Latest Byte logBufferSize
  seq : UInt32
  /-- What was printed so far. -/
  screen : List Byte
  serial : List Byte

def printString (l : Logger) (s : CStr) : Logger := { l with screen := l.screen ++ s }

def serialPrint (l : Logger) (s : CStr) : Logger := { l with serial := l.serial ++ s }

def appendChar (l : Logger) (c : Byte) : Logger := { l with ring := l.ring.push c }

def appendString (l : Logger) (s : CStr) : Logger := s.foldl appendChar l

/-- The digits that the loop of `uint_to_dec` puts into its buffer, the lowest first. -/
def decLoop : Nat → UInt32 → CStr
  | 0, _ => []
  | room + 1, value =>
    if value = 0 then [] else (48 + (value % 10).toUInt8) :: decLoop room (value / 10)

def uintToDec (value : UInt32) : CStr :=
  if value = 0 then [48] else (decLoop 16 value).reverse

def writeCharToDest (l : Logger) (c : Byte) (dest : LogDest) : Logger :=
  let l := if reaches dest logDestScreen then printString l [c] else l
  if reaches dest logDestSerial then serialPrint l [c] else l

def writeStringToDest (l : Logger) (s : CStr) (dest : LogDest) : Logger :=
  s.foldl (fun l c => writeCharToDest l c dest) l

def logInit (l : Logger) : Logger := { l with ring := l.ring.clear, seq := 0 }

def lineParts (seq : UInt32) (level : Int) (module : Option CStr) : List CStr :=
  [textOf "[", uintToDec seq, textOf "][", levelName level, textOf "][", module.getD (textOf "core"), textOf "] "]

def logWrite (l : Logger) (level : Int) (module : Option CStr) (msg : CStr) (dest : LogDest) : Logger :=
  if level > minLogLevel then l
  else
    let l :=
      if reaches dest logDestSerial then
        let l := { l with seq := l.seq + 1 }
        let parts := lineParts l.seq level module
        (parts ++ [msg]).foldl appendString (parts.foldl serialPrint l)
      else l
    let l := if reaches dest logDestScreen then printString l msg else l
    if reaches dest logDestSerial then serialPrint l msg else l

def logScreen (l : Logger) (msg : CStr) : Logger := writeStringToDest l msg logDestScreen

def logSerialRaw (l : Logger) (msg : CStr) : Logger :=
  appendString (writeStringToDest l msg logDestSerial) msg

def logBoth (l : Logger) (msg : CStr) : Logger := appendString (writeStringToDest l msg logDestBoth) msg

def emptyText : CStr := textOf "[dmesg] log buffer is empty\n"
def dumpHeader : CStr := textOf "--- dmesg (serial log ring) ---\n"
def dumpFooter : CStr := textOf "--- end dmesg ---\n"

def newline : Byte := 10

def logDumpBuffer (l : Logger) (dest : LogDest) : Logger :=
  if l.ring.count = 0 then writeStringToDest l emptyText dest
  else
    let start := l.ring.start
    let dumped := (List.range l.ring.count).foldl
      (fun d i => writeCharToDest d (l.ring.slots ((start + i) % logBufferSize)) dest)
      (writeStringToDest l dumpHeader dest)
    let dumped :=
      if l.ring.slots ((l.ring.head + logBufferSize - 1) % logBufferSize) ≠ newline then
        writeCharToDest dumped newline dest
      else dumped
    writeStringToDest dumped dumpFooter dest

/-! ## What is printed -/

/-- `text` behind what the devices of `dest` show. -/
def printed (l : Logger) (text : CStr) (dest : LogDest) : Logger :=
  { l with
    screen := l.screen ++ if reaches dest logDestScreen then text else []
    serial := l.serial ++ if reaches dest logDestSerial then text else [] }

variable {l : Logger} {dest : LogDest}

theorem printed_nil : printed l [] dest = l := by
  simp [printed]

theorem printed_append (s t : CStr) : printed (printed l s dest) t dest = printed l (s ++ t) dest := by
  unfold printed
  cases reaches dest logDestScreen <;> cases reaches dest logDestSerial <;> simp

theorem writeCharToDest_eq (c : Byte) : writeCharToDest l c dest = printed l [c] dest := by
  unfold writeCharToDest printed printString serialPrint
  cases reaches dest logDestScreen <;> cases reaches dest logDestSerial <;> simp

theorem writeStringToDest_eq (s : CStr) : writeStringToDest l s dest = printed l s dest := by
  induction s generalizing l with
  | nil => exact printed_nil.symm
  | cons c s ih =>
    rw [writeStringToDest, List.foldl_cons, ← writeStringToDest, ih, writeCharToDest_eq, printed_append]
    rfl

theorem logDumpBuffer_contents (h : l.ring.contents ≠ []) :
    logDumpBuffer l dest = printed l (dumpHeader ++ l.ring.contents ++
      (if l.ring.contents.getLast? = some newline then [] else [newline]) ++ dumpFooter) dest := by
  have hloop : ∀ d : Logger, (List.range l.ring.count).foldl
      (fun d i => writeCharToDest d (l.ring.slots ((l.ring.start + i) % logBufferSize)) dest) d =
        printed d l.ring.contents dest := by
    intro d
    rw [← writeStringToDest_eq, writeStringToDest, Latest.contents, List.foldl_map]
  unfold logDumpBuffer
  rw [if_neg (fun h0 => h (l.ring.contents_eq_nil_iff.mpr h0)), l.ring.last_contents h]
  dsimp only
  rw [hloop]
  simp only [writeStringToDest_eq, writeCharToDest_eq, printed_append, Option.some.injEq, ne_eq, ite_not]
  split
  · rw [printed_append, List.append_nil]
  · rw [printed_append]

/-! ## Runs -/

inductive Call where
  | write (level : Int) (module : Option CStr) (msg : CStr) (dest : LogDest)
  | screen (msg : CStr)
  | serialRaw (msg : CStr)
  | both (msg : CStr)
  | dumpBuffer (dest : LogDest)

def step (l : Logger) : Call → Logger
  | .write level module msg dest => logWrite l level module msg dest
  | .screen msg => logScreen l msg
  | .serialRaw msg => logSerialRaw l msg
  | .both msg => logBoth l msg
  | .dumpBuffer dest => logDumpBuffer l dest

def appendedBy (l : Logger) : Call → List Byte
  | .write level module msg dest =>
    if level > minLogLevel ∨ ¬ reaches dest logDestSerial then []
    else (lineParts (l.seq + 1) level module ++ [msg]).flatten
  | .serialRaw msg => msg
  | .both msg => msg
  | .screen _ => []
  | .dumpBuffer _ => []

def run (l : Logger) (calls : List Call) : Logger := calls.foldl step l

def appended (l : Logger) : List Call → List Byte
  | [] => []
  | c :: calls => appendedBy l c ++ appended (step l c) calls

theorem appendString_ring (s : CStr) : (appendString l s).ring = s.foldl Latest.push l.ring := by
  induction s generalizing l with
  | nil => rfl
  | cons c s ih => exact ih

theorem appendStrings_ring (parts : List CStr) :
    (parts.foldl appendString l).ring = parts.flatten.foldl Latest.push l.ring := by
  induction parts generalizing l with
  | nil => rfl
  | cons s parts ih => rw [List.foldl_cons, ih, appendString_ring, List.flatten_cons, List.foldl_append]

theorem serialPrints_ring (parts : List CStr) : (parts.foldl serialPrint l).ring = l.ring := by
  induction parts generalizing l with
  | nil => rfl
  | cons s parts ih => exact ih

theorem logDumpBuffer_ring : (logDumpBuffer l dest).ring = l.ring := by
  by_cases h : l.ring.contents = []
  · unfold logDumpBuffer
    rw [if_pos (l.ring.contents_eq_nil_iff.mp h), writeStringToDest_eq]
    rfl
  · rw [logDumpBuffer_contents h]
    rfl

theorem logWrite_ring (level : Int) (module : Option CStr) (msg : CStr) :
    (logWrite l level module msg dest).ring =
      (appendedBy l (.write level module msg dest)).foldl Latest.push l.ring := by
  unfold logWrite appendedBy
  by_cases hlevel : level > minLogLevel
  · simp [hlevel]
  · cases hserial : reaches dest logDestSerial
    · cases reaches dest logDestScreen <;> simp [hlevel, hserial, printString]
    · cases reaches dest logDestScreen <;> simp [hlevel, hserial, printString, serialPrint,
        appendString_ring, appendStrings_ring, serialPrints_ring, List.foldl_append]

theorem step_ring (c : Call) : (step l c).ring = (appendedBy l c).foldl Latest.push l.ring := by
  cases c with
  | write level module msg dest => exact logWrite_ring level module msg
  | screen msg =>
    rw [step, logScreen, writeStringToDest_eq]
    rfl
  | serialRaw msg =>
    rw [step, logSerialRaw, appendString_ring, writeStringToDest_eq]
    rfl
  | both msg =>
    rw [step, logBoth, appendString_ring, writeStringToDest_eq]
    rfl
  | dumpBuffer dest => exact logDumpBuffer_ring

theorem run_ring (calls : List Call) : (run l calls).ring = (appended l calls).foldl Latest.push l.ring := by
  induction calls generalizing l with
  | nil => rfl
  | cons c calls ih => rw [run, List.foldl_cons, ← run, ih, step_ring, appended, List.foldl_append]

/-- After any calls since `log_init` that appended something, a dump prints the last `LOG_BUFFER_SIZE`
characters of it between its two lines, and a newline behind them if they do not end with one. -/
theorem logDump_exact (l : Logger) (calls : List Call) (dest : LogDest) (h : appended (logInit l) calls ≠ []) :
    logDumpBuffer (run (logInit l) calls) dest =
      printed (run (logInit l) calls) (dumpHeader ++ (appended (logInit l) calls).rtake logBufferSize ++
        (if (appended (logInit l) calls).getLast? = some newline then [] else [newline]) ++ dumpFooter) dest := by
  have hcontents : (run (logInit l) calls).ring.contents = (appended (logInit l) calls).rtake logBufferSize := by
    rw [run_ring, Latest.contents_foldl]
    rfl
  have hlast := Latest.getLast?_rtake logBufferSize_pos (appended (logInit l) calls)
  have hne : (run (logInit l) calls).ring.contents ≠ [] := by
    rw [hcontents, ne_eq, ← List.getLast?_eq_none_iff, hlast, List.getLast?_eq_none_iff]
    exact h
  rw [logDumpBuffer_contents hne, hcontents, hlast]

/-- As the machine starts. -/
def bootLogger : Logger where
  ring :=
    { slots := fun _ => 0
      head := 0
      count := 0
      head_lt := logBufferSize_pos
      count_le := Nat.zero_le _ }
  seq := 0
  screen := []
  serial := []

/-- One character more than the ring has room for. -/
def longText : CStr := 0x61 :: List.replicate logBufferSize 0x62

theorem logDump_exact_wrapped :
    logDumpBuffer (run (logInit bootLogger) [.serialRaw longText]) logDestSerial =
      printed (run (logInit bootLogger) [.serialRaw longText])
        (dumpHeader ++ List.replicate logBufferSize 0x62 ++ [newline] ++ dumpFooter) logDestSerial := by
  have happended : appended (logInit bootLogger) [.serialRaw longText] = longText := List.append_nil _
  have hring : longText.rtake logBufferSize = List.replicate logBufferSize 0x62 := by
    rw [List.rtake, longText, List.length_cons, List.length_replicate, Nat.add_sub_cancel_left]
    rfl
  have hlast : longText.getLast? ≠ some newline := by
    rw [← Latest.getLast?_rtake logBufferSize_pos, hring, List.getLast?_replicate]
    decide
  have h := logDump_exact bootLogger [.serialRaw longText] logDestSerial
    (by rw [happended]; exact List.cons_ne_nil _ _)
  rwa [happended, hring, if_neg hlast] at h

end Debug
end MiniDos
