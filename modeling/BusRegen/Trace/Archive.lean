import BusRegen.Trace
import BusRegen.Trace.Bytes
/-!
# Trace files

A trace file is eight bytes of magic, the version, and the trace: its version once more, its
metadata and its points, each part in the form of `BusRegen.Bytes`. The version that decides
whether a file can be read is the one before the trace. Bytes after the trace are passed over.
-/
namespace BusRegen

/-- Why a trace file is refused, in the order in which it is looked at. -/
inductive ArchiveError where
  | noMagic
  | wrongMagic
  | noVersion
  | unsupportedVersion (v : UInt8)
  | malformed
  deriving DecidableEq, Repr

namespace ArchiveError

def message : ArchiveError → String
  | noMagic => "读取魔数失败"
  | wrongMagic => "无效的轨迹文件格式（魔数不匹配）"
  | noVersion => "读取版本失败"
  | unsupportedVersion v => s!"不支持的轨迹文件版本: {v.toNat}"
  | malformed => "反序列化轨迹失败"

end ArchiveError

namespace Trace

open Bytes

/-- `MAGIC`: `REGENV1` and a zero byte. -/
def magic : List UInt8 := [0x52, 0x45, 0x47, 0x45, 0x4e, 0x56, 0x31, 0x00]

/-! ## Writing -/

def writePoint (p : TracePoint) : List UInt8 :=
  writeScalar p.time ++ writeScalar p.voltage ++ writeScalar p.current ++
    le 4 p.zone.code ++ writeFlag p.active

def writeMetadata (m : TraceMetadata) : List UInt8 :=
  writeText m.source ++ le 8 m.periodMicros.toNat ++ writeScalar m.targetVoltage ++
    writeScalar m.thresholdVoltage ++ writeScalar m.minimumVoltage

/-- The trace without what goes before it in a file. -/
def encode (t : Trace) : List UInt8 :=
  t.version :: writeMetadata t.metadata ++ le 8 t.points.length ++ t.points.flatMap writePoint

/-- The file that `RegenTrace.save` writes. -/
def toArchive (t : Trace) : List UInt8 := magic ++ t.version :: t.encode

/-! ## Reading -/

def point : Reader TracePoint := do
  let time ← scalar
  let voltage ← scalar
  let current ← scalar
  let some zone := Zone.ofCode? (← word 4) | failure
  return { time, voltage, current, zone, active := ← flag }

/-- So many points, after those already read, which are in reverse. -/
def pointsAfter (seen : List TracePoint) : Nat → Reader (List TracePoint)
  | 0 => return seen.reverse
  | n + 1 => do pointsAfter ((← point) :: seen) n

def metadataReader : Reader TraceMetadata := do
  let source ← text
  let period ← word 8
  return { source, periodMicros := UInt64.ofNat period, targetVoltage := ← scalar
           thresholdVoltage := ← scalar, minimumVoltage := ← scalar }

def decode : Reader Trace := do
  let version ← byte
  let metadata ← metadataReader
  return { version, metadata, points := ← pointsAfter [] (← word 8) }

/-- The trace that `RegenTrace.load` finds in a file. -/
def ofArchive (bs : List UInt8) : Except ArchiveError Trace :=
  if (bs.take 8).length < 8 then .error .noMagic
  else if bs.take 8 ≠ magic then .error .wrongMagic
  else
    match bs.drop 8 with
    | [] => .error .noVersion
    | v :: data =>
      if v ≠ currentVersion then .error (.unsupportedVersion v)
      else
        match decode data with
        | some (t, _) => .ok t
        | none => .error .malformed

end Trace
end BusRegen
