import BusRegen.Files
import BusRegen.Trace.Archive
/-!
# Traces in files

Keeps a trace in a file, as an archive or as a table, and gets it back from an archive.
-/
namespace BusRegen

/-- Why a trace was not kept or not got back. -/
inductive TraceFileError where
  | notOpened
  | notCreated
  | tableNotWritten
  | refused (reason : ArchiveError)
  deriving DecidableEq, Repr

namespace TraceFileError

def message : TraceFileError → String
  | notOpened => "打开轨迹文件失败"
  | notCreated => "创建轨迹文件失败"
  | tableNotWritten => "写入 CSV 失败"
  | refused reason => reason.message

end TraceFileError

namespace Trace

variable {m : Type → Type} [Monad m] [Files m]

/-- `RegenTrace.save`: keeps an archive. -/
def save (t : Trace) (path : String) : m (Except TraceFileError Unit) := do
  return if ← Files.write path t.toArchive then .ok () else .error .notCreated

/-- `save_csv`: keeps a table. -/
def saveCsv (t : Trace) (path : String) : m (Except TraceFileError Unit) := do
  return if ← Files.writeText path t.toCsv then .ok () else .error .tableNotWritten

/-- `RegenTrace.load`: gets a trace back from its archive. -/
def load (path : String) : m (Except TraceFileError Trace) := do
  let some content ← Files.read? path | return .error .notOpened
  return (ofArchive content).mapError .refused

end Trace
end BusRegen
