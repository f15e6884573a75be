import BusRegen.CommandLine.Program
/-!
# The program on this machine

Files are those of the file system, and the time of a live run is that of the clock. All else is in
`BusRegen.CommandLine.Program`.
-/
namespace BusRegen

instance : Files IO where
  read? path := do
    try
      return some (← IO.FS.readBinFile path).toList
    catch _ =>
      return none
  occupied path := do ((← IO.currentDir) / path).pathExists
  write path content := do
    try
      IO.FS.writeBinFile path (ByteArray.mk content.toArray)
      return true
    catch _ =>
      return false

namespace CommandLine

/-- The clock of a live run: when it began, when the last tick began, and when the status is shown
next, in nanoseconds. -/
structure LiveClock where
  start : Nat
  lastTick : Option Nat := none
  nextStatus : Nat := 0

/-- The ticks that are due, each of them timed. -/
partial def catchUpNow (l : LiveRun) (clock : LiveClock) : IO (LiveRun × LiveClock) := do
  let began ← IO.monoNanosNow
  if l.runner.running && l.isDue (began - clock.start) then
    let ticked := l.turn
    let taken := (← IO.monoNanosNow) - began
    let interval := clock.lastTick.map (began - ·)
    catchUpNow (ticked.time interval taken) { clock with lastTick := some began }
  else
    return (l, clock)

/-- `LiveCommand.execute` by the clock, until the deadline. -/
partial def follow (l : LiveRun) (clock : LiveClock) (nextFeed : Nat) : IO LiveRun := do
  let (l, clock) ← catchUpNow l clock
  let elapsed := (← IO.monoNanosNow) - clock.start
  let some now := Duration.ofNanoseconds? elapsed | return l
  if elapsed < nextFeed then
    IO.sleep 1
    follow l clock nextFeed
  else if l.deadline.nanoseconds ≤ elapsed then
    return l
  else
    let l := l.feed now
    let shown := clock.nextStatus ≤ elapsed
    if shown then IO.println (l.statusLine now)
    let nextStatus := if shown then elapsed + l.statusInterval.nanoseconds else clock.nextStatus
    follow l { clock with nextStatus } (nextFeed + feedInterval)

def liveNow (r : LiveRequest) : IO Ending := do
  match ← StateT.run (ExceptT.run (Job.begin r)) "" with
  | (.error failure, output) => return .ofAnswer ⟨output, some failure⟩
  | (.ok l, _) =>
    l.openingLines.forM IO.println
    if l.statusInterval.isZero then return .ofAnswer ⟨"", some .crash⟩
    let l ← follow l { start := ← IO.monoNanosNow } 0
    l.stop.closingLines.forM IO.println
    return { code := 0 }

def runNow (arguments : List String) : IO Ending :=
  match Interpretation.ofArguments arguments with
  | .request (.live r) => liveNow r
  | i => Ending.ofInterpretation i

end CommandLine
end BusRegen

def main (arguments : List String) : IO UInt32 := do
  let ending ← BusRegen.CommandLine.runNow arguments
  IO.print ending.output
  if let some line := ending.error then IO.eprintln line
  return UInt32.ofNat ending.code
