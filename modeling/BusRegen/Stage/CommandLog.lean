import BusRegen.Regulator
/-!
# The command log of a stage

The last commands that a stage has accepted, as many as its capacity. It is a queue of two lists, so
that a long run pays a constant price for each command; `toList` is the log as one reads it. `push`
makes room for one command by dropping the oldest, `resize` for a smaller capacity.

`toList_push` and `toList_resize` say what the two do to the log.
-/
namespace BusRegen

structure CommandLog where
  capacity : Nat
  older : List Command := []
  /-- The latest commands, the last one first. -/
  newer : List Command := []
  size : Nat := 0
  size_eq : size = older.length + newer.length := by rfl

namespace CommandLog

def empty (capacity : Nat) : CommandLog := { capacity }

def toList (l : CommandLog) : List Command := l.older ++ l.newer.reverse

/-- The log without its oldest command. -/
def dropOldest (l : CommandLog) : CommandLog :=
  match h : l.older with
  | _ :: rest =>
    { l with older := rest, size := l.size - 1, size_eq := by have := l.size_eq; simp_all }
  | [] =>
    { l with
      older := l.newer.reverse.tail, newer := [], size := l.size - 1
      size_eq := by have := l.size_eq; simp_all }

/-- The log with one more command, whatever the capacity. -/
def append (l : CommandLog) (c : Command) : CommandLog :=
  { l with
    newer := c :: l.newer, size := l.size + 1
    size_eq := by have := l.size_eq; simp; omega }

/-- Takes in a command, as `MockState.record` does. A log without capacity keeps none. -/
def push (l : CommandLog) (c : Command) : CommandLog :=
  if l.capacity = 0 then l
  else if l.size = l.capacity then l.dropOldest.append c
  else l.append c

/-- Drops the oldest commands, `n` of them. -/
def dropOldestBy (l : CommandLog) : Nat → CommandLog
  | 0 => l
  | n + 1 => l.dropOldest.dropOldestBy n

/-- What `with_command_log_capacity` does to the log. -/
def resize (l : CommandLog) (capacity : Nat) : CommandLog :=
  { l.dropOldestBy (l.size - capacity) with capacity := capacity }

theorem length_toList (l : CommandLog) : l.toList.length = l.size := by
  simp [toList, l.size_eq]

@[simp] theorem toList_append (l : CommandLog) (c : Command) :
    (l.append c).toList = l.toList ++ [c] := by
  simp [append, toList]

@[simp] theorem toList_dropOldest (l : CommandLog) : l.dropOldest.toList = l.toList.tail := by
  unfold dropOldest
  split <;> simp_all [toList]

@[simp] theorem capacity_dropOldest (l : CommandLog) : l.dropOldest.capacity = l.capacity := by
  unfold dropOldest
  split <;> rfl

theorem toList_push (l : CommandLog) (c : Command) :
    (l.push c).toList =
      if l.capacity = 0 then l.toList
      else if l.size = l.capacity then l.toList.tail ++ [c]
      else l.toList ++ [c] := by
  unfold push
  split
  · rfl
  · split <;> simp

@[simp] theorem capacity_push (l : CommandLog) (c : Command) :
    (l.push c).capacity = l.capacity := by
  unfold push
  split
  · rfl
  · split <;> simp [append]

theorem toList_dropOldestBy (l : CommandLog) (n : Nat) :
    (l.dropOldestBy n).toList = l.toList.drop n := by
  induction n generalizing l with
  | zero => rfl
  | succ n ih =>
    rw [dropOldestBy, ih, toList_dropOldest, ← List.drop_one, List.drop_drop, Nat.add_comm]

theorem toList_resize (l : CommandLog) (capacity : Nat) :
    (l.resize capacity).toList = l.toList.drop (l.size - capacity) :=
  toList_dropOldestBy l _

end CommandLog
end BusRegen
