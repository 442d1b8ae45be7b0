import SensorEvents.Fault

/-!
# Sources of readings

A source is a value that yields a reading and the source that is left. `Scripted` plays a list and
then rests at its last reading, `ColumnSource` reads a column of the row that is current in a replay,
and `Guarded` hides the readings of a sensor that reports dropouts.
-/
namespace SensorEvents

class Source (σ : Type) where
  read : σ → Nat × σ

/-- A list of readings to come, and the last one that was taken. -/
structure Scripted where
  pending : List Nat
  last : Nat := 0
  deriving DecidableEq, Repr

namespace Scripted

def ofList (samples : List Nat) : Scripted := { pending := samples }

def push (s : Scripted) (sample : Nat) : Scripted := { s with pending := s.pending ++ [sample] }

/-- Queue the same reading `count` times. -/
def pushRepeated (s : Scripted) (sample count : Nat) : Scripted :=
  { s with pending := s.pending ++ List.replicate count sample }

def remaining (s : Scripted) : Nat := s.pending.length

/-- Queue the same reading any number of times, if there is room for the pending readings at four
bytes each. -/
def pushRepeatedWithin (s : Scripted) (sample count : Nat) : Checked Scripted :=
  if s.remaining + count ≤ Checked.tableLimit 4 then .ok (s.pushRepeated sample count)
  else .error .capacity

/-- Take the next reading; when none is pending the last one is repeated, and zero before any. -/
def read (s : Scripted) : Nat × Scripted :=
  match s.pending with
  | [] => (s.last, s)
  | sample :: pending => (sample, { pending, last := sample })

instance : Source Scripted := ⟨read⟩

end Scripted

/-- A column of the current row. One that the row does not have reads as zero. -/
structure ColumnSource where
  column : Nat
  row : List Nat := []
  deriving DecidableEq, Repr

namespace ColumnSource

def setRow (row : List Nat) (s : ColumnSource) : ColumnSource := { s with row }

instance : Source ColumnSource := ⟨fun s => (s.row[s.column]?.getD 0, s)⟩

end ColumnSource

/-- A source whose readings of zero, and those at or above `limit`, are replaced by the last valid
one. -/
structure Guarded (σ : Type) where
  inner : σ
  limit : Nat
  lastValid : Nat := 0

namespace Guarded

variable {σ : Type} [Source σ]

def read (g : Guarded σ) : Nat × Guarded σ :=
  let (sample, inner) := Source.read g.inner
  let lastValid := if 0 < sample ∧ sample < g.limit then sample else g.lastValid
  (lastValid, { g with inner, lastValid })

instance : Source (Guarded σ) := ⟨read⟩

end Guarded

/-- A source as a channel reads it: as it is, or guarded against dropouts. -/
inductive Feed (σ : Type) where
  | plain (source : σ)
  | guarded (source : Guarded σ)

namespace Feed

variable {σ : Type}

/-- The feed of `source` that keeps readings below `limit`, when a limit is set. -/
def ofLimit (source : σ) : Option Nat → Feed σ
  | none => plain source
  | some limit => guarded { inner := source, limit }

/-- Change the source itself; what the guard remembers stays. -/
def mapSource (f : σ → σ) : Feed σ → Feed σ
  | plain source => plain (f source)
  | guarded g => guarded { g with inner := f g.inner }

instance [Source σ] : Source (Feed σ) where
  read
    | plain source => let (sample, rest) := Source.read source; (sample, plain rest)
    | guarded g => let (sample, rest) := Source.read g; (sample, guarded rest)

end Feed

end SensorEvents
