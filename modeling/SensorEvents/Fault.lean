/-!
# Steps that can fail

Readings, thresholds and times are natural numbers here, and the widths they are kept in on the
device show only where a step could leave its width. Such a step answers a `Fault` instead of a
wrapped number, and so does one that asks for a table larger than the address space. Nothing in
this module says that a fault is out of reach; that is a property of the configurations that are
accepted.
-/
namespace SensorEvents

inductive Fault where
  /-- A sum, a difference, a product or a quotient leaves its width. -/
  | overflow
  /-- A shift by at least the width of the shifted word. -/
  | shiftWidth
  /-- A clamp whose lower bound is not below or at its upper bound. -/
  | clampBounds
  /-- A table of more bytes than can be addressed. -/
  | capacity
  /-- An entry that a table does not have. -/
  | index
  deriving DecidableEq, Repr

abbrev Checked (α : Type) := Except Fault α

namespace Checked

def max32 : Nat := 1 <<< 32 - 1

def max64 : Nat := 1 <<< 64 - 1

/-- How many entries of `size` bytes a table can have at most. -/
def tableLimit (size : Nat) : Nat := (1 <<< 63 - 1) / size

def add32 (a b : Nat) : Checked Nat :=
  if a + b ≤ max32 then .ok (a + b) else .error .overflow

def add64 (a b : Nat) : Checked Nat :=
  if a + b ≤ max64 then .ok (a + b) else .error .overflow

def sub (a b : Nat) : Checked Nat :=
  if b ≤ a then .ok (a - b) else .error .overflow

/-- A signed number that has to fit in 64 bits. -/
def int64 (z : Int) : Checked Int :=
  if -0x8000000000000000 ≤ z ∧ z < 0x8000000000000000 then .ok z else .error .overflow

/-- Shift a 64-bit word to the left; bits that leave the word are dropped. -/
def shiftLeft64 (a amount : Nat) : Checked Nat :=
  if amount < 64 then .ok (a <<< amount % (1 <<< 64)) else .error .shiftWidth

def shiftRight64 (a amount : Nat) : Checked Nat :=
  if amount < 64 then .ok (a >>> amount) else .error .shiftWidth

def shiftRight32 (a amount : Nat) : Checked Nat :=
  if amount < 32 then .ok (a >>> amount) else .error .shiftWidth

/-- The number of `[lo, hi]` that is nearest to `x`. -/
def clamp (x lo hi : Nat) : Checked Nat :=
  if lo ≤ hi then .ok (max lo (min x hi)) else .error .clampBounds

/-- Sum of two 32-bit numbers that stays at the largest one. -/
def saturatingAdd32 (a b : Nat) : Nat := min (a + b) max32

/-- Sum of two 64-bit numbers that stays at the largest one. -/
def saturatingAdd64 (a b : Nat) : Nat := min (a + b) max64

/-! ## Steps in sequence

These hold of every kind of failure, so that they serve the checks of a configuration as well. -/

variable {ε α β : Type}

@[simp] theorem pure_eq_ok (a : α) : (pure a : Except ε α) = .ok a := rfl

@[simp] theorem throw_eq_error (e : ε) : (throw e : Except ε α) = .error e := rfl

@[simp] theorem ok_bind (a : α) (f : α → Except ε β) : (Except.ok a >>= f) = f a := rfl

@[simp] theorem error_bind (e : ε) (f : α → Except ε β) :
    ((Except.error e : Except ε α) >>= f) = .error e := rfl

@[simp] theorem map_ok (f : α → β) (a : α) : f <$> (Except.ok a : Except ε α) = .ok (f a) := rfl

/-- A sequence has a result just when both of its steps have one. -/
theorem bind_eq_ok {x : Except ε α} {f : α → Except ε β} {b : β} :
    (x >>= f) = .ok b ↔ ∃ a, x = .ok a ∧ f a = .ok b := by
  cases x <;> simp

/-- Checks in sequence pass just when each of them passes. -/
theorem seq_eq_ok {x : Except ε Unit} {y : Except ε β} {b : β} :
    (x >>= fun _ => y) = .ok b ↔ x = .ok () ∧ y = .ok b := by
  rw [bind_eq_ok]
  exact ⟨fun ⟨_, h⟩ => h, fun h => ⟨(), h⟩⟩

theorem map_checked_eq_ok {x : Except ε Unit} {f : α → β} {a : α} {b : β} :
    (f <$> (x >>= fun _ => pure a)) = .ok b ↔ x = .ok () ∧ f a = b := by
  cases x with
  | ok _ => simp
  | error _ => exact ⟨nofun, nofun⟩

/-- A check that refuses under a condition passes just when the condition fails. -/
theorem refuse_eq_ok {p : Prop} [Decidable p] {e : ε} {x : Except ε α} {a : α} :
    (if p then .error e else x) = .ok a ↔ ¬ p ∧ x = .ok a := by
  by_cases h : p <;> simp [h]

end Checked

end SensorEvents
