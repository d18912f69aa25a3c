import Morfeusz.Common.OpenSSL

/-!
# Database requests

What the daemons hand to the database layer: a statement of their own enumeration,
the values bound to its parameters, and the priority it is queued with. A request
that carries a future is answered later; the socket keeps the observer that waits
for the answer.
-/

namespace Morfeusz

/-- `DatabaseTaskPriority`. -/
inductive DatabaseTaskPriority
  | low
  | medium
  | high
  deriving DecidableEq

/-- A bound value: `PreparedStatementData`. A floating-point number is its bits. -/
inductive PreparedStatementData
  | uint8 (v : UInt8)
  | uint32 (v : UInt32)
  | uint64 (v : UInt64)
  | float (bits : UInt32)
  | string (str : List UInt8)
  deriving DecidableEq

/-- `SqlOperationRequest`: the parameters stand with the index they were added
under, in the order of the `add_*` calls. -/
structure SqlOperationRequest (Statement : Type) where
  statement : Statement
  params : List (ℕ × PreparedStatementData)
  priority : DatabaseTaskPriority := .low
  deriving DecidableEq

/-- `add_string`, whose argument is a C string. -/
def addString (index : ℕ) (value : List UInt8) : ℕ × PreparedStatementData :=
  (index, .string (cStr value))

def addUint8 (index : ℕ) (value : UInt8) : ℕ × PreparedStatementData := (index, .uint8 value)

def addUint32 (index : ℕ) (value : UInt32) : ℕ × PreparedStatementData := (index, .uint32 value)

def addUint64 (index : ℕ) (value : UInt64) : ℕ × PreparedStatementData := (index, .uint64 value)

def addFloat (index : ℕ) (bits : UInt32) : ℕ × PreparedStatementData := (index, .float bits)

end Morfeusz
