import SuperTrading.Logic.FloatText
import SuperTrading.Logic.Rounding
import Mathlib.Algebra.Order.Field.Rat

/-!
# Shared Value Types

The enumerations of `app/database/models`, the clock, and the text and number
formats that the order path writes. Prices, quantities and cash are exact
rationals: the model speaks about the arithmetic the code intends, not about
binary rounding.
-/

namespace SuperTrading

open Logic

abbrev Symbol := String
abbrev AccountId := String

/-! ## Section 1: Enumerations -/

inductive Direction
  | long
  | short
  deriving DecidableEq, Repr

namespace Direction

def value : Direction → String
  | long => "LONG"
  | short => "SHORT"

/-- The side that closes a position taken on this side. -/
def opposite : Direction → Direction
  | long => short
  | short => long

/-- `quantity if direction == LONG else -quantity`. -/
def signed (d : Direction) (quantity : ℚ) : ℚ :=
  match d with
  | long => quantity
  | short => -quantity

end Direction

inductive OrderType
  | market
  | limit
  | sl
  | slM
  deriving DecidableEq, Repr

def OrderType.value : OrderType → String
  | market => "MARKET"
  | limit => "LIMIT"
  | sl => "SL"
  | slM => "SL_M"

inductive OrderStatus
  | created
  | validating
  | riskApproved
  | submitted
  | acknowledged
  | partiallyFilled
  | filled
  | monitoring
  | closed
  | rejected
  | cancelled
  | expired
  | failed
  deriving DecidableEq, Repr

def OrderStatus.value : OrderStatus → String
  | created => "CREATED"
  | validating => "VALIDATING"
  | riskApproved => "RISK_APPROVED"
  | submitted => "SUBMITTED"
  | acknowledged => "ACKNOWLEDGED"
  | partiallyFilled => "PARTIALLY_FILLED"
  | filled => "FILLED"
  | monitoring => "MONITORING"
  | closed => "CLOSED"
  | rejected => "REJECTED"
  | cancelled => "CANCELLED"
  | expired => "EXPIRED"
  | failed => "FAILED"

inductive ExecutionMode
  | live
  | paper
  | backtest
  | replay
  deriving DecidableEq, Repr

/-! ## Section 2: Identifiers and time -/

/-- The id of an `OrderRecord`: the `n`-th value `uuid.uuid4()` gave out. -/
abbrev OrderId := ℕ

/-- A broker's id for an order: minted here by `uuid.uuid4()`, or text a venue
sent. A venue that answered without an id leaves the empty text. -/
inductive BrokerOrderId
  | uuid (n : ℕ)
  | text (s : String)
  deriving DecidableEq, Repr

/-- A UTC instant: microseconds since `datetime.min`, which is a Monday. -/
abbrev Instant := ℕ

namespace Instant

def microsPerDay : ℕ := 86400 * 1000000

/-- `now.date()`, as the number of days since `datetime.min`. -/
def date (t : Instant) : ℕ := t / microsPerDay

/-- The Monday-started week of the instant. Two instants have the same
`isocalendar()[:2]` exactly when they lie in the same such week. -/
def isoWeek (t : Instant) : ℕ := t.date / 7

/-- Midnight of the instant's UTC day. -/
def dayStart (t : Instant) : Instant := t.date * microsPerDay

/-- Midnight of the Monday that starts the instant's week. -/
def weekStart (t : Instant) : Instant := t.isoWeek * 7 * microsPerDay

/-- `timedelta(hours=h)`. -/
def hours (h : ℕ) : ℕ := h * 3600 * 1000000

end Instant

/-! ## Section 3: Number formats -/

/-- `round(q, 4)`. -/
def round4 (q : ℚ) : ℚ := roundHalfEven (q * 10000) / 10000

/-- `round(q, 6)`. -/
def round6 (q : ℚ) : ℚ := roundHalfEven (q * 1000000) / 1000000

/-- What a `Numeric(18, 6)` column gives back for a value written to it: six
decimals, ties away from zero. -/
def numeric (q : ℚ) : ℚ :=
  -- Round the magnitude half up, then put the sign back.
  let scaled := |q| * 1000000
  let n : ℚ := (scaled + 1 / 2).floor
  if q < 0 then -(n / 1000000) else n / 1000000

/-- The values a `Numeric(18, 6)` column keeps exactly. -/
def Representable (q : ℚ) : Prop := numeric q = q

instance (q : ℚ) : Decidable (Representable q) := inferInstanceAs (Decidable (numeric q = q))

@[simp] theorem numeric_zero : numeric 0 = 0 := by decide +kernel

/-- A float spliced into a key or a message. Distinct numbers have distinct
texts, which is what the keys rely on. -/
def formatFloat (q : ℚ) : String := reprFloat q

/-- An optional number spliced into a key: `None` where there is none. -/
def formatOptional : Option ℚ → String
  | none => "None"
  | some q => formatFloat q

/-- The format `:.2f`. -/
def fixed2 (q : ℚ) : String :=
  let n := (roundHalfEven (|q| * 100)).toNat
  let sign := if q < 0 then "-" else ""
  let pad := if n % 100 < 10 then "0" else ""
  s!"{sign}{n / 100}.{pad}{n % 100}"

example : fixed2 (-25 / 2) = "-12.50" := by decide +kernel

/-- `clip(value, limit)`: at most `limit` characters, marked where cut. -/
def clip (value : Option String) (limit : ℕ) : Option String :=
  match value with
  | none => none
  | some s =>
    if s.length ≤ limit then some s
    -- No room for the ellipsis either.
    else if limit = 0 then some ""
    else some (String.ofList (s.toList.take (limit - 1)) ++ "…")

/-! ## Section 4: Signs -/

namespace Direction

@[simp] theorem signed_long (q : ℚ) : Direction.long.signed q = q := rfl

@[simp] theorem signed_short (q : ℚ) : Direction.short.signed q = -q := rfl

@[simp] theorem abs_signed (d : Direction) (q : ℚ) : |d.signed q| = |q| := by
  cases d <;> simp

theorem signed_ne_zero {d : Direction} {q : ℚ} (hq : 0 < q) : d.signed q ≠ 0 := by
  cases d <;> simp [hq.ne']

@[simp] theorem opposite_opposite (d : Direction) : d.opposite.opposite = d := by
  cases d <;> rfl

@[simp] theorem signed_opposite (d : Direction) (q : ℚ) : d.opposite.signed q = -d.signed q := by
  cases d <;> simp [opposite]

@[simp] theorem signed_add (d : Direction) (a b : ℚ) :
    d.signed (a + b) = d.signed a + d.signed b := by
  cases d
  · rfl
  · exact neg_add a b

@[simp] theorem signed_signed (d : Direction) (q : ℚ) : d.signed (d.signed q) = q := by
  cases d <;> simp

/-- A quantity on its own side is its size. -/
theorem signed_eq_abs {d : Direction} {q : ℚ} (h : 0 < d.signed q) : d.signed q = |q| := by
  rw [← abs_signed d q, abs_of_pos h]

end Direction

end SuperTrading
