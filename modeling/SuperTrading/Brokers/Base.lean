import SuperTrading.Core.Types

/-!
# Broker Abstraction

The records of `app/brokers/base.py` and the `Broker` interface every adapter
implements. A broker is a state type with the interface's calls on it; nothing
above this module looks at the state itself.
-/

namespace SuperTrading

/-! ## Section 1: Records -/

structure AccountInfo where
  balance : ℚ
  equity : ℚ
  deriving DecidableEq, Repr

structure BrokerPosition where
  symbol : Symbol
  quantity : ℚ
  averagePrice : ℚ
  unrealizedPnl : ℚ := 0
  deriving DecidableEq, Repr

structure BrokerOrder where
  brokerOrderId : BrokerOrderId
  symbol : Symbol
  direction : Direction
  orderType : OrderType
  quantity : ℚ
  price : Option ℚ
  status : OrderStatus
  filledQuantity : ℚ := 0
  averageFillPrice : Option ℚ := none
  deriving DecidableEq, Repr

structure Quote where
  symbol : Symbol
  ltp : ℚ
  deriving DecidableEq, Repr

structure OrderRequest where
  idempotencyKey : String
  symbol : Symbol
  direction : Direction
  orderType : OrderType
  quantity : ℚ
  price : Option ℚ := none
  triggerPrice : Option ℚ := none
  deriving DecidableEq, Repr

theorem unfilled_priced : 0 < (0 : ℚ) → (none : Option ℚ).isSome := by simp

/-- A broker's answer to an order. A reported fill always carries its price. -/
structure OrderResult where
  brokerOrderId : BrokerOrderId
  status : OrderStatus
  filledQuantity : ℚ := 0
  averageFillPrice : Option ℚ := none
  rejectionReason : Option String := none
  priced : 0 < filledQuantity → averageFillPrice.isSome := by
    first | exact fun _ => Option.isSome_some | exact unfilled_priced | simp

/-! ## Section 2: The interface -/

/-- What `cancel_order` raises: a `BrokerError`, or an exception that its callers
do not all expect. -/
inductive Raised
  | brokerError (text : String)
  | other (text : String)
  deriving DecidableEq, Repr

/-- The `Broker` interface. A call returns the broker's new state beside its
answer, and `Except.error` is a raised exception.

`isMock` is `isinstance(broker, MockBroker)`, and `setQuote` the one method only
that class has; callers ask `isMock` before they use it. `reconnect` is the
broker a rebuilt trading stack gets from `resolve_broker`. -/
class Broker (β : Type) where
  isMock : Bool
  placeOrder : β → OrderRequest → OrderResult × β
  cancelOrder : β → BrokerOrderId → Except Raised OrderResult × β
  getOrders : β → Except String (List BrokerOrder)
  getPositions : β → Except String (List BrokerPosition)
  getAccount : β → AccountInfo
  getQuote : β → Symbol → Except String Quote
  isHealthy : β → Bool
  setQuote : β → Symbol → ℚ → Bool → β
  restoreRealizedPnl : β → ℚ → β
  reconnect : β → β

end SuperTrading
