import SuperTrading.Brokers.Base

/-!
# A Venue That Answers by Script

A connected broker for concrete runs: the coming orders are answered as a script
says, and filled in full once the script is over. An adapter such as Upstox's gives
each of these answers.
-/

namespace SuperTrading

/-- What becomes of one order at the venue. `pending` is an order the venue has
accepted and not filled, `unanswered` one whose fate is unknown. -/
inductive VenueAnswer
  | filled
  | partlyFilled (quantity : ℚ)
  | pending
  | rejected (reason : String)
  | unanswered
  deriving DecidableEq, Repr

structure ScriptedVenue where
  script : List VenueAnswer := []
  account : AccountInfo := { balance := 100000, equity := 100000 }
  ltp : ℚ := 100
  nextId : ℕ := 0

namespace ScriptedVenue

/-- The answer to an order, at the venue's last price. -/
def answer (v : ScriptedVenue) (quantity : ℚ) : VenueAnswer → OrderResult
  | .filled =>
    { brokerOrderId := .uuid v.nextId, status := .filled, filledQuantity := quantity,
      averageFillPrice := some v.ltp }
  | .partlyFilled filled =>
    { brokerOrderId := .uuid v.nextId, status := .partiallyFilled,
      filledQuantity := min filled quantity, averageFillPrice := some v.ltp }
  | .pending => { brokerOrderId := .uuid v.nextId, status := .submitted }
  | .rejected reason =>
    { brokerOrderId := .text "", status := .rejected, rejectionReason := some reason }
  | .unanswered => { brokerOrderId := .text "", status := .failed }

def placeOrder (v : ScriptedVenue) (request : OrderRequest) : OrderResult × ScriptedVenue :=
  (v.answer request.quantity (v.script.headD .filled),
    { v with
      script := v.script.tail
      nextId := v.nextId + 1 })

instance : Broker ScriptedVenue where
  isMock := false
  placeOrder := placeOrder
  cancelOrder v id := (.ok { brokerOrderId := id, status := .cancelled }, v)
  getOrders _ := .ok []
  getPositions _ := .ok []
  getAccount := account
  getQuote v symbol := .ok { symbol := symbol, ltp := v.ltp }
  isHealthy _ := true
  setQuote v _ _ _ := v
  restoreRealizedPnl v _ := v
  reconnect v := v

end ScriptedVenue

end SuperTrading
