import SuperTrading.Api.Orders
import SuperTrading.Logic.Texts

/-!
# The Identity of an Order

The idempotency key of `POST /orders` spells out the request but for its type. Two requests get
the same key exactly when they agree on everything else, so a MARKET order that carries a price is
deduplicated onto a LIMIT order at that price.

- **Texts**: what the parts of a key tell
- **Keys**: what a whole key tells
- **Orders**: which order is deduplicated onto which
-/

namespace SuperTrading

open Logic

/-! ## Section 1: Texts -/

/-- `None` is no number. -/
theorem formatOptional_inj {p q : Option ℚ} (h : formatOptional p = formatOptional q) : p = q := by
  have hnumber : ∀ q : ℚ, 'N' ∉ (formatFloat q).toList := fun q =>
    not_mem_reprFloat (by rfl) (by simp)
  cases p with
  | none =>
    cases q with
    | none => rfl
    | some q =>
      refine absurd ?_ (hnumber q)
      rw [← show "None" = formatFloat q from h]
      decide
  | some p =>
    cases q with
    | none =>
      refine absurd ?_ (hnumber p)
      rw [show formatFloat p = "None" from h]
      decide
    | some q => exact congrArg some (reprFloat_inj h)

theorem colon_not_mem_formatFloat (q : ℚ) : ':' ∉ (formatFloat q).toList :=
  not_mem_reprFloat (by rfl) (by simp)

theorem colon_not_mem_formatOptional (q : Option ℚ) : ':' ∉ (formatOptional q).toList := by
  cases q with
  | none => decide
  | some q => exact colon_not_mem_formatFloat q

theorem colon_not_mem_value (d : Direction) : ':' ∉ d.value.toList := by
  cases d <;> decide

theorem Direction.value_inj {d d' : Direction} (h : d.value = d'.value) : d = d' := by
  revert h
  cases d <;> cases d' <;> decide

/-! ## Section 2: Keys -/

namespace PlaceOrderRequest

/-- The requests agree on all that the key spells out. -/
structure SameFields (r r' : PlaceOrderRequest) : Prop where
  symbol : r.symbol = r'.symbol
  direction : r.direction = r'.direction
  entry : r.entry = r'.entry
  stop : r.stop = r'.stop
  price : r.price = r'.price

/-- A key, part for part. -/
theorem toList_idempotencyKey (r : PlaceOrderRequest) (userId : AccountId) :
    (r.idempotencyKey userId).toList =
      ((((userId.toList ++ ':' :: r.symbol.toList) ++ ':' :: r.direction.value.toList) ++
        ':' :: (formatFloat r.entry).toList) ++ ':' :: (formatFloat r.stop).toList) ++
        ':' :: (formatOptional r.price).toList := by
  have htext : ∀ s : String, toString s = s := fun _ => rfl
  have hcolon : ":".toList = [':'] := by decide
  simp [idempotencyKey, htext, hcolon]

/-- The key is read from its end: a symbol may have colons of its own, the parts behind it do
not. -/
theorem idempotencyKey_eq_iff {r r' : PlaceOrderRequest} {userId : AccountId} :
    r.idempotencyKey userId = r'.idempotencyKey userId ↔ SameFields r r' := by
  constructor
  · intro h
    have hlist := congrArg String.toList h
    rw [toList_idempotencyKey, toList_idempotencyKey] at hlist
    -- Read from the end: no field behind the symbol contains a colon.
    obtain ⟨hlist, hprice⟩ := append_cons_inj (colon_not_mem_formatOptional _)
      (colon_not_mem_formatOptional _) hlist
    obtain ⟨hlist, hstop⟩ := append_cons_inj (colon_not_mem_formatFloat _)
      (colon_not_mem_formatFloat _) hlist
    obtain ⟨hlist, hentry⟩ := append_cons_inj (colon_not_mem_formatFloat _)
      (colon_not_mem_formatFloat _) hlist
    obtain ⟨hlist, hdirection⟩ := append_cons_inj (colon_not_mem_value _)
      (colon_not_mem_value _) hlist
    have hsymbol := (List.cons.inj (List.append_cancel_left hlist)).2
    exact
      { symbol := String.toList_inj.mp hsymbol
        direction := Direction.value_inj (String.toList_inj.mp hdirection)
        entry := reprFloat_inj (String.toList_inj.mp hentry)
        stop := reprFloat_inj (String.toList_inj.mp hstop)
        price := formatOptional_inj (String.toList_inj.mp hprice) }
  · rintro ⟨hsymbol, hdirection, hentry, hstop, hprice⟩
    rw [idempotencyKey, idempotencyKey, hsymbol, hdirection, hentry, hstop, hprice]

/-- The same request: the type as well. -/
theorem eq_iff_sameFields {r r' : PlaceOrderRequest} :
    r = r' ↔ SameFields r r' ∧ r.orderType = r'.orderType := by
  constructor
  · rintro rfl
    exact ⟨⟨rfl, rfl, rfl, rfl, rfl⟩, rfl⟩
  · rintro ⟨⟨hsymbol, hdirection, hentry, hstop, hprice⟩, htype⟩
    cases r
    cases r'
    cases hsymbol
    cases hdirection
    cases hentry
    cases hstop
    cases hprice
    cases htype
    rfl

/-! ## Section 3: Orders -/

/-- `POST /orders` enters the request into the book. -/
def enter (r : PlaceOrderRequest) (m : OrderManager) (now : Instant) (userId : AccountId)
    (quantity : ℚ) : OrderRecord × Bool × OrderManager :=
  m.createOrder now (r.idempotencyKey userId) userId r.symbol r.direction r.orderType quantity
    r.price

/-- The key tells the request, and an order is taken for an earlier one exactly when it asks for
the same. The two are entered one after the other, in a book that has not seen the second. -/
structure Identified (userId : AccountId) (r r' : PlaceOrderRequest) : Prop where
  key : r.idempotencyKey userId = r'.idempotencyKey userId ↔ r = r'
  deduplicated : ∀ (m : OrderManager) (now now' : Instant) (quantity quantity' : ℚ),
    m.lookup (r'.idempotencyKey userId) = none →
      let first := r.enter m now userId quantity
      let second := r'.enter first.2.2 now' userId quantity'
      (second.2.1 = false ↔ r = r') ∧ (second.2.1 = false → second.1 = first.1)

/-- An order whose key is not in the book is entered, and its key is from then on. -/
theorem lookup_enter {r : PlaceOrderRequest} {m : OrderManager} {userId : AccountId} {key : String}
    (now : Instant) (quantity : ℚ) (hnone : m.lookup key = none) :
    (r.enter m now userId quantity).2.2.lookup key =
      if r.idempotencyKey userId = key then some (r.enter m now userId quantity).1 else none := by
  unfold enter OrderManager.createOrder
  cases hold : m.lookup (r.idempotencyKey userId) with
  | some order =>
    have hne : r.idempotencyKey userId ≠ key := by
      rintro rfl
      rw [hnone] at hold
      cases hold
    rw [if_neg hne]
    exact hnone
  | none =>
    show (m.insert _).lookup key = _
    rw [OrderManager.lookup_insert_of_new rfl, hnone]
    rfl

/-- `POST /orders` identifies two requests, in every book, unless they are an order of one type
and the same order of the other. -/
theorem order_identity (userId : AccountId) (r r' : PlaceOrderRequest) :
    Identified userId r r' ↔ ¬ (SameFields r r' ∧ r.orderType ≠ r'.orderType) := by
  constructor
  · rintro ⟨hkey, -⟩ ⟨hsame, htype⟩
    have hr := hkey.mp (idempotencyKey_eq_iff.mpr hsame)
    exact htype (congrArg orderType hr)
  · intro h
    -- Two requests of one key differ in their type at most.
    have hkey : r.idempotencyKey userId = r'.idempotencyKey userId ↔ r = r' := by
      rw [idempotencyKey_eq_iff, eq_iff_sameFields]
      exact ⟨fun hsame => ⟨hsame, not_not.mp fun htype => h ⟨hsame, htype⟩⟩, And.left⟩
    refine ⟨hkey, fun m now now' quantity quantity' hnone => ?_⟩
    intro first second
    have hlookup := @lookup_enter r m userId _ now quantity hnone
    have hsecond : second = r'.enter first.2.2 now' userId quantity' := rfl
    unfold enter OrderManager.createOrder at hsecond
    rw [hlookup] at hsecond
    by_cases heq : r.idempotencyKey userId = r'.idempotencyKey userId
    · rw [if_pos heq] at hsecond
      simp only [hsecond, true_iff]
      exact ⟨hkey.mp heq, fun _ => rfl⟩
    · rw [if_neg heq] at hsecond
      simp only [hsecond]
      simp [mt hkey.mpr heq]

/-- A MARKET order that carries a price. -/
def marketWithPrice : PlaceOrderRequest :=
  { symbol := "NIFTY"
    direction := .long
    orderType := .market
    entry := 100
    stop := 95
    price := some 98
    entry_range := by decide +kernel
    stop_range := by decide +kernel
    price_range := by decide +kernel
    executable := by decide }

/-- The LIMIT order at that price. -/
def limitAtPrice : PlaceOrderRequest :=
  { marketWithPrice with
    orderType := .limit
    executable := by decide }

/-- The LIMIT order is a different request, and is answered with the MARKET order. -/
theorem limit_taken_for_market :
    marketWithPrice ≠ limitAtPrice ∧ marketWithPrice.fillPrice ≠ limitAtPrice.fillPrice ∧
      (let first := marketWithPrice.enter {} 0 "u" 10
        let second := limitAtPrice.enter first.2.2 1 "u" 12
        second.2.1 = false ∧ second.1.orderType = .market ∧ second.1.quantity = 10) ∧
      ¬ Identified "u" marketWithPrice limitAtPrice := by
  have hne : marketWithPrice ≠ limitAtPrice := fun h => by
    have htype := congrArg orderType h
    cases htype
  have hkey : marketWithPrice.idempotencyKey "u" = limitAtPrice.idempotencyKey "u" := rfl
  exact ⟨hne, by decide +kernel, by decide +kernel, fun h => hne (h.key.mp hkey)⟩

end PlaceOrderRequest

end SuperTrading
