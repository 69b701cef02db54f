import SuperTrading.Logic.IsoFormat
import SuperTrading.Logic.JsonValue
import SuperTrading.Logic.SortBy

/-!
# Upstox Candles

`parse_candles` of `app/market/providers/upstox.py`: the rows of a payload become candles in UTC,
oldest first. A row that has no shape or no timestamp is skipped with a warning. What else can be
wrong with a row raises, and takes the others along.

- **Rows**: the model, row by row
- **Well-formed rows**: what each of them should become
- **Isolation**: when no row takes the others along
-/

namespace SuperTrading.Upstox

open SuperTrading.Logic

/-! ## Section 1: Rows -/

/-- The timestamp is in UTC, in microseconds since the start of year 1. -/
structure Candle where
  timestamp : ℤ
  «open» : PyFloat
  high : PyFloat
  low : PyFloat
  close : PyFloat
  volume : PyFloat
  deriving DecidableEq, Repr

/-- A naive timestamp is read as UTC. -/
def instant (stamped : IsoStamp) : ℤ := stamped.clock - stamped.utcOffset.getD 0

/-- A naive timestamp, and one that lies in the years 1 to 9999 in UTC. -/
def InYears (stamped : IsoStamp) : Prop :=
  stamped.utcOffset = none ∨ (0 ≤ instant stamped ∧ instant stamped < maxOrdinal * dayMicros)

instance (stamped : IsoStamp) : Decidable (InYears stamped) :=
  inferInstanceAs (Decidable (_ ∨ _))

/-- `stamped.replace(tzinfo=timezone.utc)`, or `stamped.astimezone(timezone.utc)`. -/
def toUtc (stamped : IsoStamp) : Except PyError ℤ :=
  if InYears stamped then .ok (instant stamped) else .error .overflowError

section Rows

-- What `logger.warning` raises with a value to show depends on the handlers.
variable (interp : Interpreter) (warning : JsonValue → Except PyError Unit)

/-- `Candle(timestamp=utc, open=float(row[1]), ...)`. -/
def candleOf (stamped : IsoStamp) (o h l c v : JsonValue) : Except PyError Candle := do
  let timestamp ← toUtc stamped
  let «open» ← interp.toFloat o
  let high ← interp.toFloat h
  let low ← interp.toFloat l
  let close ← interp.toFloat c
  let volume ← interp.toFloat v
  .ok { timestamp, «open», high, low, close, volume }

/-- The row is left out. -/
def skip (shown : JsonValue) : Except PyError (Option Candle) :=
  (warning shown).map fun _ => none

/-- One round of the loop. -/
def parseRow : JsonValue → Except PyError (Option Candle)
  | .array (first :: o :: h :: l :: c :: v :: _) =>
    match interp.str first with
    | .ok t =>
      match fromIsoFormat t with
      | some stamped => (candleOf interp stamped o h l c v).map some
      | none => skip warning first
    | .error .valueError => skip warning first
    | .error e => .error e
  | row => skip warning row

def parseRows (rows : List JsonValue) : Except PyError (List Candle) := do
  let parsed ← rows.mapM (parseRow interp warning)
  .ok (sortBy Candle.timestamp (parsed.filterMap id))

/-- What reading the payload can raise besides. -/
inductive CandlesError
  | attributeError
  | raised (error : PyError)
  deriving DecidableEq, Repr

/-- `bool(value)`. -/
def truthy : JsonValue → Bool
  | .null => false
  | .bool value => value
  | .int value => value ≠ 0
  | .float value => value ≠ .finite 0
  | .text value => value ≠ []
  | .array items => !items.isEmpty
  | .object fields => !fields.isEmpty

/-- `(payload.get("data") or {}).get("candles") or []`, as far as it can be iterated. -/
def candleRows (payload : List (Text × JsonValue)) : Except CandlesError (List JsonValue) := do
  let data := JsonValue.get payload "data" .null
  let fields ←
    if truthy data then
      match data with
      | .object fields => .ok fields
      | _ => .error .attributeError
    else .ok []
  let rows := JsonValue.get fields "candles" .null
  if truthy rows then
    match rows with
    | .array items => .ok items
    | .object fields => .ok (fields.map fun field => .text field.1)
    | .text t => .ok (t.map fun c => .text [c])
    | _ => .error (.raised .typeError)
  else .ok []

/-- `parse_candles`. -/
def parseCandles (payload : List (Text × JsonValue)) : Except CandlesError (List Candle) := do
  let rows ← candleRows payload
  (parseRows interp warning rows).mapError .raised

/-- The payload's `data.candles` is this list. -/
def HasCandles (payload : List (Text × JsonValue)) (rows : List JsonValue) : Prop :=
  ∃ fields, JsonValue.get payload "data" .null = .object fields ∧
    JsonValue.get fields "candles" .null = .array rows

variable {interp warning} {payload : List (Text × JsonValue)} {rows : List JsonValue}

/-- A list under `data.candles` is what the loop goes over. -/
theorem parseCandles_of_hasCandles (h : HasCandles payload rows) :
    parseCandles interp warning payload = (parseRows interp warning rows).mapError .raised := by
  obtain ⟨fields, hdata, hcandles⟩ := h
  have hfields : fields ≠ [] := by
    rintro rfl
    cases hcandles
  have htruthy : truthy (.object fields) = true := by
    simpa [truthy] using hfields
  have hrows : candleRows payload = .ok rows := by
    unfold candleRows
    simp only [hdata, htruthy, if_true]
    change (if truthy (JsonValue.get fields "candles" .null) then _ else _) = _
    rw [hcandles]
    cases rows with
    | nil => rfl
    | cons row rows => rfl
  rw [parseCandles, hrows]
  rfl

/-! ## Section 2: Well-formed rows -/

variable (interp) in
/-- The candle that a row denotes: a list of at least six items, a timestamp and five numbers. -/
def wellFormed? : JsonValue → Option Candle
  | .array (first :: o :: h :: l :: c :: v :: _) => do
    let t ← (interp.str first).toOption
    let stamped ← fromIsoFormat t
    let «open» ← (interp.toFloat o).toOption
    let high ← (interp.toFloat h).toOption
    let low ← (interp.toFloat l).toOption
    let close ← (interp.toFloat c).toOption
    let volume ← (interp.toFloat v).toOption
    some { timestamp := instant stamped, «open», high, low, close, volume }
  | _ => none

variable (interp warning) in
/-- The row raises nothing. One with a timestamp has an instant and five numbers, and any other is
skipped without an error of the logger; its first item is printed, or has too many digits. -/
def RowReturns : JsonValue → Prop
  | .array (first :: o :: h :: l :: c :: v :: _) =>
    match interp.str first with
    | .ok t =>
      match fromIsoFormat t with
      | some stamped => InYears stamped ∧ ∀ x ∈ [o, h, l, c, v], interp.accepts x = true
      | none => Returns (warning first)
    | .error e => e = .valueError ∧ Returns (warning first)
  | row => Returns (warning row)

theorem returns_map {α β : Type} {x : Except PyError α} {f : α → β} :
    Returns (x.map f) ↔ Returns x := by
  cases x with
  | error e => exact iff_of_false (not_returns_error e) (not_returns_error e)
  | ok a => exact iff_of_true (returns_ok _) (returns_ok a)

theorem returns_candleOf {stamped : IsoStamp} {o h l c v : JsonValue} :
    Returns (candleOf interp stamped o h l c v) ↔
      InYears stamped ∧ ∀ x ∈ [o, h, l, c, v], interp.accepts x = true := by
  have hutc : Returns (toUtc stamped) ↔ InYears stamped := by
    unfold toUtc
    split_ifs with hyears
    · exact iff_of_true (returns_ok _) hyears
    · exact iff_of_false (not_returns_error _) hyears
  simp only [← Interpreter.returns_toFloat, List.forall_mem_cons, ← hutc, candleOf, returns_bind]
  simp only [List.not_mem_nil, false_imp_iff, implies_true, and_true]
  constructor
  · rintro ⟨t, ht, o', ho, h', hh, l', hl, c', hc, v', hv, -⟩
    exact ⟨⟨t, ht⟩, ⟨o', ho⟩, ⟨h', hh⟩, ⟨l', hl⟩, ⟨c', hc⟩, ⟨v', hv⟩⟩
  · rintro ⟨⟨t, ht⟩, ⟨o', ho⟩, ⟨h', hh⟩, ⟨l', hl⟩, ⟨c', hc⟩, ⟨v', hv⟩⟩
    exact ⟨t, ht, o', ho, h', hh, l', hl, c', hc, v', hv, returns_ok _⟩

/-- **What a row must not do is raise.** -/
theorem returns_parseRow {row : JsonValue} :
    Returns (parseRow interp warning row) ↔ RowReturns interp warning row := by
  unfold parseRow RowReturns
  split
  · cases interp.str _ with
    | ok t =>
      dsimp only
      cases fromIsoFormat t with
      | some stamped => exact returns_map.trans returns_candleOf
      | none => exact returns_map
    | error e =>
      cases e with
      | valueError => exact returns_map.trans (and_iff_right rfl).symm
      | _ => exact iff_of_false (not_returns_error _) fun h => nomatch h.1
  · exact returns_map

instance (row : JsonValue) : Decidable (RowReturns interp warning row) :=
  decidable_of_iff _ returns_parseRow

theorem eq_none_of_skip {shown : JsonValue} {parsed : Option Candle}
    (h : skip warning shown = .ok parsed) : parsed = none := by
  unfold skip at h
  cases hwarning : warning shown with
  | error e => simp [hwarning, Except.map] at h
  | ok _ => simpa [hwarning, Except.map] using h.symm

/-- A candle that is built is the one that its row denotes. -/
theorem candleOf_eq_ok {stamped : IsoStamp} {o h l c v : JsonValue} {candle : Candle}
    (hcandle : candleOf interp stamped o h l c v = .ok candle) :
    interp.toFloat o = .ok candle.open ∧ interp.toFloat h = .ok candle.high ∧
      interp.toFloat l = .ok candle.low ∧ interp.toFloat c = .ok candle.close ∧
      interp.toFloat v = .ok candle.volume ∧ candle.timestamp = instant stamped := by
  simp only [candleOf, bind_eq_ok] at hcandle
  obtain ⟨t, ht, o', ho, h', hh, l', hl, c', hc, v', hv, hok⟩ := hcandle
  cases hok
  refine ⟨ho, hh, hl, hc, hv, ?_⟩
  unfold toUtc at ht
  split_ifs at ht
  exact (Except.ok.inj ht).symm

/-- **A row that raises nothing becomes the candle that it denotes, or none.** -/
theorem eq_wellFormed?_of_parseRow {row : JsonValue} {parsed : Option Candle}
    (hparsed : parseRow interp warning row = .ok parsed) : parsed = wellFormed? interp row := by
  unfold parseRow at hparsed
  unfold wellFormed?
  split at hparsed
  · rename_i first o h l c v rest
    cases hstr : interp.str first with
    | error e =>
      rw [hstr] at hparsed
      cases e with
      | valueError => exact eq_none_of_skip hparsed
      | _ => cases hparsed
    | ok t =>
      rw [hstr] at hparsed
      dsimp only at hparsed
      cases hstamped : fromIsoFormat t with
      | none =>
        rw [hstamped] at hparsed
        simpa [Except.toOption, hstamped] using eq_none_of_skip hparsed
      | some stamped =>
        rw [hstamped] at hparsed
        dsimp only at hparsed
        cases hcandle : candleOf interp stamped o h l c v with
        | error e => simp [hcandle, Except.map] at hparsed
        | ok candle =>
          rw [hcandle] at hparsed
          cases hparsed
          -- Each number is the one that `float` returned, so the specification reads the same.
          obtain ⟨ho, hh, hl, hc, hv, htimestamp⟩ := candleOf_eq_ok hcandle
          simp [Except.toOption, hstamped, ho, hh, hl, hc, hv, ← htimestamp]
  · exact eq_none_of_skip hparsed

/-! ## Section 3: Isolation -/

variable (interp) in
/-- Does the row denote a candle of the timestamp? -/
def isAt (t : ℤ) (row : JsonValue) : Bool := (wellFormed? interp row).any (·.timestamp = t)

/-- The same rows, those of one timestamp in the same order. -/
structure Reordered (interp : Interpreter) (rows rows' : List JsonValue) : Prop where
  perm : rows'.Perm rows
  timestamps : ∀ t, rows'.filter (isAt interp t) = rows.filter (isAt interp t)

variable (interp warning) in
/-- Parsing raises nothing and returns the candles of the well-formed rows in the order of their
timestamps, in whatever order rows of different timestamps come. -/
def Isolates (payload : List (Text × JsonValue)) (rows : List JsonValue) : Prop :=
  ∃ candles, parseCandles interp warning payload = .ok candles ∧
    candles.Pairwise (fun a b => a.timestamp ≤ b.timestamp) ∧
    candles.Perm (rows.filterMap (wellFormed? interp)) ∧
    ∀ rows' payload', Reordered interp rows rows' → HasCandles payload' rows' →
      parseCandles interp warning payload' = .ok candles

/-- The candles of a timestamp are those of the rows that denote one. -/
theorem filter_timestamp (t : ℤ) (rows : List JsonValue) :
    (rows.filterMap (wellFormed? interp)).filter (fun candle => candle.timestamp = t) =
      (rows.filter (isAt interp t)).filterMap (wellFormed? interp) := by
  rw [List.filter_filterMap, List.filterMap_filter]
  refine List.filterMap_congr fun row _ => ?_
  unfold isAt
  cases wellFormed? interp row <;> simp [Option.filter]

/-- Rows that raise nothing are parsed to the candles that they denote. -/
theorem parseRows_eq (h : ∀ row ∈ rows, RowReturns interp warning row) :
    parseRows interp warning rows =
      .ok (sortBy Candle.timestamp (rows.filterMap (wellFormed? interp))) := by
  have hparsed : rows.mapM (parseRow interp warning) = .ok (rows.map (wellFormed? interp)) := by
    induction rows with
    | nil => rfl
    | cons row rows ih =>
      obtain ⟨hrow, hrows⟩ := List.forall_mem_cons.mp h
      obtain ⟨parsed, hparsed⟩ := returns_parseRow.mpr hrow
      rw [List.mapM_cons, hparsed, ih hrows, eq_wellFormed?_of_parseRow hparsed]
      rfl
  rw [parseRows, hparsed]
  change Except.ok (sortBy _ ((rows.map (wellFormed? interp)).filterMap id)) = _
  rw [List.filterMap_map]
  rfl

theorem returns_parseRows : Returns (parseRows interp warning rows) ↔
    ∀ row ∈ rows, RowReturns interp warning row := by
  unfold parseRows
  rw [returns_bind_ok, returns_mapM]
  exact forall₂_congr fun _ _ => returns_parseRow

/-- **Bad rows are isolated** exactly if no row raises. -/
theorem parse_candles_isolates (hcandles : HasCandles payload rows) :
    Isolates interp warning payload rows ↔ ∀ row ∈ rows, RowReturns interp warning row := by
  constructor
  · rintro ⟨candles, hok, -⟩
    rw [parseCandles_of_hasCandles hcandles] at hok
    refine returns_parseRows.mp ?_
    cases hparsed : parseRows interp warning rows with
    | error e => simp [hparsed, Except.mapError] at hok
    | ok candles => exact returns_ok candles
  · intro hreturns
    refine ⟨sortBy Candle.timestamp (rows.filterMap (wellFormed? interp)), ?_,
      pairwise_sortBy _ _, sortBy_perm _ _, ?_⟩
    · rw [parseCandles_of_hasCandles hcandles, parseRows_eq hreturns]
      rfl
    · -- Sorting is stable, so the order of a timestamp's rows is all that counts.
      intro rows' payload' hreordered hcandles'
      have hreturns' : ∀ row ∈ rows', RowReturns interp warning row :=
        fun row hrow => hreturns row (hreordered.perm.mem_iff.mp hrow)
      have hsorted : sortBy Candle.timestamp (rows'.filterMap (wellFormed? interp)) =
          sortBy Candle.timestamp (rows.filterMap (wellFormed? interp)) := by
        refine sortBy_congr _ fun t => ?_
        rw [filter_timestamp, filter_timestamp, hreordered.timestamps t]
      rw [parseCandles_of_hasCandles hcandles', parseRows_eq hreturns', hsorted]
      rfl

end Rows

/-- CPython on ASCII texts, as far as no number is printed. -/
def plainInterpreter : Interpreter where
  maxStrDigits := 4300
  maxDepth := 900
  upper := id
  lower := id
  decimal _ := none
  printable _ := false
  floatRepr _ := []

/-- Handlers that take every warning. -/
def logged (_ : JsonValue) : Except PyError Unit := .ok ()

def payloadOf (rows : List JsonValue) : List (Text × JsonValue) :=
  [(text "data", .object [(text "candles", .array rows)])]

def rowOf (timestamp : String) (price : JsonValue) : JsonValue :=
  .array [.text (text timestamp), price, .int 101, .int 99, .int 100, .int 2000, .int 0]

/-- A number in a text is one for `float` as well, and the two rows without a timestamp are left
out. -/
theorem parse_candles_isolates_of_good_rows :
    Isolates plainInterpreter logged
      (payloadOf [rowOf "2026-09-16T09:15:00+05:30" (.text (text "100.5")), .null,
        rowOf "broken" (.int 100), rowOf "2026-09-15T09:15:00+05:30" (.int 100)])
      [rowOf "2026-09-16T09:15:00+05:30" (.text (text "100.5")), .null,
        rowOf "broken" (.int 100), rowOf "2026-09-15T09:15:00+05:30" (.int 100)] :=
  (parse_candles_isolates ⟨_, rfl, rfl⟩).mpr (by decide +kernel)

/-- A price that is missing takes the good row along. -/
theorem missing_price_raises :
    parseCandles plainInterpreter logged
        (payloadOf [rowOf "2026-09-16T09:15:00+05:30" (.int 100),
          rowOf "2026-09-15T09:15:00+05:30" .null]) = .error (.raised .typeError) ∧
      ¬ Isolates plainInterpreter logged
        (payloadOf [rowOf "2026-09-16T09:15:00+05:30" (.int 100),
          rowOf "2026-09-15T09:15:00+05:30" .null])
        [rowOf "2026-09-16T09:15:00+05:30" (.int 100),
          rowOf "2026-09-15T09:15:00+05:30" .null] := by
  have hraises : parseCandles plainInterpreter logged
      (payloadOf [rowOf "2026-09-16T09:15:00+05:30" (.int 100),
        rowOf "2026-09-15T09:15:00+05:30" .null]) = .error (.raised .typeError) := by
    decide +kernel
  refine ⟨hraises, ?_⟩
  rintro ⟨candles, hok, -⟩
  rw [hraises] at hok
  cases hok

end SuperTrading.Upstox
