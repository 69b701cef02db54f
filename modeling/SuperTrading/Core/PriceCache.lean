import SuperTrading.Core.SharedState

/-!
# The Price Cache

`set_latest_price`, `get_latest_price`, `get_price_age_seconds` and `get_price_jump_pct` of
`app/core/redis.py`. The market data worker writes three keys for a tick; the last of them, the
price before, it writes only if it still found one. The history of the ticks it wrote says what
each reader returns.

- **Section 1**: readers
- **Section 2**: the history of the ticks
- **Section 3**: what a transaction leaves under the keys
- **Section 4**: the cache records the history
-/

namespace SuperTrading

open SuperTrading.Logic

/-! ## Section 1: Readers -/

namespace SharedState

open RedisKeyspace (key)

/-- `get_price_age_seconds`. -/
def priceAgeSeconds (s : SharedState) (symbol : Symbol) : Option ℚ :=
  (s.getNumber (key .priceTs symbol)).map fun value => max ((s.store.now : ℚ) / 1000 - value) 0

/-- What `get_price_jump_pct` finds under the key of the price before. -/
def previousPrice (s : SharedState) (symbol : Symbol) : Option ℚ :=
  s.getNumber (key .pricePrev symbol)

/-- `get_price_jump_pct`: two reads, and each finds what is there by then. -/
def priceJumpPct (s s' : SharedState) (symbol : Symbol) : Option ℚ :=
  match s.latestPrice symbol, s'.previousPrice symbol with
  | some latest, some previous =>
    if previous = 0 then none else some (|latest - previous| / previous * 100)
  | _, _ => none

end SharedState

/-! ## Section 2: The history -/

/-- A tick that was written. -/
structure CachedTick where
  symbol : Symbol
  price : ℚ
  /-- When `set_latest_price` was called. -/
  takenAt : ℕ
  writtenAt : ℕ
  deriving DecidableEq, Repr

namespace CachedTick

/-- The keys of a tick can still be seen. -/
def SeenAt (t : CachedTick) (now : ℕ) : Prop := now ≤ t.writtenAt + priceTtl

instance (t : CachedTick) (now : ℕ) : Decidable (t.SeenAt now) :=
  inferInstanceAs (Decidable (_ ≤ _))

end CachedTick

/-- The ticks that were written, the newest first, and the one that is being written. -/
structure PriceHistory where
  now : ℕ := 0
  writing : Option (Symbol × ℚ × ℕ) := none
  written : List CachedTick := []

namespace PriceHistory

def step (h : PriceHistory) : SharedCall → PriceHistory
  | .elapse time => { h with now := h.now + time }
  | .readPrevious symbol price => { h with writing := some (symbol, price, h.now) }
  | .writePrice =>
    { h with
      writing := none
      written := h.writing.elim h.written fun w => ⟨w.1, w.2.1, w.2.2, h.now⟩ :: h.written }
  | .abandonPrice => { h with writing := none }
  | _ => h

/-- The ticks of a symbol. -/
def ticks (h : PriceHistory) (symbol : Symbol) : List CachedTick :=
  h.written.filter fun t => t.symbol = symbol

end PriceHistory

/-! ## Section 3: Entries -/

/-- The price a call that starts at an instant finds. -/
def seenPrice (ticks : List CachedTick) (now : ℕ) : Option ℚ :=
  (ticks.head?.filter fun t => t.SeenAt now).map CachedTick.price

/-- The entry of the price before the newest tick, which its call still found. -/
def previousEntry : List CachedTick → Option (TtlEntry RedisValue)
  | last :: previous :: _ =>
    if previous.SeenAt last.takenAt then
      some ⟨.number previous.price, some (last.writtenAt + priceTtl)⟩
    else none
  | _ => none

namespace SharedState

open RedisKeyspace (key)

/-- The cache stands as the history has it. -/
structure Records (s : SharedState) (h : PriceHistory) : Prop where
  now : s.store.now = h.now
  writing : s.writing.map (fun w => (w.symbol, w.price, w.takenAt)) = h.writing
  started : ∀ w ∈ s.writing, w.takenAt ≤ h.now ∧
    w.previous = seenPrice (h.ticks w.symbol) w.takenAt
  times : ∀ t ∈ h.written, t.takenAt ≤ t.writtenAt ∧ t.writtenAt ≤ h.now
  price : ∀ symbol, s.store.entries.get? (key .price symbol) =
    (h.ticks symbol).head?.map fun t => ⟨.number t.price, some (t.writtenAt + priceTtl)⟩
  priceTs : ∀ symbol, s.store.entries.get? (key .priceTs symbol) =
    (h.ticks symbol).head?.map fun t =>
      ⟨.number ((t.takenAt : ℚ) / 1000), some (t.writtenAt + priceTtl)⟩
  /-- What is left of an older tick is over. -/
  pricePrev : ∀ symbol, s.store.entries.get? (key .pricePrev symbol) =
      previousEntry (h.ticks symbol) ∨
    previousEntry (h.ticks symbol) = none ∧
      ∃ e t, s.store.entries.get? (key .pricePrev symbol) = some e ∧ e.expiresAt = some t ∧
        t < h.now

variable {s : SharedState} {h : PriceHistory}

theorem getNumber_of_none {k : String} (hentry : s.store.entries.get? k = none) :
    s.getNumber k = none := by
  rw [getNumber, TtlStore.get, hentry]
  rfl

theorem getNumber_of_entry {k : String} {q : ℚ} {t : ℕ}
    (hentry : s.store.entries.get? k = some ⟨.number q, some t⟩) :
    s.getNumber k = if s.store.now ≤ t then some q else none := by
  rw [getNumber, TtlStore.get_of_entry hentry]
  by_cases hle : s.store.now ≤ t <;> simp [hle]

/-- The keys of the price cache are left alone by all but the transaction. -/
theorem entry_keep {space : RedisKeyspace} (hspace : cachesPrice space = true) (id : String)
    {call : SharedCall} (hcall : call ≠ .writePrice) :
    (s.step call).store.entries.get? (key space id) = s.store.entries.get? (key space id) := by
  cases hc : call.command with
  | some c =>
    obtain ⟨k, w⟩ := c
    have hother : ∃ other id', k = key other id' ∧ cachesPrice other = false := by
      cases call <;> cases hc <;> exact ⟨_, _, rfl, rfl⟩
    obtain ⟨other, id', rfl, hother⟩ := hother
    have hne : key other id' ≠ key space id := by
      intro heq
      rw [(RedisKeyspace.key_inj.mp heq).1, hspace] at hother
      cases hother
    rw [store_step_of_command s hc, TtlStore.entry_write_of_ne _ hne]
  | none =>
    cases call with
    | writePrice => exact absurd rfl hcall
    | elapse | readPrevious | abandonPrice => rfl
    | _ => cases hc

/-- What the transaction leaves under the keys of its symbol. -/
theorem entries_transaction (w : PriceUpdate) (store : TtlStore String RedisValue)
    (symbol : Symbol) :
    ((w.transaction store).entries.get? (key .price symbol) =
      if w.symbol = symbol then some ⟨.number w.price, some (store.now + priceTtl)⟩
      else store.entries.get? (key .price symbol)) ∧
    ((w.transaction store).entries.get? (key .priceTs symbol) =
      if w.symbol = symbol then
        some ⟨.number ((w.takenAt : ℚ) / 1000), some (store.now + priceTtl)⟩
      else store.entries.get? (key .priceTs symbol)) ∧
    (w.transaction store).entries.get? (key .pricePrev symbol) =
      if w.symbol = symbol then
        w.previous.elim (store.entries.get? (key .pricePrev symbol)) fun previous =>
          some ⟨.number previous, some (store.now + priceTtl)⟩
      else store.entries.get? (key .pricePrev symbol) := by
  cases hprevious : w.previous with
  | none =>
    simp [PriceUpdate.transaction, hprevious, TtlStore.put, Dict.get?_set, RedisKeyspace.key_inj]
  | some previous =>
    simp [PriceUpdate.transaction, hprevious, TtlStore.put, Dict.get?_set, RedisKeyspace.key_inj]

theorem seenPrice_cons (t : CachedTick) (rest : List CachedTick) (now : ℕ) :
    seenPrice (t :: rest) now = if t.SeenAt now then some t.price else none := by
  by_cases hseen : t.SeenAt now <;> simp [seenPrice, hseen]

theorem Records.latestPrice (hr : Records s h) (symbol : Symbol) :
    s.latestPrice symbol = seenPrice (h.ticks symbol) h.now := by
  have hentry := hr.price symbol
  cases hticks : h.ticks symbol with
  | nil =>
    rw [hticks] at hentry
    exact getNumber_of_none hentry
  | cons t rest =>
    rw [hticks] at hentry
    rw [SharedState.latestPrice, getNumber_of_entry hentry, hr.now, seenPrice_cons]
    rfl

/-- A call that writes no price keeps the entries, whatever it does to the clock and to the tick
that is being written. -/
theorem Records.of_keep (hr : Records s h) (call : SharedCall) (hcall : call ≠ .writePrice)
    {h' : PriceHistory} (hwritten : h'.written = h.written)
    (hnow : (s.step call).store.now = h'.now) (hle : h.now ≤ h'.now)
    (hwriting : (s.step call).writing.map (fun w => (w.symbol, w.price, w.takenAt)) = h'.writing)
    (hstarted : ∀ w ∈ (s.step call).writing, w.takenAt ≤ h'.now ∧
      w.previous = seenPrice (h.ticks w.symbol) w.takenAt) :
    Records (s.step call) h' := by
  have hticks : ∀ symbol, h'.ticks symbol = h.ticks symbol := by
    intro symbol
    rw [PriceHistory.ticks, hwritten]
    rfl
  -- Every field but the last reads a key that the call leaves alone.
  refine
    { now := hnow
      writing := hwriting
      started := fun w hw => by rw [hticks]; exact hstarted w hw
      times := fun t ht => (hr.times t (hwritten ▸ ht)).imp_right fun hle' => hle'.trans hle
      price := fun symbol => by rw [entry_keep rfl symbol hcall, hticks, hr.price]
      priceTs := fun symbol => by rw [entry_keep rfl symbol hcall, hticks, hr.priceTs]
      pricePrev := fun symbol => ?_ }
  rw [entry_keep rfl symbol hcall, hticks]
  -- An entry that has outlived its ticks goes on doing so as the clock goes on.
  refine (hr.pricePrev symbol).imp_right ?_
  rintro ⟨hnone, e, t, he, ht, hlt⟩
  exact ⟨hnone, e, t, he, ht, Nat.lt_of_lt_of_le hlt hle⟩

theorem ticks_writePrice {w : Symbol × ℚ × ℕ} (hw : h.writing = some w) (symbol : Symbol) :
    (h.step .writePrice).ticks symbol =
      if w.1 = symbol then ⟨w.1, w.2.1, w.2.2, h.now⟩ :: h.ticks symbol else h.ticks symbol := by
  by_cases hs : w.1 = symbol <;>
    simp [PriceHistory.ticks, PriceHistory.step, hw, hs]

/-- A transaction records its tick. If its call found no price, whatever is left of an older one
is over. -/
theorem Records.writePrice (hr : Records s h) {w : PriceUpdate} (hw : s.writing = some w) :
    Records (s.step .writePrice) (h.step .writePrice) := by
  have hwriting : h.writing = some (w.symbol, w.price, w.takenAt) := by
    rw [← hr.writing, hw]
    rfl
  obtain ⟨htaken, hprevious⟩ := hr.started w hw
  have hstore : (s.step .writePrice).store = w.transaction s.store := by
    rw [SharedState.step, hw]
    rfl
  have hnow : (w.transaction s.store).now = s.store.now := by
    cases hp : w.previous <;> simp [PriceUpdate.transaction, TtlStore.put, hp]
  constructor
  -- The clock stands still in a transaction.
  case now => rw [hstore, hnow, hr.now]; rfl
  case writing => rfl
  case started => intro w' hw'; cases hw'
  -- What is written is the new tick and the older ones.
  case times =>
    intro t ht
    rw [PriceHistory.step, hwriting] at ht
    obtain rfl | ht := List.mem_cons.mp ht
    · exact ⟨htaken, Nat.le_refl _⟩
    · exact hr.times t ht
  -- Two of the keys are written by every tick.
  case price =>
    intro symbol
    rw [hstore, (entries_transaction w s.store symbol).1, ticks_writePrice hwriting, hr.price,
      hr.now]
    split_ifs <;> rfl
  case priceTs =>
    intro symbol
    rw [hstore, (entries_transaction w s.store symbol).2.1, ticks_writePrice hwriting, hr.priceTs,
      hr.now]
    split_ifs <;> rfl
  -- The third is written if a price was found, and else left to run out.
  case pricePrev =>
    intro symbol
    rw [hstore, (entries_transaction w s.store symbol).2.2, ticks_writePrice hwriting, hr.now]
    by_cases hs : w.symbol = symbol
    · subst hs
      rw [if_pos rfl, if_pos rfl]
      have hold := hr.pricePrev w.symbol
      cases hticks : h.ticks w.symbol with
      | nil =>
        rw [hticks] at hold hprevious
        rw [hprevious]
        exact hold
      | cons last rest =>
        rw [hticks] at hold hprevious
        rw [seenPrice_cons] at hprevious
        by_cases hseen : last.SeenAt w.takenAt
        · rw [if_pos hseen] at hprevious
          rw [hprevious]
          exact .inl (if_pos hseen).symm
        · rw [if_neg hseen] at hprevious
          rw [hprevious]
          have hnone : previousEntry (⟨w.symbol, w.price, w.takenAt, h.now⟩ :: last :: rest) =
              none := if_neg hseen
          rw [hnone]
          -- The price before the last tick is over with the last tick.
          have hover : last.writtenAt + priceTtl < h.now :=
            Nat.lt_of_lt_of_le (Nat.lt_of_not_le hseen) htaken
          obtain hentry | ⟨-, hexpired⟩ := hold
          · rw [Option.elim_none, hentry]
            cases rest with
            | nil => exact .inl rfl
            | cons older rest =>
              by_cases hfound : older.SeenAt last.takenAt
              · exact .inr ⟨rfl, _, _, if_pos hfound, rfl, hover⟩
              · exact .inl (if_neg hfound)
          · exact .inr ⟨rfl, hexpired⟩
    · rw [if_neg hs, if_neg hs]
      exact hr.pricePrev symbol

/-- Every call keeps the cache and the history together. -/
theorem Records.step (hr : Records s h) (call : SharedCall) :
    Records (s.step call) (h.step call) := by
  cases call with
  -- The second step of a tick writes; without a first step nothing happens on either side.
  | writePrice =>
    cases hw : s.writing with
    | some w => exact hr.writePrice hw
    | none =>
      have hs : s.step .writePrice = s := by
        obtain ⟨store, writing⟩ := s
        obtain rfl : writing = none := hw
        rfl
      have hh : h.step .writePrice = h := by
        have hwriting := hr.writing
        rw [hw] at hwriting
        obtain ⟨now, writing, written⟩ := h
        obtain rfl : none = writing := hwriting
        rfl
      rw [hs, hh]
      exact hr
  -- Time leaves what is being written taken in the past.
  | elapse time =>
    refine hr.of_keep (.elapse time) (by simp) rfl (congrArg (· + time) hr.now)
      (Nat.le_add_right _ _) hr.writing ?_
    exact fun w hw => (hr.started w hw).imp_left fun hle => Nat.le_add_right_of_le hle
  -- The first step of a tick takes the clock and the price that is seen now.
  | readPrevious symbol price =>
    refine hr.of_keep (.readPrevious symbol price) (by simp) rfl hr.now (Nat.le_refl _) ?_ ?_
    · rw [SharedState.step, PriceHistory.step, ← hr.now]
      rfl
    · rintro w hw
      cases hw
      exact ⟨hr.now.le, by rw [hr.latestPrice, hr.now]⟩
  | abandonPrice =>
    refine hr.of_keep .abandonPrice (by simp) rfl hr.now (Nat.le_refl _) rfl ?_
    rintro w hw
    cases hw
  -- Every other call writes another key.
  | rateLimit id write | tradeLock id write =>
    cases write <;>
      exact hr.of_keep _ (by simp) rfl hr.now (Nat.le_refl _) hr.writing hr.started
  | _ => exact hr.of_keep _ (by simp) rfl hr.now (Nat.le_refl _) hr.writing hr.started

/-! ## Section 4: The cache records the history -/

theorem records_run (calls : List SharedCall) :
    Records (run step {} calls) (run PriceHistory.step {} calls) :=
  run_related (fun _ _ call hr => hr.step call) calls
    { now := rfl
      writing := rfl
      started := fun w hw => by cases hw
      times := fun t ht => by cases ht
      price := fun symbol => rfl
      priceTs := fun symbol => rfl
      pricePrev := fun symbol => .inl rfl }

theorem Records.latestPrice_iff (hr : Records s h) {symbol : Symbol} {price : ℚ} :
    s.latestPrice symbol = some price ↔
      ∃ t rest, h.ticks symbol = t :: rest ∧ t.SeenAt h.now ∧ t.price = price := by
  rw [hr.latestPrice]
  cases h.ticks symbol with
  | nil => simp [seenPrice]
  | cons t rest => simp [seenPrice_cons]

theorem Records.priceAgeSeconds_iff (hr : Records s h) {symbol : Symbol} {age : ℚ} :
    s.priceAgeSeconds symbol = some age ↔
      ∃ t rest, h.ticks symbol = t :: rest ∧ t.SeenAt h.now ∧
        age = ((h.now : ℚ) - t.takenAt) / 1000 := by
  have hentry := hr.priceTs symbol
  cases hticks : h.ticks symbol with
  | nil =>
    rw [hticks] at hentry
    simp [priceAgeSeconds, getNumber_of_none hentry]
  | cons t rest =>
    rw [hticks] at hentry
    -- Ticks are taken before they are written, so an age is not negative.
    have hmem : t ∈ h.written := List.mem_of_mem_filter (hticks ▸ List.mem_cons_self)
    obtain ⟨htaken, hwritten⟩ := hr.times t hmem
    have hle : (t.takenAt : ℚ) ≤ h.now := Nat.cast_le.mpr (htaken.trans hwritten)
    have hage : max ((h.now : ℚ) / 1000 - t.takenAt / 1000) 0 = (h.now - t.takenAt) / 1000 := by
      rw [← sub_div]
      exact max_eq_left (div_nonneg (sub_nonneg.mpr hle) (by norm_num))
    rw [priceAgeSeconds, getNumber_of_entry hentry, hr.now]
    by_cases hseen : t.SeenAt h.now
    · rw [if_pos (show h.now ≤ t.writtenAt + priceTtl from hseen)]
      simp [hage, hseen, eq_comm]
    · rw [if_neg (show ¬ h.now ≤ t.writtenAt + priceTtl from hseen)]
      simp [hseen]

theorem Records.previousPrice_iff (hr : Records s h) {symbol : Symbol} {price : ℚ} :
    s.previousPrice symbol = some price ↔
      ∃ t previous rest, h.ticks symbol = t :: previous :: rest ∧ previous.SeenAt t.takenAt ∧
        t.SeenAt h.now ∧ previous.price = price := by
  -- The entry of the previous price is there if the last tick saw one before.
  have hprevious : ∀ e, previousEntry (h.ticks symbol) = some e ↔
      ∃ t previous rest, h.ticks symbol = t :: previous :: rest ∧ previous.SeenAt t.takenAt ∧
        e = ⟨.number previous.price, some (t.writtenAt + priceTtl)⟩ := by
    intro e
    rcases h.ticks symbol with _ | ⟨t, _ | ⟨previous, rest⟩⟩
    · simp [previousEntry]
    · simp [previousEntry]
    · simp [previousEntry, eq_comm]
  -- The entry is that of the last two ticks, or a leftover that has expired.
  obtain hentry | ⟨hnone, e, t, hentry, hexpires, hlt⟩ := hr.pricePrev symbol
  · cases hp : previousEntry (h.ticks symbol) with
    | none =>
      rw [hp] at hentry
      rw [previousPrice, getNumber_of_none hentry]
      refine iff_of_false (by simp) ?_
      rintro ⟨t, previous, rest, hticks, hseen, -, -⟩
      rw [(hprevious _).mpr ⟨t, previous, rest, hticks, hseen, rfl⟩] at hp
      cases hp
    | some e =>
      obtain ⟨t, previous, rest, hticks, hseen, rfl⟩ := (hprevious e).mp hp
      rw [hp] at hentry
      rw [previousPrice, getNumber_of_entry hentry, hr.now, hticks]
      by_cases hfresh : t.SeenAt h.now
      · rw [if_pos (show h.now ≤ t.writtenAt + priceTtl from hfresh)]
        simp [hseen, hfresh]
      · rw [if_neg (show ¬ h.now ≤ t.writtenAt + priceTtl from hfresh)]
        simp [hfresh]
  · -- The leftover has expired, and there was no tick that saw another.
    have hgone : s.previousPrice symbol = none := by
      rw [previousPrice, getNumber, TtlStore.get_of_entry hentry, hexpires, Option.all_some,
        hr.now, if_neg (by simpa using hlt)]
    rw [hgone]
    refine iff_of_false (by simp) ?_
    rintro ⟨t, previous, rest, hticks, hseen, -, -⟩
    rw [(hprevious _).mpr ⟨t, previous, rest, hticks, hseen, rfl⟩] at hnone
    cases hnone

/-- Only a transaction adds to the ticks. -/
theorem written_of_notMem {calls : List SharedCall} (hcalls : .writePrice ∉ calls) :
    (run PriceHistory.step h calls).written = h.written := by
  induction calls generalizing h with
  | nil => rfl
  | cons call calls ih =>
    have hstep : (h.step call).written = h.written := by
      cases call with
      | writePrice => exact absurd List.mem_cons_self hcalls
      | _ => rfl
    rw [run_cons, ih fun hmem => hcalls (List.mem_cons_of_mem call hmem), hstep]

end SharedState

/-- **The price cache is its history of the last minute.** After any calls, the latest price of a
symbol is that of its newest tick, as long as it was written in the last 60 seconds, and its age is
the time since the worker took it. The jump compares the newest tick at the first of its two reads
with the tick before the newest at the second: with no tick written in between these are the last
two, and there is a jump only if the older was still to be seen when the newer was taken. -/
theorem price_cache_exact (calls between : List SharedCall) (symbol : Symbol) :
    let s := run SharedState.step {} calls
    let s' := run SharedState.step s between
    let h := run PriceHistory.step {} calls
    let h' := run PriceHistory.step h between
    (∀ price, s.latestPrice symbol = some price ↔
        ∃ t rest, h.ticks symbol = t :: rest ∧ t.SeenAt h.now ∧ t.price = price) ∧
      (∀ age, s.priceAgeSeconds symbol = some age ↔
        ∃ t rest, h.ticks symbol = t :: rest ∧ t.SeenAt h.now ∧
          age = ((h.now : ℚ) - t.takenAt) / 1000) ∧
      (∀ jump, SharedState.priceJumpPct s s' symbol = some jump ↔
        ∃ t rest last previous older, h.ticks symbol = t :: rest ∧ t.SeenAt h.now ∧
          h'.ticks symbol = last :: previous :: older ∧ previous.SeenAt last.takenAt ∧
          last.SeenAt h'.now ∧ previous.price ≠ 0 ∧
          jump = |t.price - previous.price| / previous.price * 100) ∧
      (.writePrice ∉ between → h'.ticks symbol = h.ticks symbol) := by
  intro s s' h h'
  have hr : s.Records h := SharedState.records_run calls
  have hr' : s'.Records h' := run_related (fun _ _ call hr => hr.step call) between hr
  refine ⟨fun price => hr.latestPrice_iff, fun age => hr.priceAgeSeconds_iff, fun jump => ?_,
    fun hmem => ?_⟩
  · -- The jump is worked out from two reads, of which either may find nothing.
    have hjump : SharedState.priceJumpPct s s' symbol = some jump ↔
        ∃ latest previous, s.latestPrice symbol = some latest ∧
          s'.previousPrice symbol = some previous ∧ previous ≠ 0 ∧
          jump = |latest - previous| / previous * 100 := by
      rw [SharedState.priceJumpPct]
      cases s.latestPrice symbol with
      | none => simp
      | some latest =>
        cases s'.previousPrice symbol with
        | none => simp
        | some previous => by_cases hzero : previous = 0 <;> simp [hzero, eq_comm]
    rw [hjump]
    simp only [hr.latestPrice_iff, hr'.previousPrice_iff]
    constructor
    · rintro ⟨_, _, ⟨t, rest, hticks, hseen, rfl⟩,
        ⟨last, previous, older, hlast, hfound, hfresh, rfl⟩, hne, hjump⟩
      exact ⟨t, rest, last, previous, older, hticks, hseen, hlast, hfound, hfresh, hne, hjump⟩
    · rintro ⟨t, rest, last, previous, older, hticks, hseen, hlast, hfound, hfresh, hne, hjump⟩
      exact ⟨_, _, ⟨t, rest, hticks, hseen, rfl⟩,
        ⟨last, previous, older, hlast, hfound, hfresh, rfl⟩, hne, hjump⟩
  · -- Without a tick in between both reads are of the same ticks.
    rw [PriceHistory.ticks, SharedState.written_of_notMem hmem]
    rfl

end SuperTrading
