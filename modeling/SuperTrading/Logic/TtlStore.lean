import SuperTrading.Logic.Dict
import SuperTrading.Logic.Runs

/-!
# Stores Whose Keys Expire

A store keeps values under keys, each for good or until a time. Whatever system drives it, a key
holds what was last put under it, unless that was dropped or its time is over since.

- **Commands**: reading, putting and dropping a key, and time
- **Driven keys**: what the events of a system do to one key
- **Runs**: what a key holds after a run
-/

namespace SuperTrading.Logic

variable {κ ν : Type*} [DecidableEq κ]

/-! ## Section 1: Commands -/

/-- A value, and the last instant at which it is seen. -/
structure TtlEntry (ν : Type*) where
  value : ν
  expiresAt : Option ℕ := none

/-- The values and the clock. An entry that has expired may still be there; no command sees it. -/
structure TtlStore (κ ν : Type*) where
  now : ℕ
  entries : Dict κ (TtlEntry ν)

/-- What a command leaves of a key. -/
inductive KeyWrite (ν : Type*)
  | put (value : ν) (ttl : Option ℕ)
  | drop

/-- The entry that is left. -/
def KeyWrite.entry (now : ℕ) : KeyWrite ν → Option (TtlEntry ν)
  | put value ttl => some ⟨value, ttl.map (now + ·)⟩
  | drop => none

namespace TtlStore

def empty : TtlStore κ ν := ⟨0, Dict.empty⟩

def get (s : TtlStore κ ν) (k : κ) : Option ν :=
  ((s.entries.get? k).filter fun e => e.expiresAt.all fun t => s.now ≤ t).map TtlEntry.value

/-- Put a value under a key, for so long or for good. -/
def put (s : TtlStore κ ν) (k : κ) (value : ν) (ttl : Option ℕ := none) : TtlStore κ ν :=
  { s with entries := s.entries.set k ⟨value, ttl.map (s.now + ·)⟩ }

def drop (s : TtlStore κ ν) (k : κ) : TtlStore κ ν := { s with entries := s.entries.erase k }

/-- One command. -/
def write (s : TtlStore κ ν) (k : κ) : KeyWrite ν → TtlStore κ ν
  | .put value ttl => s.put k value ttl
  | .drop => s.drop k

def elapse (s : TtlStore κ ν) (time : ℕ) : TtlStore κ ν := { s with now := s.now + time }

/-- The keys that hold a value. -/
def keys (s : TtlStore κ ν) : List κ :=
  (s.entries.entries.map Prod.fst).filter fun k => (s.get k).isSome

variable {s : TtlStore κ ν} {k j : κ} {v : ν}

theorem mem_keys : k ∈ s.keys ↔ (s.get k).isSome := by
  rw [keys, List.mem_filter]
  refine and_iff_right_of_imp fun h => ?_
  obtain ⟨v, hv⟩ := Option.isSome_iff_exists.mp h
  obtain ⟨e, he, -⟩ := Option.map_eq_some_iff.mp hv
  exact List.mem_map_of_mem ((s.entries.mem_entries_iff).mpr (Option.filter_eq_some_iff.mp he).1)

/-- What is seen of an entry depends on the entry and the time. -/
theorem get_congr {s' : TtlStore κ ν} (hentry : s'.entries.get? k = s.entries.get? k)
    (hnow : s'.now = s.now) : s'.get k = s.get k := by
  rw [get, get, hentry, hnow]

theorem get_of_entry {e : TtlEntry ν} (h : s.entries.get? k = some e) :
    s.get k = if e.expiresAt.all (fun t => s.now ≤ t) then some e.value else none := by
  rw [get, h, Option.filter]
  split_ifs <;> rfl

@[simp] theorem now_write (s : TtlStore κ ν) (k : κ) (w : KeyWrite ν) :
    (s.write k w).now = s.now := by
  cases w <;> rfl

theorem entry_write_self (s : TtlStore κ ν) (k : κ) (w : KeyWrite ν) :
    (s.write k w).entries.get? k = w.entry s.now := by
  cases w with
  | put => exact Dict.get?_set_self _ _ _
  | drop => exact Dict.get?_erase_self _ _

theorem entry_write_of_ne (s : TtlStore κ ν) (h : k ≠ j) (w : KeyWrite ν) :
    (s.write k w).entries.get? j = s.entries.get? j := by
  cases w with
  | put => exact Dict.get?_set_of_ne _ h _
  | drop => exact Dict.get?_erase_of_ne _ h

end TtlStore

/-! ## Section 2: Driven keys -/

section Driven

variable {σ ε : Type*} {step : σ → ε → σ} {store : σ → TtlStore κ ν} {k : κ}
  {writes : ε → Option (KeyWrite ν)} {elapsed : ε → ℕ}

/-- The events write the key, or let time pass. -/
structure Driven (step : σ → ε → σ) (store : σ → TtlStore κ ν) (k : κ)
    (writes : ε → Option (KeyWrite ν)) (elapsed : ε → ℕ) : Prop where
  now : ∀ s e, (store (step s e)).now = (store s).now + elapsed e
  instant : ∀ e w, writes e = some w → elapsed e = 0
  entry : ∀ s e, (store (step s e)).entries.get? k =
    (writes e).elim ((store s).entries.get? k) (·.entry (store s).now)

/-- The last write of a key before the end of a run puts the value, and its time is not over. -/
def LastPut (writes : ε → Option (KeyWrite ν)) (elapsed : ε → ℕ) (es : List ε) (v : ν) : Prop :=
  ∃ before e after ttl, es = before ++ e :: after ∧ writes e = some (.put v ttl) ∧
    (∀ e' ∈ after, writes e' = none) ∧ ∀ t ∈ ttl, (after.map elapsed).sum ≤ t

theorem lastPut_cons {e : ε} {es : List ε} {v : ν} :
    LastPut writes elapsed (e :: es) v ↔
      LastPut writes elapsed es v ∨ ∃ ttl, writes e = some (.put v ttl) ∧
        (∀ e' ∈ es, writes e' = none) ∧ ∀ t ∈ ttl, (es.map elapsed).sum ≤ t := by
  constructor
  · rintro ⟨before, e', after, ttl, hsplit, hput, hnone, htime⟩
    cases before with
    | nil =>
      obtain ⟨rfl, rfl⟩ := List.cons.inj hsplit
      exact .inr ⟨ttl, hput, hnone, htime⟩
    | cons first before =>
      obtain ⟨rfl, rfl⟩ := List.cons.inj hsplit
      exact .inl ⟨before, e', after, ttl, rfl, hput, hnone, htime⟩
  · rintro (⟨before, e', after, ttl, rfl, hput, hnone, htime⟩ | ⟨ttl, hput, hnone, htime⟩)
    · exact ⟨e :: before, e', after, ttl, rfl, hput, hnone, htime⟩
    · exact ⟨[], e, es, ttl, rfl, hput, hnone, htime⟩

/-- A key that is only ever refreshed holds its value as long as some write is recent. -/
theorem lastPut_refreshed {v : ν} {t : ℕ}
    (h : ∀ e w, writes e = some w → w = .put v (some t)) {es : List ε} :
    LastPut writes elapsed es v ↔
      ∃ before e after, es = before ++ e :: after ∧ writes e ≠ none ∧
        (after.map elapsed).sum ≤ t := by
  induction es with
  | nil => simp [LastPut]
  | cons e es ih =>
    rw [lastPut_cons, ih]
    constructor
    · rintro (⟨before, e', after, rfl, hput, htime⟩ | ⟨ttl, hput, -, htime⟩)
      · exact ⟨e :: before, e', after, rfl, hput, htime⟩
      · obtain ⟨-, rfl⟩ := KeyWrite.put.inj (h e _ hput)
        exact ⟨[], e, es, rfl, by simp [hput], htime t rfl⟩
    · rintro ⟨before, e', after, hsplit, hput, htime⟩
      cases before with
      | cons first before =>
        obtain ⟨rfl, rfl⟩ := List.cons.inj hsplit
        exact .inl ⟨before, e', after, rfl, hput, htime⟩
      | nil =>
        obtain ⟨rfl, rfl⟩ := List.cons.inj hsplit
        obtain ⟨w, hw⟩ := Option.ne_none_iff_exists'.mp hput
        by_cases hnone : ∀ a ∈ es, writes a = none
        · exact .inr ⟨some t, by rw [hw, h e w hw], hnone, fun t' ht' => by cases ht'; exact htime⟩
        · -- A later write is more recent still.
          push Not at hnone
          obtain ⟨a, ha, hne⟩ := hnone
          obtain ⟨between, later, rfl⟩ := List.append_of_mem ha
          refine .inl ⟨between, a, later, rfl, hne, ?_⟩
          simp only [List.map_append, List.map_cons, List.sum_append, List.sum_cons] at htime
          omega

/-! ## Section 3: Runs -/

/-- What a key holds after a run: what the run last put there, or what was there. -/
theorem Driven.get_run_iff_of (h : Driven step store k writes elapsed) (s : σ) (es : List ε)
    (v : ν) :
    (store (run step s es)).get k = some v ↔
      LastPut writes elapsed es v ∨ (∀ e ∈ es, writes e = none) ∧
        ((store s).elapse (es.map elapsed).sum).get k = some v := by
  induction es generalizing s with
  | nil => simp [LastPut, TtlStore.elapse]
  | cons e es ih =>
    rw [run_cons, ih, lastPut_cons, or_assoc]
    refine or_congr_right ?_
    have hentry := h.entry s e
    -- The first event leaves the key, drops it, or puts a value that the rest may keep.
    cases hwrite : writes e with
    | none =>
      rw [hwrite] at hentry
      have hlater : ((store (step s e)).elapse (es.map elapsed).sum).get k =
          ((store s).elapse ((e :: es).map elapsed).sum).get k := by
        refine TtlStore.get_congr hentry ?_
        simp only [TtlStore.elapse, h.now, List.map_cons, List.sum_cons, Nat.add_assoc]
      simp [hlater, hwrite]
    | some w =>
      rw [hwrite] at hentry
      have hnow : (store (step s e)).now = (store s).now := by
        rw [h.now, h.instant e w hwrite, Nat.add_zero]
      cases w with
      -- What was dropped is not there in the end, unless it is put again.
      | drop =>
        have hnone : ((store (step s e)).elapse (es.map elapsed).sum).get k = none := by
          rw [TtlStore.get, TtlStore.elapse, hentry]
          rfl
        simp [hnone, hwrite]
      -- What was put is there if nothing else is written and its time has not passed.
      | put v' ttl =>
        have hlater : ((store (step s e)).elapse (es.map elapsed).sum).get k = some v ↔
            (∀ t ∈ ttl, (es.map elapsed).sum ≤ t) ∧ v' = v := by
          have hlater : ((store (step s e)).elapse (es.map elapsed).sum).entries.get? k =
              some ⟨v', ttl.map ((store s).now + ·)⟩ := hentry
          rw [TtlStore.get_of_entry hlater]
          cases ttl <;> simp [TtlStore.elapse, hnow]
        rw [hlater]
        constructor
        · rintro ⟨hnone, htime, rfl⟩
          exact .inl ⟨ttl, rfl, hnone, htime⟩
        · rintro (⟨ttl', heq, hnone, htime⟩ | ⟨hnone, -⟩)
          · obtain ⟨rfl, rfl⟩ := KeyWrite.put.inj (Option.some.inj heq)
            exact ⟨hnone, htime, rfl⟩
          · have := hnone e List.mem_cons_self
            rw [hwrite] at this
            cases this

/-- **What a key holds is what was last put there**, from an empty store on. -/
theorem Driven.get_run_iff (h : Driven step store k writes elapsed) {s : σ}
    (hempty : (store s).entries.get? k = none) (es : List ε) (v : ν) :
    (store (run step s es)).get k = some v ↔ LastPut writes elapsed es v := by
  rw [h.get_run_iff_of]
  refine or_iff_left ?_
  rintro ⟨-, hget⟩
  rw [TtlStore.get, TtlStore.elapse, hempty] at hget
  cases hget

end Driven

end SuperTrading.Logic
