import HalaIo.Basic

/-!
# The hashed timer wheel

`MioTimeWheel` drives a `timewheel::TimeWheel<Token>` of 2048 slots. The crate is not part of this
repository; what the poller relies on is its contract: `add(n, v)` inserts one entry for `v`, due
on the `n`-th tick after the call, and returns the slot it hashed it to; `remove(slot, v)` removes
exactly the entries of `v` in `slot`; `tick()` advances the public `tick` counter by one and
removes and returns the entries due at the new tick. `add` and `remove` leave `tick` alone.

The per-value view `of` is what the timer invariants are stated over; each operation gets one
lemma saying how it changes `of v`.
-/

namespace HalaIo

/-- An entry of the wheel: the slot it was hashed to, the tick it is due on, and its value. -/
structure WheelEntry (T : Type) where
  slot : Nat
  deadline : Nat
  value : T
deriving DecidableEq

/-- Modelled from the spec: `timewheel::TimeWheel<T>`, whose source is outside this repository,
with the contract the poller relies on. `tick` is the public tick counter and `steps` the number
of slots. -/
structure TimeWheel (T : Type) where
  tick : Nat
  steps : Nat
  entries : List (WheelEntry T)

namespace TimeWheel

variable {T : Type}

/-- `TimeWheel::new(steps)`. -/
def new (steps : Nat) : TimeWheel T := ⟨0, steps, []⟩

/-- `add(timeout, value)`: due `timeout` ticks from now, hashed to the slot of that tick. -/
def add (w : TimeWheel T) (timeout : Nat) (value : T) : Nat × TimeWheel T :=
  let slot := (w.tick + timeout) % w.steps
  (slot, { w with entries := w.entries ++ [⟨slot, w.tick + timeout, value⟩] })

/-- `tick()`: the values due at the next tick, `Pending` when there are none. -/
def tickOnce (w : TimeWheel T) : Poll (List T) × TimeWheel T :=
  let due := w.entries.filter (·.deadline == w.tick + 1)
  (if due.isEmpty then .pending else .ready (due.map (·.value)),
    { w with tick := w.tick + 1, entries := w.entries.filter (·.deadline != w.tick + 1) })

@[simp] theorem add_slot (w : TimeWheel T) (n : Nat) (v : T) :
    (w.add n v).1 = (w.tick + n) % w.steps := rfl

@[simp] theorem add_tick (w : TimeWheel T) (n : Nat) (v : T) : (w.add n v).2.tick = w.tick := rfl

@[simp] theorem add_steps (w : TimeWheel T) (n : Nat) (v : T) :
    (w.add n v).2.steps = w.steps := rfl

@[simp] theorem tickOnce_tick (w : TimeWheel T) : w.tickOnce.2.tick = w.tick + 1 := rfl

@[simp] theorem tickOnce_steps (w : TimeWheel T) : w.tickOnce.2.steps = w.steps := rfl

/-- What `tick` hands over: the values of the entries due at the new tick. -/
theorem tickOnce_values (w : TimeWheel T) :
    w.tickOnce.1.values = (w.entries.filter (·.deadline == w.tick + 1)).map (·.value) := by
  unfold tickOnce
  dsimp only
  split
  · rename_i h
    rw [List.isEmpty_iff.mp h]; rfl
  · rfl

variable [DecidableEq T]

/-- `remove(slot, value)`. -/
def remove (w : TimeWheel T) (slot : Nat) (value : T) : TimeWheel T :=
  { w with entries := w.entries.filter fun e => !(e.slot == slot && e.value == value) }

@[simp] theorem remove_tick (w : TimeWheel T) (s : Nat) (v : T) : (w.remove s v).tick = w.tick :=
  rfl

@[simp] theorem remove_steps (w : TimeWheel T) (s : Nat) (v : T) :
    (w.remove s v).steps = w.steps := rfl

/-- The entries the wheel holds for `v`. -/
def «of» (w : TimeWheel T) (v : T) : List (WheelEntry T) := w.entries.filter (·.value == v)

/-- `add` inserts exactly one entry, for its own value. -/
theorem of_add (w : TimeWheel T) (n : Nat) (v u : T) :
    (w.add n v).2.of u =
      w.of u ++ if v = u then [⟨(w.tick + n) % w.steps, w.tick + n, v⟩] else [] := by
  unfold add «of»
  by_cases h : v = u <;> simp [List.filter_append, h]

/-- `remove` drops the entries of its own value in its own slot, and nothing else. -/
theorem of_remove (w : TimeWheel T) (s : Nat) (v u : T) :
    (w.remove s v).of u = if v = u then (w.of u).filter (·.slot != s) else w.of u := by
  unfold remove «of»
  rw [List.filter_filter]
  split
  · subst v
    rw [List.filter_filter]
    congr 1; funext e
    simp only [bne]
    cases e.slot == s <;> cases e.value == u <;> rfl
  · congr 1; funext e
    by_cases he : e.value = u
    · simp [he, Ne.symm ‹¬v = u›]
    · simp [he]

/-- `tick` removes exactly the entries due at the new tick. -/
theorem of_tickOnce (w : TimeWheel T) (u : T) :
    w.tickOnce.2.of u = (w.of u).filter (·.deadline != w.tick + 1) := by
  unfold tickOnce «of»
  simp only [List.filter_filter, Bool.and_comm]

/-- A value is handed over by `tick` exactly as often as it has entries due at the new tick. -/
theorem count_tickOnce_values (w : TimeWheel T) (u : T) :
    w.tickOnce.1.values.count u = (w.of u).countP (·.deadline == w.tick + 1) := by
  rw [tickOnce_values, List.count_eq_countP, List.countP_map, «of», List.countP_filter,
    List.countP_filter]
  apply List.countP_congr; intro e _
  simp only [Function.comp, Bool.and_comm]

/-- Removing what `add` just inserted, for a value with no other entry, restores the wheel. -/
theorem remove_add_of_absent (w : TimeWheel T) (n : Nat) (v : T) (h : w.of v = []) :
    (w.add n v).2.remove (w.add n v).1 v = w := by
  have hne : ∀ e ∈ w.entries, e.value ≠ v := fun e he hv =>
    List.eq_nil_iff_forall_not_mem.mp h e (List.mem_filter.mpr ⟨he, by simp [hv]⟩)
  obtain ⟨tick, steps, entries⟩ := w
  simp only [add, remove, List.filter_append, mk.injEq, true_and]
  rw [List.filter_eq_self.mpr (fun e he => by simp [hne e he])]
  simp

end TimeWheel

end HalaIo
