import HalaIo.Poller.TimeWheel

/-!
# `BasicMioPoller`: readiness plus the timer wheel

`hala-io-driver/src/mio/poller.rs`. The OS wait of `poll_once` is outside the model: it enters as
its answer, the list of `mio` events or the error `poll` returned, and `now` is the clock reading
at which `MioTimeWheel::tick` asks for `last_tick.elapsed()`. The driver's `MioTimeout` object of
a `Timeout` handle enters the `register`, `reregister` and `deregister` arms explicitly and comes
back updated, as `with_mut` updates it in place.

`duration_to_ticks` is exact when it rounds down. Rounding up, it multiplies `tick_duration` by
`ticks as u32`, which keeps only the low 32 bits of `ticks`: `durationToTicks_roundUp` says what it
then computes.
-/

namespace HalaIo

/-- `Token(usize)`. -/
structure Token where
  val : Nat
deriving DecidableEq, Repr

/-- The `Interest` bitset over `{Readable, Writable}`. -/
structure Interest where
  readable : Bool
  writable : Bool
deriving DecidableEq, Repr

/-- `Interest::Readable`. -/
def Interest.readableOnly : Interest := ⟨true, false⟩

/-- A readiness event as `mio` reports it. -/
structure MioEvent where
  token : Token
  isReadable : Bool
  isWritable : Bool

/-! ## `duration_to_ticks` -/

/-- `duration_to_ticks`; `none` is the panic of a zero `tick_duration`, or of the `Duration * u32`
overflow. -/
def durationToTicks (duration tickDuration : Duration) (roundUp : Bool) : Option Nat :=
  let durationM := duration.asNanos
  let tickDurationM := tickDuration.asNanos
  if tickDurationM = 0 then none
  else
    let ticks := durationM / tickDurationM
    if roundUp then
      (tickDuration.checkedMul (ticks % 2 ^ 32)).map fun m => if m < duration then ticks + 1 else ticks
    else some ticks

/-- The one equation for `duration_to_ticks`: it never panics on a nonzero tick, and it rounds
up by comparing `duration` with `tick_duration * (ticks mod 2^32)`. -/
theorem durationToTicks_eq (d t : Duration) (r : Bool) (ht : 0 < t.asNanos) :
    durationToTicks d t r = some (d.asNanos / t.asNanos +
      if r ∧ t.asNanos * (d.asNanos / t.asNanos % 2 ^ 32) < d.asNanos then 1 else 0) := by
  unfold durationToTicks
  rw [if_neg (Nat.pos_iff_ne_zero.mp ht)]
  cases r
  · simp
  · set q := d.asNanos / t.asNanos
    have hle : t.asNanos * (q % 2 ^ 32) ≤ d.asNanos :=
      calc t.asNanos * (q % 2 ^ 32) ≤ t.asNanos * q := Nat.mul_le_mul_left _ (Nat.mod_le _ _)
        _ ≤ d.asNanos := Nat.mul_div_le _ _
    have hbound : t.asNanos * (q % 2 ^ 32) < 2 ^ 64 * nanosPerSec :=
      Nat.lt_of_le_of_lt hle d.asNanos_lt
    obtain ⟨m, hm⟩ := Option.isSome_iff_exists.mp ((t.checkedMul_spec _).2 hbound)
    have hmv := (t.checkedMul_spec _).1 m hm
    simp only [hm, Option.map_some', Duration.lt_iff_asNanos_lt, hmv, true_and]
    split_ifs <;> rfl

theorem durationToTicks_floor (d t : Duration) (ht : 0 < t.asNanos) :
    durationToTicks d t false = some (d.asNanos / t.asNanos) := by
  simp [durationToTicks_eq d t false ht]

/-- Rounding up is the ceiling `(d + t - 1) / t`, except on exact multiples of at least `2^32`
ticks, where the truncated product undershoots and one tick too many is added. -/
theorem durationToTicks_roundUp (d t : Duration) (ht : 0 < t.asNanos) :
    durationToTicks d t true = some ((d.asNanos + t.asNanos - 1) / t.asNanos +
      if 2 ^ 32 ≤ d.asNanos / t.asNanos ∧ d.asNanos % t.asNanos = 0 then 1 else 0) := by
  rw [durationToTicks_eq d t true ht]
  congr 1
  have hd := (Nat.div_add_mod d.asNanos t.asNanos).symm
  have hρ := Nat.mod_lt d.asNanos ht
  generalize d.asNanos / t.asNanos = q at *
  generalize d.asNanos % t.asNanos = ρ at *
  generalize d.asNanos = D at *
  generalize t.asNanos = T at *
  subst hd
  have hceil : (T * q + ρ + T - 1) / T = q + if ρ = 0 then 0 else 1 := by
    rw [show T * q + ρ + T - 1 = ρ + T - 1 + T * q by omega, Nat.add_mul_div_left _ _ ht,
      Nat.add_comm]
    congr 1
    split
    · subst_vars; exact Nat.div_eq_of_lt (by omega)
    · exact Nat.div_eq_of_lt_le (by omega) (by omega)
  have hcmp : (T * (q % 2 ^ 32) < T * q + ρ) = (2 ^ 32 ≤ q ∨ 0 < ρ) := by
    apply propext
    by_cases hq : q < 2 ^ 32
    · rw [Nat.mod_eq_of_lt hq]; omega
    · have : T * (q % 2 ^ 32) < T * q :=
        Nat.mul_lt_mul_of_pos_left (Nat.lt_of_lt_of_le (Nat.mod_lt _ (by decide)) (by omega)) ht
      omega
  simp only [hceil, eq_self_iff_true, true_and, hcmp]
  split_ifs <;> omega

/-- Rounding up never undershoots: the ticks it returns cover the duration. -/
theorem le_of_durationToTicks_roundUp {d t : Duration} {k : Nat} (ht : 0 < t.asNanos)
    (hk : durationToTicks d t true = some k) : d.asNanos ≤ k * t.asNanos := by
  rw [durationToTicks_roundUp _ _ ht] at hk
  cases hk
  have hceil := Nat.div_add_mod (d.asNanos + t.asNanos - 1) t.asNanos
  have hmod := Nat.mod_lt (d.asNanos + t.asNanos - 1) ht
  rw [Nat.add_mul, Nat.mul_comm]
  omega

/-! ## `MioTimeout` -/

/-- The driver object of a `Timeout` handle. -/
structure MioTimeout where
  duration : Duration
  startTime : Option Instant
  slot : Option Nat
  tickDuration : Option Duration

/-- `MioTimeout::new(duration)`, what `fd_open` of a `Timeout` handle creates. -/
def MioTimeout.new (duration : Duration) : MioTimeout := ⟨duration, none, none, none⟩

/-- `MioTimeout::is_register`. -/
def MioTimeout.isRegister (t : MioTimeout) : Bool := t.startTime.isSome && t.slot.isSome

/-- `MioTimeout::is_expired`, with `start_time.elapsed()` read at `now`; `none` is the panic of
`tick_duration.unwrap()`. `duration - elapsed` is only computed below `duration`, where it does
not underflow. No code of the repository calls it. -/
def MioTimeout.isExpired (t : MioTimeout) (now : Instant) : Option Bool :=
  match t.startTime with
  | some startTime =>
    let elapsed := now.durationSince startTime
    if ¬ elapsed < t.duration then some true
    else t.tickDuration.map fun tickDuration => decide (t.duration.saturatingSub elapsed < tickDuration)
  | none => some false

/-- A started timeout is expired when its duration has elapsed or less than one tick of it is
left. -/
theorem MioTimeout.isExpired_eq (t : MioTimeout) (now start : Instant) (td : Duration)
    (hs : t.startTime = some start) (htd : t.tickDuration = some td) :
    t.isExpired now = some (decide (t.duration.asNanos ≤ now.nanos - start.nanos ∨
      t.duration.asNanos < now.nanos - start.nanos + td.asNanos)) := by
  simp only [isExpired, hs, htd, Duration.lt_iff_asNanos_lt, Instant.asNanos_durationSince,
    Duration.asNanos_saturatingSub, Option.map_some']
  by_cases h : t.duration.asNanos ≤ now.nanos - start.nanos
  · rw [if_pos (by omega)]; simp [h]
  · rw [if_neg (by omega)]; simp only [h, false_or, Option.some.injEq, decide_eq_decide]; omega

/-! ## `MioTimeWheel` -/

/-- The wheel of the poller and the instant it was created at; `last_tick` is never updated. -/
structure MioTimeWheel where
  timeWheel : TimeWheel Token
  lastTick : Instant

/-- `MioTimeWheel::new`, at clock reading `now`. -/
def MioTimeWheel.new (now : Instant) : MioTimeWheel := ⟨TimeWheel.new 2048, now⟩

/-- The `for _ in 0..ticks` loop of `MioTimeWheel::tick`: tick the wheel `n` times, appending what
each tick hands over. -/
def tickLoop : Nat → TimeWheel Token → List Token × TimeWheel Token
  | 0, w => ([], w)
  | n + 1, w =>
    let r := tickLoop n w.tickOnce.2
    (w.tickOnce.1.values ++ r.1, r.2)

@[simp] theorem tickLoop_tick (n : Nat) (w : TimeWheel Token) :
    (tickLoop n w).2.tick = w.tick + n := by
  induction n generalizing w with
  | zero => rfl
  | succ n ih => simp only [tickLoop, ih, TimeWheel.tickOnce_tick]; omega

@[simp] theorem tickLoop_steps (n : Nat) (w : TimeWheel Token) :
    (tickLoop n w).2.steps = w.steps := by
  induction n generalizing w with
  | zero => rfl
  | succ n ih => simp only [tickLoop, ih, TimeWheel.tickOnce_steps]

/-- `n` ticks remove exactly the entries due in the next `n` ticks. -/
theorem tickLoop_of (n : Nat) (w : TimeWheel Token) (u : Token) :
    (tickLoop n w).2.of u =
      (w.of u).filter fun e => !decide (w.tick < e.deadline ∧ e.deadline ≤ w.tick + n) := by
  induction n generalizing w with
  | zero => exact (List.filter_eq_self.mpr fun e _ => by simp; omega).symm
  | succ n ih =>
    simp only [tickLoop, ih, TimeWheel.of_tickOnce, TimeWheel.tickOnce_tick, List.filter_filter]
    congr 1; funext e
    rw [Bool.eq_iff_iff]; simp; omega

/-- `n` ticks hand a token over once for each of its entries due in the next `n` ticks. -/
theorem tickLoop_count (n : Nat) (w : TimeWheel Token) (u : Token) :
    (tickLoop n w).1.count u =
      (w.of u).countP fun e => decide (w.tick < e.deadline ∧ e.deadline ≤ w.tick + n) := by
  induction n generalizing w with
  | zero =>
    refine (List.countP_eq_zero.mpr fun e _ => ?_).symm
    simp only [tickLoop, Nat.add_zero, decide_eq_true_eq]; omega
  | succ n ih =>
    simp only [tickLoop, List.count_append, ih, TimeWheel.count_tickOnce_values,
      TimeWheel.of_tickOnce, TimeWheel.tickOnce_tick, List.countP_filter]
    conv_rhs => rw [List.countP_eq_countP_filter_add _ _ (·.deadline == w.tick + 1),
      List.countP_filter, List.countP_filter]
    congr 1 <;> apply List.countP_congr <;> intro e _ <;> simp <;> omega

/-- `MioTimeWheel::tick`, with `last_tick.elapsed()` read at `now`; `none` is a panic, in
particular the underflow of `ticks - self.time_wheel.tick`. -/
def MioTimeWheel.tick (w : MioTimeWheel) (now : Instant) (tickDuration : Duration) :
    Option (List Token × MioTimeWheel) :=
  (durationToTicks (now.durationSince w.lastTick) tickDuration false).bind fun ticks =>
    if ticks < w.timeWheel.tick then none
    else
      let r := tickLoop (ticks - w.timeWheel.tick) w.timeWheel
      some (r.1, { w with timeWheel := r.2 })

theorem MioTimeWheel.tick_eq_some {w w' : MioTimeWheel} {now : Instant} {td : Duration}
    {out : List Token} (h : w.tick now td = some (out, w')) :
    ∃ ticks, durationToTicks (now.durationSince w.lastTick) td false = some ticks ∧
      w.timeWheel.tick ≤ ticks ∧ out = (tickLoop (ticks - w.timeWheel.tick) w.timeWheel).1 ∧
      w' = { w with timeWheel := (tickLoop (ticks - w.timeWheel.tick) w.timeWheel).2 } := by
  unfold MioTimeWheel.tick at h
  obtain ⟨ticks, hticks, h⟩ := Option.bind_eq_some.mp h
  split at h
  · cases h
  · cases h; exact ⟨ticks, hticks, by omega, rfl, rfl⟩

/-! ## `BasicMioPoller` -/

/-- The state of a `BasicMioPoller` the model keeps: its wheel and its tick duration. -/
structure BasicMioPoller where
  timeWheel : MioTimeWheel
  tickDuration : Duration

/-- `BasicMioPoller::default`, created at clock reading `now`: a 1 ms tick. -/
def BasicMioPoller.default (now : Instant) : BasicMioPoller :=
  ⟨MioTimeWheel.new now, Duration.fromMillis 1 (by decide)⟩

namespace BasicMioPoller

/-- The poller with its timer wheel replaced. -/
def withWheel (p : BasicMioPoller) (w : TimeWheel Token) : BasicMioPoller :=
  { p with timeWheel := { p.timeWheel with timeWheel := w } }

/-- The timer wheel of the poller. -/
def wheel (p : BasicMioPoller) : TimeWheel Token := p.timeWheel.timeWheel

@[simp] theorem wheel_withWheel (p : BasicMioPoller) (w : TimeWheel Token) :
    (p.withWheel w).wheel = w := rfl

@[simp] theorem tickDuration_withWheel (p : BasicMioPoller) (w : TimeWheel Token) :
    (p.withWheel w).tickDuration = p.tickDuration := rfl

@[simp] theorem lastTick_withWheel (p : BasicMioPoller) (w : TimeWheel Token) :
    (p.withWheel w).timeWheel.lastTick = p.timeWheel.lastTick := rfl

/-- `if let Some(slot) = timeout.slot { time_wheel.remove(slot, token) }`. -/
def removeSlot (w : TimeWheel Token) (slot : Option Nat) (token : Token) : TimeWheel Token :=
  match slot with
  | some s => w.remove s token
  | none => w

/-- The arming `register` and `reregister` share, on the wheel `w`: add the timer `⌈duration⌉`
ticks ahead and record its slot, its start and the tick in the `MioTimeout`. -/
def armTimeout (p : BasicMioPoller) (w : TimeWheel Token) (now : Instant) (token : Token)
    (timeout : MioTimeout) : Option (BasicMioPoller × MioTimeout) :=
  (durationToTicks timeout.duration p.tickDuration true).map fun ticks =>
    (p.withWheel (w.add ticks token).2,
      { timeout with startTime := some now, tickDuration := some p.tickDuration,
                     slot := some (w.add ticks token).1 })

/-- The `Description::Timeout` arm of `register`; `none` is the panic of its `assert!`. -/
def registerTimeout (p : BasicMioPoller) (now : Instant) (token : Token) (timeout : MioTimeout) :
    Option (BasicMioPoller × MioTimeout) :=
  if timeout.duration.isZero then none else armTimeout p p.wheel now token timeout

/-- The `Description::Timeout` arm of `reregister`: the prior slot is removed first. -/
def reregisterTimeout (p : BasicMioPoller) (now : Instant) (token : Token)
    (timeout : MioTimeout) : Option (BasicMioPoller × MioTimeout) :=
  if timeout.duration.isZero then none
  else armTimeout p (removeSlot p.wheel timeout.slot token) now token timeout

/-- The `Description::Timeout` arm of `deregister`; the `MioTimeout` keeps its slot. -/
def deregisterTimeout (p : BasicMioPoller) (token : Token) (timeout : MioTimeout) :
    Option BasicMioPoller :=
  if timeout.duration.isZero then none else some (p.withWheel (removeSlot p.wheel timeout.slot token))

theorem removeSlot_tick (w : TimeWheel Token) (slot : Option Nat) (token : Token) :
    (removeSlot w slot token).tick = w.tick := by
  cases slot <;> rfl

theorem removeSlot_steps (w : TimeWheel Token) (slot : Option Nat) (token : Token) :
    (removeSlot w slot token).steps = w.steps := by
  cases slot <;> rfl

/-- Removing a token's recorded slot leaves every other token's entries alone. -/
theorem of_removeSlot_ne (w : TimeWheel Token) (slot : Option Nat) {token u : Token}
    (h : token ≠ u) : (removeSlot w slot token).of u = w.of u := by
  cases slot with
  | none => rfl
  | some s => simp [removeSlot, TimeWheel.of_remove, h]

/-- When every entry of the token sits in the recorded slot, removing that slot clears them. -/
theorem of_removeSlot_self (w : TimeWheel Token) (slot : Option Nat) (token : Token)
    (h : ∀ e ∈ w.of token, slot = some e.slot) : (removeSlot w slot token).of token = [] := by
  cases slot with
  | none => exact List.eq_nil_iff_forall_not_mem.mpr fun e he => nomatch h e he
  | some s =>
    simp only [removeSlot, TimeWheel.of_remove, if_true, List.filter_eq_nil_iff, bne_iff_ne,
      ne_eq, Decidable.not_not]
    exact fun e he => (Option.some.inj (h e he)).symm

theorem armTimeout_eq_some {p : BasicMioPoller} {w : TimeWheel Token} {now : Instant}
    {token : Token} {t : MioTimeout} {r : BasicMioPoller × MioTimeout}
    (h : armTimeout p w now token t = some r) :
    ∃ k, durationToTicks t.duration p.tickDuration true = some k ∧
      r = (p.withWheel (w.add k token).2,
        { t with startTime := some now, tickDuration := some p.tickDuration,
                 slot := some (w.add k token).1 }) := by
  obtain ⟨k, hk, rfl⟩ := Option.map_eq_some'.mp h
  exact ⟨k, hk, rfl⟩

theorem registerTimeout_eq_some {p : BasicMioPoller} {now : Instant} {token : Token}
    {t : MioTimeout} {r : BasicMioPoller × MioTimeout} (h : registerTimeout p now token t = some r) :
    t.duration.isZero = false ∧ armTimeout p p.wheel now token t = some r := by
  unfold registerTimeout at h
  split at h
  · cases h
  · rename_i hz; exact ⟨Bool.eq_false_iff.mpr hz, h⟩

theorem reregisterTimeout_eq_some {p : BasicMioPoller} {now : Instant} {token : Token}
    {t : MioTimeout} {r : BasicMioPoller × MioTimeout}
    (h : reregisterTimeout p now token t = some r) :
    t.duration.isZero = false ∧
      armTimeout p (removeSlot p.wheel t.slot token) now token t = some r := by
  unfold reregisterTimeout at h
  split at h
  · cases h
  · rename_i hz; exact ⟨Bool.eq_false_iff.mpr hz, h⟩

theorem deregisterTimeout_eq_some {p p' : BasicMioPoller} {token : Token} {t : MioTimeout}
    (h : deregisterTimeout p token t = some p') :
    p' = p.withWheel (removeSlot p.wheel t.slot token) := by
  unfold deregisterTimeout at h
  split at h
  · cases h
  · exact (Option.some.inj h).symm

/-- The wait `poll_once` hands the OS: `timeout.unwrap_or(self.tick_duration)`. -/
def pollTimeout (p : BasicMioPoller) (timeout : Option Duration) : Duration :=
  timeout.getD p.tickDuration

/-- The interests `poll_once` reports for an OS event. -/
def eventInterests (e : MioEvent) : Interest :=
  if !e.isReadable then ⟨false, true⟩
  else if !e.isWritable then ⟨true, false⟩
  else ⟨true, true⟩

/-- `poll_once`, given what the OS wait of `pollTimeout` answered and the clock reading `now` at
which the wheel is ticked. -/
def pollOnce (p : BasicMioPoller) (now : Instant) (wait : Except IoError (List MioEvent)) :
    Option (Except IoError (List (Token × Interest)) × BasicMioPoller) :=
  match wait with
  | .error e => some (.error e, p)
  | .ok events =>
    (p.timeWheel.tick now p.tickDuration).map fun r =>
      (.ok (events.map (fun e => (e.token, eventInterests e)) ++
          r.1.map (·, Interest.readableOnly)),
        { p with timeWheel := r.2 })

theorem pollOnce_eq_some {p p' : BasicMioPoller} {now : Instant}
    {wait : Except IoError (List MioEvent)} {res : Except IoError (List (Token × Interest))}
    (h : p.pollOnce now wait = some (res, p')) :
    (∃ e, wait = .error e ∧ res = .error e ∧ p' = p) ∨
      ∃ evs ticks, wait = .ok evs ∧
        durationToTicks (now.durationSince p.timeWheel.lastTick) p.tickDuration false = some ticks ∧
        p.wheel.tick ≤ ticks ∧
        res = .ok (evs.map (fun e => (e.token, eventInterests e)) ++
          (tickLoop (ticks - p.wheel.tick) p.wheel).1.map (·, Interest.readableOnly)) ∧
        p' = p.withWheel (tickLoop (ticks - p.wheel.tick) p.wheel).2 := by
  unfold pollOnce at h
  split at h
  · cases h; exact .inl ⟨_, rfl, rfl, rfl⟩
  · obtain ⟨⟨out, w'⟩, hw, h⟩ := Option.map_eq_some'.mp h
    obtain ⟨ticks, hticks, hle, rfl, rfl⟩ := MioTimeWheel.tick_eq_some hw
    cases h
    exact .inr ⟨_, ticks, rfl, hticks, hle, rfl, rfl⟩

/-- A poll whose OS wait succeeds, on a wheel not past `⌊(now - c) / tick⌋`, ticks the wheel up
to that count and does not panic. -/
theorem pollOnce_ok {p : BasicMioPoller} {now : Instant} (evs : List MioEvent)
    (htd : 0 < p.tickDuration.asNanos)
    (hle : p.wheel.tick ≤ (now.nanos - p.timeWheel.lastTick.nanos) / p.tickDuration.asNanos) :
    ∃ res, p.pollOnce now (.ok evs) = some (res, p.withWheel (tickLoop
      ((now.nanos - p.timeWheel.lastTick.nanos) / p.tickDuration.asNanos - p.wheel.tick)
      p.wheel).2) := by
  have hnot : ¬ (now.nanos - p.timeWheel.lastTick.nanos) / p.tickDuration.asNanos <
      p.timeWheel.timeWheel.tick := Nat.not_lt.mpr hle
  simp only [pollOnce, MioTimeWheel.tick, durationToTicks_floor _ _ htd,
    Instant.asNanos_durationSince, Option.some_bind, hnot, ↓reduceIte, Option.map_some']
  exact ⟨_, rfl⟩

end BasicMioPoller

namespace BasicMioPoller

/-- **A `Timeout` of exactly `2^32` ticks is armed one tick late.** With the default 1 ms tick,
`register` of a `2^32` ms timeout (about 49.7 days) adds it `2^32 + 1` ticks ahead, one more than
`⌈d / tick_duration⌉ = 2^32`: `ticks as u32` is `0` there, and `0 < duration`. -/
theorem registerTimeout_exact_multiple_one_tick_late (now : Instant) (token : Token) :
    ((BasicMioPoller.default now).registerTimeout now token
        (MioTimeout.new (Duration.fromMillis (2 ^ 32) (by decide)))).map (·.1.wheel.entries) =
      some [⟨(2 ^ 32 + 1) % 2048, 2 ^ 32 + 1, token⟩] ∧
    ((Duration.fromMillis (2 ^ 32) (by decide)).asNanos +
        (BasicMioPoller.default now).tickDuration.asNanos - 1) /
      (BasicMioPoller.default now).tickDuration.asNanos = 2 ^ 32 := by
  have h : durationToTicks (Duration.fromMillis (2 ^ 32) (by decide))
      (Duration.fromMillis 1 (by decide)) true = some (2 ^ 32 + 1) := by decide
  have hz : (Duration.fromMillis (2 ^ 32) (by decide)).isZero = false := by decide
  refine ⟨?_, by simp only [BasicMioPoller.default]; decide⟩
  simp only [registerTimeout, armTimeout, MioTimeout.new, BasicMioPoller.default, h, hz,
    Bool.false_eq_true, if_false, Option.map_some', withWheel, wheel, MioTimeWheel.new,
    TimeWheel.new, TimeWheel.add, List.nil_append, Nat.zero_add]

end BasicMioPoller

end HalaIo
