import HalaIo.Poller.MioPoller

/-!
# Timers over whole runs

The poller's timers as a state machine: the `BasicMioPoller`, the `MioTimeout` objects the driver
holds for its `Timeout` handles, and the latest clock reading. A run is any sequence of `fd_open`,
`register`, `reregister`, `deregister` and `poll_once` that the environment allows: fresh tokens,
`register` once per handle before any re-arming (the spec's timer lifecycle), a clock that never
goes back, and OS events that carry only the tokens of sockets.

- `SlotsRecorded`: every timer token has at most one entry in the wheel, in the slot its
  `MioTimeout` records. `Reachable.slotsRecorded` proves it of every reachable state.
- `Run.count_emitted_le`: after a state, until the token is armed again, `poll_once` hands a
  timer's token over at most as often as it has entries then, that is once per arming and never
  after `deregister`; `timer_wheel_bookkeeping` collects the wheel's bookkeeping.
- `Run.emitted_due`: a poll hands a timer over only when the entry it armed is due by the poll's
  tick count.
- `timer_fires_before_duration_elapsed`: `register` counts its ticks from the wheel's tick, which
  the last poll set, so a timer armed long after that poll is handed over before its duration
  has elapsed, when its own `is_expired` still answers `false`.
- `wheel_tick_follows_clock`: a successful poll brings the wheel's tick up to the clock.
-/

namespace HalaIo

/-- The poller, the `MioTimeout` objects of the open `Timeout` handles by token, and the latest
clock reading. -/
structure Timers where
  poller : BasicMioPoller
  timeouts : Token → Option MioTimeout
  clock : Instant

/-- The operations of a run on the poller's timers. -/
inductive TimerOp where
  | fdOpen (token : Token) (duration : Duration)
  | register (token : Token) (now : Instant)
  | reregister (token : Token) (now : Instant)
  | deregister (token : Token)
  | pollOnce (now : Instant) (wait : Except IoError (List MioEvent))

/-- The operation arms the timer `token`. -/
def TimerOp.Arms (token : Token) : TimerOp → Prop
  | .register u _ | .reregister u _ => u = token
  | _ => False

/-- What `poll_once` returns, as the list of events a run observes; an OS error returns none. -/
def pollEvents : Except IoError (List (Token × Interest)) → List (Token × Interest)
  | .ok out => out
  | .error _ => []

namespace Timers

/-- A poller created at `now`, with no handles yet. -/
def init (now : Instant) : Timers := ⟨BasicMioPoller.default now, fun _ => none, now⟩

/-- One operation and the events it returns; `none` is a panic, or a handle the driver does not
hold. -/
def step (s : Timers) : TimerOp → Option (Timers × List (Token × Interest))
  | .fdOpen token duration =>
    some ({ s with timeouts := Function.update s.timeouts token (some (MioTimeout.new duration)) },
      [])
  | .register token now =>
    (s.timeouts token).bind fun t => (s.poller.registerTimeout now token t).map fun r =>
      (⟨r.1, Function.update s.timeouts token (some r.2), now⟩, [])
  | .reregister token now =>
    (s.timeouts token).bind fun t => (s.poller.reregisterTimeout now token t).map fun r =>
      (⟨r.1, Function.update s.timeouts token (some r.2), now⟩, [])
  | .deregister token =>
    (s.timeouts token).bind fun t => (s.poller.deregisterTimeout token t).map fun p =>
      ({ s with poller := p }, [])
  | .pollOnce now wait =>
    (s.poller.pollOnce now wait).map fun r => ({ s with poller := r.2, clock := now }, pollEvents r.1)

/-- What the environment guarantees of each operation. -/
def Allowed (s : Timers) : TimerOp → Prop
  | .fdOpen token _ => s.timeouts token = none
  | .register token now =>
    s.clock.nanos ≤ now.nanos ∧ ∀ t, s.timeouts token = some t → t.slot = none
  | .reregister _ now => s.clock.nanos ≤ now.nanos
  | .deregister _ => True
  | .pollOnce now wait =>
    s.clock.nanos ≤ now.nanos ∧ ∀ evs, wait = .ok evs → ∀ e ∈ evs, s.timeouts e.token = none

/-- The states reachable from a fresh poller by allowed operations. -/
inductive Reachable : Timers → Prop
  | init (now : Instant) : Reachable (init now)
  | step {s : Timers} {op : TimerOp} {r : Timers × List (Token × Interest)} :
      Reachable s → s.Allowed op → s.step op = some r → Reachable r.1

/-- A run from `s` to `s'`: allowed operations, each with the events it returned. -/
inductive Run : Timers → List (TimerOp × List (Token × Interest)) → Timers → Prop
  | nil (s : Timers) : Run s [] s
  | cons {s s₁ s₂ : Timers} {op : TimerOp} {out : List (Token × Interest)}
      {log : List (TimerOp × List (Token × Interest))} :
      s.Allowed op → s.step op = some (s₁, out) → Run s₁ log s₂ → Run s ((op, out) :: log) s₂

theorem Reachable.run {s s' : Timers} {log : List (TimerOp × List (Token × Interest))}
    (hs : Reachable s) (hr : Run s log s') : Reachable s' := by
  induction hr with
  | nil => exact hs
  | cons ha hstep _ ih => exact ih (Reachable.step hs ha hstep)

/-! ## One lemma per operation -/

theorem step_fdOpen {s s' : Timers} {token : Token} {d : Duration}
    {out : List (Token × Interest)} (h : s.step (.fdOpen token d) = some (s', out)) :
    s' = { s with timeouts := Function.update s.timeouts token (some (MioTimeout.new d)) } ∧
      out = [] := by
  cases h; exact ⟨rfl, rfl⟩

/-- The timer bookkeeping: a token's entries in the wheel belong to an open `Timeout` handle,
there is at most one, and it sits in the slot the handle's `MioTimeout` records. -/
structure SlotsRecorded (s : Timers) : Prop where
  at_most_one : ∀ token, (s.poller.wheel.of token).length ≤ 1
  in_slot : ∀ token, ∀ e ∈ s.poller.wheel.of token,
    ∃ t, s.timeouts token = some t ∧ t.slot = some e.slot

/-- Arming from a wheel `w` that agrees with the poller's on every other token and holds nothing
for `token`: one entry for `token`, the others untouched. -/
theorem of_arm (p : BasicMioPoller) (w : TimeWheel Token) (token : Token) (k : Nat)
    (hself : w.of token = []) (hother : ∀ u, token ≠ u → w.of u = p.wheel.of u) (u : Token) :
    (p.withWheel (w.add k token).2).wheel.of u =
      if token = u then [⟨(w.tick + k) % w.steps, w.tick + k, token⟩] else p.wheel.of u := by
  rw [BasicMioPoller.wheel_withWheel, TimeWheel.of_add]
  by_cases h : token = u
  · subst h; simp [hself]
  · simp [h, hother u h]

/-- `register` and `reregister` arm the timer `k = duration_to_ticks(d, tick, true)` ticks after
the wheel's current tick, leave every other token's entries where they were, and record the slot
in the handle's `MioTimeout`. -/
theorem step_arm {s s' : Timers} {op : TimerOp} {token : Token} {now : Instant}
    {out : List (Token × Interest)} (hs : SlotsRecorded s)
    (hop : op = .register token now ∨ op = .reregister token now) (ha : s.Allowed op)
    (h : s.step op = some (s', out)) :
    ∃ t k, s.timeouts token = some t ∧ t.duration.isZero = false ∧
      durationToTicks t.duration s.poller.tickDuration true = some k ∧
      (∀ u, s'.poller.wheel.of u = if token = u then
        [⟨(s.poller.wheel.tick + k) % s.poller.wheel.steps, s.poller.wheel.tick + k, token⟩]
        else s.poller.wheel.of u) ∧
      s'.poller.wheel.tick = s.poller.wheel.tick ∧ s'.poller.wheel.steps = s.poller.wheel.steps ∧
      s'.poller.tickDuration = s.poller.tickDuration ∧
      s'.poller.timeWheel.lastTick = s.poller.timeWheel.lastTick ∧
      s'.timeouts = Function.update s.timeouts token
        (some { t with startTime := some now, tickDuration := some s.poller.tickDuration,
                       slot := some ((s.poller.wheel.tick + k) % s.poller.wheel.steps) }) ∧
      s'.clock = now ∧ out = [] := by
  have hrec : ∀ t, s.timeouts token = some t →
      ∀ e ∈ s.poller.wheel.of token, t.slot = some e.slot := fun t ht e he => by
    obtain ⟨t', ht', hs'⟩ := hs.in_slot token e he
    rw [ht] at ht'; cases ht'; exact hs'
  rcases hop with rfl | rfl
  · obtain ⟨t, ht, h⟩ := Option.bind_eq_some.mp h
    obtain ⟨r, hr, hr'⟩ := Option.map_eq_some'.mp h
    obtain ⟨hz, harm⟩ := BasicMioPoller.registerTimeout_eq_some hr
    obtain ⟨k, hk, rfl⟩ := BasicMioPoller.armTimeout_eq_some harm
    cases hr'
    have hself : s.poller.wheel.of token = [] := List.eq_nil_iff_forall_not_mem.mpr fun e he => by
      have := hrec t ht e he; rw [ha.2 t ht] at this; cases this
    exact ⟨t, k, ht, hz, hk, of_arm _ _ token k hself (fun _ _ => rfl), rfl, rfl, rfl, rfl, rfl,
      rfl, rfl⟩
  · obtain ⟨t, ht, h⟩ := Option.bind_eq_some.mp h
    obtain ⟨r, hr, hr'⟩ := Option.map_eq_some'.mp h
    obtain ⟨hz, harm⟩ := BasicMioPoller.reregisterTimeout_eq_some hr
    obtain ⟨k, hk, rfl⟩ := BasicMioPoller.armTimeout_eq_some harm
    cases hr'
    have htick := BasicMioPoller.removeSlot_tick s.poller.wheel t.slot token
    have hsteps := BasicMioPoller.removeSlot_steps s.poller.wheel t.slot token
    refine ⟨t, k, ht, hz, hk, ?_, htick, hsteps, rfl, rfl, ?_, rfl, rfl⟩
    · rw [← htick, ← hsteps]
      exact of_arm _ _ token k (BasicMioPoller.of_removeSlot_self _ _ _ (hrec t ht))
        (fun u hu => BasicMioPoller.of_removeSlot_ne _ _ hu)
    · simp only [TimeWheel.add_slot, htick, hsteps]

theorem step_deregister {s s' : Timers} {token : Token} {out : List (Token × Interest)}
    (h : s.step (.deregister token) = some (s', out)) :
    ∃ t, s.timeouts token = some t ∧
      s'.poller = s.poller.withWheel (BasicMioPoller.removeSlot s.poller.wheel t.slot token) ∧
      s'.timeouts = s.timeouts ∧ s'.clock = s.clock ∧ out = [] := by
  obtain ⟨t, ht, h⟩ := Option.bind_eq_some.mp h
  obtain ⟨p, hp, hp'⟩ := Option.map_eq_some'.mp h
  cases hp'
  exact ⟨t, ht, BasicMioPoller.deregisterTimeout_eq_some hp, rfl, rfl, rfl⟩

theorem step_pollOnce {s s' : Timers} {now : Instant} {wait : Except IoError (List MioEvent)}
    {out : List (Token × Interest)} (h : s.step (.pollOnce now wait) = some (s', out)) :
    s'.timeouts = s.timeouts ∧ s'.clock = now ∧
      ((s'.poller = s.poller ∧ out = []) ∨
        ∃ evs ticks, wait = .ok evs ∧
          durationToTicks (now.durationSince s.poller.timeWheel.lastTick) s.poller.tickDuration
            false = some ticks ∧
          s.poller.wheel.tick ≤ ticks ∧
          out = evs.map (fun e => (e.token, BasicMioPoller.eventInterests e)) ++
            (tickLoop (ticks - s.poller.wheel.tick) s.poller.wheel).1.map
              (·, Interest.readableOnly) ∧
          s'.poller = s.poller.withWheel (tickLoop (ticks - s.poller.wheel.tick) s.poller.wheel).2) := by
  obtain ⟨⟨res, p⟩, hp, hp'⟩ := Option.map_eq_some'.mp h
  cases hp'
  refine ⟨rfl, rfl, ?_⟩
  rcases BasicMioPoller.pollOnce_eq_some hp with ⟨e, rfl, rfl, rfl⟩ | ⟨evs, ticks, rfl, hticks, hle, rfl, rfl⟩
  · exact .inl ⟨rfl, rfl⟩
  · exact .inr ⟨evs, ticks, rfl, hticks, hle, rfl, rfl⟩

theorem of_removeSlot_sublist (w : TimeWheel Token) (slot : Option Nat) (token u : Token) :
    ((BasicMioPoller.removeSlot w slot token).of u).Sublist (w.of u) := by
  cases slot with
  | none => exact List.Sublist.refl _
  | some sl =>
    simp only [BasicMioPoller.removeSlot, TimeWheel.of_remove]
    split
    · exact List.filter_sublist _
    · exact List.Sublist.refl _

/-! ## The bookkeeping holds in every reachable state -/

/-- A step that only drops entries and keeps the handles keeps the bookkeeping. -/
theorem SlotsRecorded.of_sublist {s s' : Timers} (hs : SlotsRecorded s)
    (hsub : ∀ u, (s'.poller.wheel.of u).Sublist (s.poller.wheel.of u))
    (ht : s'.timeouts = s.timeouts) : SlotsRecorded s' where
  at_most_one u := Nat.le_trans (hsub u).length_le (hs.at_most_one u)
  in_slot u e he := ht ▸ hs.in_slot u e ((hsub u).subset he)

theorem SlotsRecorded.step {s s' : Timers} {op : TimerOp} {out : List (Token × Interest)}
    (hs : SlotsRecorded s) (ha : s.Allowed op) (h : s.step op = some (s', out)) :
    SlotsRecorded s' := by
  cases op with
  | fdOpen token d =>
    obtain ⟨rfl, -⟩ := step_fdOpen h
    refine ⟨hs.at_most_one, fun u e he => ?_⟩
    obtain ⟨t, ht, hslot⟩ := hs.in_slot u e he
    have hu : u ≠ token := fun hu => by subst hu; rw [ha] at ht; cases ht
    exact ⟨t, by simp [Function.update_noteq hu, ht], hslot⟩
  | register token now | reregister token now =>
    obtain ⟨t, k, -, -, -, hof, -, -, -, -, hts, -⟩ :=
      step_arm hs (by first | exact .inl rfl | exact .inr rfl) ha h
    refine ⟨fun u => ?_, fun u e he => ?_⟩
    · rw [hof u]; split
      · simp
      · exact hs.at_most_one u
    · rw [hof u] at he
      split at he
      · subst u
        simp only [List.mem_singleton] at he
        subst he
        exact ⟨_, by rw [hts, Function.update_same], rfl⟩
      · obtain ⟨t', ht', hslot⟩ := hs.in_slot u e he
        exact ⟨t', by rw [hts, Function.update_noteq (Ne.symm ‹_›), ht'], hslot⟩
  | deregister token =>
    obtain ⟨t, -, hp, hts, -⟩ := step_deregister h
    refine hs.of_sublist (fun u => ?_) hts
    rw [hp, BasicMioPoller.wheel_withWheel]
    exact of_removeSlot_sublist _ _ _ _
  | pollOnce now wait =>
    obtain ⟨hts, -, ⟨hp, -⟩ | ⟨evs, ticks, -, -, -, -, hp⟩⟩ := step_pollOnce h
    · exact hs.of_sublist (fun u => by rw [hp]) hts
    · exact hs.of_sublist (fun u => by
        rw [hp, BasicMioPoller.wheel_withWheel, tickLoop_of]; exact List.filter_sublist _) hts

theorem Reachable.slotsRecorded {s : Timers} (hs : Reachable s) : SlotsRecorded s := by
  induction hs with
  | init now =>
    have h0 : ∀ u, (Timers.init now).poller.wheel.of u = [] := fun _ => rfl
    exact ⟨fun u => by rw [h0]; decide, fun u e he => by rw [h0] at he; cases he⟩
  | step _ ha h ih => exact ih.step ha h

/-! ## What a step does to one timer -/

/-- No step changes the tick duration or the instant the wheel was created at. -/
theorem step_clockwork {s s' : Timers} {op : TimerOp} {out : List (Token × Interest)}
    (hs : SlotsRecorded s) (ha : s.Allowed op) (h : s.step op = some (s', out)) :
    s'.poller.tickDuration = s.poller.tickDuration ∧
      s'.poller.timeWheel.lastTick = s.poller.timeWheel.lastTick := by
  cases op with
  | fdOpen token d => obtain ⟨rfl, -⟩ := step_fdOpen h; exact ⟨rfl, rfl⟩
  | register token now | reregister token now =>
    obtain ⟨t, k, -, -, -, -, -, -, htd, hlt, -⟩ :=
      step_arm hs (by first | exact .inl rfl | exact .inr rfl) ha h
    exact ⟨htd, hlt⟩
  | deregister token => obtain ⟨t, -, hp, -⟩ := step_deregister h; rw [hp]; exact ⟨rfl, rfl⟩
  | pollOnce now wait =>
    obtain ⟨-, -, ⟨hp, -⟩ | ⟨evs, ticks, -, -, -, -, hp⟩⟩ := step_pollOnce h <;> rw [hp] <;>
      exact ⟨rfl, rfl⟩

/-- Handles are never dropped. -/
theorem step_handle {s s' : Timers} {op : TimerOp} {out : List (Token × Interest)}
    {token : Token} (hs : SlotsRecorded s) (ha : s.Allowed op) (h : s.step op = some (s', out))
    (ht : (s.timeouts token).isSome) : (s'.timeouts token).isSome := by
  cases op with
  | fdOpen u d =>
    obtain ⟨rfl, -⟩ := step_fdOpen h
    by_cases hu : token = u
    · subst hu; simp
    · simpa [Function.update_noteq hu] using ht
  | register u now | reregister u now =>
    obtain ⟨t, k, -, -, -, -, -, -, -, -, hts, -⟩ :=
      step_arm hs (by first | exact .inl rfl | exact .inr rfl) ha h
    rw [hts]
    by_cases hu : token = u
    · subst hu; simp
    · simpa [Function.update_noteq hu] using ht
  | deregister u => obtain ⟨-, -, -, hts, -⟩ := step_deregister h; rwa [hts]
  | pollOnce now wait => obtain ⟨hts, -⟩ := step_pollOnce h; rwa [hts]

/-- A step that does not arm `token` hands it over at most once per entry of it that it drops,
and drops entries only. -/
theorem step_not_arming {s s' : Timers} {op : TimerOp} {out : List (Token × Interest)}
    {token : Token} (hs : SlotsRecorded s) (ha : s.Allowed op) (h : s.step op = some (s', out))
    (hno : ¬ op.Arms token) (ht : (s.timeouts token).isSome) :
    (s'.poller.wheel.of token).Sublist (s.poller.wheel.of token) ∧
      (out.map Prod.fst).count token + (s'.poller.wheel.of token).length ≤
        (s.poller.wheel.of token).length := by
  cases op with
  | fdOpen u d => obtain ⟨rfl, rfl⟩ := step_fdOpen h; exact ⟨List.Sublist.refl _, by simp⟩
  | register u now | reregister u now =>
    obtain ⟨t, k, -, -, -, hof, -, -, -, -, -, -, rfl⟩ :=
      step_arm hs (by first | exact .inl rfl | exact .inr rfl) ha h
    rw [hof, if_neg (show ¬u = token from hno)]
    exact ⟨List.Sublist.refl _, by simp⟩
  | deregister u =>
    obtain ⟨t, -, hp, -, -, rfl⟩ := step_deregister h
    have hsub := of_removeSlot_sublist s.poller.wheel t.slot u token
    rw [hp, BasicMioPoller.wheel_withWheel]
    exact ⟨hsub, by simpa using hsub.length_le⟩
  | pollOnce now wait =>
    obtain ⟨-, -, ⟨hp, rfl⟩ | ⟨evs, ticks, rfl, -, -, rfl, hp⟩⟩ := step_pollOnce h
    · rw [hp]; exact ⟨List.Sublist.refl _, by simp⟩
    · rw [hp, BasicMioPoller.wheel_withWheel, tickLoop_of]
      refine ⟨List.filter_sublist _, ?_⟩
      have hos : ∀ e ∈ evs, e.token ≠ token := fun e he heq => by
        have := ha.2 evs rfl e he; rw [heq] at this; simp [this] at ht
      have hcount : ((evs.map fun e => (e.token, BasicMioPoller.eventInterests e)).map
          Prod.fst).count token = 0 := by
        simpa [List.count_eq_zero] using hos
      rw [List.map_append, List.count_append, hcount, Nat.zero_add, List.map_map,
        show (Prod.fst ∘ fun x => (x, Interest.readableOnly)) = id from rfl, List.map_id,
        tickLoop_count, ← List.countP_eq_length_filter,
        List.length_eq_countP_add_countP (fun e : WheelEntry Token =>
          decide (s.poller.wheel.tick < e.deadline ∧
            e.deadline ≤ s.poller.wheel.tick + (ticks - s.poller.wheel.tick)))]
      refine Nat.le_of_eq (congrArg _ (List.countP_congr fun e _ => ?_))
      simp

/-- The tick of every reachable poller is the default 1 ms. -/
theorem Reachable.tickDuration {s : Timers} (hs : Reachable s) :
    s.poller.tickDuration.asNanos = 1000000 := by
  induction hs with
  | init now => simp [Timers.init, BasicMioPoller.default]
  | step hs ha h ih => rw [(step_clockwork hs.slotsRecorded ha h).1, ih]

/-- A poll that hands `token` over drops an entry of it due by the poll's tick count,
`⌊(now - c) / tick⌋` with `c` the wheel's creation. -/
theorem step_pollOnce_emits {s s' : Timers} {now : Instant}
    {wait : Except IoError (List MioEvent)} {out : List (Token × Interest)} {token : Token}
    (ha : s.Allowed (.pollOnce now wait)) (h : s.step (.pollOnce now wait) = some (s', out))
    (ht : (s.timeouts token).isSome) (htd : 0 < s.poller.tickDuration.asNanos)
    (he : token ∈ out.map Prod.fst) :
    ∃ e ∈ s.poller.wheel.of token, e.deadline * s.poller.tickDuration.asNanos ≤
      now.nanos - s.poller.timeWheel.lastTick.nanos := by
  obtain ⟨-, -, ⟨-, rfl⟩ | ⟨evs, ticks, rfl, hticks, hle, rfl, -⟩⟩ := step_pollOnce h
  · cases he
  · rw [durationToTicks_floor _ _ htd, Instant.asNanos_durationSince, Option.some.injEq] at hticks
    simp only [List.map_append, List.map_map, List.mem_append, List.mem_map] at he
    rcases he with ⟨e, he, heq⟩ | ⟨u, hu, rfl⟩
    · have := ha.2 evs rfl e he; simp only [Function.comp] at heq; rw [heq] at this
      simp [this] at ht
    · have hpos : 0 < (tickLoop (ticks - s.poller.wheel.tick) s.poller.wheel).1.count u :=
        List.count_pos_iff.mpr hu
      rw [tickLoop_count, List.countP_pos_iff] at hpos
      obtain ⟨e, he, hdue⟩ := hpos
      refine ⟨e, he, (Nat.le_div_iff_mul_le htd).mp ?_⟩
      simp only [decide_eq_true_eq] at hdue
      omega

/-- The tokens a run's steps returned, in order. -/
def emitted (log : List (TimerOp × List (Token × Interest))) : List Token :=
  log.flatMap fun x => x.2.map Prod.fst

/-- Until `token` is armed again, a run hands it over at most once per entry it had at the
start, and every entry it handed over is gone. -/
theorem Run.count_emitted_le {s s' : Timers} {log : List (TimerOp × List (Token × Interest))}
    {token : Token} (hs : Reachable s) (hr : Run s log s') (hno : ∀ x ∈ log, ¬ x.1.Arms token)
    (ht : (s.timeouts token).isSome) :
    (emitted log).count token + (s'.poller.wheel.of token).length ≤
      (s.poller.wheel.of token).length := by
  induction hr with
  | nil => simp [emitted]
  | cons ha hstep _ ih =>
    have hle := (step_not_arming hs.slotsRecorded ha hstep (hno _ (List.mem_cons_self _ _)) ht).2
    have := ih (hs.step ha hstep) (fun x hx => hno x (List.mem_cons_of_mem _ hx))
      (step_handle hs.slotsRecorded ha hstep ht)
    simp only [emitted, List.flatMap_cons, List.count_append] at this ⊢
    omega

/-- Until `token` is armed again, every poll of a run that hands it over drops an entry it had at
the start, due by that poll's tick count. -/
theorem Run.emitted_due {s s' : Timers} {log : List (TimerOp × List (Token × Interest))}
    {token : Token} (hs : Reachable s) (hr : Run s log s') (hno : ∀ x ∈ log, ¬ x.1.Arms token)
    (ht : (s.timeouts token).isSome) {now : Instant} {wait : Except IoError (List MioEvent)}
    {out : List (Token × Interest)} (hp : (TimerOp.pollOnce now wait, out) ∈ log)
    (he : token ∈ out.map Prod.fst) :
    ∃ e ∈ s.poller.wheel.of token, e.deadline * s.poller.tickDuration.asNanos ≤
      now.nanos - s.poller.timeWheel.lastTick.nanos := by
  induction hr with
  | nil => cases hp
  | cons ha hstep _ ih =>
    rcases List.mem_cons.mp hp with heq | hp
    · cases heq
      exact step_pollOnce_emits ha hstep ht (by rw [hs.tickDuration]; decide) he
    · have hsr := hs.slotsRecorded
      obtain ⟨e, he', hdue⟩ := ih (hs.step ha hstep) (fun x hx => hno x (List.mem_cons_of_mem _ hx))
        (step_handle hsr ha hstep ht) hp
      obtain ⟨htd, hlt⟩ := step_clockwork hsr ha hstep
      rw [htd, hlt] at hdue
      exact ⟨e, (step_not_arming hsr ha hstep (hno _ (List.mem_cons_self _ _)) ht).1.subset he',
        hdue⟩

/-- `register` of a fresh handle followed by its `deregister` leaves the wheel as it was. -/
theorem register_deregister_wheel {s s₁ s₂ : Timers} {token : Token} {now : Instant}
    {out₁ out₂ : List (Token × Interest)} (hs : SlotsRecorded s) (ha : s.Allowed (.register token now))
    (h₁ : s.step (.register token now) = some (s₁, out₁))
    (h₂ : s₁.step (.deregister token) = some (s₂, out₂)) : s₂.poller.wheel = s.poller.wheel := by
  obtain ⟨t, ht, h⟩ := Option.bind_eq_some.mp h₁
  obtain ⟨r, hr, hr'⟩ := Option.map_eq_some'.mp h
  obtain ⟨-, harm⟩ := BasicMioPoller.registerTimeout_eq_some hr
  obtain ⟨k, -, rfl⟩ := BasicMioPoller.armTimeout_eq_some harm
  cases hr'
  obtain ⟨t₁, ht₁, hp, -⟩ := step_deregister h₂
  simp only [Function.update_same, Option.some.injEq] at ht₁
  subst ht₁
  have hself : s.poller.wheel.of token = [] := List.eq_nil_iff_forall_not_mem.mpr fun e he => by
    obtain ⟨t', ht', hslot⟩ := hs.in_slot token e he
    rw [ht] at ht'; cases ht'; rw [ha.2 t ht] at hslot; cases hslot
  rw [hp, BasicMioPoller.wheel_withWheel]
  exact TimeWheel.remove_add_of_absent _ _ _ hself

/-- The clock never goes back. -/
theorem step_clock {s s' : Timers} {op : TimerOp} {out : List (Token × Interest)}
    (hs : SlotsRecorded s) (ha : s.Allowed op) (h : s.step op = some (s', out)) :
    s.clock.nanos ≤ s'.clock.nanos := by
  cases op with
  | fdOpen token d => obtain ⟨rfl, -⟩ := step_fdOpen h; exact Nat.le_refl _
  | register token now =>
    obtain ⟨t, k, -, -, -, -, -, -, -, -, -, hclock, -⟩ := step_arm hs (.inl rfl) ha h
    rw [hclock]; exact ha.1
  | reregister token now =>
    obtain ⟨t, k, -, -, -, -, -, -, -, -, -, hclock, -⟩ := step_arm hs (.inr rfl) ha h
    rw [hclock]; exact ha
  | deregister token => obtain ⟨t, -, -, -, hclock, -⟩ := step_deregister h; rw [hclock]
  | pollOnce now wait => obtain ⟨-, hclock, -⟩ := step_pollOnce h; rw [hclock]; exact ha.1

/-- The wheel was created no later than the latest clock reading. -/
theorem Reachable.lastTick_le {s : Timers} (hs : Reachable s) :
    s.poller.timeWheel.lastTick.nanos ≤ s.clock.nanos := by
  induction hs with
  | init now => exact Nat.le_refl _
  | step hs ha h ih =>
    rw [(step_clockwork hs.slotsRecorded ha h).2]
    exact Nat.le_trans ih (step_clock hs.slotsRecorded ha h)

/-- The wheel never runs ahead of the clock: its ticks stay within the time since its creation. -/
theorem Reachable.tick_le {s : Timers} (hs : Reachable s) :
    s.poller.wheel.tick * s.poller.tickDuration.asNanos ≤
      s.clock.nanos - s.poller.timeWheel.lastTick.nanos := by
  induction hs with
  | init now => simp [Timers.init, BasicMioPoller.default, BasicMioPoller.wheel, MioTimeWheel.new,
      TimeWheel.new]
  | @step s op r hs ha h ih =>
    have htd := hs.tickDuration
    obtain ⟨s', out⟩ := r
    cases op with
    | fdOpen token d => obtain ⟨rfl, -⟩ := step_fdOpen h; exact ih
    | register token now | reregister token now =>
      obtain ⟨t, k, -, -, -, -, htick, -, htd', hlt, -, hclock, -⟩ :=
        step_arm hs.slotsRecorded (by first | exact .inl rfl | exact .inr rfl) ha h
      simp only [htick, htd', hlt, hclock]
      have : s.clock.nanos ≤ now.nanos := by first | exact ha.1 | exact ha
      omega
    | deregister token =>
      obtain ⟨t, -, hp, -, hclock, -⟩ := step_deregister h
      simp only [hp, BasicMioPoller.wheel_withWheel, BasicMioPoller.removeSlot_tick,
        BasicMioPoller.tickDuration_withWheel, BasicMioPoller.lastTick_withWheel, hclock]
      exact ih
    | pollOnce now wait =>
      obtain ⟨-, hclock, ⟨hp, -⟩ | ⟨evs, ticks, -, hticks, hle, -, hp⟩⟩ := step_pollOnce h
      · simp only [hp, hclock]; have := ha.1; omega
      · rw [durationToTicks_floor _ _ (by omega), Instant.asNanos_durationSince,
          Option.some.injEq] at hticks
        simp only [hp, BasicMioPoller.wheel_withWheel, tickLoop_tick,
          BasicMioPoller.tickDuration_withWheel, BasicMioPoller.lastTick_withWheel, hclock]
        rw [Nat.add_sub_cancel' hle, ← hticks]
        exact Nat.div_mul_le_self _ _

/-! ## The timer contract -/

/-- **The wheel's bookkeeping over every run.** In every reachable state each timer token has at
most one entry, in the slot its `MioTimeout` records; `reregister` and `deregister` leave every
other token's entries as they were; `deregister` leaves the token none, so `register` then
`deregister` of a fresh handle leaves the wheel as it was; and from any reachable state, until
the token is armed again, the polls of a run hand it over at most once, and not at all after its
`deregister`. -/
theorem timer_wheel_bookkeeping :
    (∀ s, Reachable s → ∀ token, (s.poller.wheel.of token).length ≤ 1 ∧
      ∀ e ∈ s.poller.wheel.of token, ∃ t, s.timeouts token = some t ∧ t.slot = some e.slot) ∧
    (∀ s s' op token out, Reachable s → s.Allowed op →
      (op = .deregister token ∨ ∃ now, op = .reregister token now) → s.step op = some (s', out) →
      ∀ u, u ≠ token → s'.poller.wheel.of u = s.poller.wheel.of u) ∧
    (∀ s s' token out, Reachable s → s.step (.deregister token) = some (s', out) →
      s'.poller.wheel.of token = []) ∧
    (∀ s s₁ s₂ token now out₁ out₂, Reachable s → s.Allowed (.register token now) →
      s.step (.register token now) = some (s₁, out₁) →
      s₁.step (.deregister token) = some (s₂, out₂) → s₂.poller.wheel = s.poller.wheel) ∧
    (∀ s s' log token, Reachable s → (s.timeouts token).isSome → Run s log s' →
      (∀ x ∈ log, ¬ x.1.Arms token) → (emitted log).count token ≤ 1) ∧
    (∀ s s₁ s₂ token out log, Reachable s → s.step (.deregister token) = some (s₁, out) →
      Run s₁ log s₂ → (∀ x ∈ log, ¬ x.1.Arms token) → (emitted log).count token = 0) := by
  have cleared : ∀ s s' token out, Reachable s → s.step (.deregister token) = some (s', out) →
      s'.poller.wheel.of token = [] := fun s s' token out hs h => by
    obtain ⟨t, ht, hp, -⟩ := step_deregister h
    rw [hp, BasicMioPoller.wheel_withWheel]
    refine BasicMioPoller.of_removeSlot_self _ _ _ fun e he => ?_
    obtain ⟨t', ht', hslot⟩ := hs.slotsRecorded.in_slot token e he
    rw [ht] at ht'; cases ht'; exact hslot
  refine ⟨fun s hs token => ⟨hs.slotsRecorded.at_most_one token, hs.slotsRecorded.in_slot token⟩,
    fun s s' op token out hs ha hop h u hu => ?_, cleared,
    fun s s₁ s₂ token now out₁ out₂ hs ha h₁ h₂ => register_deregister_wheel hs.slotsRecorded ha h₁ h₂,
    fun s s' log token hs ht hr hno => ?_, fun s s₁ s₂ token out log hs h hr hno => ?_⟩
  · rcases hop with rfl | ⟨now, rfl⟩
    · obtain ⟨t, -, hp, -⟩ := step_deregister h
      rw [hp, BasicMioPoller.wheel_withWheel, BasicMioPoller.of_removeSlot_ne _ _ (Ne.symm hu)]
    · obtain ⟨t, k, -, -, -, hof, -⟩ := step_arm hs.slotsRecorded (.inr rfl) ha h
      rw [hof u, if_neg (Ne.symm hu)]
  · have := Run.count_emitted_le hs hr hno ht
    have := hs.slotsRecorded.at_most_one token
    omega
  · obtain ⟨t, ht, -⟩ := step_deregister h
    have h₁ : Reachable s₁ := hs.step (show s.Allowed (.deregister token) from trivial) h
    have := Run.count_emitted_le h₁ hr hno
      (by obtain ⟨-, -, -, hts, -⟩ := step_deregister h; rw [hts, ht]; rfl)
    rw [cleared s s₁ token out hs h, List.length_nil] at this
    omega

/-! ## A timer armed long after the last poll -/

/-- The instant `ms` milliseconds after the clock's origin. -/
def atMillis (ms : Nat) (h : ms < 2 ^ 64) : Instant := ⟨Duration.fromMillis ms h⟩

/-- A poller created at the clock's origin and not polled since, with one open `Timeout` handle
of 1 ms, token 7. -/
def idleTimers : Timers :=
  ⟨BasicMioPoller.default (atMillis 0 (by decide)),
    Function.update (fun _ => none) ⟨7⟩ (some (MioTimeout.new (Duration.fromMillis 1 (by decide)))),
    atMillis 0 (by decide)⟩

theorem idleTimers_reachable : Reachable idleTimers :=
  Reachable.step (Reachable.init (atMillis 0 (by decide)))
    (show (init (atMillis 0 (by decide))).Allowed
      (.fdOpen ⟨7⟩ (Duration.fromMillis 1 (by decide))) from rfl)
    (show (init (atMillis 0 (by decide))).step (.fdOpen ⟨7⟩ (Duration.fromMillis 1 (by decide))) =
      some (idleTimers, []) from rfl)

theorem idleTimers_register_allowed :
    idleTimers.Allowed (.register ⟨7⟩ (atMillis 5 (by decide))) :=
  ⟨by decide, fun t ht => by simp [idleTimers] at ht; subst ht; rfl⟩

/-- **Timers expire early.** A 1 ms timer registered at 5 ms on a poller created at 0 and not
polled since is handed over by the poll at 5 ms, 1 ms before `r + d`, and its own `is_expired`
answers `false` at that poll: `register` counts its ticks from the wheel's tick, which the last
poll left at 0, while it records `start_time = now`. -/
theorem timer_fires_before_duration_elapsed : Reachable idleTimers ∧
    idleTimers.Allowed (.register ⟨7⟩ (atMillis 5 (by decide))) ∧
    ∃ s₁ s₂ t, idleTimers.step (.register ⟨7⟩ (atMillis 5 (by decide))) = some (s₁, []) ∧
      Run s₁ [(.pollOnce (atMillis 5 (by decide)) (.ok []), [(⟨7⟩, Interest.readableOnly)])] s₂ ∧
      s₁.timeouts ⟨7⟩ = some t ∧
      (atMillis 5 (by decide)).nanos < (atMillis 5 (by decide)).nanos + t.duration.asNanos ∧
      t.isExpired (atMillis 5 (by decide)) = some false :=
  ⟨idleTimers_reachable, idleTimers_register_allowed, _, _, _, rfl,
    .cons ⟨by decide, fun _ h _ he => by cases h; cases he⟩ rfl (.nil _), rfl, by decide,
    by decide⟩

/-! ## The wheel keeps up with the clock -/

/-- **The wheel keeps up with the clock.** From every reachable state an allowed `poll_once`
does not panic: the subtraction `ticks - self.time_wheel.tick` never underflows. When the OS wait
succeeds, the wheel's tick becomes `⌊(p - c) / tick_duration⌋`, with `c` the instant the wheel
was created at (`last_tick`, never updated); when it fails, `poll_once` returns before ticking and
the tick keeps the count of the last successful poll, which the next successful poll catches up. -/
theorem wheel_tick_follows_clock {s : Timers} (hs : Reachable s) {p : Instant}
    {wait : Except IoError (List MioEvent)} (ha : s.Allowed (.pollOnce p wait)) :
    ∃ s' out, s.step (.pollOnce p wait) = some (s', out) ∧
      (∀ evs, wait = .ok evs → s'.poller.wheel.tick =
        (p.nanos - s.poller.timeWheel.lastTick.nanos) / s.poller.tickDuration.asNanos) ∧
      (∀ e, wait = .error e → s'.poller = s.poller) := by
  cases wait with
  | error e => exact ⟨_, _, rfl, fun _ h => (nomatch h), fun _ _ => rfl⟩
  | ok evs =>
    have htd := hs.tickDuration
    have hle : s.poller.wheel.tick ≤
        (p.nanos - s.poller.timeWheel.lastTick.nanos) / s.poller.tickDuration.asNanos := by
      rw [Nat.le_div_iff_mul_le (by omega)]
      have := hs.tick_le
      have := ha.1
      omega
    obtain ⟨res, hres⟩ := BasicMioPoller.pollOnce_ok evs (by omega) hle
    refine ⟨_, _, (congrArg (Option.map _) hres).trans rfl, fun _ _ => ?_, fun _ h => by cases h⟩
    simp only [BasicMioPoller.wheel_withWheel, tickLoop_tick]
    omega

/-- The idle poller polled at 5 ms: its wheel goes from tick 0 to tick 5. -/
theorem wheel_tick_follows_clock_idle :
    idleTimers.Allowed (.pollOnce (atMillis 5 (by decide)) (.ok [])) ∧
      ∃ s' out, idleTimers.step (.pollOnce (atMillis 5 (by decide)) (.ok [])) = some (s', out) ∧
        s'.poller.wheel.tick = 5 := by
  have ha : idleTimers.Allowed (.pollOnce (atMillis 5 (by decide)) (.ok [])) :=
    ⟨by decide, fun _ h _ he => by cases h; cases he⟩
  obtain ⟨s', out, hstep, htick, -⟩ := wheel_tick_follows_clock idleTimers_reachable ha
  exact ⟨ha, s', out, hstep, (htick [] rfl).trans (by decide)⟩

/-- **A failed OS wait leaves the wheel behind the clock.** On a poller created at 0 ms, a
`poll_once` at 5 ms whose `poll` fails returns before ticking: the wheel's tick stays 0, not
`⌊5 ms / 1 ms⌋ = 5`. -/
theorem wheel_tick_lags_after_failed_poll :
    ¬ ∀ (s : Timers) (p : Instant) (wait : Except IoError (List MioEvent)),
      Reachable s → s.Allowed (.pollOnce p wait) →
      ∃ s' out, s.step (.pollOnce p wait) = some (s', out) ∧
        s'.poller.wheel.tick =
          (p.nanos - s.poller.timeWheel.lastTick.nanos) / s.poller.tickDuration.asNanos := by
  intro h
  obtain ⟨s', out, hstep, htick⟩ := h (init (atMillis 0 (by decide))) (atMillis 5 (by decide))
    (.error ⟨.invalidInput, "poll"⟩) (Reachable.init _) ⟨by decide, fun _ h => by cases h⟩
  obtain ⟨rfl, -⟩ := Prod.mk.inj (Option.some.inj hstep.symm)
  exact absurd htick (by decide)

end Timers

end HalaIo
