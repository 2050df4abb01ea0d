import HalaIo.Poller.Timers

/-!
# `is_expired` over whole runs

`MioTimeout::is_expired` reads what arming records in a handle's `MioTimeout`: its start, its
duration and the poller's tick. Arming records them together, so over every run:

* `Reachable.startsRecorded`: a `MioTimeout` has a start exactly when it has a slot, it then has
  the poller's tick, and its start is no later than the clock.
* `isExpired_isSome`: `is_expired` never reaches the panic of `tick_duration.unwrap()`, on the
  `MioTimeout` of any handle of a reachable state, at any clock reading.
* `expired_when_handed_over`: when the wheel had kept up with the clock at the arming, the poll
  that hands the timer over finds it expired. When it had not, it need not: the idle poller of
  `Timers.idleTimers` hands a 1 ms timer armed at 5 ms over at 5 ms, with all of it left.

The wheel's side of expiry closes the file:

* `armed_timer_fires_once`: until it is armed again or deregistered, an armed timer is handed
  over exactly once by the first successful `poll_once` whose tick count reaches its deadline.
-/

namespace HalaIo

namespace Timers

/-- What arming records in a handle's `MioTimeout`. -/
structure StartsRecorded (s : Timers) : Prop where
  /-- A start is recorded exactly when a slot is. -/
  start_iff_slot : ∀ token t, s.timeouts token = some t → (t.startTime.isSome ↔ t.slot.isSome)
  /-- A started timeout records the poller's tick. -/
  tick_of_start : ∀ token t, s.timeouts token = some t → t.startTime.isSome →
    t.tickDuration = some s.poller.tickDuration
  /-- A start is never later than the clock. -/
  start_le_clock : ∀ token t r, s.timeouts token = some t → t.startTime = some r →
    r.nanos ≤ s.clock.nanos

/-- A step that keeps the handles and the tick, and moves the clock forward, keeps the record. -/
theorem StartsRecorded.of_frame {s s' : Timers} (hs : StartsRecorded s)
    (ht : s'.timeouts = s.timeouts) (htd : s'.poller.tickDuration = s.poller.tickDuration)
    (hc : s.clock.nanos ≤ s'.clock.nanos) : StartsRecorded s' where
  start_iff_slot u t h := hs.start_iff_slot u t (by rwa [ht] at h)
  tick_of_start u t h hst := by rw [htd]; exact hs.tick_of_start u t (by rwa [ht] at h) hst
  start_le_clock u t r h hr := Nat.le_trans (hs.start_le_clock u t r (by rwa [ht] at h) hr) hc

/-- A step that replaces one handle's `MioTimeout` by one that keeps the record, and otherwise
moves as `of_frame` asks, keeps the record. -/
theorem StartsRecorded.of_update {s s' : Timers} {token : Token} {t' : MioTimeout}
    (hs : StartsRecorded s) (ht : s'.timeouts = Function.update s.timeouts token (some t'))
    (htd : s'.poller.tickDuration = s.poller.tickDuration) (hc : s.clock.nanos ≤ s'.clock.nanos)
    (h₁ : t'.startTime.isSome ↔ t'.slot.isSome)
    (h₂ : t'.startTime.isSome → t'.tickDuration = some s.poller.tickDuration)
    (h₃ : ∀ r, t'.startTime = some r → r.nanos ≤ s'.clock.nanos) : StartsRecorded s' := by
  have hof : ∀ u t, s'.timeouts u = some t → (u = token ∧ t = t') ∨ s.timeouts u = some t :=
    fun u t h => by
      rw [ht] at h
      by_cases hu : u = token
      · subst hu; simp only [Function.update_same, Option.some.injEq] at h; exact .inl ⟨rfl, h.symm⟩
      · rw [Function.update_noteq hu] at h; exact .inr h
  refine ⟨fun u t h => ?_, fun u t h hst => ?_, fun u t r h hr => ?_⟩ <;>
    rcases hof u t h with ⟨-, rfl⟩ | h
  · exact h₁
  · exact hs.start_iff_slot u t h
  · rw [htd]; exact h₂ hst
  · rw [htd]; exact hs.tick_of_start u t h hst
  · exact h₃ r hr
  · exact Nat.le_trans (hs.start_le_clock u t r h hr) hc

theorem StartsRecorded.step {s s' : Timers} {op : TimerOp} {out : List (Token × Interest)}
    (hsr : SlotsRecorded s) (hs : StartsRecorded s) (ha : s.Allowed op)
    (h : s.step op = some (s', out)) : StartsRecorded s' := by
  have hc := step_clock hsr ha h
  have htd := (step_clockwork hsr ha h).1
  cases op with
  | fdOpen token d =>
    obtain ⟨rfl, -⟩ := step_fdOpen h
    exact hs.of_update rfl rfl hc (by simp [MioTimeout.new]) (by simp [MioTimeout.new])
      (by simp [MioTimeout.new])
  | register token now | reregister token now =>
    obtain ⟨t, k, -, -, -, -, -, -, -, -, hts, hclock, -⟩ :=
      step_arm hsr (by first | exact .inl rfl | exact .inr rfl) ha h
    exact hs.of_update hts htd hc (by simp) (fun _ => rfl)
      (fun r hr => by cases hr; rw [hclock])
  | deregister token =>
    obtain ⟨-, -, -, hts, -⟩ := step_deregister h
    exact hs.of_frame hts htd hc
  | pollOnce now wait =>
    obtain ⟨hts, -⟩ := step_pollOnce h
    exact hs.of_frame hts htd hc

theorem Reachable.startsRecorded {s : Timers} (hs : Reachable s) : StartsRecorded s := by
  induction hs with
  | init now => exact ⟨fun _ _ h => (nomatch h), fun _ _ h => (nomatch h), fun _ _ _ h => (nomatch h)⟩
  | step hs ha h ih => exact ih.step hs.slotsRecorded ha h

/-- **`is_expired` never panics.** In every reachable state, the `MioTimeout` of every `Timeout`
handle answers `is_expired` at every clock reading: a started timeout always has its tick. -/
theorem isExpired_isSome {s : Timers} (hs : Reachable s) {token : Token} {t : MioTimeout}
    (ht : s.timeouts token = some t) (now : Instant) : (t.isExpired now).isSome := by
  cases hst : t.startTime with
  | none => simp [MioTimeout.isExpired, hst]
  | some r =>
    rw [MioTimeout.isExpired_eq t now r _ hst
      (hs.startsRecorded.tick_of_start token t ht (by simp [hst]))]
    rfl

/-- Armed at 5 ms, the idle poller's timer has a start, and `is_expired` answers at 6 ms. -/
theorem isExpired_isSome_idle : ∃ s₁ t,
    idleTimers.step (.register ⟨7⟩ (atMillis 5 (by decide))) = some (s₁, []) ∧
      s₁.timeouts ⟨7⟩ = some t ∧ t.startTime = some (atMillis 5 (by decide)) ∧
      (t.isExpired (atMillis 6 (by decide))).isSome :=
  ⟨_, _, rfl, rfl, rfl, @isExpired_isSome _
    (.step idleTimers_reachable idleTimers_register_allowed rfl) ⟨7⟩ _ rfl _⟩

/-- **A timer handed over after a caught-up arming is expired.** Let a timer be armed at `r` while
the wheel's tick is `⌊(r - c) / tick⌋`, with `c` the wheel's creation: the last poll left the
wheel current. Until it is armed again, a poll at `p` that hands its token over finds
`is_expired` true at `p`: less than one tick of the duration is left. -/
theorem expired_when_handed_over {s s₁ s₂ : Timers} {op : TimerOp} {token : Token}
    {r : Instant} {out₁ : List (Token × Interest)} {log : List (TimerOp × List (Token × Interest))}
    {p : Instant} {wait : Except IoError (List MioEvent)} {out : List (Token × Interest)}
    (hs : Reachable s) (hop : op = .register token r ∨ op = .reregister token r)
    (ha : s.Allowed op)
    (hcaught : s.poller.wheel.tick =
      (r.nanos - s.poller.timeWheel.lastTick.nanos) / s.poller.tickDuration.asNanos)
    (h : s.step op = some (s₁, out₁)) (hr : Run s₁ log s₂) (hno : ∀ x ∈ log, ¬ x.1.Arms token)
    (hp : (TimerOp.pollOnce p wait, out) ∈ log) (he : token ∈ out.map Prod.fst) :
    ∃ t, s₁.timeouts token = some t ∧ t.isExpired p = some true := by
  have htd := hs.tickDuration
  obtain ⟨t, k, -, -, hk, hof, -, -, htd', hlt, hts, -⟩ := step_arm hs.slotsRecorded hop ha h
  obtain ⟨e, he', hdue⟩ := Run.emitted_due (hs.step ha h) hr hno (by rw [hts]; simp) hp he
  rw [hof token, if_pos rfl, List.mem_singleton] at he'
  subst he'
  rw [htd', hlt] at hdue
  dsimp only at hdue
  have hkd := le_of_durationToTicks_roundUp (by omega) hk
  have hcur : r.nanos - s.poller.timeWheel.lastTick.nanos <
      s.poller.wheel.tick * s.poller.tickDuration.asNanos + s.poller.tickDuration.asNanos := by
    rw [hcaught]; exact Nat.lt_div_mul_add (by omega)
  refine ⟨_, by rw [hts, Function.update_same], ?_⟩
  rw [MioTimeout.isExpired_eq _ p r s.poller.tickDuration rfl rfl, Option.some.injEq,
    decide_eq_true_eq]
  dsimp only
  rw [Nat.add_mul] at hdue
  omega

/-- The idle poller armed at 0 ms, then polled at 1 ms: the poll hands token 7 over. -/
theorem idleTimers_prompt_run : ∃ s₁ s₂,
    idleTimers.step (.register ⟨7⟩ (atMillis 0 (by decide))) = some (s₁, []) ∧
    Run s₁ [(.pollOnce (atMillis 1 (by decide)) (.ok []), [(⟨7⟩, Interest.readableOnly)])] s₂ :=
  ⟨_, _, rfl, .cons ⟨by decide, fun _ h _ he => by cases h; cases he⟩ rfl (.nil _)⟩

theorem expired_when_handed_over_idle : ∃ s₁ t,
    idleTimers.step (.register ⟨7⟩ (atMillis 0 (by decide))) = some (s₁, []) ∧
      s₁.timeouts ⟨7⟩ = some t ∧ t.isExpired (atMillis 1 (by decide)) = some true := by
  obtain ⟨s₁, s₂, h₁, hr⟩ := idleTimers_prompt_run
  obtain ⟨t, ht, hexp⟩ := expired_when_handed_over idleTimers_reachable (.inl rfl)
    ⟨by decide, fun t ht => by simp [idleTimers] at ht; subst ht; rfl⟩ (by decide) h₁ hr
    (by simp [TimerOp.Arms]) (List.mem_singleton_self _) (by decide)
  exact ⟨s₁, t, h₁, ht, hexp⟩

/-! ## Every armed timer fires

`Run.emitted_due` says a timer is never handed over before its entry is due and
`Run.count_emitted_le` that it is handed over at most once. The converse: until it is armed again
or deregistered, its entry stays in the wheel and not yet due, so the first successful
`poll_once` whose tick count reaches the deadline hands it over. -/

/-- An entry of `token` that the wheel still holds and has not reached. -/
def Scheduled (s : Timers) (token : Token) (e : WheelEntry Token) : Prop :=
  e ∈ s.poller.wheel.of token ∧ s.poller.wheel.tick < e.deadline

/-- The ticks of a `poll_once` hand over every entry they pass. -/
theorem mem_tickLoop_of_due {w : TimeWheel Token} {n : Nat} {token : Token}
    {e : WheelEntry Token} (he : e ∈ w.of token) (h₁ : w.tick < e.deadline)
    (h₂ : e.deadline ≤ w.tick + n) : token ∈ (tickLoop n w).1 := by
  have : 0 < (tickLoop n w).1.count token := by
    rw [tickLoop_count]
    exact List.countP_pos_iff.mpr ⟨e, he, decide_eq_true ⟨h₁, h₂⟩⟩
  exact List.count_pos_iff.mp this

/-- A successful poll hands over every scheduled entry due by its tick count
`⌊(now - c) / tick⌋`. -/
theorem step_pollOnce_hands_due {s s' : Timers} {now : Instant} {evs : List MioEvent}
    {out : List (Token × Interest)} {token : Token} {e : WheelEntry Token}
    (h : s.step (.pollOnce now (.ok evs)) = some (s', out))
    (htd : 0 < s.poller.tickDuration.asNanos) (hp : Scheduled s token e)
    (hdue : e.deadline * s.poller.tickDuration.asNanos ≤
      now.nanos - s.poller.timeWheel.lastTick.nanos) : token ∈ out.map Prod.fst := by
  obtain ⟨⟨res, p⟩, hres, hp'⟩ := Option.map_eq_some'.mp (by simpa only [step] using h)
  cases hp'
  rcases BasicMioPoller.pollOnce_eq_some hres with ⟨_, hw, -⟩ | ⟨evs', ticks, -, hticks, -, rfl, -⟩
  · cases hw
  · rw [durationToTicks_floor _ _ htd, Instant.asNanos_durationSince, Option.some.injEq] at hticks
    have hle := (Nat.le_div_iff_mul_le htd).mpr hdue
    simp only [pollEvents, List.map_append, List.map_map, List.mem_append]
    exact .inr (List.mem_map.mpr ⟨token, mem_tickLoop_of_due hp.1 hp.2 (by omega), rfl⟩)

/-- A step that neither arms nor deregisters `token` keeps its scheduled entry scheduled, or hands
the token over. -/
theorem Scheduled.step {s s' : Timers} {op : TimerOp} {out : List (Token × Interest)}
    {token : Token} {e : WheelEntry Token} (hsr : SlotsRecorded s) (ha : s.Allowed op)
    (h : s.step op = some (s', out)) (hno : ¬ op.Arms token) (hnd : op ≠ .deregister token)
    (hp : Scheduled s token e) : token ∈ out.map Prod.fst ∨ Scheduled s' token e := by
  cases op with
  | fdOpen u d => obtain ⟨rfl, -⟩ := step_fdOpen h; exact .inr hp
  | register u now | reregister u now =>
    obtain ⟨t, k, -, -, -, hof, htick, -⟩ :=
      step_arm hsr (by first | exact .inl rfl | exact .inr rfl) ha h
    refine .inr ⟨?_, htick ▸ hp.2⟩
    rw [hof, if_neg (show ¬u = token from hno)]
    exact hp.1
  | deregister u =>
    obtain ⟨t, -, hp', -⟩ := step_deregister h
    have hu : u ≠ token := fun hu => hnd (by rw [hu])
    refine .inr ?_
    rw [Scheduled, hp', BasicMioPoller.wheel_withWheel, BasicMioPoller.of_removeSlot_ne _ _ hu,
      BasicMioPoller.removeSlot_tick]
    exact hp
  | pollOnce now wait =>
    obtain ⟨-, -, ⟨hp', -⟩ | ⟨evs, ticks, rfl, -, -, rfl, hp'⟩⟩ := step_pollOnce h
    · exact .inr (by rw [Scheduled, hp']; exact hp)
    · by_cases hdue : e.deadline ≤ s.poller.wheel.tick + (ticks - s.poller.wheel.tick)
      · simp only [List.map_append, List.map_map, List.mem_append]
        exact .inl (.inr (List.mem_map.mpr ⟨token, mem_tickLoop_of_due hp.1 hp.2 hdue, rfl⟩))
      · refine .inr ⟨?_, ?_⟩
        · rw [hp', BasicMioPoller.wheel_withWheel, tickLoop_of, List.mem_filter]
          exact ⟨hp.1, by simp [hdue]⟩
        · rw [hp', BasicMioPoller.wheel_withWheel, tickLoop_tick]
          omega

/-- Until `token` is armed again or deregistered, a run keeps its scheduled entry scheduled, or
hands the token over. -/
theorem Run.scheduled {s s' : Timers} {log : List (TimerOp × List (Token × Interest))}
    {token : Token} {e : WheelEntry Token} (hs : Reachable s) (hr : Run s log s')
    (hno : ∀ x ∈ log, ¬ x.1.Arms token ∧ x.1 ≠ .deregister token) (hp : Scheduled s token e) :
    token ∈ emitted log ∨ Scheduled s' token e := by
  induction hr with
  | nil => exact .inr hp
  | cons ha hstep _ ih =>
    obtain ⟨hna, hnd⟩ := hno _ (List.mem_cons_self _ _)
    have hmem : ∀ {x : TimerOp × List (Token × Interest)} {log : List _},
        token ∈ x.2.map Prod.fst ∨ token ∈ emitted log → token ∈ emitted (x :: log) :=
      fun h => List.mem_append.mpr h
    rcases hp.step hs.slotsRecorded ha hstep hna hnd with hout | hp'
    · exact .inl (hmem (.inl hout))
    · exact (ih (hs.step ha hstep) (fun x hx => hno x (List.mem_cons_of_mem _ hx)) hp').imp_left
        (fun h => hmem (.inr h))

/-- A run followed by one more allowed step is a run. -/
theorem Run.snoc {s s' s'' : Timers} {log : List (TimerOp × List (Token × Interest))}
    {op : TimerOp} {out : List (Token × Interest)} (hr : Run s log s') (ha : s'.Allowed op)
    (h : s'.step op = some (s'', out)) : Run s (log ++ [(op, out)]) s'' := by
  induction hr with
  | nil => exact .cons ha h (.nil _)
  | cons ha' h' _ ih => exact .cons ha' h' (ih ha h)

/-- No run moves the instant the wheel was created at. -/
theorem Run.lastTick {s s' : Timers} {log : List (TimerOp × List (Token × Interest))}
    (hs : Reachable s) (hr : Run s log s') :
    s'.poller.timeWheel.lastTick = s.poller.timeWheel.lastTick := by
  induction hr with
  | nil => rfl
  | cons ha hstep _ ih =>
    exact (ih (hs.step ha hstep)).trans (step_clockwork hs.slotsRecorded ha hstep).2

/-- **An armed timer fires exactly once.** Let a timer of duration `d` be armed while the wheel
stands at tick `W`, and `k = duration_to_ticks(d, tick, true)`. Until it is armed again or
deregistered, a run that ends with a successful `poll_once` at `p ≥ c + (W + k) · tick`, with `c`
the wheel's creation, has handed its token over exactly once. -/
theorem armed_timer_fires_once {s s₁ s₂ s₃ : Timers} {op : TimerOp} {token : Token}
    {r : Instant} {out₁ : List (Token × Interest)} {log : List (TimerOp × List (Token × Interest))}
    {p : Instant} {evs : List MioEvent} {out : List (Token × Interest)}
    (hs : Reachable s) (hop : op = .register token r ∨ op = .reregister token r)
    (ha : s.Allowed op) (h : s.step op = some (s₁, out₁)) (hr : Run s₁ log s₂)
    (hno : ∀ x ∈ log, ¬ x.1.Arms token ∧ x.1 ≠ .deregister token)
    (hpa : s₂.Allowed (.pollOnce p (.ok evs)))
    (hpoll : s₂.step (.pollOnce p (.ok evs)) = some (s₃, out)) :
    ∃ t k, s.timeouts token = some t ∧
      durationToTicks t.duration s.poller.tickDuration true = some k ∧
      (s.poller.timeWheel.lastTick.nanos +
          (s.poller.wheel.tick + k) * s.poller.tickDuration.asNanos ≤ p.nanos →
        (emitted (log ++ [(.pollOnce p (.ok evs), out)])).count token = 1) := by
  have htd := hs.tickDuration
  obtain ⟨t, k, ht, hz, hk, hof, htick, -, -, hlt, hts, -⟩ := step_arm hs.slotsRecorded hop ha h
  refine ⟨t, k, ht, hk, fun hdue => ?_⟩
  have hs₁ := hs.step ha h
  have hs₂ := hs₁.run hr
  have hk1 : 0 < k := Nat.pos_of_ne_zero fun h0 => by
    have hd := le_of_durationToTicks_roundUp (by omega) hk
    rw [h0, Nat.zero_mul, Nat.le_zero, ← Duration.isZero_iff, hz] at hd
    cases hd
  have hp : Scheduled s₁ token ⟨(s.poller.wheel.tick + k) % s.poller.wheel.steps,
      s.poller.wheel.tick + k, token⟩ :=
    ⟨by rw [hof, if_pos rfl]; exact List.mem_singleton_self _,
      by rw [htick]; exact Nat.lt_add_of_pos_right hk1⟩
  have hmem : token ∈ emitted (log ++ [(.pollOnce p (.ok evs), out)]) := by
    rw [emitted, List.flatMap_append, List.mem_append]
    refine (Run.scheduled hs₁ hr hno hp).imp id fun hp₂ => List.mem_append_left _ ?_
    refine step_pollOnce_hands_due hpoll (by rw [hs₂.tickDuration]; decide) hp₂ ?_
    rw [hs₂.tickDuration, hr.lastTick hs₁, hlt]
    rw [htd] at hdue
    dsimp only
    omega
  have hle := Run.count_emitted_le hs₁ (hr.snoc hpa hpoll)
    (fun x hx => by
      rcases List.mem_append.mp hx with hx | hx
      · exact (hno x hx).1
      · rw [List.mem_singleton.mp hx]; exact id)
    (by rw [hts, Function.update_same]; rfl)
  rw [hof, if_pos rfl, List.length_singleton] at hle
  have := List.count_pos_iff.mpr hmem
  omega

end Timers

end HalaIo
