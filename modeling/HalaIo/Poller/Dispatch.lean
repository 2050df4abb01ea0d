import HalaIo.Poller.Expiry
import HalaIo.Driver.Handles

/-!
# The poller's dispatch

`register`, `reregister` and `deregister` of `BasicMioPoller` over every `Description`.
`register` and `reregister` first turn the driver's interests into a `mio::Interest`, and the
`unwrap` of a `remove` that leaves nothing panics. Then `File` panics on its `todo!()`, the three
sockets hand the socket to the `mio` registry, `Timeout` runs its arm of the timers machine, and
`Poller` is refused with `InvalidInput`.

The `mio` registry is outside the sources. What its calls answer enters as input, and the model
keeps the sources it holds, by token, with their interests, as `mio` does after a call that
succeeds. The OS reports readiness only for sources registered with `mio`.

`MioDriver` is the whole poller: the timers, the driver's other handles and the registry.

* `Reachable.separated`: only sockets the driver holds are registered with `mio`, and no token is
  both a `Timeout` handle and another handle.
* `Run.timers`: the full poller refines the timers machine. Its timer operations and its polls,
  with what they return, are a run of `Timers`, and its other operations leave the timers as they
  were, so every result about the runs of `Timers` holds of the full poller.
* `pollOnce_routes`: every event `poll_once` returns names a socket registered with `mio`, or an
  armed `Timeout` handle reported `Readable`.
* `deregistered_socket_silent`: once a socket is deregistered, no poll reports it until it is
  registered again.
* `timeout_fires_once`: a registered `Timeout` handle has been reported exactly once by any
  successful poll a tick past its deadline, until it is registered again or deregistered;
  `deregistered_timeout_silent`: once deregistered, it is not reported until registered again.
-/

namespace HalaIo

/-! ## Interests and the error of an invalid source -/

/-- `mio::Interest::remove`: `None` when nothing is left. -/
def Interest.remove (m other : Interest) : Option Interest :=
  if (m.readable && !other.readable) || (m.writable && !other.writable) then
    some ⟨m.readable && !other.readable, m.writable && !other.writable⟩
  else none

/-- The `mio::Interest` of `register` and `reregister`: `READABLE | WRITABLE`, less `WRITABLE`
unless `interests` has `Writable`, then less `READABLE` unless it has `Readable`; `none` is the
`unwrap` of a `remove` that leaves nothing. -/
def mioInterests (interests : Interest) : Option Interest := do
  let m ← if !interests.writable then Interest.remove ⟨true, true⟩ ⟨false, true⟩
    else pure ⟨true, true⟩
  if !interests.readable then m.remove ⟨true, false⟩ else pure m

/-- The translation keeps a nonempty set as it is and panics on the empty one. -/
theorem mioInterests_eq (i : Interest) :
    mioInterests i = if i.readable || i.writable then some i else none := by
  obtain ⟨_ | _, _ | _⟩ := i <;> rfl

/-- The derived `Debug` of a `Description`. -/
def Description.debug : Description → String
  | .file => "File"
  | .tcpListener => "TcpListener"
  | .tcpStream => "TcpStream"
  | .udpSocket => "UdpSocket"
  | .timeout => "Timeout"
  | .poller => "Poller"

/-- The derived `Debug` of a `Handle`: `Handle { desc: Poller, token: Token(3) }`. -/
def Handle.debug (h : Handle) : String :=
  "Handle \x7b desc: " ++ h.desc.debug ++ ", token: Token(" ++ toString h.token.val ++ ") \x7d"

/-- `format!("[MioDriver] invalid register source: {:?}", handle)`, the error of the arm that
takes the handles no other arm takes. -/
def invalidSource (handle : Handle) : IoError :=
  ⟨.invalidInput, "[MioDriver] invalid register source: " ++ handle.debug⟩

/-- The descriptions whose arm hands the source to the `mio` registry. -/
def Description.isSocket : Description → Bool
  | .tcpListener | .tcpStream | .udpSocket => true
  | _ => false

/-! ## The dispatch -/

/-- The poller and what its dispatch reads: the timers, the description of every other handle the
driver holds, by token, and the sources the `mio` registry holds, by token, with their
interests. -/
structure MioDriver where
  timers : Timers
  handles : Token → Option Description
  registry : Token → Option Interest

/-- The operations of a run of the full poller: opening a handle, the three dispatches with what
the `mio` registry answers, and `poll_once`. -/
inductive PollerOp where
  | fdOpenTimeout (token : Token) (duration : Duration)
  | fdOpen (handle : Handle)
  | register (handle : Handle) (interests : Interest) (now : Instant) (answer : Except IoError Unit)
  | reregister (handle : Handle) (interests : Interest) (now : Instant)
      (answer : Except IoError Unit)
  | deregister (handle : Handle) (answer : Except IoError Unit)
  | pollOnce (now : Instant) (wait : Except IoError (List MioEvent))

/-- What an operation returns. -/
inductive PollerOut where
  | opened
  | done (result : Except IoError Unit)
  | events (result : Except IoError (List (Token × Interest)))

namespace MioDriver

/-- The registry after a call answered `answer`: on success it holds `entry` for the token. -/
def afterCall (registry : Token → Option Interest) (token : Token) (entry : Option Interest) :
    Except IoError Unit → Token → Option Interest
  | .ok () => Function.update registry token entry
  | .error _ => registry

/-- The arm of the three sockets: `TypedHandle::new(handle).with_mut` hands the socket to the
registry call, which answers `answer`; `none` when the driver holds no such socket. -/
def socketArm (s : MioDriver) (handle : Handle) (entry : Option Interest)
    (answer : Except IoError Unit) : Option (MioDriver × Except IoError Unit) :=
  if s.handles handle.token = some handle.desc then
    some ({ s with registry := afterCall s.registry handle.token entry answer }, answer)
  else none

/-- The `Timeout` arm: the timers machine's step; it answers `Ok(())`. -/
def timeoutArm (s : MioDriver) (op : TimerOp) : Option (MioDriver × Except IoError Unit) :=
  (s.timers.step op).map fun r => ({ s with timers := r.1 }, .ok ())

/-- The `match handle.desc` of `register`, `reregister` and `deregister`, given what the
registry keeps for a socket after a call that succeeds and the timers' operation of the `Timeout`
arm. -/
def dispatch (s : MioDriver) (handle : Handle) (entry : Option Interest) (timer : TimerOp)
    (answer : Except IoError Unit) : Option (MioDriver × Except IoError Unit) :=
  match handle.desc with
  | .file => none
  | .tcpListener | .tcpStream | .udpSocket => s.socketArm handle entry answer
  | .timeout => s.timeoutArm timer
  | .poller => some (s, .error (invalidSource handle))

/-- `BasicMioPoller::register(handle, interests)` at clock reading `now`, with the registry's
answer. -/
def register (s : MioDriver) (handle : Handle) (interests : Interest) (now : Instant)
    (answer : Except IoError Unit) : Option (MioDriver × Except IoError Unit) :=
  (mioInterests interests).bind fun m =>
    s.dispatch handle (some m) (.register handle.token now) answer

/-- `BasicMioPoller::reregister(handle, interests)`. -/
def reregister (s : MioDriver) (handle : Handle) (interests : Interest) (now : Instant)
    (answer : Except IoError Unit) : Option (MioDriver × Except IoError Unit) :=
  (mioInterests interests).bind fun m =>
    s.dispatch handle (some m) (.reregister handle.token now) answer

/-- `BasicMioPoller::deregister(handle)`. -/
def deregister (s : MioDriver) (handle : Handle) (answer : Except IoError Unit) :
    Option (MioDriver × Except IoError Unit) :=
  s.dispatch handle none (.deregister handle.token) answer

/-- A poller created at `now`, with no handles yet. -/
def init (now : Instant) : MioDriver := ⟨Timers.init now, fun _ => none, fun _ => none⟩

/-- One operation; `none` is a panic, or a handle the driver does not hold. -/
def step (s : MioDriver) : PollerOp → Option (MioDriver × PollerOut)
  | .fdOpenTimeout token duration =>
    (s.timers.step (.fdOpen token duration)).map fun r => ({ s with timers := r.1 }, .opened)
  | .fdOpen handle =>
    some ({ s with handles := Function.update s.handles handle.token (some handle.desc) }, .opened)
  | .register handle interests now answer =>
    (s.register handle interests now answer).map fun r => (r.1, .done r.2)
  | .reregister handle interests now answer =>
    (s.reregister handle interests now answer).map fun r => (r.1, .done r.2)
  | .deregister handle answer => (s.deregister handle answer).map fun r => (r.1, .done r.2)
  | .pollOnce now wait =>
    (s.timers.poller.pollOnce now wait).map fun r =>
      ({ s with timers := { s.timers with poller := r.2, clock := now } }, .events r.1)

/-- What the environment guarantees: fresh tokens, the timers' lifecycle for `Timeout` handles,
a clock that never goes back, and an OS that reports only sources registered with `mio`. -/
def Allowed (s : MioDriver) : PollerOp → Prop
  | .fdOpenTimeout token _ => s.timers.timeouts token = none ∧ s.handles token = none
  | .fdOpen handle =>
    handle.desc ≠ .timeout ∧ s.timers.timeouts handle.token = none ∧ s.handles handle.token = none
  | .register handle _ now _ =>
    handle.desc = .timeout → s.timers.Allowed (.register handle.token now)
  | .reregister handle _ now _ =>
    handle.desc = .timeout → s.timers.Allowed (.reregister handle.token now)
  | .deregister _ _ => True
  | .pollOnce now wait =>
    s.timers.clock.nanos ≤ now.nanos ∧
      ∀ evs, wait = .ok evs → ∀ e ∈ evs, (s.registry e.token).isSome

/-- The states reachable from a fresh poller by allowed operations. -/
inductive Reachable : MioDriver → Prop
  | init (now : Instant) : Reachable (init now)
  | step {s : MioDriver} {op : PollerOp} {r : MioDriver × PollerOut} :
      Reachable s → s.Allowed op → s.step op = some r → Reachable r.1

/-- A run from `s` to `s'`: allowed operations, each with what it returned. -/
inductive Run : MioDriver → List (PollerOp × PollerOut) → MioDriver → Prop
  | nil (s : MioDriver) : Run s [] s
  | cons {s s₁ s₂ : MioDriver} {op : PollerOp} {out : PollerOut}
      {log : List (PollerOp × PollerOut)} :
      s.Allowed op → s.step op = some (s₁, out) → Run s₁ log s₂ → Run s ((op, out) :: log) s₂

theorem Reachable.run {s s' : MioDriver} {log : List (PollerOp × PollerOut)} (hs : Reachable s)
    (hr : Run s log s') : Reachable s' := by
  induction hr with
  | nil => exact hs
  | cons ha hstep _ ih => exact ih (Reachable.step hs ha hstep)

/-! ## One lemma per arm -/

/-- The one lemma for the dispatch: a socket the driver holds goes to the registry, which keeps
`entry` when the call succeeds; a `Timeout` handle takes a step of the timers; a `Poller` handle
is refused and changes nothing. -/
theorem dispatch_eq_some {s s' : MioDriver} {handle : Handle} {entry : Option Interest}
    {timer : TimerOp} {answer r : Except IoError Unit}
    (h : s.dispatch handle entry timer answer = some (s', r)) :
    (handle.desc.isSocket ∧ s.handles handle.token = some handle.desc ∧ r = answer ∧
        s' = { s with registry := afterCall s.registry handle.token entry answer }) ∨
      (handle.desc = .timeout ∧ r = .ok () ∧
        ∃ t out, s.timers.step timer = some (t, out) ∧ s' = { s with timers := t }) ∨
      (handle.desc = .poller ∧ s' = s ∧ r = .error (invalidSource handle)) := by
  obtain ⟨desc, token⟩ := handle
  cases desc with
  | file => cases h
  | tcpListener | tcpStream | udpSocket =>
    simp only [dispatch, socketArm] at h
    split at h
    · cases h; exact .inl ⟨rfl, ‹_›, rfl, rfl⟩
    · cases h
  | timeout =>
    obtain ⟨⟨t, out⟩, hstep, heq⟩ := Option.map_eq_some'.mp h
    cases heq
    exact .inr (.inl ⟨rfl, rfl, t, out, hstep, rfl⟩)
  | poller => cases h; exact .inr (.inr ⟨rfl, rfl, rfl⟩)

/-- Every dispatch that answers an error leaves the poller as it was. -/
theorem dispatch_error {s s' : MioDriver} {handle : Handle} {entry : Option Interest}
    {timer : TimerOp} {answer : Except IoError Unit} {e : IoError}
    (h : s.dispatch handle entry timer answer = some (s', .error e)) : s' = s := by
  rcases dispatch_eq_some h with ⟨-, -, rfl, rfl⟩ | ⟨-, h, -⟩ | ⟨-, rfl, -⟩
  · rfl
  · cases h
  · rfl

end MioDriver

/-! ## The timers' part of a step -/

namespace Timers

/-- A timers step other than `fd_open` adds no handle. -/
theorem step_timeouts_none {s s' : Timers} {op : TimerOp} {out : List (Token × Interest)}
    (h : s.step op = some (s', out)) (hop : ∀ token d, op ≠ .fdOpen token d) {u : Token}
    (hu : s.timeouts u = none) : s'.timeouts u = none := by
  cases op with
  | fdOpen token d => exact absurd rfl (hop token d)
  | register token now | reregister token now =>
    obtain ⟨t, ht, h⟩ := Option.bind_eq_some.mp h
    obtain ⟨r, -, hr⟩ := Option.map_eq_some'.mp h
    cases hr
    have hne : u ≠ token := fun e => by subst e; rw [hu] at ht; cases ht
    simpa [Function.update_noteq hne] using hu
  | deregister token => obtain ⟨-, -, -, hts, -⟩ := step_deregister h; rw [hts]; exact hu
  | pollOnce now wait => obtain ⟨hts, -⟩ := step_pollOnce h; rw [hts]; exact hu

/-- Only `poll_once` returns events. -/
theorem step_out_nil {s s' : Timers} {op : TimerOp} {out : List (Token × Interest)}
    (h : s.step op = some (s', out)) (hop : ∀ now wait, op ≠ .pollOnce now wait) : out = [] := by
  cases op with
  | fdOpen token d => exact (step_fdOpen h).2
  | register token now | reregister token now =>
    obtain ⟨t, -, h⟩ := Option.bind_eq_some.mp h
    obtain ⟨r, -, hr⟩ := Option.map_eq_some'.mp h
    cases hr; rfl
  | deregister token => obtain ⟨-, -, -, -, -, rfl⟩ := step_deregister h; rfl
  | pollOnce now wait => exact absurd rfl (hop now wait)

end Timers

/-! ## The full poller refines the timers machine -/

/-- The timers machine's operation of an operation of the full poller, if it has one. -/
def PollerOp.timerOp : PollerOp → Option TimerOp
  | .fdOpenTimeout token duration => some (.fdOpen token duration)
  | .fdOpen _ => none
  | .register handle _ now _ =>
    if handle.desc = .timeout then some (.register handle.token now) else none
  | .reregister handle _ now _ =>
    if handle.desc = .timeout then some (.reregister handle.token now) else none
  | .deregister handle _ => if handle.desc = .timeout then some (.deregister handle.token) else none
  | .pollOnce now wait => some (.pollOnce now wait)

/-- The events an operation returned: those of a `poll_once` that succeeded, none otherwise. -/
def PollerOut.returnedEvents : PollerOut → List (Token × Interest)
  | .events r => pollEvents r
  | _ => []

/-- The timers' log of a run of the full poller. -/
def timerLog (log : List (PollerOp × PollerOut)) : List (TimerOp × List (Token × Interest)) :=
  log.filterMap fun x => x.1.timerOp.map (·, x.2.returnedEvents)

/-- The operation registers or re-registers a handle with token `token`. -/
def PollerOp.Registers (token : Token) : PollerOp → Prop
  | .register handle _ _ _ | .reregister handle _ _ _ => handle.token = token
  | _ => False

namespace MioDriver

/-- What keeps the two kinds of handles apart. -/
structure Separated (s : MioDriver) : Prop where
  /-- Only sockets the driver holds are registered with `mio`. -/
  registered_socket : ∀ token, (s.registry token).isSome →
    ∃ d, s.handles token = some d ∧ d.isSocket
  /-- No token is both a `Timeout` handle and another handle. -/
  disjoint : ∀ token, (s.handles token).isSome → s.timers.timeouts token = none

/-- No token the OS may report is a `Timeout` handle's. -/
theorem Separated.timeouts_none {s : MioDriver} (hs : Separated s) {token : Token}
    (h : (s.registry token).isSome) : s.timers.timeouts token = none := by
  obtain ⟨d, hd, -⟩ := hs.registered_socket token h
  exact hs.disjoint token (by rw [hd]; rfl)

/-- A dispatch on a handle other than a `Timeout` leaves the timers as they were; one on a
`Timeout` handle is a step of the timers machine that returns no event. -/
theorem dispatch_timers {s s' : MioDriver} {handle : Handle} {entry : Option Interest}
    {timer : TimerOp} {answer r : Except IoError Unit}
    (h : s.dispatch handle entry timer answer = some (s', r))
    (htimer : ∀ now wait, timer ≠ .pollOnce now wait) :
    (handle.desc = .timeout ∧ r = .ok () ∧ s.timers.step timer = some (s'.timers, [])) ∨
      (handle.desc ≠ .timeout ∧ s'.timers = s.timers) := by
  rcases dispatch_eq_some h with ⟨hsock, -, -, rfl⟩ | ⟨hd, rfl, t, out, hstep, rfl⟩ | ⟨hd, rfl, -⟩
  · exact .inr ⟨fun hd => (by rw [hd] at hsock; cases hsock), rfl⟩
  · rw [Timers.step_out_nil hstep htimer] at hstep
    exact .inl ⟨hd, rfl, hstep⟩
  · exact .inr ⟨by rw [hd]; decide, rfl⟩

theorem Separated.dispatch {s s' : MioDriver} {handle : Handle} {entry : Option Interest}
    {timer : TimerOp} {answer r : Except IoError Unit} (hs : Separated s)
    (h : s.dispatch handle entry timer answer = some (s', r))
    (htimer : ∀ token d, timer ≠ .fdOpen token d) : Separated s' := by
  rcases dispatch_eq_some h with ⟨hsock, hheld, -, rfl⟩ | ⟨-, -, t, out, hstep, rfl⟩ | ⟨-, rfl, -⟩
  · refine ⟨fun u hu => ?_, hs.disjoint⟩
    by_cases hut : u = handle.token
    · exact ⟨_, hut ▸ hheld, hsock⟩
    · apply hs.registered_socket u
      cases answer <;> simpa [afterCall, Function.update_noteq hut] using hu
  · exact ⟨hs.registered_socket,
      fun u hu => Timers.step_timeouts_none hstep htimer (hs.disjoint u hu)⟩
  · exact hs

theorem Separated.step {s s' : MioDriver} {op : PollerOp} {out : PollerOut} (hs : Separated s)
    (ha : s.Allowed op) (h : s.step op = some (s', out)) : Separated s' := by
  cases op with
  | fdOpenTimeout token d =>
    obtain ⟨⟨t, ev⟩, hstep, heq⟩ := Option.map_eq_some'.mp (by simpa only [MioDriver.step] using h)
    cases heq
    obtain ⟨rfl, -⟩ := Timers.step_fdOpen hstep
    refine ⟨hs.registered_socket, fun u hu => ?_⟩
    have hne : u ≠ token := fun e => by subst e; rw [ha.2] at hu; cases hu
    simpa [Function.update_noteq hne] using hs.disjoint u hu
  | fdOpen handle =>
    cases h
    refine ⟨fun u hu => ?_, fun u hu => ?_⟩ <;> by_cases hut : u = handle.token
    · obtain ⟨d, hd, -⟩ := hs.registered_socket u hu
      rw [hut, ha.2.2] at hd; cases hd
    · simpa [Function.update_noteq hut] using hs.registered_socket u hu
    · rw [hut]; exact ha.2.1
    · exact hs.disjoint u (by simpa [Function.update_noteq hut] using hu)
  | register handle i now answer | reregister handle i now answer =>
    obtain ⟨⟨s'', r⟩, hreg, heq⟩ := Option.map_eq_some'.mp h
    cases heq
    obtain ⟨m, -, hd⟩ := Option.bind_eq_some.mp hreg
    exact hs.dispatch hd (fun _ _ => nofun)
  | deregister handle answer =>
    obtain ⟨⟨s'', r⟩, hd, heq⟩ := Option.map_eq_some'.mp h
    cases heq
    exact hs.dispatch hd (fun _ _ => nofun)
  | pollOnce now wait =>
    obtain ⟨r, -, heq⟩ := Option.map_eq_some'.mp h
    cases heq
    exact ⟨hs.registered_socket, hs.disjoint⟩

theorem Reachable.separated {s : MioDriver} (hs : Reachable s) : Separated s := by
  induction hs with
  | init now => exact ⟨fun _ h => (nomatch h), fun _ h => (nomatch h)⟩
  | step _ ha h ih => exact ih.step ha h

/-- **One step of the full poller, seen from the timers.** A timer operation or a poll is an
allowed step of the timers machine, returning the events the poll returned; any other operation
leaves the timers as they were. -/
theorem step_timers {s s' : MioDriver} {op : PollerOp} {out : PollerOut} (hs : Separated s)
    (ha : s.Allowed op) (h : s.step op = some (s', out)) :
    (∃ top, op.timerOp = some top ∧ s.timers.Allowed top ∧
      s.timers.step top = some (s'.timers, out.returnedEvents)) ∨
    (op.timerOp = none ∧ s'.timers = s.timers) := by
  cases op with
  | fdOpenTimeout token d =>
    obtain ⟨⟨t, ev⟩, hstep, heq⟩ := Option.map_eq_some'.mp (by simpa only [MioDriver.step] using h)
    cases heq
    obtain ⟨-, rfl⟩ := Timers.step_fdOpen hstep
    exact .inl ⟨_, rfl, ha.1, hstep⟩
  | fdOpen handle => cases h; exact .inr ⟨rfl, rfl⟩
  | register handle i now answer | reregister handle i now answer =>
    obtain ⟨⟨s'', r⟩, hreg, heq⟩ := Option.map_eq_some'.mp h
    cases heq
    obtain ⟨m, -, hd⟩ := Option.bind_eq_some.mp hreg
    rcases dispatch_timers hd (fun _ _ => nofun) with ⟨hdesc, -, hstep⟩ | ⟨hdesc, hts⟩
    · exact .inl ⟨_, by simp [PollerOp.timerOp, hdesc], ha hdesc, hstep⟩
    · exact .inr ⟨by simp [PollerOp.timerOp, hdesc], hts⟩
  | deregister handle answer =>
    obtain ⟨⟨s'', r⟩, hd, heq⟩ := Option.map_eq_some'.mp h
    cases heq
    rcases dispatch_timers hd (fun _ _ => nofun) with ⟨hdesc, -, hstep⟩ | ⟨hdesc, hts⟩
    · exact .inl ⟨.deregister handle.token, by simp [PollerOp.timerOp, hdesc], trivial, hstep⟩
    · exact .inr ⟨by simp [PollerOp.timerOp, hdesc], hts⟩
  | pollOnce now wait =>
    obtain ⟨r, hp, heq⟩ := Option.map_eq_some'.mp h
    cases heq
    refine .inl ⟨_, rfl, ⟨ha.1, fun evs hw e he => hs.timeouts_none (ha.2 evs hw e he)⟩, ?_⟩
    simp only [Timers.step, hp, Option.map_some']
    rfl

/-- **The full poller refines the timers machine.** Along every run of the full poller from a
reachable state, its timer operations and polls, with the events each returned, are a run of
the timers machine, from the timers it started with to those it ends with. -/
theorem Run.timers {s s' : MioDriver} {log : List (PollerOp × PollerOut)} (hs : Reachable s)
    (hr : Run s log s') : Timers.Run s.timers (timerLog log) s'.timers := by
  induction hr with
  | nil => exact .nil _
  | @cons s s₁ s₂ op out log ha hstep _ ih =>
    have ih := ih (hs.step ha hstep)
    rcases step_timers hs.separated ha hstep with ⟨top, hop, hta, hts⟩ | ⟨hop, hts⟩
    · simpa [timerLog, hop] using Timers.Run.cons hta hts ih
    · simpa [timerLog, hop, hts] using ih

theorem Reachable.timers_reachable {s : MioDriver} (hs : Reachable s) :
    Timers.Reachable s.timers := by
  induction hs with
  | init now => exact .init now
  | step hs ha h ih =>
    rcases step_timers hs.separated ha h with ⟨top, -, hta, hts⟩ | ⟨-, hts⟩
    · exact .step ih hta hts
    · rwa [hts]

/-! ## Where the events of `poll_once` come from -/

/-- **Every event names a handle the poller serves.** From every reachable state, each event an
allowed `poll_once` returns names a socket that the driver holds and `mio` has registered, or an
armed `Timeout` handle, reported `Readable`: the token of a `mio` event comes back as it was
registered, and the wheel hands over only the tokens of timers armed and not dropped since. -/
theorem pollOnce_routes {s s' : MioDriver} {now : Instant} {wait : Except IoError (List MioEvent)}
    {evs : List (Token × Interest)} (hs : Reachable s) (ha : s.Allowed (.pollOnce now wait))
    (h : s.step (.pollOnce now wait) = some (s', .events (.ok evs))) :
    ∀ x ∈ evs, (∃ d, s.handles x.1 = some d ∧ d.isSocket ∧ (s.registry x.1).isSome) ∨
      (x.2 = Interest.readableOnly ∧ ∃ t, s.timers.timeouts x.1 = some t ∧ t.isRegister) := by
  obtain ⟨⟨res, p⟩, hp, heq⟩ := Option.map_eq_some'.mp h
  cases heq
  rcases BasicMioPoller.pollOnce_eq_some hp with ⟨e, -, h, -⟩ | ⟨osEvs, ticks, rfl, -, -, hres, -⟩
  · cases h
  cases hres
  intro x hx
  rcases List.mem_append.mp hx with hx | hx
  · obtain ⟨e, he, rfl⟩ := List.mem_map.mp hx
    have hreg := ha.2 osEvs rfl e he
    obtain ⟨d, hd, hsock⟩ := hs.separated.registered_socket e.token hreg
    exact .inl ⟨d, hd, hsock, hreg⟩
  · obtain ⟨u, hu, rfl⟩ := List.mem_map.mp hx
    have hpos := List.count_pos_iff.mpr hu
    rw [tickLoop_count, List.countP_pos_iff] at hpos
    obtain ⟨e, he, -⟩ := hpos
    have ht := hs.timers_reachable
    obtain ⟨t, htu, hslot⟩ := ht.slotsRecorded.in_slot u e he
    have hstart := (ht.startsRecorded.start_iff_slot u t htu).mpr (by rw [hslot]; rfl)
    exact .inr ⟨rfl, t, htu, by simp [MioTimeout.isRegister, hstart, hslot]⟩

/-! ## A deregistered socket stays silent -/

/-- A handle the driver holds that neither `mio` nor the timers know of. -/
def Unwatched (s : MioDriver) (token : Token) : Prop :=
  (s.handles token).isSome ∧ s.registry token = none ∧ s.timers.timeouts token = none

theorem afterCall_none {registry : Token → Option Interest} {token u : Token}
    {entry : Option Interest} (answer : Except IoError Unit) (hu : registry u = none)
    (he : token = u → entry = none) : afterCall registry token entry answer u = none := by
  cases answer with
  | error _ => exact hu
  | ok _ =>
    by_cases h : u = token
    · subst h; simp [afterCall, he rfl]
    · simp [afterCall, Function.update_noteq h, hu]

theorem Unwatched.dispatch {s s' : MioDriver} {token : Token} {handle : Handle}
    {entry : Option Interest} {timer : TimerOp} {answer r : Except IoError Unit}
    (hu : Unwatched s token) (h : s.dispatch handle entry timer answer = some (s', r))
    (htimer : ∀ u d, timer ≠ .fdOpen u d) (he : handle.token = token → entry = none) :
    Unwatched s' token := by
  obtain ⟨hheld, hreg, hto⟩ := hu
  rcases dispatch_eq_some h with ⟨-, -, -, rfl⟩ | ⟨-, -, t, out, hstep, rfl⟩ | ⟨-, rfl, -⟩
  · exact ⟨hheld, afterCall_none answer hreg he, hto⟩
  · exact ⟨hheld, hreg, Timers.step_timeouts_none hstep htimer hto⟩
  · exact ⟨hheld, hreg, hto⟩

/-- A step that registers nothing under `token` keeps it unwatched. -/
theorem Unwatched.step {s s' : MioDriver} {token : Token} {op : PollerOp} {out : PollerOut}
    (hu : Unwatched s token) (ha : s.Allowed op) (h : s.step op = some (s', out))
    (hno : ¬ op.Registers token) : Unwatched s' token := by
  obtain ⟨hheld, hreg, hto⟩ := hu
  cases op with
  | fdOpenTimeout u d =>
    obtain ⟨⟨t, ev⟩, hstep, heq⟩ := Option.map_eq_some'.mp (by simpa only [MioDriver.step] using h)
    cases heq
    obtain ⟨rfl, -⟩ := Timers.step_fdOpen hstep
    have hne : token ≠ u := fun e => by subst e; rw [ha.2] at hheld; cases hheld
    exact ⟨hheld, hreg, by simpa [Function.update_noteq hne] using hto⟩
  | fdOpen handle =>
    cases h
    have hne : token ≠ handle.token := fun e => by subst e; rw [ha.2.2] at hheld; cases hheld
    exact ⟨by simpa [Function.update_noteq hne] using hheld, hreg, hto⟩
  | register handle i now answer | reregister handle i now answer =>
    obtain ⟨⟨s'', r⟩, hreg', heq⟩ := Option.map_eq_some'.mp h
    cases heq
    obtain ⟨m, -, hd⟩ := Option.bind_eq_some.mp hreg'
    exact Unwatched.dispatch ⟨hheld, hreg, hto⟩ hd (fun _ _ => nofun) (fun e => absurd e hno)
  | deregister handle answer =>
    obtain ⟨⟨s'', r⟩, hd, heq⟩ := Option.map_eq_some'.mp h
    cases heq
    exact Unwatched.dispatch ⟨hheld, hreg, hto⟩ hd (fun _ _ => nofun) (fun _ => rfl)
  | pollOnce now wait =>
    obtain ⟨r, -, heq⟩ := Option.map_eq_some'.mp h
    cases heq
    exact ⟨hheld, hreg, hto⟩

/-- Only `poll_once` returns events. -/
theorem step_returnedEvents {s s' : MioDriver} {op : PollerOp} {out : PollerOut}
    (h : s.step op = some (s', out)) (hop : ∀ now wait, op ≠ .pollOnce now wait) :
    out.returnedEvents = [] := by
  cases op with
  | pollOnce now wait => exact absurd rfl (hop now wait)
  | fdOpen handle => cases h; rfl
  | _ =>
    simp only [MioDriver.step, Option.map_eq_some'] at h
    obtain ⟨r, -, heq⟩ := h
    cases heq; rfl

/-- A poll never reports an unwatched handle. -/
theorem Unwatched.not_reported {s s' : MioDriver} {token : Token} {now : Instant}
    {wait : Except IoError (List MioEvent)} {out : PollerOut} (hs : Reachable s)
    (hu : Unwatched s token) (ha : s.Allowed (.pollOnce now wait))
    (h : s.step (.pollOnce now wait) = some (s', out)) :
    token ∉ out.returnedEvents.map Prod.fst := by
  intro hmem
  obtain ⟨x, hx, hxt⟩ := List.mem_map.mp hmem
  rcases out with _ | _ | ⟨_ | evs⟩ <;> simp only [PollerOut.returnedEvents, pollEvents,
    List.not_mem_nil] at hx
  rcases pollOnce_routes hs ha h x hx with ⟨d, -, -, hreg⟩ | ⟨-, t, ht, -⟩
  · rw [hxt, hu.2.1] at hreg; cases hreg
  · rw [hxt, hu.2.2] at ht; cases ht

theorem Run.unwatched_silent {s s' : MioDriver} {log : List (PollerOp × PollerOut)}
    {token : Token} (hs : Reachable s) (hr : Run s log s') (hu : Unwatched s token)
    (hno : ∀ x ∈ log, ¬ x.1.Registers token) :
    ∀ x ∈ log, token ∉ x.2.returnedEvents.map Prod.fst := by
  induction hr with
  | nil => exact fun _ h => (nomatch h)
  | @cons s s₁ s₂ op out log ha hstep _ ih =>
    intro x hx
    rcases List.mem_cons.mp hx with rfl | hx
    · cases op with
      | pollOnce now wait => exact hu.not_reported hs ha hstep
      | _ => rw [step_returnedEvents hstep nofun]; exact List.not_mem_nil _
    · exact ih (hs.step ha hstep) (hu.step ha hstep (hno _ (List.mem_cons_self _ _)))
        (fun y hy => hno y (List.mem_cons_of_mem _ hy)) x hx

/-- **A deregistered socket is never reported.** Once `deregister` of a socket succeeds, no poll
reports the socket's token until a `register` or `reregister` names it again: `mio` no longer
holds it, and the wheel never did. -/
theorem deregistered_socket_silent {s s₁ s₂ : MioDriver} {handle : Handle} {out : PollerOut}
    {log : List (PollerOp × PollerOut)} (hs : Reachable s) (hsock : handle.desc.isSocket)
    (h : s.step (.deregister handle (.ok ())) = some (s₁, out)) (hr : Run s₁ log s₂)
    (hno : ∀ x ∈ log, ¬ x.1.Registers handle.token) :
    ∀ x ∈ log, handle.token ∉ x.2.returnedEvents.map Prod.fst := by
  obtain ⟨⟨s', r⟩, hd, heq⟩ := Option.map_eq_some'.mp h
  cases heq
  rcases dispatch_eq_some hd with ⟨-, hheld, -, rfl⟩ | ⟨hdesc, -⟩ | ⟨hdesc, -⟩
  · have hs₁ : Reachable _ := hs.step (show s.Allowed (.deregister handle (.ok ())) from trivial) h
    refine Run.unwatched_silent hs₁ hr ⟨by rw [hheld]; rfl, ?_, ?_⟩ hno
    · simp [afterCall]
    · exact hs.separated.disjoint _ (by rw [hheld]; rfl)
  all_goals rw [hdesc] at hsock; cases hsock

/-! ## A registered timeout is reported once, a deregistered one never

Through the refinement, the results on the timers machine's runs hold of the full poller: the
polls of a run hand a `Timeout` handle's token over as the timers machine's polls do. -/

/-- The tokens the polls of a run returned, in order. -/
def reported (log : List (PollerOp × PollerOut)) : List Token :=
  log.flatMap fun x => x.2.returnedEvents.map Prod.fst

/-- Along a run, the timers' log hands over what the full poller's polls returned. -/
theorem Run.emitted_timerLog {s s' : MioDriver} {log : List (PollerOp × PollerOut)}
    (hr : Run s log s') : Timers.emitted (timerLog log) = reported log := by
  induction hr with
  | nil => rfl
  | @cons s s₁ s₂ op out log _ hstep _ ih =>
    have hcons : reported ((op, out) :: log) = out.returnedEvents.map Prod.fst ++ reported log :=
      rfl
    rw [hcons, ← ih]
    cases hop : op.timerOp with
    | none =>
      have hnp : ∀ now wait, op ≠ .pollOnce now wait := fun _ _ h => by subst h; cases hop
      rw [step_returnedEvents hstep hnp]
      simp [timerLog, hop]
    | some top => simp [timerLog, hop, Timers.emitted]

/-- Where an entry of the timers' log comes from: an operation of the full poller's log that
registers the token it arms, and deregisters the `Timeout` handle of the token it deregisters. -/
theorem mem_timerLog {log : List (PollerOp × PollerOut)} {x : TimerOp × List (Token × Interest)}
    (hx : x ∈ timerLog log) : ∃ y ∈ log, (∀ token, x.1.Arms token → y.1.Registers token) ∧
      ∀ token, x.1 = .deregister token → ∃ a, y.1 = .deregister ⟨.timeout, token⟩ a := by
  obtain ⟨⟨op, out⟩, hy, hxy⟩ := List.mem_filterMap.mp hx
  obtain ⟨top, htop, rfl⟩ := Option.map_eq_some'.mp hxy
  refine ⟨_, hy, ?_⟩
  cases op with
  | fdOpenTimeout u d => cases htop; exact ⟨fun _ => nofun, fun _ => nofun⟩
  | fdOpen _ => cases htop
  | register h i now a | reregister h i now a =>
    by_cases hd : h.desc = .timeout
    · simp only [PollerOp.timerOp, if_pos hd, Option.some.injEq] at htop
      subst htop
      exact ⟨fun _ h => h, fun _ => nofun⟩
    · simp [PollerOp.timerOp, hd] at htop
  | deregister h a =>
    by_cases hd : h.desc = .timeout
    · simp only [PollerOp.timerOp, if_pos hd, Option.some.injEq] at htop
      subst htop
      refine ⟨fun _ => nofun, fun token he => ⟨a, ?_⟩⟩
      obtain ⟨desc, u⟩ := h
      cases he
      cases hd
      rfl
    · simp [PollerOp.timerOp, hd] at htop
  | pollOnce now wait => cases htop; exact ⟨fun _ => nofun, fun _ => nofun⟩

/-- A log that registers nothing under `token` and does not deregister its `Timeout` handle gives
the timers a log that neither arms nor deregisters `token`. -/
theorem timerLog_avoids {log : List (PollerOp × PollerOut)} {token : Token}
    (hno : ∀ x ∈ log, ¬ x.1.Registers token ∧ ∀ a, x.1 ≠ .deregister ⟨.timeout, token⟩ a) :
    ∀ x ∈ timerLog log, ¬ x.1.Arms token ∧ x.1 ≠ .deregister token := fun x hx => by
  obtain ⟨y, hy, harm, hdereg⟩ := mem_timerLog hx
  refine ⟨fun h => (hno y hy).1 (harm _ h), fun h => ?_⟩
  obtain ⟨a, ha⟩ := hdereg _ h
  exact (hno y hy).2 a ha

/-- **A registered `Timeout` is reported exactly once.** Let `register` or `reregister` of a
`Timeout` handle of duration `d` succeed while the wheel stands at tick `W`, and
`k = duration_to_ticks(d, tick, true)`. Until the handle is registered again or deregistered, a
run that ends with a `poll_once` whose OS wait succeeds at `p ≥ c + (W + k + 1) · tick`, with `c`
the wheel's creation, has reported the handle's token exactly once. The bound has a tick to
spare: the model's wheel hands the entry of `add(k)` over at its `k`-th tick, and the bound also
covers a `timewheel::TimeWheel` that hands it over one tick later. -/
theorem timeout_fires_once {s s₁ s₂ s₃ : MioDriver} {op : PollerOp} {token : Token}
    {interests : Interest} {r : Instant} {answer : Except IoError Unit} {out₁ : PollerOut}
    {log : List (PollerOp × PollerOut)} {p : Instant} {evs : List MioEvent} {out : PollerOut}
    (hs : Reachable s)
    (hop : op = .register ⟨.timeout, token⟩ interests r answer ∨
      op = .reregister ⟨.timeout, token⟩ interests r answer)
    (ha : s.Allowed op) (h : s.step op = some (s₁, out₁)) (hr : Run s₁ log s₂)
    (hno : ∀ x ∈ log, ¬ x.1.Registers token ∧ ∀ a, x.1 ≠ .deregister ⟨.timeout, token⟩ a)
    (hpa : s₂.Allowed (.pollOnce p (.ok evs)))
    (hpoll : s₂.step (.pollOnce p (.ok evs)) = some (s₃, out)) :
    ∃ t k, s.timers.timeouts token = some t ∧
      durationToTicks t.duration s.timers.poller.tickDuration true = some k ∧
      (s.timers.poller.timeWheel.lastTick.nanos +
          (s.timers.poller.wheel.tick + k + 1) * s.timers.poller.tickDuration.asNanos ≤ p.nanos →
        (reported (log ++ [(.pollOnce p (.ok evs), out)])).count token = 1) := by
  have hs₁ := hs.step ha h
  have hs₂ := hs₁.run hr
  obtain ⟨top, htop, hta, hts⟩ | ⟨htop, -⟩ := step_timers hs.separated ha h
  · have harm : top = .register token r ∨ top = .reregister token r := by
      rcases hop with rfl | rfl <;> simp [PollerOp.timerOp] at htop <;> simp [htop]
    obtain ⟨tp, htp, htpa, htps⟩ | ⟨htp, -⟩ := step_timers hs₂.separated hpa hpoll
    · cases htp
      obtain ⟨t, k, ht, hk, hfire⟩ := Timers.armed_timer_fires_once hs.timers_reachable harm hta
        hts (Run.timers hs₁ hr) (timerLog_avoids hno) htpa htps
      refine ⟨t, k, ht, hk, fun hdue => ?_⟩
      have hspare := Nat.mul_le_mul_right s.timers.poller.tickDuration.asNanos
        (Nat.le_add_right (s.timers.poller.wheel.tick + k) 1)
      have heq : reported (log ++ [(.pollOnce p (.ok evs), out)]) =
          Timers.emitted (timerLog log ++ [(.pollOnce p (.ok evs), out.returnedEvents)]) := by
        simp only [reported, Timers.emitted, List.flatMap_append]
        rw [← reported, ← Timers.emitted, hr.emitted_timerLog]
        rfl
      rw [heq]
      exact hfire (by omega)
    · cases htp
  · rcases hop with rfl | rfl <;> simp [PollerOp.timerOp] at htop

theorem timeout_fires_once_fresh : ∃ s s₁ s₂,
    (init (Timers.atMillis 0 (by decide))).step
        (.fdOpenTimeout ⟨7⟩ (Duration.fromMillis 1 (by decide))) = some (s, .opened) ∧
      s.step (.register ⟨.timeout, ⟨7⟩⟩ ⟨true, false⟩ (Timers.atMillis 0 (by decide)) (.ok ())) =
        some (s₁, .done (.ok ())) ∧
      s₁.step (.pollOnce (Timers.atMillis 2 (by decide)) (.ok [])) =
        some (s₂, .events (.ok [(⟨7⟩, Interest.readableOnly)])) ∧
      (reported [(.pollOnce (Timers.atMillis 2 (by decide)) (.ok []),
        .events (.ok [(⟨7⟩, Interest.readableOnly)]))]).count ⟨7⟩ = 1 := by
  have h₀ : (init (Timers.atMillis 0 (by decide))).step
      (.fdOpenTimeout ⟨7⟩ (Duration.fromMillis 1 (by decide))) = some (_, .opened) := rfl
  obtain ⟨t, k, ht, hk, hfire⟩ :=
    @timeout_fires_once _ _ _ _ _ ⟨7⟩ ⟨true, false⟩ (Timers.atMillis 0 (by decide)) (.ok ()) _ []
      (Timers.atMillis 2 (by decide)) [] _ (.step (.init _) (by exact ⟨rfl, rfl⟩) h₀) (.inl rfl)
      (fun _ => ⟨by decide, fun t ht => by cases ht; rfl⟩) rfl (.nil _) (fun _ h => (nomatch h))
      ⟨by decide, fun _ h _ he => by cases h; cases he⟩ rfl
  cases ht
  exact ⟨_, _, _, h₀, rfl, rfl, hfire (by rw [Option.some.inj (hk.symm.trans rfl)]; decide)⟩

/-- **A deregistered `Timeout` is never reported.** Once `deregister` of a `Timeout` handle
succeeds, no poll reports its token until a `register` or `reregister` names it again: the
`Timeout` arm removes its entry from the slot its `MioTimeout` records. -/
theorem deregistered_timeout_silent {s s₁ s₂ : MioDriver} {token : Token}
    {answer : Except IoError Unit} {out : PollerOut} {log : List (PollerOp × PollerOut)}
    (hs : Reachable s) (h : s.step (.deregister ⟨.timeout, token⟩ answer) = some (s₁, out))
    (hr : Run s₁ log s₂) (hno : ∀ x ∈ log, ¬ x.1.Registers token) : token ∉ reported log := by
  have ha : s.Allowed (.deregister ⟨.timeout, token⟩ answer) := trivial
  have hs₁ := hs.step ha h
  obtain ⟨top, htop, -, hts⟩ | ⟨htop, -⟩ := step_timers hs.separated ha h
  · simp [PollerOp.timerOp] at htop
    subst htop
    obtain ⟨t, ht, hp, hts', -⟩ := Timers.step_deregister hts
    have hempty : s₁.timers.poller.wheel.of token = [] := by
      rw [hp, BasicMioPoller.wheel_withWheel]
      refine BasicMioPoller.of_removeSlot_self _ _ _ fun e he => ?_
      obtain ⟨t', ht', hslot⟩ := hs.timers_reachable.slotsRecorded.in_slot token e he
      rw [ht] at ht'
      cases ht'
      exact hslot
    have hle := Timers.Run.count_emitted_le hs₁.timers_reachable (Run.timers hs₁ hr)
      (fun x hx hx' => by obtain ⟨y, hy, harm, -⟩ := mem_timerLog hx; exact hno y hy (harm _ hx'))
      (by rw [hts', ht]; rfl)
    rw [hempty, hr.emitted_timerLog, List.length_nil] at hle
    exact List.count_eq_zero.mp (by omega)
  · simp [PollerOp.timerOp] at htop

theorem deregistered_timeout_silent_fresh : ∃ s s₁ s₂, Reachable s ∧
    s.step (.deregister ⟨.timeout, ⟨7⟩⟩ (.ok ())) = some (s₁, .done (.ok ())) ∧
    Run s₁ [(.pollOnce (Timers.atMillis 1 (by decide)) (.ok []), .events (.ok []))] s₂ ∧
    (⟨7⟩ : Token) ∉
      reported [(.pollOnce (Timers.atMillis 1 (by decide)) (.ok []), .events (.ok []))] := by
  have h₀ : (init (Timers.atMillis 0 (by decide))).step
      (.fdOpenTimeout ⟨7⟩ (Duration.fromMillis 1 (by decide))) = some (_, .opened) := rfl
  have hs := @Reachable.step _
    (.register ⟨.timeout, ⟨7⟩⟩ ⟨true, false⟩ (Timers.atMillis 0 (by decide)) (.ok ())) _
    (.step (.init _) (by exact ⟨rfl, rfl⟩) h₀) (fun _ => ⟨by decide, fun t ht => by cases ht; rfl⟩)
    rfl
  exact ⟨_, _, _, hs, rfl, .cons ⟨by decide, fun _ h _ he => by cases h; cases he⟩ rfl (.nil _),
    @deregistered_timeout_silent _ _ _ ⟨7⟩ (.ok ()) _ _ hs rfl
      (.cons ⟨by decide, fun _ h _ he => by cases h; cases he⟩ rfl (.nil _))
      (by simp [PollerOp.Registers])⟩

/-! ## A socket and a timer -/

/-- A fresh poller at 0 ms: a `TcpStream` handle, token 3, registered for both interests, and a
1 ms `Timeout` handle, token 7, registered, with what each operation returns. -/
def socketAndTimer : List (PollerOp × PollerOut) :=
  [(.fdOpen ⟨.tcpStream, ⟨3⟩⟩, .opened),
   (.register ⟨.tcpStream, ⟨3⟩⟩ ⟨true, true⟩ (Timers.atMillis 0 (by decide)) (.ok ()), .done (.ok ())),
   (.fdOpenTimeout ⟨7⟩ (Duration.fromMillis 1 (by decide)), .opened),
   (.register ⟨.timeout, ⟨7⟩⟩ ⟨true, false⟩ (Timers.atMillis 0 (by decide)) (.ok ()), .done (.ok ()))]

/-- After it, a poll at 1 ms whose OS wait reports token 3 readable returns that event and the
timer's; a `deregister` of the socket instead, then the same poll with no OS event, returns the
timer's alone. -/
theorem socketAndTimer_run : ∃ s s' s₁ s₂,
    Run (init (Timers.atMillis 0 (by decide))) socketAndTimer s ∧
    s.Allowed (.pollOnce (Timers.atMillis 1 (by decide)) (.ok [⟨⟨3⟩, true, false⟩])) ∧
    s.step (.pollOnce (Timers.atMillis 1 (by decide)) (.ok [⟨⟨3⟩, true, false⟩])) =
      some (s', .events (.ok [(⟨3⟩, ⟨true, false⟩), (⟨7⟩, Interest.readableOnly)])) ∧
    s.step (.deregister ⟨.tcpStream, ⟨3⟩⟩ (.ok ())) = some (s₁, .done (.ok ())) ∧
    Run s₁ [(.pollOnce (Timers.atMillis 1 (by decide)) (.ok []),
      .events (.ok [(⟨7⟩, Interest.readableOnly)]))] s₂ :=
  ⟨_, _, _, _, .cons ⟨by decide, rfl, rfl⟩ rfl (.cons (fun h => nomatch h) rfl
    (.cons ⟨rfl, rfl⟩ rfl (.cons (fun _ => ⟨by decide, fun t ht => by cases ht; rfl⟩) rfl
      (.nil _)))), ⟨by decide, fun evs h e he => by
        cases h; simp only [List.mem_singleton] at he; subst he; rfl⟩, rfl, rfl,
    .cons ⟨by decide, fun _ h _ he => by cases h; cases he⟩ rfl (.nil _)⟩

theorem timers_of_socketAndTimer : ∃ s,
    Run (init (Timers.atMillis 0 (by decide))) socketAndTimer s ∧
    Timers.Run (Timers.init (Timers.atMillis 0 (by decide))) (timerLog socketAndTimer) s.timers := by
  obtain ⟨s, -, -, -, hr, -⟩ := socketAndTimer_run
  exact ⟨s, hr, Run.timers (.init _) hr⟩

theorem pollOnce_routes_socketAndTimer : ∃ s s', Reachable s ∧
    s.step (.pollOnce (Timers.atMillis 1 (by decide)) (.ok [⟨⟨3⟩, true, false⟩])) =
      some (s', .events (.ok [(⟨3⟩, ⟨true, false⟩), (⟨7⟩, Interest.readableOnly)])) ∧
    ∀ x ∈ [((⟨3⟩ : Token), (⟨true, false⟩ : Interest)), (⟨7⟩, Interest.readableOnly)],
      (∃ d, s.handles x.1 = some d ∧ d.isSocket ∧ (s.registry x.1).isSome) ∨
      (x.2 = Interest.readableOnly ∧ ∃ t, s.timers.timeouts x.1 = some t ∧ t.isRegister) := by
  obtain ⟨s, s', -, -, hr, ha, hstep, -⟩ := socketAndTimer_run
  have hs := (Reachable.init _).run hr
  exact ⟨s, s', hs, hstep, pollOnce_routes hs ha hstep⟩

theorem deregistered_socket_silent_socketAndTimer : ∃ s s₁ s₂, Reachable s ∧
    s.step (.deregister ⟨.tcpStream, ⟨3⟩⟩ (.ok ())) = some (s₁, .done (.ok ())) ∧
    Run s₁ [(.pollOnce (Timers.atMillis 1 (by decide)) (.ok []),
      .events (.ok [(⟨7⟩, Interest.readableOnly)]))] s₂ ∧
    ∀ x ∈ [((PollerOp.pollOnce (Timers.atMillis 1 (by decide)) (.ok [])),
      PollerOut.events (.ok [(⟨7⟩, Interest.readableOnly)]))],
      (⟨3⟩ : Token) ∉ x.2.returnedEvents.map Prod.fst := by
  obtain ⟨s, -, s₁, s₂, hr, -, -, hd, hr₁⟩ := socketAndTimer_run
  have hs := (Reachable.init _).run hr
  exact ⟨s, s₁, s₂, hs, hd, hr₁,
    @deregistered_socket_silent _ _ _ ⟨.tcpStream, ⟨3⟩⟩ _ _ hs rfl hd hr₁
      (by simp [PollerOp.Registers])⟩

end MioDriver

end HalaIo
