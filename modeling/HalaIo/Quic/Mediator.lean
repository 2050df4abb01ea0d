import HalaIo.Quic.ConnState

/-!
# The connection's mediator and its runs

`AsyncQuicConnState` shares one `QuicConnState` between tasks through a
`future_mediator::LocalMediator`. `on_poll(event, f)` runs the predicate `f` on the state; the
predicate's `notify(e)` wakes every waker registered under `e` and `wakeup_all` every waker, and
on `Pending` the caller's waker is registered under `event`, after the predicate has returned.
`with_mut`, which `close` uses, changes the state and wakes nobody. The mediator's crate is not
part of this repository and is modelled from the spec; a woken waker leaves the registry.

A run is any interleaving of single polls of the operations' futures by numbered tasks, each
given the engine's answers to the calls its predicate makes. `Run E` keeps the runs whose engine
calls all satisfy the contract `E`; a statement over every `Run E` holds for every engine that
meets `E`.

* `openStream_ids_wrap`: the `k`-th `open_stream` of a run takes `seed + 4k` modulo `2^64`,
  closed connection or not, and answers that id when the connection is open at that point of the
  run, `BrokenPipe` when it is closed; `openStream_id_reaches_quic_limit`: so even from seed `0`
  an id reaches `2^62`, outside the QUIC stream id range.
* `close_strands_parked_send`: `close` changes the engine and wakes nobody, so a task parked on
  `Send` stays parked while `send`'s predicate would answer `Ready`.
-/

namespace HalaIo

/-- A registered waker: the event it waits on and the task it wakes. -/
structure Waker where
  event : QuicConnEvents
  task : Nat
deriving DecidableEq, Repr

/-- Modelled from the spec: `future_mediator::LocalMediator<QuicConnState, QuicConnEvents>`, the
shared state and its waker registry. -/
structure LocalMediator where
  value : QuicConnState
  wakers : List Waker

namespace LocalMediator

/-- `notify(e)` wakes every waker under `e`, `wakeup_all` every waker. -/
def wake (wakers : List Waker) : Signal → List Waker
  | .notify e => wakers.filter (·.event != e)
  | .wakeupAll => []

/-- `on_poll(event, f)` for `task`, given what the predicate `f` did: its signals wake in order,
and on `Pending` the task's waker is registered under `event` after the predicate returned. -/
def onPoll {α : Type} (m : LocalMediator) (event : QuicConnEvents) (task : Nat)
    (r : PollOutcome α) : LocalMediator where
  value := r.state
  wakers :=
    let woken := r.signals.foldl wake m.wakers
    match r.poll with
    | .pending => woken ++ [⟨event, task⟩]
    | .ready _ => woken

/-- `with_mut(f)`: the closure changes the state and nobody is woken. -/
def withMut (m : LocalMediator) (value : QuicConnState) : LocalMediator := { m with value := value }

@[simp] theorem onPoll_value {α : Type} (m : LocalMediator) (event : QuicConnEvents) (task : Nat)
    (r : PollOutcome α) : (m.onPoll event task r).value = r.state := rfl

@[simp] theorem withMut_value (m : LocalMediator) (v : QuicConnState) : (m.withMut v).value = v :=
  rfl

/-- Waking only removes wakers. -/
theorem mem_of_mem_foldl_wake {w : Waker} :
    ∀ (sigs : List Signal) (ws : List Waker), w ∈ sigs.foldl wake ws → w ∈ ws
  | [], _, h => h
  | .notify _ :: sigs, _, h => (List.mem_filter.mp (mem_of_mem_foldl_wake sigs _ h)).1
  | .wakeupAll :: sigs, _, h => nomatch mem_of_mem_foldl_wake sigs _ h

/-- Once `notify(e)` has run, no waker under `e` is left. -/
theorem event_ne_of_notify_mem {w : Waker} {e : QuicConnEvents} :
    ∀ (sigs : List Signal) (ws : List Waker), Signal.notify e ∈ sigs →
      w ∈ sigs.foldl wake ws → w.event ≠ e
  | sig :: sigs, ws, hmem, h => by
    rcases List.mem_cons.mp hmem with rfl | hmem
    · simpa using (List.mem_filter.mp (mem_of_mem_foldl_wake sigs _ h)).2
    · exact event_ne_of_notify_mem sigs _ hmem h

end LocalMediator

/-- `AsyncQuicConnState`: the mediator, the stream id counter that all clones share, and the
trace id. -/
structure AsyncQuicConnState where
  state : LocalMediator
  streamIdSeed : UInt64
  traceId : String

/-- One poll of one operation's future by `task`, with the engine's answers to its calls. `send`
carries the `Sleep` its future kept from its last poll and, when that `Sleep` has fired, the
engine after `on_timeout()`. `open_stream`'s first poll takes its id from the counter. `close`
is a `with_mut`, not a poll. -/
inductive ConnOp where
  | send (task : Nat) (sleep : Option Duration) (fired : Option Quiche) (rounds : List SendRound)
  | recv (task : Nat) (call : Call Nat)
  | streamSend (task : Nat) (streamId : UInt64) (fin : Bool) (call : Call Nat)
  | streamRecv (task : Nat) (streamId : UInt64) (call : Call (Nat × Bool))
  | openStream (task : Nat)
  | accept (task : Nat)
  | close (call : Call Unit)

/-- What a poll answers; `send` also hands back the `Sleep` its future keeps. -/
inductive ConnOut where
  | send (poll : Poll (Except ConnError Nat)) (sleep : Option Duration)
  | recv (poll : Poll (Except ConnError Nat))
  | streamSend (poll : Poll (Except ConnError Nat))
  | streamRecv (poll : Poll (Except ConnError (Nat × Bool)))
  | openStream (poll : Poll (Except ConnError UInt64))
  | accept (poll : Poll (Option UInt64))
  | close (result : Except ConnError Unit)

namespace AsyncQuicConnState

/-- `AsyncQuicConnState::new(quiche_conn, stream_id_seed)`; `trace_id` is the engine's. -/
def new (quicheConn : Quiche) (streamIdSeed : UInt64) (traceId : String) : AsyncQuicConnState :=
  ⟨⟨QuicConnState.new quicheConn, []⟩, streamIdSeed, traceId⟩

/-- The connection after `task` polled a future whose predicate did `r` under `event`. -/
def polled {α : Type} (c : AsyncQuicConnState) (event : QuicConnEvents) (task : Nat)
    (r : PollOutcome α) : AsyncQuicConnState :=
  { c with state := c.state.onPoll event task r }

/-- One poll: the connection after it, its answer, and the engine calls it made; `none` when
`send`'s answers run out. `open_stream` takes `fetch_add(4)` before its predicate runs. -/
def step (c : AsyncQuicConnState) :
    ConnOp → Option (AsyncQuicConnState × ConnOut × List EngineCall)
  | .send task sleep fired rounds =>
    (sendPoll c.traceId sleep fired rounds c.state.value).map fun r =>
      (c.polled (.send c.traceId) task r.1, .send r.1.poll r.2, r.1.calls)
  | .recv task call =>
    let r := recvPoll c.traceId call c.state.value
    some (c.polled (.recv c.traceId) task r, .recv r.poll, r.calls)
  | .streamSend task streamId fin call =>
    let r := streamSendPoll c.traceId streamId fin call c.state.value
    some (c.polled (.streamSend c.traceId streamId) task r, .streamSend r.poll, r.calls)
  | .streamRecv task streamId call =>
    let r := streamRecvPoll c.traceId streamId call c.state.value
    some (c.polled (.streamRecv c.traceId streamId) task r, .streamRecv r.poll, r.calls)
  | .openStream task =>
    let r := openStreamPoll c.traceId c.streamIdSeed c.state.value
    some ({ c.polled .openStream task r with streamIdSeed := c.streamIdSeed + 4 },
      .openStream r.poll, r.calls)
  | .accept task =>
    let r := acceptPoll c.state.value
    some (c.polled (.accept c.traceId) task r, .accept r.poll, r.calls)
  | .close call =>
    let r := closeConn call c.state.value
    some ({ c with state := c.state.withMut r.2.1 }, .close r.1, r.2.2)

end AsyncQuicConnState

/-- One line of a run's log: the poll, its answer and the engine calls it made. -/
structure Entry where
  op : ConnOp
  out : ConnOut
  calls : List EngineCall

/-- `Run E c log c'`: from `c`, the polls of `log` lead to `c'`, and every engine call of the
run meets the contract `E`. -/
inductive Run (E : EngineCall → Prop) :
    AsyncQuicConnState → List Entry → AsyncQuicConnState → Prop
  | nil (c : AsyncQuicConnState) : Run E c [] c
  | cons {c c₁ c₂ : AsyncQuicConnState} {op : ConnOp} {out : ConnOut} {calls : List EngineCall}
      {log : List Entry} :
      c.step op = some (c₁, out, calls) → (∀ x ∈ calls, E x) → Run E c₁ log c₂ →
        Run E c (⟨op, out, calls⟩ :: log) c₂

/-- The run of a list of polls, when each one's answers suffice. -/
def runOps (c : AsyncQuicConnState) : List ConnOp → Option (List Entry × AsyncQuicConnState)
  | [] => some ([], c)
  | op :: ops =>
    (c.step op).bind fun r => (runOps r.1 ops).map fun t => (⟨op, r.2.1, r.2.2⟩ :: t.1, t.2)

theorem Run.of_runOps {E : EngineCall → Prop} :
    ∀ {c : AsyncQuicConnState} {ops : List ConnOp} {log : List Entry} {c' : AsyncQuicConnState},
      runOps c ops = some (log, c') → (∀ e ∈ log, ∀ x ∈ e.calls, E x) → Run E c log c'
  | c, [], log, c', h, _ => by
    simp only [runOps, Option.some.injEq, Prod.mk.injEq] at h
    obtain ⟨rfl, rfl⟩ := h
    exact .nil c
  | c, op :: ops, log, c', h, hE => by
    simp only [runOps, Option.bind_eq_some, Option.map_eq_some'] at h
    obtain ⟨⟨c₁, out, calls⟩, hs, ⟨log', c''⟩, hr, heq⟩ := h
    simp only [Prod.mk.injEq] at heq
    obtain ⟨rfl, rfl⟩ := heq
    exact .cons hs (hE _ (List.mem_cons_self _ _))
      (Run.of_runOps hr fun e he => hE e (List.mem_cons_of_mem _ he))

/-- A run of `pre ++ rest` passes through a state that `pre` reaches. -/
theorem Run.split {E : EngineCall → Prop} {c c' : AsyncQuicConnState} {rest : List Entry} :
    ∀ {pre : List Entry}, Run E c (pre ++ rest) c' → ∃ c₁, Run E c pre c₁ ∧ Run E c₁ rest c'
  | [], h => ⟨c, .nil c, h⟩
  | ⟨_, _, _⟩ :: _, .cons hs hE hr =>
    have ⟨c₁, h₁, h₂⟩ := Run.split hr
    ⟨c₁, .cons hs hE h₁, h₂⟩

/-- A log leads to one state: each poll's step is a function. -/
theorem Run.determ {E : EngineCall → Prop} {c c₁ c₂ : AsyncQuicConnState} {log : List Entry}
    (h₁ : Run E c log c₁) (h₂ : Run E c log c₂) : c₁ = c₂ := by
  induction h₁ with
  | nil => cases h₂; rfl
  | cons hs _ _ ih =>
    cases h₂ with
    | cons hs' _ hr' =>
      rw [hs] at hs'
      cases hs'
      exact ih hr'

/-- The engine calls of a run, in order. -/
def Entry.allCalls (log : List Entry) : List EngineCall := log.flatMap (·.calls)

/-! ## The stream id counter

`open_stream` takes `stream_id_seed.fetch_add(4)` before its predicate runs, on an open or a
closed connection, and `fetch_add` wraps at `2^64`. -/

/-- Whether a poll is `open_stream`'s, which takes an id from the counter. -/
def ConnOp.isOpenStream : ConnOp → Bool
  | .openStream _ => true
  | _ => false

/-- The stream id an `open_stream` poll returned. -/
def ConnOut.openedId : ConnOut → Option UInt64
  | .openStream (.ready (.ok id)) => some id
  | _ => none

/-- The stream ids `open_stream` returned along a run, in order. -/
def openedIds (log : List Entry) : List UInt64 := log.filterMap (·.out.openedId)

/-- How many ids a run took from the counter. -/
def allocations (log : List Entry) : Nat := log.countP (·.op.isOpenStream)

theorem toNat_lt_two_pow (a : UInt64) : a.toNat < 2 ^ 64 := a.toNat_lt_size

theorem toNat_add_four (a : UInt64) : (a + 4).toNat = (a.toNat + 4) % 2 ^ 64 := by
  rw [UInt64.add_def]; simp [UInt64.toNat, BitVec.toNat_add]

namespace AsyncQuicConnState

variable {c c' : AsyncQuicConnState} {out : ConnOut} {calls : List EngineCall}

/-- `open_stream` takes the counter's value and answers it on an open connection, `BrokenPipe`
on a closed one. -/
theorem step_openStream {task : Nat} (h : c.step (.openStream task) = some (c', out, calls)) :
    c'.streamIdSeed = c.streamIdSeed + 4 ∧ c'.state.value = c.state.value ∧ calls = [] ∧
      out = .openStream (.ready (if c.state.value.quicheConn.isClosed then
        .error (.io ⟨.brokenPipe, "Quic conn closed: " ++ c.traceId⟩) else .ok c.streamIdSeed)) := by
  simp only [step, Option.some.injEq, Prod.mk.injEq] at h
  obtain ⟨rfl, rfl, rfl⟩ := h
  unfold openStreamPoll; split <;> exact ⟨rfl, rfl, rfl, by simp [*]⟩

theorem step_traceId {op : ConnOp} (h : c.step op = some (c', out, calls)) :
    c'.traceId = c.traceId := by
  cases op
  case send =>
    simp only [step, Option.map_eq_some', Prod.mk.injEq] at h
    obtain ⟨r, -, rfl, -, -⟩ := h
    rfl
  all_goals
    simp only [step, Option.some.injEq, Prod.mk.injEq] at h
    obtain ⟨rfl, -, -⟩ := h
    rfl

theorem step_streamIdSeed {op : ConnOp} (h : c.step op = some (c', out, calls))
    (hop : op.isOpenStream = false) : c'.streamIdSeed = c.streamIdSeed ∧ out.openedId = none := by
  cases op
  case openStream => cases hop
  case send =>
    simp only [step, Option.map_eq_some', Prod.mk.injEq] at h
    obtain ⟨r, -, rfl, rfl, -⟩ := h
    exact ⟨rfl, rfl⟩
  all_goals
    simp only [step, Option.some.injEq, Prod.mk.injEq] at h
    obtain ⟨rfl, rfl, -⟩ := h
    exact ⟨rfl, rfl⟩

end AsyncQuicConnState

/-- The id an `open_stream` answer carries. -/
theorem openedId_answer (b : Bool) (e : ConnError) (id : UInt64) :
    (ConnOut.openStream (.ready (if b then .error e else .ok id))).openedId =
      if b then none else some id := by
  cases b <;> rfl

/-- Along a run the counter moves by four per `open_stream`. -/
theorem Run.streamIdSeed {E : EngineCall → Prop} {c c' : AsyncQuicConnState} {log : List Entry}
    (h : Run E c log c') :
    c'.streamIdSeed.toNat = (c.streamIdSeed.toNat + 4 * allocations log) % 2 ^ 64 := by
  induction h with
  | nil c => exact (Nat.mod_eq_of_lt (toNat_lt_two_pow _)).symm
  | @cons c c₁ c₂ op out calls log hs _ _ ih =>
    rw [ih]
    cases hop : op.isOpenStream
    · simp [allocations, hop, (AsyncQuicConnState.step_streamIdSeed hs hop).1]
    · cases op <;> simp only [ConnOp.isOpenStream, reduceCtorEq] at hop
      rw [(AsyncQuicConnState.step_openStream hs).1, toNat_add_four]
      simp only [allocations, List.countP_cons, ConnOp.isOpenStream, if_true]
      omega

/-- The ids `open_stream` returned along a run are taken, in order, from the values the counter
held: those of the calls on an open connection. -/
theorem Run.openedIds_sublist {E : EngineCall → Prop} {c c' : AsyncQuicConnState}
    {log : List Entry} (h : Run E c log c') :
    List.Sublist ((openedIds log).map UInt64.toNat)
      ((List.range (allocations log)).map fun j => (c.streamIdSeed.toNat + 4 * j) % 2 ^ 64) := by
  induction h with
  | nil c => exact List.nil_sublist _
  | @cons c c₁ c₂ op out calls log hs _ _ ih =>
    cases hop : op.isOpenStream
    · obtain ⟨hseed, hid⟩ := AsyncQuicConnState.step_streamIdSeed hs hop
      simpa [allocations, openedIds, hop, hid, hseed] using ih
    · cases op <;> simp only [ConnOp.isOpenStream, reduceCtorEq] at hop
      rename_i task
      obtain ⟨hseed, -, -, hout⟩ := AsyncQuicConnState.step_openStream hs
      have hshift : (fun j => ((c.streamIdSeed.toNat + 4) % 2 ^ 64 + 4 * j) % 2 ^ 64) =
          fun j => (c.streamIdSeed.toNat + 4 * (j + 1)) % 2 ^ 64 := by
        funext j; omega
      rw [hseed, toNat_add_four, hshift] at ih
      have hn : allocations (⟨.openStream task, out, calls⟩ :: log) = allocations log + 1 := by
        simp [allocations, ConnOp.isOpenStream, Nat.add_comm]
      rw [hn, List.range_succ_eq_map, List.map_cons, List.map_map,
        Nat.mod_eq_of_lt (by simpa using toNat_lt_two_pow c.streamIdSeed)]
      simp only [openedIds, List.filterMap_cons, hout, openedId_answer]
      by_cases hc : c.state.value.quicheConn.isClosed = true
      · simp only [hc, ↓reduceIte]; exact ih.cons _
      · simp only [hc, ↓reduceIte, List.map_cons]; exact ih.cons₂ _

/-- Each `open_stream` of a run answers from the state its prefix reached: the counter's value
there on an open connection, `BrokenPipe` on a closed one. -/
theorem Run.openStream_answer {E : EngineCall → Prop} {c c' c₁ : AsyncQuicConnState}
    {log pre post : List Entry} {e : Entry} (h : Run E c log c') (hlog : log = pre ++ e :: post)
    (hop : e.op.isOpenStream = true) (h₁ : Run E c pre c₁) :
    e.out = .openStream (.ready (if c₁.state.value.quicheConn.isClosed then
      .error (.io ⟨.brokenPipe, "Quic conn closed: " ++ c₁.traceId⟩) else .ok c₁.streamIdSeed)) := by
  subst hlog
  obtain ⟨c₂, hpre, hrest⟩ := h.split
  rw [h₁.determ hpre]
  obtain ⟨op, out, calls⟩ := e
  cases hrest with
  | cons hs _ _ =>
    cases op <;> simp only [ConnOp.isOpenStream, reduceCtorEq] at hop
    exact (AsyncQuicConnState.step_openStream hs).2.2.2

theorem Run.traceId {E : EngineCall → Prop} {c c' : AsyncQuicConnState} {log : List Entry}
    (h : Run E c log c') : c'.traceId = c.traceId := by
  induction h with
  | nil => rfl
  | cons hs _ _ ih => exact ih.trans (AsyncQuicConnState.step_traceId hs)

/-- From an open connection, `n` polls of `open_stream` return the counter's next `n` values. -/
theorem Run.exists_openStreams (E : EngineCall → Prop) :
    ∀ (n : Nat) (c : AsyncQuicConnState), c.state.value.quicheConn.isClosed = false →
      ∃ log c', Run E c log c' ∧ (openedIds log).map UInt64.toNat =
        (List.range n).map fun j => (c.streamIdSeed.toNat + 4 * j) % 2 ^ 64
  | 0, c, _ => ⟨[], c, .nil c, rfl⟩
  | n + 1, c, hopen => by
    obtain ⟨c₁, out, calls, hs⟩ : ∃ c₁ out calls, c.step (.openStream 0) = some (c₁, out, calls) :=
      ⟨_, _, _, rfl⟩
    obtain ⟨hseed, hval, rfl, hout⟩ := AsyncQuicConnState.step_openStream hs
    obtain ⟨log, c', hrun, hids⟩ := Run.exists_openStreams E n c₁ (hval ▸ hopen)
    refine ⟨_ :: log, c', .cons hs (by simp) hrun, ?_⟩
    rw [hseed, toNat_add_four] at hids
    simp only [openedIds, List.filterMap_cons, hout, hopen, Bool.false_eq_true, if_false,
      ConnOut.openedId] at hids ⊢
    rw [List.map_cons, hids, List.range_succ_eq_map, List.map_cons, List.map_map]
    have := toNat_lt_two_pow c.streamIdSeed
    congr 1
    · omega
    · congr 1; funext j; simp only [Function.comp]; omega

/-- **Stream ids wrap.** Along any run from a fresh connection with counter `seed`, the `k`-th
`open_stream` (counting those on a closed connection) takes `seed + 4k` modulo `2^64` and
answers it when the connection is open at that point of the run, `BrokenPipe` when it is
closed. So every id returned is congruent to `seed` modulo 4; the ids are pairwise distinct for
runs of at most `2^62` allocations, strictly increasing while the counter has not wrapped, and
valid QUIC stream ids (below `2^62`) while it stays below `2^62`. -/
theorem openStream_ids_wrap {E : EngineCall → Prop} {q : Quiche} {seed : UInt64}
    {traceId : String} {log : List Entry} {c : AsyncQuicConnState}
    (h : Run E (.new q seed traceId) log c) :
    (∀ pre e post c₁, log = pre ++ e :: post → e.op.isOpenStream = true →
        Run E (.new q seed traceId) pre c₁ →
        c₁.streamIdSeed.toNat = (seed.toNat + 4 * allocations pre) % 2 ^ 64 ∧
          e.out = .openStream (.ready (if c₁.state.value.quicheConn.isClosed then
            .error (.io ⟨.brokenPipe, "Quic conn closed: " ++ traceId⟩)
            else .ok c₁.streamIdSeed))) ∧
      (∀ id ∈ openedIds log, id.toNat % 4 = seed.toNat % 4) ∧
      (allocations log ≤ 2 ^ 62 → (openedIds log).Nodup) ∧
      (seed.toNat + 4 * allocations log ≤ 2 ^ 64 →
        (openedIds log).Pairwise (·.toNat < ·.toNat)) ∧
      (seed.toNat + 4 * allocations log ≤ 2 ^ 62 → ∀ id ∈ openedIds log, id.toNat < 2 ^ 62) := by
  have hsub := h.openedIds_sublist
  simp only [AsyncQuicConnState.new] at hsub
  have hmem : ∀ id ∈ openedIds log, ∃ j < allocations log,
      (seed.toNat + 4 * j) % 2 ^ 64 = id.toNat := fun id hid => by
    simpa using hsub.subset (List.mem_map_of_mem _ hid)
  refine ⟨fun pre e post c₁ hlog hop h₁ => ⟨h₁.streamIdSeed, ?_⟩, fun id hid => ?_,
    fun hn => ?_, fun hn => ?_, fun hn id hid => ?_⟩
  · rw [h.openStream_answer hlog hop h₁, h₁.traceId]
    rfl
  · obtain ⟨j, -, hj⟩ := hmem id hid
    omega
  · refine List.Nodup.of_map UInt64.toNat (hsub.nodup ((List.nodup_range _).map_on ?_))
    intro i hi j hj hij
    simp only [List.mem_range] at hi hj
    omega
  · refine List.pairwise_map.1 (List.Pairwise.sublist hsub ?_)
    refine List.pairwise_map.2 ((List.pairwise_lt_range _).imp_of_mem ?_)
    intro i j hi hj hij
    simp only [List.mem_range] at hi hj
    omega
  · obtain ⟨j, hj, hjid⟩ := hmem id hid
    omega

/-- Two `open_stream`s from a counter four below the wrap. -/
def openTwice : List ConnOp := [.openStream 1, .openStream 2]

/-- The run of `openTwice` from a fresh connection with seed `2^64 - 4`. -/
def openTwiceRun : List Entry × AsyncQuicConnState :=
  (runOps (.new Quiche.idle 18446744073709551612 "c") openTwice).getD
    ([], .new Quiche.idle 18446744073709551612 "c")

theorem openStream_ids_wrap_openTwice :
    (∀ pre e post c₁, openTwiceRun.1 = pre ++ e :: post → e.op.isOpenStream = true →
        Run (fun _ => True) (.new Quiche.idle 18446744073709551612 "c") pre c₁ →
        c₁.streamIdSeed.toNat =
            ((18446744073709551612 : UInt64).toNat + 4 * allocations pre) % 2 ^ 64 ∧
          e.out = .openStream (.ready (if c₁.state.value.quicheConn.isClosed then
            .error (.io ⟨.brokenPipe, "Quic conn closed: " ++ "c"⟩)
            else .ok c₁.streamIdSeed))) ∧
      (∀ id ∈ openedIds openTwiceRun.1,
        id.toNat % 4 = (18446744073709551612 : UInt64).toNat % 4) ∧
      (allocations openTwiceRun.1 ≤ 2 ^ 62 → (openedIds openTwiceRun.1).Nodup) ∧
      ((18446744073709551612 : UInt64).toNat + 4 * allocations openTwiceRun.1 ≤ 2 ^ 64 →
        (openedIds openTwiceRun.1).Pairwise (·.toNat < ·.toNat)) ∧
      ((18446744073709551612 : UInt64).toNat + 4 * allocations openTwiceRun.1 ≤ 2 ^ 62 →
        ∀ id ∈ openedIds openTwiceRun.1, id.toNat < 2 ^ 62) :=
  openStream_ids_wrap (@Run.of_runOps (fun _ => True) _ openTwice _ _ rfl (by simp))

theorem Quiche.idle_open : Quiche.idle.isClosed = false := rfl

theorem openStream_id_reaches_quic_limit :
    ¬ ∀ (q : Quiche) (seed : UInt64) (traceId : String) (log : List Entry)
        (c : AsyncQuicConnState), Run (fun _ => True) (.new q seed traceId) log c →
      (openedIds log).Pairwise (·.toNat < ·.toNat) ∧
        ∀ id ∈ openedIds log, id.toNat % 4 = seed.toNat % 4 ∧ id.toNat < 2 ^ 62 := by
  intro hall
  obtain ⟨log, c, hrun, hids⟩ :=
    Run.exists_openStreams (fun _ => True) (2 ^ 60 + 1) (.new Quiche.idle 0 "c") Quiche.idle_open
  have hlimit : 2 ^ 62 ∈ (openedIds log).map UInt64.toNat := by
    rw [hids]
    exact List.mem_map.2 ⟨2 ^ 60, List.mem_range.2 (Nat.lt_succ_self _), by decide⟩
  obtain ⟨id, hid, hnat⟩ := List.mem_map.1 hlimit
  have := ((hall _ _ _ _ _ hrun).2 id hid).2
  omega

/-! ## Wakers and `close` -/

/-- Whether `l` and `l'` report the same streams, `except` apart. -/
def sameStreams (except : Option UInt64) (l l' : List UInt64) : Bool :=
  (l ++ l').all fun i => some i == except || decide (i ∈ l) == decide (i ∈ l')

/-- The engine's frame for the waker analysis: what each call may change of the readable and
writable streams, the datagram flag and the closed flag. `recv` and `on_timeout` may change any
of them; `send` only the writable streams and the closed flag; `stream_send` and `stream_recv`
only the datagram flag and their own stream's readiness; `close` may only set the datagram and
closed flags. -/
def EngineCall.framed (x : EngineCall) : Bool :=
  let a := x.before
  let b := x.after
  match x.kind with
  | .recv | .onTimeout => true
  | .send => sameStreams none a.readable b.readable && a.hasDatagram == b.hasDatagram
  | .streamSend id _ | .streamRecv id =>
    sameStreams (some id) a.readable b.readable && sameStreams (some id) a.writable b.writable &&
      a.isClosed == b.isClosed
  | .close =>
    sameStreams none a.readable b.readable && sameStreams none a.writable b.writable &&
      (!a.hasDatagram || b.hasDatagram) && (!a.isClosed || b.isClosed)

/-- Task `1` polls `send` on an engine with nothing to send and no timer, and parks on `Send`;
then `close` leaves the engine closed with a datagram to send. -/
def sendThenClose : List ConnOp :=
  [.send 1 none none [⟨⟨.error .done, Quiche.idle⟩, .ok false, Quiche.idle⟩],
   .close ⟨.ok (), { Quiche.idle with hasDatagram := true, isClosed := true }⟩]

/-- The run of `sendThenClose` from a fresh connection. -/
def sendThenCloseRun : List Entry × AsyncQuicConnState :=
  (runOps (.new Quiche.idle 0 "c") sendThenClose).getD ([], .new Quiche.idle 0 "c")

/-- **`close` strands a parked `send`.** In this run every engine call keeps the frame, yet at its
end the task's waker is still registered under `Send` while `send`'s predicate, from any kept
`Sleep` and with any engine answers, would answer `Ready`. -/
theorem close_strands_parked_send :
    Run (·.framed = true) (.new Quiche.idle 0 "c") sendThenCloseRun.1 sendThenCloseRun.2 ∧
      (⟨.send "c", 1⟩ : Waker) ∈ sendThenCloseRun.2.state.wakers ∧
      ∀ sleep fired rounds, (sendPoll "c" sleep fired rounds sendThenCloseRun.2.state.value).map
        (·.1.poll) = some (.ready (.error (sendBrokenPipe "c"))) := by
  have hclosed : sendThenCloseRun.2.state.value.quicheConn.isClosed = true := by decide
  refine ⟨@Run.of_runOps _ _ sendThenClose _ _ rfl (by decide), by decide, fun sleep fired rounds => ?_⟩
  simp [sendPoll, hclosed]

end HalaIo
