import HalaIo.Quic.Mediator

/-!
# Opened and incoming streams along a run

`opened_streams` gains the ids `handle_stream` runs over, which are what `readable()` and
`writable()` report after a successful `send`, or a successful `recv` that left the engine open.
It loses an id only through `stream_send(id, _, true)` when the engine does not answer `Done`.
Nothing else touches it: not the engine finishing a stream, not the engine retiring one, and not
`open_stream`. `openedAfter` folds these two effects over a list of engine calls; every predicate,
then every poll, then every run changes `opened_streams` as `openedAfter` says.

* `openedStreams_reported_since`: from a fresh connection, an id is opened exactly when some call
  reported it, while alive, and no finishing `stream_send` of it came after;
  `openedStreams_keeps_finished`: so a stream the peer finished stays opened.
* `accept_returns_stream_twice`: a stream finished by our `stream_send(_, _, true)` and reported
  again is queued and accepted again.
* `accept_returns_local_stream`: `open_stream` never opens its id, so once the engine reports the
  local stream writable, `accept` hands it out as incoming.
-/

namespace HalaIo

namespace EngineCall

/-- The stream ids `handle_stream` runs over after this call. -/
def reported (x : EngineCall) : List UInt64 :=
  match x.kind, x.outcome with
  | .send, .ok => x.after.readable ++ x.after.writable
  | .recv, .ok => if x.after.isClosed then [] else x.after.readable ++ x.after.writable
  | _, _ => []

/-- What a call reports is among what `readable()` and `writable()` report after it. -/
theorem mem_of_mem_reported {x : EngineCall} {id : UInt64} (h : id ∈ x.reported) :
    id ∈ x.after.readable ++ x.after.writable := by
  unfold reported at h
  split at h
  · exact h
  · split at h
    · simp at h
    · exact h
  · simp at h

/-- Whether this call is a `stream_send(id, _, true)` after which `opened_streams` drops `id`. -/
def finishes (x : EngineCall) (id : UInt64) : Bool :=
  decide (x.kind = .streamSend id true ∧ x.outcome ≠ .done)

/-- Whether `readable()` and `writable()` report only alive streams after the call. -/
def reportsAlive (x : EngineCall) : Bool :=
  (x.after.readable ++ x.after.writable).all (· ∈ x.after.alive)

end EngineCall

/-- Whether `id` is in `opened_streams` after the calls, given whether it was before. -/
def openedAfter (id : UInt64) (was : Bool) (calls : List EngineCall) : Bool :=
  calls.foldl (fun b x => b && !x.finishes id || x.reported.contains id) was

@[simp] theorem openedAfter_nil (id : UInt64) (b : Bool) : openedAfter id b [] = b := rfl

@[simp] theorem openedAfter_cons (id : UInt64) (b : Bool) (x : EngineCall) (l : List EngineCall) :
    openedAfter id b (x :: l) = openedAfter id (b && !x.finishes id || x.reported.contains id) l :=
  rfl

theorem openedAfter_append (id : UInt64) (b : Bool) (l l' : List EngineCall) :
    openedAfter id b (l ++ l') = openedAfter id (openedAfter id b l) l' :=
  List.foldl_append _ _ _ _

/-- `openedAfter` read as a history: the id was opened and never finished since, or some call
reported it and none finished it after. -/
theorem openedAfter_iff (id : UInt64) (b : Bool) (calls : List EngineCall) :
    openedAfter id b calls = true ↔
      (b = true ∧ ∀ x ∈ calls, x.finishes id = false) ∨
        ∃ pre x post, calls = pre ++ x :: post ∧ id ∈ x.reported ∧
          ∀ y ∈ post, y.finishes id = false := by
  induction calls generalizing b with
  | nil => simp
  | cons x calls ih =>
    rw [openedAfter_cons, ih]
    simp only [List.mem_cons, forall_eq_or_imp, List.cons_eq_append_iff]
    constructor
    · rintro (⟨hb, hpost⟩ | ⟨pre, y, post, rfl, hy, hpost⟩)
      · cases hr : x.reported.contains id
        · simp only [hr, Bool.or_false, Bool.and_eq_true, Bool.not_eq_true'] at hb
          exact .inl ⟨hb.1, hb.2, hpost⟩
        · exact .inr ⟨[], x, calls, .inl ⟨rfl, rfl⟩, by simpa using hr, hpost⟩
      · exact .inr ⟨x :: pre, y, post, .inr ⟨pre, rfl, rfl⟩, hy, hpost⟩
    · rintro (⟨hb, hx, hpost⟩ | ⟨pre, y, post, ⟨rfl, hxy⟩ | ⟨pre', rfl, hcalls⟩, hy, hpost⟩)
      · exact .inl ⟨by simp [hb, hx], hpost⟩
      · cases hxy
        exact .inl ⟨by simp [List.elem_eq_mem, hy], hpost⟩
      · exact .inr ⟨pre', y, post, hcalls, hy, hpost⟩

/-! ## Each predicate -/

/-- A predicate's result opens exactly what its calls say. -/
def PollOutcome.OpensAsCalls {α : Type} (s : QuicConnState) (r : PollOutcome α) : Prop :=
  ∀ id, decide (id ∈ r.state.openedStreams) = openedAfter id (decide (id ∈ s.openedStreams)) r.calls

section Predicates

variable (traceId : String) (s : QuicConnState)

/-- Calls that neither report nor finish a stream leave `openedAfter` alone. -/
theorem openedAfter_quiet (id : UInt64) (b : Bool) (l : List EngineCall)
    (h : ∀ x ∈ l, x.reported = [] ∧ ∀ id, x.finishes id = false) : openedAfter id b l = b := by
  induction l generalizing b with
  | nil => rfl
  | cons x l ih =>
    obtain ⟨hr, hf⟩ := h x (List.mem_cons_self _ _)
    simp [hr, hf, ih _ (fun y hy => h y (List.mem_cons_of_mem _ hy))]

theorem opensAsCalls_quiet {α : Type} (r : PollOutcome α)
    (hstate : r.state.openedStreams = s.openedStreams)
    (hcalls : ∀ x ∈ r.calls, x.reported = [] ∧ ∀ id, x.finishes id = false) : r.OpensAsCalls s :=
  fun id => by rw [hstate, openedAfter_quiet id _ _ hcalls]

theorem recvPoll_opensAsCalls (call : Call Nat) : (recvPoll traceId call s).OpensAsCalls s := by
  unfold recvPoll
  split
  · exact opensAsCalls_quiet s _ rfl (by simp)
  · dsimp only
    split
    · rename_i n hres
      split
      · exact opensAsCalls_quiet s _ rfl
          (by simp [EngineCall.reported, EngineCall.finishes, Call.outcome, hres, *])
      · intro id
        simp [handleStream_openedStreams, EngineCall.reported, EngineCall.finishes, Call.outcome,
          hres, List.elem_eq_mem, *, or_assoc]
    · rename_i hres
      exact opensAsCalls_quiet s _ rfl
        (by simp [EngineCall.reported, EngineCall.finishes, Call.outcome, hres])
    · rename_i e hne hres
      exact opensAsCalls_quiet s _ rfl
        (by simp [EngineCall.reported, EngineCall.finishes, Call.outcome_of_error hres hne])

theorem streamSendPoll_opensAsCalls (streamId : UInt64) (fin : Bool) (call : Call Nat) :
    (streamSendPoll traceId streamId fin call s).OpensAsCalls s := by
  unfold streamSendPoll
  split
  · exact opensAsCalls_quiet s _ rfl (by simp)
  · dsimp only
    split
    · rename_i n hres
      intro id
      cases fin <;> simp [EngineCall.reported, EngineCall.finishes, Call.outcome, hres, eq_comm,
        Bool.and_comm]
    · rename_i hres
      split <;> exact opensAsCalls_quiet s _ rfl
        (by simp [EngineCall.reported, EngineCall.finishes, Call.outcome, hres])
    · rename_i e hne hres
      intro id
      cases fin <;> simp [EngineCall.reported, EngineCall.finishes, Call.outcome_of_error hres hne,
        eq_comm, Bool.and_comm]

theorem streamRecvPoll_opensAsCalls (streamId : UInt64) (call : Call (Nat × Bool)) :
    (streamRecvPoll traceId streamId call s).OpensAsCalls s := by
  unfold streamRecvPoll
  dsimp only
  repeat' split
  all_goals exact opensAsCalls_quiet s _ rfl (by simp [EngineCall.reported, EngineCall.finishes])

theorem openStreamPoll_opensAsCalls (id : UInt64) : (openStreamPoll traceId id s).OpensAsCalls s := by
  unfold openStreamPoll; split <;> exact opensAsCalls_quiet s _ rfl (by simp)

theorem acceptPoll_opensAsCalls : (acceptPoll s).OpensAsCalls s := by
  unfold acceptPoll; repeat' split
  all_goals exact opensAsCalls_quiet s _ rfl (by simp)

/-- Quiet calls in front of a result, from a state opened alike, keep it opening as its calls. -/
theorem opensAsCalls_append_quiet {α : Type} (s' : QuicConnState) (r : PollOutcome α)
    (pre : List EngineCall) (hs : s'.openedStreams = s.openedStreams)
    (hpre : ∀ x ∈ pre, x.reported = [] ∧ ∀ id, x.finishes id = false) (h : r.OpensAsCalls s') :
    { r with calls := pre ++ r.calls }.OpensAsCalls s := fun id => by
  simp only [PollOutcome.OpensAsCalls] at h ⊢
  rw [h id, hs, openedAfter_append, openedAfter_quiet id _ _ hpre]

theorem sendLoop_opensAsCalls : ∀ (rounds : List SendRound) (s : QuicConnState) r,
    sendLoop traceId rounds s = some r → r.1.OpensAsCalls s
  | [], _, _, h => by simp [sendLoop] at h
  | st :: rest, s, r, h => by
    have again : ∀ r', (sendLoop traceId rest { s with quicheConn := st.onTimeout }).map (fun r =>
        ({ r.1 with calls := ⟨.send, s.quicheConn, st.send.outcome, st.send.after⟩ ::
            ⟨.onTimeout, st.send.after, .ok, st.onTimeout⟩ :: r.1.calls }, r.2)) = some r' →
        st.send.outcome ≠ .ok → r'.1.OpensAsCalls s := fun r' h' hout => by
      obtain ⟨r'', hr'', rfl⟩ := Option.map_eq_some'.1 h'
      refine opensAsCalls_append_quiet s _ r''.1 [_, _] ?_ ?_ (sendLoop_opensAsCalls rest _ r'' hr'')
      · rfl
      · simp [EngineCall.reported, EngineCall.finishes, hout]
    unfold sendLoop at h
    dsimp only at h
    split at h
    · rename_i n hres
      cases h
      intro id
      simp [handleStream_openedStreams, EngineCall.reported, EngineCall.finishes, Call.outcome,
        hres, List.elem_eq_mem, or_assoc]
    · rename_i hres
      have hout : st.send.outcome ≠ .ok := by simp [Call.outcome, hres]
      have quiet : ∀ x ∈ [(⟨.send, s.quicheConn, st.send.outcome, st.send.after⟩ : EngineCall)],
          x.reported = [] ∧ ∀ id, x.finishes id = false := by
        simp [EngineCall.reported, EngineCall.finishes, Call.outcome, hres]
      repeat' split at h
      all_goals first
        | exact again r h hout
        | (cases h; exact opensAsCalls_quiet s _ rfl quiet)
    · rename_i e hne hres
      cases h
      exact opensAsCalls_quiet s _ rfl
        (by simp [EngineCall.reported, EngineCall.finishes, Call.outcome_of_error hres hne])

theorem sendPoll_opensAsCalls (sleep : Option Duration) (fired : Option Quiche)
    (rounds : List SendRound) (r) (h : sendPoll traceId sleep fired rounds s = some r) :
    r.1.OpensAsCalls s := by
  unfold sendPoll at h
  split at h
  · cases h; exact opensAsCalls_quiet s _ rfl (by simp)
  · split at h
    · obtain ⟨r', hr', rfl⟩ := Option.map_eq_some'.1 h
      refine opensAsCalls_append_quiet s _ r'.1 [_] ?_ ?_ (sendLoop_opensAsCalls traceId _ _ _ hr')
      · rfl
      · simp [EngineCall.reported, EngineCall.finishes]
    · exact sendLoop_opensAsCalls traceId _ _ _ h

end Predicates

/-! ## Each poll, each run -/

theorem AsyncQuicConnState.step_openedStreams {c c' : AsyncQuicConnState} {op : ConnOp}
    {out : ConnOut} {calls : List EngineCall} (h : c.step op = some (c', out, calls))
    (id : UInt64) :
    decide (id ∈ c'.state.value.openedStreams) =
      openedAfter id (decide (id ∈ c.state.value.openedStreams)) calls := by
  cases op
  case send task sleep fired rounds =>
    simp only [AsyncQuicConnState.step, Option.map_eq_some', Prod.mk.injEq] at h
    obtain ⟨r, hr, rfl, -, rfl⟩ := h
    exact sendPoll_opensAsCalls _ _ _ _ _ _ hr id
  case close call =>
    simp only [AsyncQuicConnState.step, Option.some.injEq, Prod.mk.injEq] at h
    obtain ⟨rfl, -, rfl⟩ := h
    simp [closeConn, EngineCall.reported, EngineCall.finishes]
  all_goals
    simp only [AsyncQuicConnState.step, Option.some.injEq, Prod.mk.injEq] at h
    obtain ⟨rfl, -, rfl⟩ := h
  · exact recvPoll_opensAsCalls _ _ _ id
  · exact streamSendPoll_opensAsCalls _ _ _ _ _ id
  · exact streamRecvPoll_opensAsCalls _ _ _ _ id
  · exact openStreamPoll_opensAsCalls _ _ _ id
  · exact acceptPoll_opensAsCalls _ id

variable {E : EngineCall → Prop} {c c' : AsyncQuicConnState} {log : List Entry}

/-- Along a run, `opened_streams` changes exactly as the run's engine calls say. -/
theorem Run.openedStreams (h : Run E c log c') (id : UInt64) :
    decide (id ∈ c'.state.value.openedStreams) =
      openedAfter id (decide (id ∈ c.state.value.openedStreams)) (Entry.allCalls log) := by
  induction h with
  | nil => rfl
  | cons hs _ _ ih =>
    rw [ih, AsyncQuicConnState.step_openedStreams hs]
    simp only [Entry.allCalls, List.flatMap_cons, openedAfter_append]

theorem Run.allCalls_sat (h : Run E c log c') : ∀ x ∈ Entry.allCalls log, E x := by
  induction h with
  | nil => simp [Entry.allCalls]
  | cons _ hE _ ih =>
    intro x hx
    simp only [Entry.allCalls, List.flatMap_cons, List.mem_append] at hx
    exact hx.elim (hE x) (ih x)

/-- **Opened means reported since.** From a fresh connection, against an engine whose
`readable()` and `writable()` report only alive streams, an id is in `opened_streams` exactly when
some engine call reported it to `handle_stream`, while it was alive, and no later
`stream_send(id, _, true)` finished it. Finishing or retiring a stream in the engine does not
remove it. -/
theorem openedStreams_reported_since {q : Quiche} {seed : UInt64} {traceId : String}
    (h : Run (·.reportsAlive = true) (.new q seed traceId) log c) (id : UInt64) :
    id ∈ c.state.value.openedStreams ↔
      ∃ pre x post, Entry.allCalls log = pre ++ x :: post ∧ id ∈ x.reported ∧
        id ∈ x.after.alive ∧ ∀ y ∈ post, y.finishes id = false := by
  have hrun := h.openedStreams id
  simp only [AsyncQuicConnState.new, QuicConnState.new, Finset.not_mem_empty, decide_False] at hrun
  have key : id ∈ c.state.value.openedStreams ↔ openedAfter id false (Entry.allCalls log) = true := by
    rw [← hrun, decide_eq_true_iff]
  rw [key, openedAfter_iff]
  simp only [Bool.false_eq_true, false_and, false_or]
  constructor
  · rintro ⟨pre, x, post, hcalls, hid, hpost⟩
    have halive := h.allCalls_sat x (by simp [hcalls])
    refine ⟨pre, x, post, hcalls, hid, ?_, hpost⟩
    simpa using List.all_eq_true.1 halive id (EngineCall.mem_of_mem_reported hid)
  · rintro ⟨pre, x, post, hcalls, hid, -, hpost⟩
    exact ⟨pre, x, post, hcalls, hid, hpost⟩

/-- An engine that reports one stream readable. -/
def Quiche.reading (id : UInt64) : Quiche := { Quiche.idle with readable := [id], alive := {id} }

/-- Stream 4 arrives readable on a `recv`; then `stream_recv(4)` reads the peer's fin and the
engine finishes the stream. -/
def peerFinishes : List ConnOp :=
  [.recv 1 ⟨.ok 1200, Quiche.reading 4⟩,
   .streamRecv 2 4 ⟨.ok (5, true), { Quiche.idle with alive := {4}, finished := {4} }⟩]

/-- The run of `peerFinishes` from a fresh connection. -/
def peerFinishesRun : List Entry × AsyncQuicConnState :=
  (runOps (.new Quiche.idle 0 "c") peerFinishes).getD ([], .new Quiche.idle 0 "c")

theorem openedStreams_reported_since_peerFinishes :
    4 ∈ peerFinishesRun.2.state.value.openedStreams ↔
      ∃ pre x post, Entry.allCalls peerFinishesRun.1 = pre ++ x :: post ∧ 4 ∈ x.reported ∧
        4 ∈ x.after.alive ∧ ∀ y ∈ post, y.finishes 4 = false :=
  openedStreams_reported_since (@Run.of_runOps _ _ peerFinishes _ _ rfl (by decide)) 4

theorem openedStreams_keeps_finished :
    ¬ ∀ (q : Quiche) (seed : UInt64) (traceId : String) (log : List Entry)
        (c : AsyncQuicConnState), Run (·.reportsAlive = true) (.new q seed traceId) log c →
      c.state.value.openedStreams ⊆ c.state.value.quicheConn.alive ∧
        ∀ id ∈ c.state.value.openedStreams, id ∉ c.state.value.quicheConn.finished := fun hall =>
  (hall Quiche.idle 0 "c" peerFinishesRun.1 peerFinishesRun.2
    (@Run.of_runOps _ _ peerFinishes _ _ rfl (by decide))).2 4 (by decide) (by decide)

/-! ## What `accept` hands out -/

/-- The stream id an `accept` poll returned. -/
def ConnOut.acceptedId : ConnOut → Option UInt64
  | .accept (.ready (some id)) => some id
  | _ => none

/-- The stream ids `accept` returned along a run, in order. -/
def acceptedIds (log : List Entry) : List UInt64 := log.filterMap (·.out.acceptedId)

/-- Stream 4 arrives readable and is accepted; our `stream_send(4, _, true)` finishes our side
while the peer keeps sending, so the next `recv` reports 4 readable again. -/
def reacceptOps : List ConnOp :=
  [.recv 1 ⟨.ok 1200, Quiche.reading 4⟩, .accept 2, .streamSend 3 4 true ⟨.ok 0, Quiche.reading 4⟩,
   .recv 1 ⟨.ok 1200, Quiche.reading 4⟩, .accept 2]

/-- The run of `reacceptOps` from a fresh connection. -/
def reacceptRun : List Entry × AsyncQuicConnState :=
  (runOps (.new Quiche.idle 0 "c") reacceptOps).getD ([], .new Quiche.idle 0 "c")

/-- **A finished stream is accepted again.** `stream_send(4, _, true)` drops 4 from
`opened_streams`, so `handle_accept` takes the next report of 4 for a new stream. -/
theorem accept_returns_stream_twice :
    Run (·.reportsAlive = true) (.new Quiche.idle 0 "c") reacceptRun.1 reacceptRun.2 ∧
      acceptedIds reacceptRun.1 = [4, 4] :=
  ⟨@Run.of_runOps _ _ reacceptOps _ _ rfl (by decide), by decide⟩

/-- An engine with send capacity and a datagram on one locally opened stream. -/
def Quiche.sendingOn (id : UInt64) : Quiche :=
  { Quiche.idle with writable := [id], hasDatagram := true, alive := {id} }

/-- Task 1 opens stream 0 and writes on it; the engine now reports 0 writable, and the next
`send` runs `handle_stream` over it. -/
def localAcceptOps : List ConnOp :=
  [.openStream 1, .streamSend 1 0 false ⟨.ok 5, Quiche.sendingOn 0⟩,
   .send 2 none none [⟨⟨.ok 1200, Quiche.sendingOn 0⟩, .ok false, Quiche.sendingOn 0⟩], .accept 3]

/-- The run of `localAcceptOps` from a fresh connection. -/
def localAcceptRun : List Entry × AsyncQuicConnState :=
  (runOps (.new Quiche.idle 0 "c") localAcceptOps).getD ([], .new Quiche.idle 0 "c")

/-- **`accept` returns a local stream.** `open_stream` does not open its id, so `handle_accept`
queues it as incoming the first time the engine reports it. -/
theorem accept_returns_local_stream :
    Run (·.reportsAlive = true) (.new Quiche.idle 0 "c") localAcceptRun.1 localAcceptRun.2 ∧
      openedIds localAcceptRun.1 = [0] ∧ acceptedIds localAcceptRun.1 = [0] :=
  ⟨@Run.of_runOps _ _ localAcceptOps _ _ rfl (by decide), by decide, by decide⟩

/-! ## No accept waiter behind a queued stream

A stream enters `incoming_streams` only in `handle_accept`, which notifies `Accept`, and `accept`
parks only on an empty queue. So no task stays parked on `Accept` while a stream waits, whatever
the interleaving and whatever the engine answers; `close` changes the engine but not the queue. -/

/-- A predicate leaves the accept queue nonempty only if it found it so, or notified `Accept`. -/
def PollOutcome.NotifiesQueued {α : Type} (traceId : String) (s : QuicConnState)
    (r : PollOutcome α) : Prop :=
  r.state.incomingStreams ≠ [] →
    s.incomingStreams ≠ [] ∨ Signal.notify (.accept traceId) ∈ r.signals

section Queued

variable (traceId : String) (s : QuicConnState)

theorem notifiesQueued_of_eq {α : Type} (r : PollOutcome α)
    (h : r.state.incomingStreams = s.incomingStreams) : r.NotifiesQueued traceId s :=
  fun hne => .inl (by rwa [← h])

/-- `handle_stream` notifies `Accept` whenever it queues a stream. -/
theorem handleStream_queued (hne : (handleStream traceId s).1.incomingStreams ≠ []) :
    s.incomingStreams ≠ [] ∨ Signal.notify (.accept traceId) ∈ (handleStream traceId s).2 := by
  by_cases hs : s.incomingStreams = []
  · refine .inr (List.count_pos_iff.mp ?_)
    rw [handleStream_count_accept, List.length_pos]
    simpa [handleStream_incomingStreams, hs] using hne
  · exact .inl hs

theorem recvPoll_notifiesQueued (call : Call Nat) :
    (recvPoll traceId call s).NotifiesQueued traceId s := by
  unfold recvPoll
  split
  · exact notifiesQueued_of_eq traceId s _ rfl
  · dsimp only
    split
    · split
      · exact notifiesQueued_of_eq traceId s _ rfl
      · exact fun hne => (handleStream_queued traceId _ hne).imp id (List.mem_cons_of_mem _)
    all_goals exact notifiesQueued_of_eq traceId s _ rfl

theorem streamSendPoll_notifiesQueued (streamId : UInt64) (fin : Bool) (call : Call Nat) :
    (streamSendPoll traceId streamId fin call s).NotifiesQueued traceId s := by
  unfold streamSendPoll
  dsimp only
  repeat' split
  all_goals exact notifiesQueued_of_eq traceId s _ (by cases fin <;> rfl)

theorem streamRecvPoll_notifiesQueued (streamId : UInt64) (call : Call (Nat × Bool)) :
    (streamRecvPoll traceId streamId call s).NotifiesQueued traceId s := by
  unfold streamRecvPoll
  dsimp only
  repeat' split
  all_goals exact notifiesQueued_of_eq traceId s _ rfl

theorem openStreamPoll_notifiesQueued (id : UInt64) :
    (openStreamPoll traceId id s).NotifiesQueued traceId s := by
  unfold openStreamPoll; split <;> exact notifiesQueued_of_eq traceId s _ rfl

/-- `accept` pops the queue, and parks only on an empty one. -/
theorem acceptPoll_notifiesQueued :
    (acceptPoll s).NotifiesQueued traceId s ∧
      ((acceptPoll s).poll = .pending → (acceptPoll s).state.incomingStreams = []) := by
  unfold acceptPoll
  split
  · exact ⟨notifiesQueued_of_eq traceId s _ rfl, nofun⟩
  · split
    · rename_i id rest hq
      exact ⟨fun _ => .inl (by simp [hq]), nofun⟩
    · rename_i hq
      exact ⟨notifiesQueued_of_eq traceId s _ rfl, fun _ => hq⟩

theorem sendLoop_notifiesQueued : ∀ (rounds : List SendRound) (s : QuicConnState) r,
    sendLoop traceId rounds s = some r → r.1.NotifiesQueued traceId s
  | [], _, _, h => by simp [sendLoop] at h
  | st :: rest, s, r, h => by
    have again : ∀ r', (sendLoop traceId rest { s with quicheConn := st.onTimeout }).map (fun r =>
        ({ r.1 with calls := ⟨.send, s.quicheConn, st.send.outcome, st.send.after⟩ ::
            ⟨.onTimeout, st.send.after, .ok, st.onTimeout⟩ :: r.1.calls }, r.2)) = some r' →
        r'.1.NotifiesQueued traceId s := fun r' h' => by
      obtain ⟨r'', hr'', rfl⟩ := Option.map_eq_some'.1 h'
      have := sendLoop_notifiesQueued rest _ r'' hr''
      exact this
    unfold sendLoop at h
    dsimp only at h
    split at h
    · cases h; exact handleStream_queued traceId _
    · repeat' split at h
      all_goals first
        | exact again r h
        | (cases h; exact notifiesQueued_of_eq traceId s _ rfl)
    · cases h; exact notifiesQueued_of_eq traceId s _ rfl

theorem sendPoll_notifiesQueued (sleep : Option Duration) (fired : Option Quiche)
    (rounds : List SendRound) (r) (h : sendPoll traceId sleep fired rounds s = some r) :
    r.1.NotifiesQueued traceId s := by
  unfold sendPoll at h
  split at h
  · cases h; exact notifiesQueued_of_eq traceId s _ rfl
  · split at h
    · obtain ⟨r', hr', rfl⟩ := Option.map_eq_some'.1 h
      have := sendLoop_notifiesQueued traceId _ _ _ hr'
      exact this
    · exact sendLoop_notifiesQueued traceId _ _ _ h

end Queued

/-- No task is parked on `Accept` while a stream waits to be accepted. -/
def AcceptWoken (c : AsyncQuicConnState) : Prop :=
  c.state.value.incomingStreams ≠ [] → ∀ w ∈ c.state.wakers, w.event ≠ .accept c.traceId

/-- A poll keeps the accept waiters woken when its predicate notifies `Accept` on queueing, and
parks on `Accept` only on an empty queue. -/
theorem AcceptWoken.polled {α : Type} {c : AsyncQuicConnState} {event : QuicConnEvents}
    {task : Nat} {r : PollOutcome α} (hc : AcceptWoken c)
    (hq : r.NotifiesQueued c.traceId c.state.value)
    (hpark : r.poll = .pending → event = .accept c.traceId → r.state.incomingStreams = []) :
    AcceptWoken (c.polled event task r) := by
  intro hne w hw
  have hfold : w ∈ r.signals.foldl LocalMediator.wake c.state.wakers →
      w.event ≠ .accept c.traceId := fun hw' =>
    (hq hne).elim (fun hs => hc hs w (LocalMediator.mem_of_mem_foldl_wake _ _ hw'))
      (fun hn => LocalMediator.event_ne_of_notify_mem _ _ hn hw')
  simp only [AsyncQuicConnState.polled, LocalMediator.onPoll] at hw
  split at hw
  · rcases List.mem_append.mp hw with hw | hw
    · exact hfold hw
    · rw [List.mem_singleton] at hw
      subst hw
      exact fun he => hne (hpark ‹_› he)
  · exact hfold hw

theorem AsyncQuicConnState.step_acceptWoken {c c' : AsyncQuicConnState} {op : ConnOp}
    {out : ConnOut} {calls : List EngineCall} (h : c.step op = some (c', out, calls))
    (hc : AcceptWoken c) : c'.traceId = c.traceId ∧ AcceptWoken c' := by
  cases op
  case send task sleep fired rounds =>
    simp only [AsyncQuicConnState.step, Option.map_eq_some', Prod.mk.injEq] at h
    obtain ⟨r, hr, rfl, -, -⟩ := h
    exact ⟨rfl, hc.polled (sendPoll_notifiesQueued _ _ _ _ _ _ hr) (fun _ => nofun)⟩
  all_goals
    simp only [AsyncQuicConnState.step, Option.some.injEq, Prod.mk.injEq] at h
    obtain ⟨rfl, -, -⟩ := h
  · exact ⟨rfl, hc.polled (recvPoll_notifiesQueued _ _ _) (fun _ => nofun)⟩
  · exact ⟨rfl, hc.polled (streamSendPoll_notifiesQueued _ _ _ _ _) (fun _ => nofun)⟩
  · exact ⟨rfl, hc.polled (streamRecvPoll_notifiesQueued _ _ _ _) (fun _ => nofun)⟩
  · exact ⟨rfl, hc.polled (openStreamPoll_notifiesQueued _ _ _) (fun _ => nofun)⟩
  · obtain ⟨hq, hpark⟩ := acceptPoll_notifiesQueued c.traceId c.state.value
    exact ⟨rfl, hc.polled hq (fun hp _ => hpark hp)⟩
  · exact ⟨rfl, hc⟩

theorem Run.acceptWoken (h : Run E c log c') (hc : AcceptWoken c) :
    c'.traceId = c.traceId ∧ AcceptWoken c' := by
  induction h with
  | nil => exact ⟨rfl, hc⟩
  | cons hs _ _ ih =>
    obtain ⟨htr, hc₁⟩ := AsyncQuicConnState.step_acceptWoken hs hc
    obtain ⟨htr', hc₂⟩ := ih hc₁
    exact ⟨htr'.trans htr, hc₂⟩

/-- **No accept waiter is stranded behind a queued stream.** From a fresh connection, under every
interleaving of the operations and whatever the engine answers, no task stays parked on `Accept`
while a stream waits in `incoming_streams`: the poll that queues a stream notifies `Accept`, and
`accept` parks only on an empty queue. -/
theorem accept_waiter_never_stranded {q : Quiche} {seed : UInt64} {traceId : String}
    (h : Run E (.new q seed traceId) log c) :
    c.state.value.incomingStreams ≠ [] → ∀ w ∈ c.state.wakers, w.event ≠ .accept traceId := by
  obtain ⟨htr, hc⟩ := h.acceptWoken (fun hne => absurd rfl hne)
  intro hne w hw
  have hev := hc hne w hw
  rw [htr] at hev
  exact hev

/-- Task 1 parks on `accept` of a fresh connection; then `recv` reports stream 4 readable. -/
def parkedAcceptOps : List ConnOp := [.accept 1, .recv 2 ⟨.ok 1200, Quiche.reading 4⟩]

/-- The run of `parkedAcceptOps` from a fresh connection. -/
def parkedAcceptRun : List Entry × AsyncQuicConnState :=
  (runOps (.new Quiche.idle 0 "c") parkedAcceptOps).getD ([], .new Quiche.idle 0 "c")

theorem accept_waiter_never_stranded_parked :
    Run (fun _ => True) (.new Quiche.idle 0 "c") parkedAcceptRun.1 parkedAcceptRun.2 ∧
      parkedAcceptRun.2.state.value.incomingStreams = [4] ∧
      ∀ w ∈ parkedAcceptRun.2.state.wakers, w.event ≠ .accept "c" := by
  have hr : Run (fun _ => True) (.new Quiche.idle 0 "c") parkedAcceptRun.1 parkedAcceptRun.2 :=
    @Run.of_runOps _ _ parkedAcceptOps _ _ rfl (fun _ _ _ _ => trivial)
  exact ⟨hr, by decide, accept_waiter_never_stranded hr (by decide)⟩

end HalaIo
