import HalaIo.Basic

/-!
# The QUIC connection state and its predicates

`hala-net/src/quic/conn_state.rs`. Every operation of `AsyncQuicConnState` is a predicate run by
`LocalMediator::on_poll` on the shared `QuicConnState`: it reads and drives the `quiche` engine,
updates `opened_streams` and `incoming_streams`, calls `notify` and `wakeup_all` on the
mediator, and answers `Ready` or `Pending`. This file models the predicates; the mediator and its
waker registry are in `Quic/Mediator.lean`.

The engine is foreign. The model keeps what the connection state reads of it (`is_closed`,
`readable`, `writable`, `timeout`) and what its contract speaks of (whether it has a
datagram to send, which streams are alive and which finished). Each engine call's answer and the
engine after it are supplied by the caller of the predicate, so a statement over all answers is a
statement over every engine. Each predicate reports the calls it made, in order, so that a run can
be checked against what an engine may do.

`SendInfo`, the buffers and the byte counts' contents are passed through untouched and are left
out; a call's byte count is kept.
-/

namespace List

/-! ## First occurrences

`handle_stream` appends each new stream id once, at its first occurrence, which is what
`List.eraseDups` computes. The core library gives no lemmas about it; these are the three the
connection state needs, all read off its accumulator loop. -/

variable {α : Type} [BEq α]

theorem eraseDups_loop_append (A B bs : List α) :
    eraseDups.loop (A ++ B) bs = eraseDups.loop B (eraseDups.loop A bs).reverse := by
  induction A generalizing bs with
  | nil => simp [eraseDups.loop]
  | cons a A ih =>
    simp only [cons_append, eraseDups.loop]
    cases bs.elem a <;> exact ih _

variable [LawfulBEq α]

theorem mem_eraseDups_loop (l bs : List α) (x : α) :
    x ∈ eraseDups.loop l bs ↔ x ∈ l ∨ x ∈ bs := by
  induction l generalizing bs with
  | nil => simp [eraseDups.loop]
  | cons a l ih =>
    simp only [eraseDups.loop]
    cases h : bs.elem a
    · rw [ih]; simp; tauto
    · rw [ih]; simp only [elem_eq_mem, decide_eq_true_eq] at h
      simp only [mem_cons]
      constructor
      · tauto
      · rintro ((rfl | h') | h') <;> tauto

/-- The loop from a nonempty accumulator is the accumulator, then the loop from scratch over
what the accumulator does not hold. -/
theorem eraseDups_loop_eq (l bs : List α) :
    eraseDups.loop l bs = bs.reverse ++ eraseDups.loop (l.filter fun x => !bs.elem x) [] := by
  match l with
  | [] => simp [eraseDups.loop]
  | a :: l =>
    simp only [eraseDups.loop, filter_cons]
    cases h : bs.elem a
    · simp only [Bool.not_false, if_true, eraseDups.loop, elem_nil]
      rw [eraseDups_loop_eq l (a :: bs), eraseDups_loop_eq (l.filter _) [a], filter_filter]
      simp only [reverse_cons, reverse_nil, nil_append, append_assoc, singleton_append]
      congr 3; congr 1; funext x
      simp only [elem_cons, elem_nil]
      cases x == a <;> simp
    · simp only [Bool.not_true, Bool.false_eq_true, if_false]
      exact eraseDups_loop_eq l bs
termination_by l.length
decreasing_by all_goals simp_wf <;> exact Nat.lt_succ_of_le (length_filter_le _ _)

theorem mem_eraseDups (l : List α) (x : α) : x ∈ l.eraseDups ↔ x ∈ l := by
  simp [eraseDups, mem_eraseDups_loop]

theorem eraseDups_append (A B : List α) :
    (A ++ B).eraseDups = A.eraseDups ++ (B.filter fun x => !A.elem x).eraseDups := by
  unfold eraseDups
  rw [eraseDups_loop_append, eraseDups_loop_eq B, reverse_reverse]
  congr 3; funext x
  simp only [elem_eq_mem, mem_reverse, mem_eraseDups_loop, mem_nil_iff, or_false]

end List

namespace HalaIo

/-- A `quiche::Error`: `Done`, or any other error, passed through `into_io_error`. -/
inductive QuicheError where
  | done
  | other (code : Nat)
deriving DecidableEq, Repr

/-- What the connection state sees of the `quiche::Connection`. -/
structure Quiche where
  isClosed : Bool
  readable : List UInt64
  writable : List UInt64
  timeout : Option Duration
  /-- Whether `send` has a datagram to hand out; the code never reads it. -/
  hasDatagram : Bool
  /-- The streams the engine holds. -/
  alive : Finset UInt64
  /-- The streams for which `stream_finished` holds. -/
  finished : Finset UInt64

/-- The answer of an engine call, and the engine after it. -/
structure Call (α : Type) where
  result : Except QuicheError α
  after : Quiche

/-- How an engine call ended. -/
inductive Outcome where
  | ok
  | done
  | error
deriving DecidableEq, Repr

def Call.outcome {α : Type} (c : Call α) : Outcome :=
  match c.result with
  | .ok _ => .ok
  | .error .done => .done
  | .error (.other _) => .error

theorem Call.outcome_of_error {α : Type} {c : Call α} {e : QuicheError} (h : c.result = .error e)
    (hne : e ≠ .done) : c.outcome = .error := by
  cases e
  · exact absurd rfl hne
  · simp [Call.outcome, h]

/-- The engine calls a predicate makes. -/
inductive CallKind where
  | send
  | recv
  | streamSend (streamId : UInt64) (fin : Bool)
  | streamRecv (streamId : UInt64)
  | onTimeout
  | close
deriving DecidableEq, Repr

/-- One engine call as a run records it. -/
structure EngineCall where
  kind : CallKind
  before : Quiche
  outcome : Outcome
  after : Quiche

/-- `QuicConnEvents`, the keys of the mediator's waker registry. -/
inductive QuicConnEvents where
  | send (traceId : String)
  | recv (traceId : String)
  | streamSend (traceId : String) (streamId : UInt64)
  | streamRecv (traceId : String) (streamId : UInt64)
  | accept (traceId : String)
  | openStream
deriving DecidableEq, Repr

/-- A call of the predicate on the mediator: `notify(event)` or `wakeup_all()`. -/
inductive Signal where
  | notify (e : QuicConnEvents)
  | wakeupAll
deriving DecidableEq, Repr

/-- `QuicConnState`. -/
structure QuicConnState where
  quicheConn : Quiche
  openedStreams : Finset UInt64
  incomingStreams : List UInt64

/-- `QuicConnState::new`. -/
def QuicConnState.new (quicheConn : Quiche) : QuicConnState := ⟨quicheConn, ∅, []⟩

/-- The error of an operation: an `io::Error` it builds, or `into_io_error` of the engine's. -/
inductive ConnError where
  | io (e : IoError)
  | quiche (e : QuicheError)
deriving DecidableEq, Repr

/-- What one run of a predicate did: its answer, the state after it, its calls on the mediator
and its calls on the engine, each in order. -/
structure PollOutcome (α : Type) where
  poll : Poll α
  state : QuicConnState
  signals : List Signal
  calls : List EngineCall

/-! ## `handle_accept`, `handle_stream`, `handle_close` -/

/-- `handle_accept`: a stream id not yet opened is opened and queued for `accept`. -/
def handleAccept (traceId : String) (s : QuicConnState) (streamId : UInt64) :
    QuicConnState × List Signal :=
  if streamId ∉ s.openedStreams then
    ({ s with openedStreams := insert streamId s.openedStreams,
              incomingStreams := s.incomingStreams ++ [streamId] },
      [.notify (.accept traceId)])
  else (s, [])

/-- One loop of `handle_stream`: `handle_accept` and then `notify(event(trace_id, id))` for each
id; the readable loop notifies `StreamRecv`, the writable loop `StreamSend`. -/
def handleStreamIds (traceId : String) (event : String → UInt64 → QuicConnEvents) :
    List UInt64 → QuicConnState → QuicConnState × List Signal
  | [], s => (s, [])
  | id :: ids, s =>
    let a := handleAccept traceId s id
    let r := handleStreamIds traceId event ids a.1
    (r.1, a.2 ++ .notify (event traceId id) :: r.2)

/-- `handle_stream`: the readable loop, then the writable loop over what `writable()` reports
after it. -/
def handleStream (traceId : String) (s : QuicConnState) : QuicConnState × List Signal :=
  let r := handleStreamIds traceId .streamRecv s.quicheConn.readable s
  let w := handleStreamIds traceId .streamSend r.1.quicheConn.writable r.1
  (w.1, r.2 ++ w.2)

/-- `handle_close`. -/
def handleClose : List Signal := [.wakeupAll]

/-! ## `handle_stream` is exact

Each loop of `handle_stream` opens what it sees, queues each id it had not seen once, in order of
first occurrence, notifies `Accept` once per queued id, and notifies every id's own event. -/

section HandleStream

variable (traceId : String) (s : QuicConnState) (streamId : UInt64)

@[simp] theorem handleAccept_quicheConn : (handleAccept traceId s streamId).1.quicheConn = s.quicheConn := by
  unfold handleAccept; split <;> rfl

@[simp] theorem handleAccept_openedStreams :
    (handleAccept traceId s streamId).1.openedStreams = insert streamId s.openedStreams := by
  unfold handleAccept; split
  · rfl
  · exact (Finset.insert_eq_of_mem (not_not.mp ‹_›)).symm

theorem handleAccept_incomingStreams :
    (handleAccept traceId s streamId).1.incomingStreams =
      s.incomingStreams ++ if streamId ∉ s.openedStreams then [streamId] else [] := by
  unfold handleAccept; split <;> simp

theorem handleAccept_signals :
    (handleAccept traceId s streamId).2 =
      if streamId ∉ s.openedStreams then [.notify (.accept traceId)] else [] := by
  unfold handleAccept; split <;> rfl

/-- The ids a loop queues: the unseen ones, at their first occurrence. -/
theorem eraseDups_filter_cons (O : Finset UInt64) (id : UInt64) (ids : List UInt64) :
    ((id :: ids).filter (· ∉ O)).eraseDups =
      (if id ∉ O then [id] else []) ++ (ids.filter (· ∉ insert id O)).eraseDups := by
  by_cases h : id ∈ O
  · simp [h, Finset.insert_eq_of_mem h]
  · rw [List.filter_cons_of_pos (by simpa using h), ← List.singleton_append, List.eraseDups_append,
      List.filter_filter]
    simp only [h, not_false_eq_true, if_true]
    congr 3; funext x
    by_cases hx : x = id <;> simp [hx]

variable (event : String → UInt64 → QuicConnEvents)

@[simp] theorem handleStreamIds_quicheConn (ids : List UInt64) :
    (handleStreamIds traceId event ids s).1.quicheConn = s.quicheConn := by
  induction ids generalizing s with
  | nil => rfl
  | cons id ids ih => simp [handleStreamIds, ih]

theorem handleStreamIds_openedStreams (ids : List UInt64) :
    (handleStreamIds traceId event ids s).1.openedStreams = s.openedStreams ∪ ids.toFinset := by
  induction ids generalizing s with
  | nil => simp [handleStreamIds]
  | cons id ids ih =>
    simp only [handleStreamIds, ih, handleAccept_openedStreams, List.toFinset_cons]
    ext x; simp [or_left_comm]

theorem handleStreamIds_incomingStreams (ids : List UInt64) :
    (handleStreamIds traceId event ids s).1.incomingStreams =
      s.incomingStreams ++ (ids.filter (· ∉ s.openedStreams)).eraseDups := by
  induction ids generalizing s with
  | nil => simp [handleStreamIds, List.eraseDups, List.eraseDups.loop]
  | cons id ids ih =>
    simp only [handleStreamIds, ih, handleAccept_openedStreams, handleAccept_incomingStreams,
      eraseDups_filter_cons, List.append_assoc]

section Signals

variable (hevent : ∀ id, event traceId id ≠ .accept traceId)
include hevent

/-- Apart from `Accept`, a loop notifies exactly each id's own event, in order. -/
theorem handleStreamIds_signals (ids : List UInt64) :
    (handleStreamIds traceId event ids s).2.filter (· != .notify (.accept traceId)) =
      ids.map fun id => .notify (event traceId id) := by
  induction ids generalizing s with
  | nil => rfl
  | cons id ids ih =>
    simp only [handleStreamIds, handleAccept_signals, List.filter_append, List.filter_cons, ih,
      List.map_cons]
    have : (Signal.notify (event traceId id) != .notify (.accept traceId)) = true := by
      simpa using hevent id
    split <;> simp [this]

/-- A loop notifies `Accept` once per id it queues. -/
theorem handleStreamIds_count_accept (ids : List UInt64) :
    (handleStreamIds traceId event ids s).2.count (.notify (.accept traceId)) =
      (ids.filter (· ∉ s.openedStreams)).eraseDups.length := by
  induction ids generalizing s with
  | nil => rfl
  | cons id ids ih =>
    simp only [handleStreamIds, handleAccept_signals, List.count_append, List.count_cons, ih,
      handleAccept_openedStreams, eraseDups_filter_cons, List.length_append]
    have : (Signal.notify (event traceId id) == .notify (.accept traceId)) = false := by
      simpa using hevent id
    split <;> simp [this]

end Signals

@[simp] theorem handleStream_quicheConn :
    (handleStream traceId s).1.quicheConn = s.quicheConn := by
  simp [handleStream]

theorem handleStream_openedStreams :
    (handleStream traceId s).1.openedStreams =
      s.openedStreams ∪ s.quicheConn.readable.toFinset ∪ s.quicheConn.writable.toFinset := by
  simp only [handleStream, handleStreamIds_openedStreams, handleStreamIds_quicheConn]

theorem handleStream_incomingStreams :
    (handleStream traceId s).1.incomingStreams = s.incomingStreams ++
      ((s.quicheConn.readable ++ s.quicheConn.writable).filter (· ∉ s.openedStreams)).eraseDups := by
  simp only [handleStream, handleStreamIds_incomingStreams, handleStreamIds_openedStreams,
    handleStreamIds_quicheConn, List.filter_append, List.eraseDups_append, List.append_assoc,
    List.filter_filter]
  congr 3
  refine List.filter_congr fun x _ => ?_
  simp only [List.elem_eq_mem, List.mem_filter, Finset.mem_union, List.mem_toFinset]
  by_cases h : x ∈ s.openedStreams <;> simp [h]

theorem handleStream_count_accept :
    (handleStream traceId s).2.count (.notify (.accept traceId)) =
      ((s.quicheConn.readable ++ s.quicheConn.writable).filter (· ∉ s.openedStreams)).eraseDups.length := by
  have h := congrArg List.length (handleStream_incomingStreams traceId s)
  simp only [handleStream, handleStreamIds_incomingStreams, handleStreamIds_quicheConn,
    List.length_append] at h ⊢
  rw [List.count_append, handleStreamIds_count_accept _ _ _ (fun _ => by simp),
    handleStreamIds_count_accept _ _ _ (fun _ => by simp)]
  omega

/-- **`handle_stream` is exact.** With `R` and `W` what `readable()` and `writable()` report,
it opens `R` and `W`, queues the ids of `R` then `W` it had not opened, each once at its first
occurrence, notifies `Accept` exactly when it queued one, and otherwise notifies `StreamRecv` for
each id of `R` and `StreamSend` for each id of `W`, in order. -/
theorem handleStream_exact :
    (handleStream traceId s).1.openedStreams =
        s.openedStreams ∪ s.quicheConn.readable.toFinset ∪ s.quicheConn.writable.toFinset ∧
      (handleStream traceId s).1.incomingStreams = s.incomingStreams ++
        ((s.quicheConn.readable ++ s.quicheConn.writable).filter (· ∉ s.openedStreams)).eraseDups ∧
      (Signal.notify (.accept traceId) ∈ (handleStream traceId s).2 ↔
        ((s.quicheConn.readable ++ s.quicheConn.writable).filter (· ∉ s.openedStreams)).eraseDups ≠
          []) ∧
      (handleStream traceId s).2.filter (· != .notify (.accept traceId)) =
        s.quicheConn.readable.map (fun id => .notify (.streamRecv traceId id)) ++
          s.quicheConn.writable.map (fun id => .notify (.streamSend traceId id)) := by
  refine ⟨handleStream_openedStreams traceId s, handleStream_incomingStreams traceId s, ?_, ?_⟩
  · rw [← List.count_pos_iff, handleStream_count_accept, List.length_pos]
  · simp only [handleStream, List.filter_append]
    rw [handleStreamIds_signals _ _ _ (fun _ => by simp),
      handleStreamIds_signals _ _ _ (fun _ => by simp), handleStreamIds_quicheConn]

end HandleStream

/-! ## The predicates -/

/-- The `BrokenPipe` of `send`: `format!("{:?} err=broken_pipe", event)` of `Send(trace_id)`. -/
def sendBrokenPipe (traceId : String) : ConnError :=
  .io ⟨.brokenPipe, "Send(\"" ++ traceId ++ "\") err=broken_pipe"⟩

/-- The `BrokenPipe` of `recv`, `stream_send` and `stream_recv`: `format!("conn={} closed")`. -/
def connClosed (traceId : String) : ConnError :=
  .io ⟨.brokenPipe, "conn=" ++ traceId ++ " closed"⟩

/-- The engine's answers during one round of `send`'s loop. -/
structure SendRound where
  /-- `quiche_conn.send(buf)`. -/
  send : Call Nat
  /-- For a nonzero `timeout()`: `Sleep::new_with` failing, or whether its first poll is
  `Ready`. -/
  sleep : Except IoError Bool
  /-- The engine after `on_timeout()`, when the loop goes round again. -/
  onTimeout : Quiche

/-- The `loop` of `send`'s predicate, one `SendRound` per round; `none` when the answers run out
before the loop ends. On `Pending` it also returns the `Sleep` it armed, by its duration. -/
def sendLoop (traceId : String) :
    List SendRound → QuicConnState → Option (PollOutcome (Except ConnError Nat) × Option Duration)
  | [], _ => none
  | st :: rest, s =>
    let c : EngineCall := ⟨.send, s.quicheConn, st.send.outcome, st.send.after⟩
    let s := { s with quicheConn := st.send.after }
    let again := fun (_ : Unit) =>
      (sendLoop traceId rest { s with quicheConn := st.onTimeout }).map fun r =>
        ({ r.1 with calls := c :: ⟨.onTimeout, s.quicheConn, .ok, st.onTimeout⟩ :: r.1.calls }, r.2)
    match st.send.result with
    | .ok n =>
      let h := handleStream traceId s
      some (⟨.ready (.ok n), h.1, h.2, [c]⟩, none)
    | .error .done =>
      if s.quicheConn.isClosed then some (⟨.ready (.error (sendBrokenPipe traceId)), s, handleClose, [c]⟩, none)
      else
        match s.quicheConn.timeout with
        | none => some (⟨.pending, s, [], [c]⟩, none)
        | some expired =>
          if expired.isZero then again ()
          else
            match st.sleep with
            | .error e => some (⟨.ready (.error (.io e)), s, [], [c]⟩, none)
            | .ok true => again ()
            | .ok false => some (⟨.pending, s, [], [c]⟩, some expired)
    | .error e => some (⟨.ready (.error (.quiche e)), s, [], [c]⟩, none)

/-- The predicate of `send`. `sleep` is the `Sleep` the future holds from its last poll, and
`fired` the engine after `on_timeout()` when that `Sleep` is `Ready` now. -/
def sendPoll (traceId : String) (sleep : Option Duration) (fired : Option Quiche)
    (rounds : List SendRound) (s : QuicConnState) :
    Option (PollOutcome (Except ConnError Nat) × Option Duration) :=
  if s.quicheConn.isClosed then
    some (⟨.ready (.error (sendBrokenPipe traceId)), s, handleClose, []⟩, none)
  else
    match sleep, fired with
    | some _, some q =>
      (sendLoop traceId rounds { s with quicheConn := q }).map fun r =>
        ({ r.1 with calls := ⟨.onTimeout, s.quicheConn, .ok, q⟩ :: r.1.calls }, r.2)
    | _, _ => sendLoop traceId rounds s

/-- The predicate of `recv`. -/
def recvPoll (traceId : String) (call : Call Nat) (s : QuicConnState) :
    PollOutcome (Except ConnError Nat) :=
  if s.quicheConn.isClosed then ⟨.ready (.error (connClosed traceId)), s, handleClose, []⟩
  else
    let c : EngineCall := ⟨.recv, s.quicheConn, call.outcome, call.after⟩
    let s := { s with quicheConn := call.after }
    match call.result with
    | .ok recvSize =>
      if s.quicheConn.isClosed then ⟨.ready (.ok recvSize), s, handleClose, [c]⟩
      else
        let h := handleStream traceId s
        ⟨.ready (.ok recvSize), h.1, .notify (.send traceId) :: h.2, [c]⟩
    | .error .done => ⟨.pending, s, if s.quicheConn.isClosed then handleClose else [], [c]⟩
    | .error e =>
      ⟨.ready (.error (.quiche e)), s, if s.quicheConn.isClosed then handleClose else [], [c]⟩

/-- The predicate of `stream_send(stream_id, buf, fin)`. -/
def streamSendPoll (traceId : String) (streamId : UInt64) (fin : Bool) (call : Call Nat)
    (s : QuicConnState) : PollOutcome (Except ConnError Nat) :=
  if s.quicheConn.isClosed then ⟨.ready (.error (connClosed traceId)), s, handleClose, []⟩
  else
    let c : EngineCall := ⟨.streamSend streamId fin, s.quicheConn, call.outcome, call.after⟩
    let s := { s with quicheConn := call.after }
    let finished := if fin then { s with openedStreams := s.openedStreams.erase streamId } else s
    match call.result with
    | .ok n => ⟨.ready (.ok n), finished, [.notify (.send traceId)], [c]⟩
    | .error .done =>
      if s.quicheConn.isClosed then ⟨.ready (.error (connClosed traceId)), s, handleClose, [c]⟩
      else ⟨.pending, s, [], [c]⟩
    | .error e =>
      ⟨.ready (.error (.quiche e)), finished,
        if s.quicheConn.isClosed then handleClose else [], [c]⟩

/-- The predicate of `stream_recv(stream_id, buf)`: the byte count and the `fin` flag. -/
def streamRecvPoll (traceId : String) (streamId : UInt64) (call : Call (Nat × Bool))
    (s : QuicConnState) : PollOutcome (Except ConnError (Nat × Bool)) :=
  if s.quicheConn.isClosed then ⟨.ready (.error (connClosed traceId)), s, handleClose, []⟩
  else
    let c : EngineCall := ⟨.streamRecv streamId, s.quicheConn, call.outcome, call.after⟩
    let s := { s with quicheConn := call.after }
    match call.result with
    | .ok r =>
      if s.quicheConn.isClosed then ⟨.ready (.ok r), s, handleClose, [c]⟩
      else ⟨.ready (.ok r), s, [.notify (.recv traceId), .notify (.send traceId)], [c]⟩
    | .error .done =>
      if s.quicheConn.isClosed then ⟨.ready (.error (connClosed traceId)), s, handleClose, [c]⟩
      else ⟨.pending, s, [], [c]⟩
    | .error e =>
      ⟨.ready (.error (.quiche e)), s, if s.quicheConn.isClosed then handleClose else [], [c]⟩

/-- The predicate of `open_stream`, for the id `fetch_add` took; the stream it returns is the id. -/
def openStreamPoll (traceId : String) (id : UInt64) (s : QuicConnState) :
    PollOutcome (Except ConnError UInt64) :=
  if s.quicheConn.isClosed then
    ⟨.ready (.error (.io ⟨.brokenPipe, "Quic conn closed: " ++ traceId⟩)), s, [], []⟩
  else ⟨.ready (.ok id), s, [.notify (.send traceId)], []⟩

/-- The predicate of `accept`; the stream it returns is the id. -/
def acceptPoll (s : QuicConnState) : PollOutcome (Option UInt64) :=
  if s.quicheConn.isClosed then ⟨.ready none, s, [], []⟩
  else
    match s.incomingStreams with
    | id :: rest => ⟨.ready (some id), { s with incomingStreams := rest }, [], []⟩
    | [] => ⟨.pending, s, [], []⟩

/-- `close(app, err, reason)`, run under `with_mut`: no predicate, no waker. -/
def closeConn (call : Call Unit) (s : QuicConnState) :
    Except ConnError Unit × QuicConnState × List EngineCall :=
  (call.result.mapError .quiche, { s with quicheConn := call.after },
    [⟨.close, s.quicheConn, call.outcome, call.after⟩])

/-- `is_stream_closed`. -/
def isStreamClosed (s : QuicConnState) (streamId : UInt64) : Bool :=
  decide (streamId ∈ s.quicheConn.finished)

/-- `is_closed`. -/
def isClosed (s : QuicConnState) : Bool := s.quicheConn.isClosed

/-! ## A closed engine and the `Done` branches -/

/-- **`recv` parks on an engine its own call closed.** When `engine.recv` answers `Done` and
leaves the engine closed, `recv`'s predicate calls `handle_close` and still answers `Pending`, so
the caller's waker is registered after `wakeup_all` has run. The `Done` branches of `stream_send`
and `stream_recv` answer the same engine with `BrokenPipe`. -/
theorem recv_done_parks_after_close (traceId : String) (streamId : UInt64) (fin : Bool)
    (s : QuicConnState) (after : Quiche) (hopen : s.quicheConn.isClosed = false)
    (hclosed : after.isClosed = true) :
    (recvPoll traceId ⟨.error .done, after⟩ s).poll = .pending ∧
      (recvPoll traceId ⟨.error .done, after⟩ s).signals = handleClose ∧
      (streamSendPoll traceId streamId fin ⟨.error .done, after⟩ s).poll =
        .ready (.error (connClosed traceId)) ∧
      (streamRecvPoll traceId streamId ⟨.error .done, after⟩ s).poll =
        .ready (.error (connClosed traceId)) := by
  simp [recvPoll, streamSendPoll, streamRecvPoll, hopen, hclosed]

/-- An engine with nothing to report, no timer and no streams. -/
def Quiche.idle : Quiche := ⟨false, [], [], none, false, ∅, ∅⟩

theorem recv_done_parks_on_fresh_conn :
    (recvPoll "c" ⟨.error .done, { Quiche.idle with isClosed := true }⟩
        (QuicConnState.new Quiche.idle)).poll = .pending ∧
      (recvPoll "c" ⟨.error .done, { Quiche.idle with isClosed := true }⟩
        (QuicConnState.new Quiche.idle)).signals = handleClose ∧
      (streamSendPoll "c" 4 true ⟨.error .done, { Quiche.idle with isClosed := true }⟩
        (QuicConnState.new Quiche.idle)).poll = .ready (.error (connClosed "c")) ∧
      (streamRecvPoll "c" 4 ⟨.error .done, { Quiche.idle with isClosed := true }⟩
        (QuicConnState.new Quiche.idle)).poll = .ready (.error (connClosed "c")) :=
  recv_done_parks_after_close "c" 4 true _ _ rfl rfl

end HalaIo
