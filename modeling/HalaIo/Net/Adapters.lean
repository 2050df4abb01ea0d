import HalaIo.Driver.Handles

/-!
# The socket adapters

Each adapter owns a handle, the poller it is registered with, and the driver. There are two
families of them.

* `crates/net/tcp` (`Tcp`): `TcpListener::bind_with` and `TcpStream::new_with` close the handle
  when its `Register` fails, and `Drop` deregisters the handle and then closes it, unwrapping both
  answers. A constructor that fails leaves the driver as it found it (`Driver.CleanExit`);
  `Net/Ownership.lean` follows these adapters over whole runs.
* `hala-io-driver` (`IoDriver`, `net.rs` and `fs.rs`): every driver error propagates with `?`,
  and nothing calls `fd_close`. A handle obtained before a later call fails stays open after the
  constructor has returned `Err`, which hands it to no one
  (`ioDriver_constructors_leak_on_error`). The proofs that nothing calls `fd_close` follow each
  program's binds.

Inputs the adapters read from outside the driver enter as their results: `to_socket_addrs()` and
`get_driver()`. The `Driver` value itself is left out, since the model has one driver.
-/

namespace HalaIo

open DriverM

/-! ## `crates/net/tcp` -/

namespace Tcp

/-- `TcpListener { fd, poller, driver }`. -/
structure TcpListener where
  fd : Handle
  poller : Handle
deriving DecidableEq

/-- `TcpStream { fd, poller, driver }`. -/
structure TcpStream where
  fd : Handle
  poller : Handle
deriving DecidableEq

/-- The block that `bind_with` and `new_with` share: `Register` the new handle with the poller
and, if that fails, `fd_close` it (ignoring the result) and return the error. -/
def registerOrClose (ans : DriverAnswers) (poller fd : Handle) (interests : Interest) :
    DriverM Unit := do
  match ← fdCntl ans poller (.register fd interests) with
  | .error err =>
    let _ ← fdClose ans fd
    throw err
  | .ok _ => pure ()

/-- `TcpStream::new_with`. -/
def TcpStream.newWith (ans : DriverAnswers) (fd poller : Handle) : DriverM TcpStream := do
  registerOrClose ans poller fd ⟨true, true⟩
  return ⟨fd, poller⟩

/-- `TcpStream::connect_with`, given what `get_driver()` and `raddrs.to_socket_addrs()`
return. -/
def TcpStream.connectWith (ans : DriverAnswers) (getDriver : Except IoError Unit)
    (raddrs : Except IoError (List SocketAddr)) (poller : Handle) : DriverM TcpStream := do
  liftExcept getDriver
  let raddrs ← liftExcept raddrs
  let fd ← liftExcept (← fdOpen ans .tcpStream (.connect raddrs))
  TcpStream.newWith ans fd poller

/-- `TcpListener::bind_with`, given what `laddrs.to_socket_addrs()` returns. -/
def TcpListener.bindWith (ans : DriverAnswers) (laddrs : Except IoError (List SocketAddr))
    (poller : Handle) : DriverM TcpListener := do
  let laddrs ← liftExcept laddrs
  let fd ← liftExcept (← fdOpen ans .tcpListener (.bind laddrs))
  registerOrClose ans poller fd .readableOnly
  return ⟨fd, poller⟩

/-- `TcpListener::accept_with`. `ans` answers the `Accept` round that completed: the rounds
before it answered `WouldBlock`, suspending the `would_block` future without touching a
handle. -/
def TcpListener.acceptWith (l : TcpListener) (ans : DriverAnswers) (poller : Handle) :
    DriverM (TcpStream × SocketAddr) := do
  let resp ← liftExcept (← fdCntl ans l.fd .accept)
  let (handle, raddr) ← liftExcept resp.tryIntoIncoming
  let stream ← TcpStream.newWith ans handle poller
  return (stream, raddr)

/-- The `Drop` of both adapters: `Deregister(fd)` with the poller, then `fd_close(fd)`, each
answer unwrapped. -/
def dropHandle (ans : DriverAnswers) (fd poller : Handle) : DriverM Unit := do
  let _ ← unwrap (← fdCntl ans poller (.deregister fd))
  unwrap (← fdClose ans fd)

/-- `Drop for TcpListener`. -/
def TcpListener.drop (l : TcpListener) (ans : DriverAnswers) : DriverM Unit :=
  dropHandle ans l.fd l.poller

/-- `Drop for TcpStream`. -/
def TcpStream.drop (s : TcpStream) (ans : DriverAnswers) : DriverM Unit :=
  dropHandle ans s.fd s.poller

end Tcp

/-- How a constructor run against the driver `d` leaves it, when the handles in use are `hs`.
It does not panic, and the handles it obtained are not in `hs`. On `Err` the driver is as it was,
and the constructor closed every handle it obtained (at most one). On `Ok` it obtained exactly the
new adapter's handle `fd a`, now open and registered, and closed nothing. -/
def Driver.CleanExit {α : Type} (d : Driver) (hs : Finset Handle) (fd : α → Handle) :
    Option (Except IoError α × List DriverCall) → Prop
  | some (.error _, calls) =>
    d.runCalls calls = d ∧ closedBy calls = obtainedBy calls ∧ (obtainedBy calls).length ≤ 1 ∧
      ∀ h ∈ obtainedBy calls, h ∉ hs
  | some (.ok a, calls) =>
    d.runCalls calls = d.acquire (fd a) ∧ closedBy calls = [] ∧ obtainedBy calls = [fd a] ∧
      fd a ∉ hs
  | none => False

theorem Driver.CleanExit.map {α β : Type} {d : Driver} {hs : Finset Handle} {fd : β → Handle}
    {g : α → β} {m : DriverM α} (h : d.CleanExit hs (fd ∘ g) (m.exec [])) :
    d.CleanExit hs fd ((g <$> m).exec []) := by
  rw [exec_map]
  rcases hm : m.exec [] with _ | ⟨_ | _, _⟩ <;> rw [hm] at h <;> exact h

/-- Every run of a program from the driver `d`, whatever it returns, works only on open
handles. -/
def Driver.CallsOnOpen {α : Type} (d : Driver) (r : Option (Except IoError α × List DriverCall)) :
    Prop :=
  ∀ x ∈ r, d.OnOpen x.2

theorem Driver.CallsOnOpen.map {α β : Type} {d : Driver} {g : α → β} {m : DriverM α}
    (h : d.CallsOnOpen (m.exec [])) : d.CallsOnOpen ((g <$> m).exec []) := by
  intro x hx
  rw [exec_map] at hx
  obtain ⟨⟨_ | _, calls⟩, hy, rfl⟩ := Option.map_eq_some'.mp hx <;> exact h _ hy

namespace Tcp

/-! ### The constructors clean up after themselves -/

theorem registerOrClose_exec (ans : DriverAnswers) (poller fd : Handle) (i : Interest)
    (log : List DriverCall) :
    (registerOrClose ans poller fd i).exec log =
      match ans.fdCntl poller (.register fd i) with
      | .error e => some (.error e,
          log ++ [.fdCntl poller (.register fd i) (.error e), .fdClose fd (ans.fdClose fd)])
      | .ok r => some (.ok (), log ++ [.fdCntl poller (.register fd i) (.ok r)]) := by
  simp only [registerOrClose, exec_bind, exec_fdCntl, Option.some_bind]
  cases ans.fdCntl poller (.register fd i) <;> simp

theorem TcpStream.newWith_exec (ans : DriverAnswers) (fd poller : Handle) (log : List DriverCall) :
    (TcpStream.newWith ans fd poller).exec log =
      match ans.fdCntl poller (.register fd ⟨true, true⟩) with
      | .error e => some (.error e, log ++
          [.fdCntl poller (.register fd ⟨true, true⟩) (.error e), .fdClose fd (ans.fdClose fd)])
      | .ok r =>
        some (.ok ⟨fd, poller⟩, log ++ [.fdCntl poller (.register fd ⟨true, true⟩) (.ok r)]) := by
  simp only [TcpStream.newWith, exec_bind, registerOrClose_exec]
  cases ans.fdCntl poller (.register fd ⟨true, true⟩) <;> rfl

variable {d : Driver} {hs : Finset Handle} {ans : DriverAnswers}

theorem TcpListener.bindWith_clean (hf : ans.Fresh hs) (hd : d.opened ⊆ hs) (hc : ans.ClosesOk)
    (laddrs : Except IoError (List SocketAddr)) (poller : Handle) :
    d.CleanExit hs TcpListener.fd ((TcpListener.bindWith ans laddrs poller).exec []) := by
  cases laddrs with
  | error e => simp [TcpListener.bindWith, Driver.CleanExit]
  | ok addrs =>
    cases hopen : ans.fdOpen .tcpListener (.bind addrs) with
    | error e =>
      simp [TcpListener.bindWith, Driver.CleanExit, hopen, DriverCall.obtained, DriverCall.closed]
    | ok fd =>
      have hfd := hf.fdOpen _ _ _ hopen
      cases hreg : ans.fdCntl poller (.register fd .readableOnly) with
      | error e =>
        simp [TcpListener.bindWith, Driver.CleanExit, hopen, registerOrClose_exec, hreg, hc fd,
          DriverCall.obtained, DriverCall.closed, Finset.erase_insert fun h => hfd (hd h), hfd]
      | ok r =>
        simp [TcpListener.bindWith, Driver.CleanExit, hopen, registerOrClose_exec, hreg,
          DriverCall.obtained, DriverCall.closed, Driver.acquire, hfd]

theorem TcpStream.connectWith_clean (hf : ans.Fresh hs) (hd : d.opened ⊆ hs) (hc : ans.ClosesOk)
    (getDriver : Except IoError Unit) (raddrs : Except IoError (List SocketAddr)) (poller : Handle) :
    d.CleanExit hs TcpStream.fd ((TcpStream.connectWith ans getDriver raddrs poller).exec []) := by
  cases getDriver with
  | error e => simp [TcpStream.connectWith, Driver.CleanExit]
  | ok u =>
    cases raddrs with
    | error e => simp [TcpStream.connectWith, Driver.CleanExit]
    | ok addrs =>
      cases hopen : ans.fdOpen .tcpStream (.connect addrs) with
      | error e =>
        simp [TcpStream.connectWith, Driver.CleanExit, hopen, DriverCall.obtained, DriverCall.closed]
      | ok fd =>
        have hfd := hf.fdOpen _ _ _ hopen
        cases hreg : ans.fdCntl poller (.register fd ⟨true, true⟩) with
        | error e =>
          simp [TcpStream.connectWith, Driver.CleanExit, hopen, TcpStream.newWith_exec, hreg, hc fd,
            DriverCall.obtained, DriverCall.closed, Finset.erase_insert fun h => hfd (hd h), hfd]
        | ok r =>
          simp [TcpStream.connectWith, Driver.CleanExit, hopen, TcpStream.newWith_exec, hreg,
            DriverCall.obtained, DriverCall.closed, Driver.acquire, hfd]

theorem TcpListener.acceptWith_clean (hf : ans.Fresh hs) (hd : d.opened ⊆ hs) (hc : ans.ClosesOk)
    (l : TcpListener) (poller : Handle) :
    d.CleanExit hs (fun r : TcpStream × SocketAddr => r.1.fd) ((l.acceptWith ans poller).exec []) := by
  cases hacc : ans.fdCntl l.fd .accept with
  | error e =>
    simp [TcpListener.acceptWith, Driver.CleanExit, hacc, DriverCall.obtained, DriverCall.closed]
  | ok resp =>
    cases resp with
    | incoming fd raddr =>
      have hfd := hf.accept _ _ _ hacc
      cases hreg : ans.fdCntl poller (.register fd ⟨true, true⟩) with
      | error e =>
        simp [TcpListener.acceptWith, Driver.CleanExit, hacc, CmdResp.tryIntoIncoming,
          TcpStream.newWith_exec, hreg, hc fd, DriverCall.obtained, DriverCall.closed,
          Finset.erase_insert fun h => hfd (hd h), hfd]
      | ok r =>
        simp [TcpListener.acceptWith, Driver.CleanExit, hacc, CmdResp.tryIntoIncoming,
          TcpStream.newWith_exec, hreg, DriverCall.obtained, DriverCall.closed, Driver.acquire, hfd]
    | _ =>
      simp [TcpListener.acceptWith, Driver.CleanExit, hacc, CmdResp.tryIntoIncoming,
        DriverCall.obtained, DriverCall.closed, Driver.apply]

/-! ### The constructors work only on open handles

A constructor registers the handle `fd_open` or `Accept` has just opened, and closes it only
after a failed `Register`; `accept_with` asks `Accept` of its listener. Whatever the driver
answers, each call works on a handle open when it is made. -/

theorem TcpListener.bindWith_onOpen (laddrs : Except IoError (List SocketAddr))
    (poller : Handle) : d.CallsOnOpen ((TcpListener.bindWith ans laddrs poller).exec []) := by
  cases laddrs with
  | error e => simp [TcpListener.bindWith, Driver.CallsOnOpen, Driver.OnOpen]
  | ok addrs =>
    cases hopen : ans.fdOpen .tcpListener (.bind addrs) with
    | error e =>
      simp [TcpListener.bindWith, Driver.CallsOnOpen, Driver.OnOpen, hopen, DriverCall.target]
    | ok fd =>
      cases hreg : ans.fdCntl poller (.register fd .readableOnly) <;>
        simp [TcpListener.bindWith, Driver.CallsOnOpen, Driver.OnOpen, hopen,
          registerOrClose_exec, hreg, DriverCall.target]

theorem TcpStream.connectWith_onOpen (getDriver : Except IoError Unit)
    (raddrs : Except IoError (List SocketAddr)) (poller : Handle) :
    d.CallsOnOpen ((TcpStream.connectWith ans getDriver raddrs poller).exec []) := by
  cases getDriver with
  | error e => simp [TcpStream.connectWith, Driver.CallsOnOpen, Driver.OnOpen]
  | ok u =>
    cases raddrs with
    | error e => simp [TcpStream.connectWith, Driver.CallsOnOpen, Driver.OnOpen]
    | ok addrs =>
      cases hopen : ans.fdOpen .tcpStream (.connect addrs) with
      | error e =>
        simp [TcpStream.connectWith, Driver.CallsOnOpen, Driver.OnOpen, hopen, DriverCall.target]
      | ok fd =>
        cases hreg : ans.fdCntl poller (.register fd ⟨true, true⟩) <;>
          simp [TcpStream.connectWith, Driver.CallsOnOpen, Driver.OnOpen, hopen,
            TcpStream.newWith_exec, hreg, DriverCall.target]

theorem TcpListener.acceptWith_onOpen {l : TcpListener} (hl : l.fd ∈ d.opened)
    (poller : Handle) : d.CallsOnOpen ((l.acceptWith ans poller).exec []) := by
  cases hacc : ans.fdCntl l.fd .accept with
  | error e =>
    simp [TcpListener.acceptWith, Driver.CallsOnOpen, Driver.OnOpen, hacc, DriverCall.target, hl]
  | ok resp =>
    cases resp with
    | incoming fd raddr =>
      cases hreg : ans.fdCntl poller (.register fd ⟨true, true⟩) <;>
        simp [TcpListener.acceptWith, Driver.CallsOnOpen, Driver.OnOpen, hacc,
          CmdResp.tryIntoIncoming, TcpStream.newWith_exec, hreg, DriverCall.target, hl]
    | _ =>
      simp [TcpListener.acceptWith, Driver.CallsOnOpen, Driver.OnOpen, hacc,
        CmdResp.tryIntoIncoming, DriverCall.target, hl]

/-! ### `Drop` -/

/-- **`Drop` deregisters, then closes.** When the driver answers `Deregister(fd)` and
`fd_close(fd)` with success, `Drop` makes exactly these two calls, in this order, and the handle
leaves both sets; when either fails, `Drop` panics. -/
theorem dropHandle_exec (fd poller : Handle) :
    (dropHandle ans fd poller).exec [] =
      match ans.fdCntl poller (.deregister fd), ans.fdClose fd with
      | .ok r, .ok () =>
        some (.ok (), [.fdCntl poller (.deregister fd) (.ok r), .fdClose fd (.ok ())])
      | _, _ => none := by
  simp only [dropHandle, exec_bind, exec_fdCntl, exec_fdClose, Option.some_bind]
  cases ans.fdCntl poller (.deregister fd) <;> cases ans.fdClose fd <;> rfl

theorem dropHandle_onOpen {fd : Handle} (hfd : fd ∈ d.opened) (poller : Handle) :
    d.CallsOnOpen ((dropHandle ans fd poller).exec []) := by
  rw [dropHandle_exec]
  cases ans.fdCntl poller (.deregister fd) <;> cases ans.fdClose fd <;>
    simp [Driver.CallsOnOpen, Driver.OnOpen, DriverCall.target, hfd]

theorem runCalls_drop (d : Driver) (fd poller : Handle) (r : CmdResp) :
    d.runCalls [.fdCntl poller (.deregister fd) (.ok r), .fdClose fd (.ok ())] = d.release fd := rfl

end Tcp

/-! ## `hala-io-driver` -/

namespace IoDriver

/-- `TcpListener { driver, handle, poller }`. -/
structure TcpListener where
  handle : Handle
  poller : Handle

/-- `TcpStream { driver, poller, handle }`. -/
structure TcpStream where
  poller : Handle
  handle : Handle

/-- `UdpSocket { driver, poller, handle }`. -/
structure UdpSocket where
  poller : Handle
  handle : Handle

/-- `File { driver, handle, poller }`. -/
structure File where
  handle : Handle
  poller : Handle

/-- The body that `TcpListener::bind` and `UdpSocket::bind` share, for a handle of
description `desc`: `fd_open`, `to_socket_addrs`, `Bind`, then `Register` for reading, each
followed by `?`. -/
def bindHandle (desc : Description) (ans : DriverAnswers) (poller : Handle)
    (laddrs : Except IoError (List SocketAddr)) : DriverM Handle := do
  let handle ← liftExcept (← fdOpen ans desc .none)
  let laddrs ← liftExcept laddrs
  let _ ← liftExcept (← fdCntl ans handle (.bind laddrs))
  let _ ← liftExcept (← fdCntl ans poller (.register handle .readableOnly))
  return handle

/-- `TcpListener::bind`. -/
def TcpListener.bind (ans : DriverAnswers) (poller : Handle)
    (laddrs : Except IoError (List SocketAddr)) : DriverM TcpListener := do
  let handle ← bindHandle .tcpListener ans poller laddrs
  return ⟨handle, poller⟩

/-- `UdpSocket::bind`. -/
def UdpSocket.bind (ans : DriverAnswers) (poller : Handle)
    (laddrs : Except IoError (List SocketAddr)) : DriverM UdpSocket := do
  let handle ← bindHandle .udpSocket ans poller laddrs
  return ⟨poller, handle⟩

/-- `TcpStream::new`. -/
def TcpStream.new (ans : DriverAnswers) (poller handle : Handle) : DriverM TcpStream := do
  let _ ← liftExcept (← fdCntl ans poller (.register handle ⟨true, true⟩))
  return ⟨poller, handle⟩

/-- `TcpStream::connect`. -/
def TcpStream.connect (ans : DriverAnswers) (poller : Handle)
    (raddrs : Except IoError (List SocketAddr)) : DriverM TcpStream := do
  let handle ← liftExcept (← fdOpen ans .tcpStream .none)
  let raddrs ← liftExcept raddrs
  let _ ← liftExcept (← fdCntl ans handle (.connect raddrs))
  TcpStream.new ans poller handle

/-- `TcpListener::accept`. -/
def TcpListener.accept (l : TcpListener) (ans : DriverAnswers) :
    DriverM (TcpStream × SocketAddr) := do
  let resp ← liftExcept (← fdCntl ans l.handle .accept)
  let (handle, raddr) ← liftExcept resp.tryIntoIncoming
  let stream ← TcpStream.new ans l.poller handle
  return (stream, raddr)

/-- `File::new`. -/
def File.new (ans : DriverAnswers) (poller : Handle) (path : String) (interests : Interest) :
    DriverM File := do
  let handle ← liftExcept (← fdOpen ans .file .none)
  let _ ← liftExcept (← fdCntl ans handle (.openFile path))
  let _ ← liftExcept (← fdCntl ans poller (.register handle interests))
  return ⟨handle, poller⟩

/-! ### None of them calls `fd_close` -/

theorem bindHandle_noClose (desc : Description) (ans : DriverAnswers) (poller : Handle)
    (laddrs : Except IoError (List SocketAddr)) : (bindHandle desc ans poller laddrs).NoClose :=
  .bind (.fdOpen _ _ _) fun _ => .bind (.liftExcept _) fun _ => .bind (.liftExcept _) fun _ =>
    .bind (.fdCntl _ _ _) fun _ => .bind (.liftExcept _) fun _ => .bind (.fdCntl _ _ _) fun _ =>
      .bind (.liftExcept _) fun _ => .pure _

theorem TcpListener.bind_noClose (ans : DriverAnswers) (poller : Handle)
    (laddrs : Except IoError (List SocketAddr)) : (TcpListener.bind ans poller laddrs).NoClose :=
  .bind (bindHandle_noClose _ _ _ _) fun _ => .pure _

theorem UdpSocket.bind_noClose (ans : DriverAnswers) (poller : Handle)
    (laddrs : Except IoError (List SocketAddr)) : (UdpSocket.bind ans poller laddrs).NoClose :=
  .bind (bindHandle_noClose _ _ _ _) fun _ => .pure _

theorem TcpStream.new_noClose (ans : DriverAnswers) (poller handle : Handle) :
    (TcpStream.new ans poller handle).NoClose :=
  .bind (.fdCntl _ _ _) fun _ => .bind (.liftExcept _) fun _ => .pure _

theorem TcpStream.connect_noClose (ans : DriverAnswers) (poller : Handle)
    (raddrs : Except IoError (List SocketAddr)) : (TcpStream.connect ans poller raddrs).NoClose :=
  .bind (.fdOpen _ _ _) fun _ => .bind (.liftExcept _) fun _ => .bind (.liftExcept _) fun _ =>
    .bind (.fdCntl _ _ _) fun _ => .bind (.liftExcept _) fun _ => new_noClose _ _ _

theorem TcpListener.accept_noClose (l : TcpListener) (ans : DriverAnswers) :
    (l.accept ans).NoClose :=
  .bind (.fdCntl _ _ _) fun _ => .bind (.liftExcept _) fun _ => .bind (.liftExcept _) fun _ =>
    .bind (TcpStream.new_noClose _ _ _) fun _ => .pure _

theorem File.new_noClose (ans : DriverAnswers) (poller : Handle) (path : String)
    (interests : Interest) : (File.new ans poller path interests).NoClose :=
  .bind (.fdOpen _ _ _) fun _ => .bind (.liftExcept _) fun _ => .bind (.fdCntl _ _ _) fun _ =>
    .bind (.liftExcept _) fun _ => .bind (.fdCntl _ _ _) fun _ => .bind (.liftExcept _) fun _ =>
      .pure _

end IoDriver

/-- A program run against the driver `d` that returns `Err` leaves every handle it obtained
open. -/
def KeepsOpenOnError {α : Type} (d : Driver) (r : Option (Except IoError α × List DriverCall)) :
    Prop :=
  ∀ e calls, r = some (.error e, calls) → ∀ h ∈ obtainedBy calls, h ∈ (d.runCalls calls).opened

theorem DriverM.NoClose.keepsOpenOnError {α : Type} {m : DriverM α} (hm : m.NoClose)
    (d : Driver) : KeepsOpenOnError d (m.exec []) := by
  intro e calls h
  obtain ⟨c, rfl, hc⟩ := hm _ _ _ h
  exact d.obtained_opened_of_closedBy_nil _ hc

/-- **The `hala-io-driver` constructors leak the handles they obtained when they fail.** None of
`TcpListener::bind`, `TcpListener::accept`, `TcpStream::connect`, `UdpSocket::bind` and
`File::new` calls `fd_close`. So, whatever the driver answers and in every driver state, a
constructor that returns `Err` leaves every handle it obtained from `fd_open` or from an `Accept`
result open, and no adapter owns it. -/
theorem ioDriver_constructors_leak_on_error (d : Driver) (ans : DriverAnswers) (poller : Handle) :
    (∀ laddrs, KeepsOpenOnError d ((IoDriver.TcpListener.bind ans poller laddrs).exec [])) ∧
    (∀ l : IoDriver.TcpListener, KeepsOpenOnError d ((l.accept ans).exec [])) ∧
    (∀ raddrs, KeepsOpenOnError d ((IoDriver.TcpStream.connect ans poller raddrs).exec [])) ∧
    (∀ laddrs, KeepsOpenOnError d ((IoDriver.UdpSocket.bind ans poller laddrs).exec [])) ∧
    (∀ path interests,
      KeepsOpenOnError d ((IoDriver.File.new ans poller path interests).exec [])) :=
  ⟨fun _ => (IoDriver.TcpListener.bind_noClose _ _ _).keepsOpenOnError d,
    fun l => (l.accept_noClose ans).keepsOpenOnError d,
    fun _ => (IoDriver.TcpStream.connect_noClose _ _ _).keepsOpenOnError d,
    fun _ => (IoDriver.UdpSocket.bind_noClose _ _ _).keepsOpenOnError d,
    fun _ _ => (IoDriver.File.new_noClose _ _ _ _).keepsOpenOnError d⟩

/-- A driver that hands out a handle, then fails the next command on it: `Bind` with
`AddrInUse`, `Connect` with `NotConnected`, `OpenFile` with `NotFound`, and `Register` with
`InvalidInput`. `fd_open` returns token 1, and `Accept` returns the stream handle of token 2. -/
def failsAfterOpen : DriverAnswers where
  fdOpen desc _ := .ok ⟨desc, ⟨1⟩⟩
  fdCntl _ cmd := match cmd with
    | .bind _ => .error ⟨.addrInUse, "address in use"⟩
    | .connect _ => .error ⟨.notConnected, "not connected"⟩
    | .openFile _ => .error ⟨.notFound, "not found"⟩
    | .register _ _ => .error ⟨.invalidInput, "register"⟩
    | .accept => .ok (.incoming ⟨.tcpStream, ⟨2⟩⟩ ⟨0⟩)
    | .deregister _ => .ok .none
  fdClose _ := .ok ()

/-- The run `r` returned `Err` after obtaining `h`, which is open in the driver `d` after it. -/
def LeaksOnError {α : Type} (d : Driver) (h : Handle)
    (r : Option (Except IoError α × List DriverCall)) : Prop :=
  ∃ e calls, r = some (.error e, calls) ∧ h ∈ obtainedBy calls ∧ h ∈ (d.runCalls calls).opened

/-- Against `failsAfterOpen`, from a driver with no handles, each of the five constructors
returns `Err` and leaves the handle it obtained open. -/
theorem ioDriver_constructors_leak_on_failing_driver :
    LeaksOnError ⟨∅, ∅⟩ ⟨.tcpListener, ⟨1⟩⟩
      ((IoDriver.TcpListener.bind failsAfterOpen ⟨.poller, ⟨0⟩⟩ (.ok [])).exec []) ∧
    LeaksOnError ⟨∅, ∅⟩ ⟨.tcpStream, ⟨2⟩⟩
      ((IoDriver.TcpListener.accept ⟨⟨.tcpListener, ⟨1⟩⟩, ⟨.poller, ⟨0⟩⟩⟩ failsAfterOpen).exec []) ∧
    LeaksOnError ⟨∅, ∅⟩ ⟨.tcpStream, ⟨1⟩⟩
      ((IoDriver.TcpStream.connect failsAfterOpen ⟨.poller, ⟨0⟩⟩ (.ok [])).exec []) ∧
    LeaksOnError ⟨∅, ∅⟩ ⟨.udpSocket, ⟨1⟩⟩
      ((IoDriver.UdpSocket.bind failsAfterOpen ⟨.poller, ⟨0⟩⟩ (.ok [])).exec []) ∧
    LeaksOnError ⟨∅, ∅⟩ ⟨.file, ⟨1⟩⟩
      ((IoDriver.File.new failsAfterOpen ⟨.poller, ⟨0⟩⟩ "log" ⟨true, false⟩).exec []) :=
  have leak := ioDriver_constructors_leak_on_error ⟨∅, ∅⟩ failsAfterOpen ⟨.poller, ⟨0⟩⟩
  ⟨⟨_, _, rfl, by decide, leak.1 (.ok []) _ _ rfl _ (by decide)⟩,
    ⟨_, _, rfl, by decide, leak.2.1 ⟨⟨.tcpListener, ⟨1⟩⟩, ⟨.poller, ⟨0⟩⟩⟩ _ _ rfl _ (by decide)⟩,
    ⟨_, _, rfl, by decide, leak.2.2.1 (.ok []) _ _ rfl _ (by decide)⟩,
    ⟨_, _, rfl, by decide, leak.2.2.2.1 (.ok []) _ _ rfl _ (by decide)⟩,
    ⟨_, _, rfl, by decide, leak.2.2.2.2 "log" ⟨true, false⟩ _ _ rfl _ (by decide)⟩⟩

end HalaIo
