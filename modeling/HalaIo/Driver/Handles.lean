import HalaIo.Poller.MioPoller

/-!
# The driver's handles

The driver contract of `hala-io`: `fd_open(description, open_flags) → Handle`,
`fd_cntl(Handle, Cmd) → Result` and `fd_close(Handle)`. The driver itself is not among the
modelled sources. What it answers enters the model as input, one `DriverAnswers` per adapter call,
and what a call does to the handles follows the contract. The driver keeps the set of open handles
and the set of handles registered with a poller:

* a successful `fd_open`, or an `Accept` whose result is an incoming connection, opens a handle;
* a successful `Register` or `Deregister` adds its source to the registered set or takes it out;
* a successful `fd_close` closes its handle;
* a call that fails changes nothing.

Tokens are process-unique, so a handle the driver hands out is not open already: the adapters'
theorems take that as a hypothesis on the answers (`DriverAnswers.Fresh`).

Adapters are programs in `DriverM`, which logs every driver call with the answer it got. A Rust
`?` is `liftExcept`, and a panic (`unwrap` of an error) is `none`, as elsewhere in the model.
-/

namespace HalaIo

/-! ## Handles, commands and results -/

/-- `Description`: what a handle stands for. -/
inductive Description where
  | file
  | tcpListener
  | tcpStream
  | udpSocket
  | timeout
  | poller
deriving DecidableEq, Repr

/-- `Handle { desc, token }`. -/
structure Handle where
  desc : Description
  token : Token
deriving DecidableEq, Repr

/-- A resolved `SocketAddr`; the adapters pass addresses through without reading them. -/
structure SocketAddr where
  val : Nat
deriving DecidableEq, Repr

/-- `OpenFlags`. The adapters of `hala-io-driver` call `fd_open(description)` with no flags,
which is `none`. -/
inductive OpenFlags where
  | none
  | bind (laddrs : List SocketAddr)
  | connect (raddrs : List SocketAddr)

/-- The commands the adapters send through `fd_cntl` (`Cmd`, or `CtlOps` in `hala-io-driver`,
whose `Register` takes a slice of handles: the adapters pass one). The waker of `Accept` is left
out, since it does not touch the handles. -/
inductive Cmd where
  | bind (laddrs : List SocketAddr)
  | connect (raddrs : List SocketAddr)
  | accept
  | openFile (path : String)
  | register (source : Handle) (interests : Interest)
  | deregister (source : Handle)

/-- `CmdResp`, the tagged union of `fd_cntl` results. -/
inductive CmdResp where
  | none
  | dataLen (len : Nat)
  | sockAddr (addr : SocketAddr)
  | incoming (handle : Handle) (raddr : SocketAddr)

/-- `try_into_incoming`: any variant other than `Incoming` is an invalid result coercion. -/
def CmdResp.tryIntoIncoming : CmdResp → Except IoError (Handle × SocketAddr)
  | .incoming handle raddr => .ok (handle, raddr)
  | _ => .error ⟨.invalidInput, "invalid result coercion"⟩

/-- One driver call of an adapter, with the driver's answer. -/
inductive DriverCall where
  | fdOpen (desc : Description) (flags : OpenFlags) (answer : Except IoError Handle)
  | fdCntl (handle : Handle) (cmd : Cmd) (answer : Except IoError CmdResp)
  | fdClose (handle : Handle) (answer : Except IoError Unit)

/-- What the driver answers during one adapter call. -/
structure DriverAnswers where
  fdOpen : Description → OpenFlags → Except IoError Handle
  fdCntl : Handle → Cmd → Except IoError CmdResp
  fdClose : Handle → Except IoError Unit

/-- The handles `ans` hands out, from `fd_open` or as an incoming connection of `Accept`, are
outside `hs`: tokens are process-unique. -/
structure DriverAnswers.Fresh (ans : DriverAnswers) (hs : Finset Handle) : Prop where
  fdOpen : ∀ desc flags h, ans.fdOpen desc flags = .ok h → h ∉ hs
  accept : ∀ l h raddr, ans.fdCntl l .accept = .ok (.incoming h raddr) → h ∉ hs

/-- Every `fd_close` succeeds. -/
def DriverAnswers.ClosesOk (ans : DriverAnswers) : Prop := ∀ h, ans.fdClose h = .ok ()

namespace DriverCall

/-- The handle a call hands out: that of a successful `fd_open`, or of an incoming connection
returned by `Accept`. -/
def obtained : DriverCall → Option Handle
  | .fdOpen _ _ (.ok h) => some h
  | .fdCntl _ .accept (.ok (.incoming h _)) => some h
  | _ => none

/-- The handle a call asks the driver to close. -/
def closed : DriverCall → Option Handle
  | .fdClose h _ => some h
  | _ => none

/-- The handle a call works on, beside the poller it goes through: the listener of `Accept`,
the source of `Register` and `Deregister`, the handle of `fd_close`. -/
def target : DriverCall → Option Handle
  | .fdCntl h .accept _ => some h
  | .fdCntl _ (.register source _) _ => some source
  | .fdCntl _ (.deregister source) _ => some source
  | .fdClose h _ => some h
  | _ => none

end DriverCall

/-- The handles a sequence of calls hands out, in order. -/
def obtainedBy (calls : List DriverCall) : List Handle := calls.filterMap DriverCall.obtained

/-- The handles a sequence of calls closes, in order. -/
def closedBy (calls : List DriverCall) : List Handle := calls.filterMap DriverCall.closed

@[simp] theorem obtainedBy_nil : obtainedBy [] = [] := rfl

@[simp] theorem obtainedBy_append (c c' : List DriverCall) :
    obtainedBy (c ++ c') = obtainedBy c ++ obtainedBy c' := List.filterMap_append _ _ _

@[simp] theorem closedBy_nil : closedBy [] = [] := rfl

@[simp] theorem closedBy_append (c c' : List DriverCall) :
    closedBy (c ++ c') = closedBy c ++ closedBy c' := List.filterMap_append _ _ _

@[simp] theorem obtainedBy_cons (c : DriverCall) (cs : List DriverCall) :
    obtainedBy (c :: cs) = c.obtained.toList ++ obtainedBy cs := by
  cases h : c.obtained <;> simp [obtainedBy, List.filterMap_cons, h]

@[simp] theorem closedBy_cons (c : DriverCall) (cs : List DriverCall) :
    closedBy (c :: cs) = c.closed.toList ++ closedBy cs := by
  cases h : c.closed <;> simp [closedBy, List.filterMap_cons, h]

/-! ## The driver's handle table -/

/-- The driver's handles as the contract sees them. -/
structure Driver where
  opened : Finset Handle
  registered : Finset Handle
deriving DecidableEq

namespace Driver

/-- What one call does to the handles; a call that fails changes nothing. -/
def apply (d : Driver) : DriverCall → Driver
  | .fdOpen _ _ (.ok h) => { d with opened := insert h d.opened }
  | .fdCntl _ .accept (.ok (.incoming h _)) => { d with opened := insert h d.opened }
  | .fdCntl _ (.register source _) (.ok _) => { d with registered := insert source d.registered }
  | .fdCntl _ (.deregister source) (.ok _) => { d with registered := d.registered.erase source }
  | .fdClose h (.ok _) => { d with opened := d.opened.erase h }
  | _ => d

/-- The driver after a sequence of calls. -/
def runCalls (d : Driver) (calls : List DriverCall) : Driver := calls.foldl apply d

/-- The driver once an adapter owns `h`: open and registered. -/
def acquire (d : Driver) (h : Handle) : Driver := ⟨insert h d.opened, insert h d.registered⟩

/-- The driver once `h` is deregistered and closed. -/
def release (d : Driver) (h : Handle) : Driver := ⟨d.opened.erase h, d.registered.erase h⟩

@[simp] theorem runCalls_nil (d : Driver) : d.runCalls [] = d := rfl

@[simp] theorem runCalls_cons (d : Driver) (c : DriverCall) (cs : List DriverCall) :
    d.runCalls (c :: cs) = (d.apply c).runCalls cs := rfl

theorem runCalls_append (d : Driver) (c c' : List DriverCall) :
    d.runCalls (c ++ c') = (d.runCalls c).runCalls c' := List.foldl_append _ _ _ _

@[simp] theorem apply_fdOpen_ok (d : Driver) (desc : Description) (flags : OpenFlags) (h : Handle) :
    d.apply (.fdOpen desc flags (.ok h)) = { d with opened := insert h d.opened } := rfl

@[simp] theorem apply_fdOpen_error (d : Driver) (desc : Description) (flags : OpenFlags)
    (e : IoError) : d.apply (.fdOpen desc flags (.error e)) = d := rfl

@[simp] theorem apply_fdCntl_error (d : Driver) (h : Handle) (cmd : Cmd) (e : IoError) :
    d.apply (.fdCntl h cmd (.error e)) = d := by
  cases cmd <;> rfl

@[simp] theorem apply_accept_incoming (d : Driver) (l h : Handle) (raddr : SocketAddr) :
    d.apply (.fdCntl l .accept (.ok (.incoming h raddr))) = { d with opened := insert h d.opened } :=
  rfl

@[simp] theorem apply_register_ok (d : Driver) (p src : Handle) (i : Interest) (r : CmdResp) :
    d.apply (.fdCntl p (.register src i) (.ok r)) =
      { d with registered := insert src d.registered } := rfl

@[simp] theorem apply_deregister_ok (d : Driver) (p src : Handle) (r : CmdResp) :
    d.apply (.fdCntl p (.deregister src) (.ok r)) =
      { d with registered := d.registered.erase src } := rfl

@[simp] theorem apply_fdClose_ok (d : Driver) (h : Handle) :
    d.apply (.fdClose h (.ok ())) = { d with opened := d.opened.erase h } := rfl

/-- A call that closes nothing leaves every open handle open, and opens what it obtains. -/
theorem opened_apply (d : Driver) (c : DriverCall) (hc : c.closed = none) :
    d.opened ⊆ (d.apply c).opened ∧ ∀ h, c.obtained = some h → h ∈ (d.apply c).opened := by
  rcases c with ⟨_, _, _ | h⟩ | ⟨_, _ | _ | _ | _ | _ | _, _ | _ | _ | _ | _⟩ | ⟨_, _⟩ <;>
    simp_all [apply, DriverCall.obtained, DriverCall.closed, Finset.subset_insert]

theorem opened_subset_runCalls (d : Driver) (calls : List DriverCall)
    (hc : closedBy calls = []) : d.opened ⊆ (d.runCalls calls).opened := by
  induction calls generalizing d with
  | nil => exact Finset.Subset.refl _
  | cons c cs ih =>
    cases hcl : c.closed with
    | some h => simp [hcl] at hc
    | none =>
      simp only [closedBy_cons, hcl, Option.toList_none, List.nil_append] at hc
      exact (d.opened_apply c hcl).1.trans (ih _ hc)

/-- **Calls that close nothing leak what they obtain.** After a sequence of calls none of which
is an `fd_close`, every handle they obtained is open. -/
theorem obtained_opened_of_closedBy_nil (d : Driver) (calls : List DriverCall)
    (hc : closedBy calls = []) : ∀ h ∈ obtainedBy calls, h ∈ (d.runCalls calls).opened := by
  induction calls generalizing d with
  | nil => simp
  | cons c cs ih =>
    cases hcl : c.closed with
    | some h => simp [hcl] at hc
    | none =>
      simp only [closedBy_cons, hcl, Option.toList_none, List.nil_append] at hc
      intro h hh
      rcases List.mem_append.mp ((obtainedBy_cons c cs) ▸ hh) with hh | hh
      · exact opened_subset_runCalls _ cs hc ((d.opened_apply c hcl).2 h (Option.mem_toList.mp hh))
      · exact ih _ hc h hh

/-- Every call of `calls`, made from `d` on, works on a handle that is open when it is made. -/
def OnOpen (d : Driver) : List DriverCall → Prop
  | [] => True
  | c :: cs => (∀ h ∈ c.target, h ∈ d.opened) ∧ (d.apply c).OnOpen cs

theorem onOpen_append (d : Driver) (c c' : List DriverCall) :
    d.OnOpen (c ++ c') ↔ d.OnOpen c ∧ (d.runCalls c).OnOpen c' := by
  induction c generalizing d with
  | nil => simp [OnOpen]
  | cons c cs ih => simp [OnOpen, ih, and_assoc]

end Driver

/-! ## Adapter programs -/

/-- An adapter program: it logs its driver calls, may return an `io::Error`, and may panic. -/
abbrev DriverM := ExceptT IoError (StateT (List DriverCall) Option)

namespace DriverM

/-- What a program returns, with the log extended by its calls; `none` is a panic. -/
def exec {α : Type} (m : DriverM α) (log : List DriverCall) :
    Option (Except IoError α × List DriverCall) :=
  (m.run).run log

/-- `driver.fd_open(desc, flags)`, answered by `ans`. -/
def fdOpen (ans : DriverAnswers) (desc : Description) (flags : OpenFlags) :
    DriverM (Except IoError Handle) := do
  let r := ans.fdOpen desc flags
  modify (· ++ [.fdOpen desc flags r])
  return r

/-- `driver.fd_cntl(handle, cmd)`, answered by `ans`. -/
def fdCntl (ans : DriverAnswers) (handle : Handle) (cmd : Cmd) :
    DriverM (Except IoError CmdResp) := do
  let r := ans.fdCntl handle cmd
  modify (· ++ [.fdCntl handle cmd r])
  return r

/-- `driver.fd_close(handle)`, answered by `ans`. -/
def fdClose (ans : DriverAnswers) (handle : Handle) : DriverM (Except IoError Unit) := do
  let r := ans.fdClose handle
  modify (· ++ [.fdClose handle r])
  return r

/-- `Result::unwrap`: an error panics. -/
def unwrap {α : Type} : Except IoError α → DriverM α
  | .ok a => pure a
  | .error _ => ExceptT.lift (StateT.lift none)

variable {α β : Type} (log : List DriverCall)

@[simp] theorem exec_pure (a : α) : (pure a : DriverM α).exec log = some (.ok a, log) := rfl

@[simp] theorem exec_throw (e : IoError) : (throw e : DriverM α).exec log = some (.error e, log) :=
  rfl

@[simp] theorem exec_bind (m : DriverM α) (f : α → DriverM β) :
    (m >>= f).exec log = (m.exec log).bind fun r => match r with
      | (.ok a, log') => (f a).exec log'
      | (.error e, log') => some (.error e, log') := by
  simp only [exec, ExceptT.run_bind, StateT.run_bind]
  rcases (ExceptT.run m).run log with _ | ⟨_ | _, _⟩ <;> rfl

@[simp] theorem exec_map (f : α → β) (m : DriverM α) :
    (f <$> m).exec log = (m.exec log).map fun r => match r with
      | (.ok a, log') => (.ok (f a), log')
      | (.error e, log') => (.error e, log') := by
  simp only [exec, ExceptT.run_map, StateT.run_map]
  rcases (ExceptT.run m).run log with _ | ⟨_ | _, _⟩ <;> rfl

@[simp] theorem exec_liftExcept (x : Except IoError α) :
    (liftExcept x : DriverM α).exec log = some (x, log) := by
  cases x <;> rfl

@[simp] theorem exec_unwrap_ok (a : α) : (unwrap (.ok a) : DriverM α).exec log = some (.ok a, log) :=
  rfl

@[simp] theorem exec_unwrap_error (e : IoError) : (unwrap (.error e) : DriverM α).exec log = none :=
  rfl

@[simp] theorem exec_fdOpen (ans : DriverAnswers) (desc : Description) (flags : OpenFlags) :
    (fdOpen ans desc flags).exec log =
      some (.ok (ans.fdOpen desc flags), log ++ [.fdOpen desc flags (ans.fdOpen desc flags)]) := rfl

@[simp] theorem exec_fdCntl (ans : DriverAnswers) (handle : Handle) (cmd : Cmd) :
    (fdCntl ans handle cmd).exec log =
      some (.ok (ans.fdCntl handle cmd), log ++ [.fdCntl handle cmd (ans.fdCntl handle cmd)]) := rfl

@[simp] theorem exec_fdClose (ans : DriverAnswers) (handle : Handle) :
    (fdClose ans handle).exec log =
      some (.ok (ans.fdClose handle), log ++ [.fdClose handle (ans.fdClose handle)]) := rfl

/-- A program that never calls `fd_close`: whatever it returns, the calls it appends to the log
close nothing. -/
def NoClose (m : DriverM α) : Prop :=
  ∀ log r log', m.exec log = some (r, log') → ∃ calls, log' = log ++ calls ∧ closedBy calls = []

theorem NoClose.pure (a : α) : NoClose (pure a : DriverM α) := by
  intro log r log' h
  cases h
  exact ⟨[], by simp, rfl⟩

theorem NoClose.liftExcept (x : Except IoError α) : NoClose (liftExcept x : DriverM α) := by
  intro log r log' h
  rw [exec_liftExcept, Option.some.injEq, Prod.mk.injEq] at h
  exact ⟨[], by simp [h.2], rfl⟩

theorem NoClose.fdOpen (ans : DriverAnswers) (desc : Description) (flags : OpenFlags) :
    NoClose (fdOpen ans desc flags) := by
  intro log r log' h
  cases h
  exact ⟨_, rfl, rfl⟩

theorem NoClose.fdCntl (ans : DriverAnswers) (handle : Handle) (cmd : Cmd) :
    NoClose (fdCntl ans handle cmd) := by
  intro log r log' h
  cases h
  exact ⟨_, rfl, rfl⟩

theorem NoClose.bind {m : DriverM α} {f : α → DriverM β} (hm : NoClose m)
    (hf : ∀ a, NoClose (f a)) : NoClose (m >>= f) := by
  intro log r log' h
  rw [exec_bind] at h
  obtain ⟨⟨r₁, log₁⟩, h₁, h⟩ := Option.bind_eq_some.mp h
  obtain ⟨c₁, rfl, hc₁⟩ := hm _ _ _ h₁
  cases r₁ with
  | error e => cases h; exact ⟨c₁, rfl, hc₁⟩
  | ok a =>
    obtain ⟨c₂, rfl, hc₂⟩ := hf a _ _ _ h
    exact ⟨c₁ ++ c₂, by simp, by simp [hc₁, hc₂]⟩

end DriverM

end HalaIo
