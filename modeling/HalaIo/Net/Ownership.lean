import HalaIo.Net.Adapters

/-!
# Handle ownership over runs of the `crates/net/tcp` adapters

A program holds any number of `TcpListener`s and `TcpStream`s of `crates/net/tcp` over one
driver. It binds and connects new ones, accepts on a live listener, and drops live adapters. The
driver may answer each call as it likes, within the contract: the handles it hands out are fresh
(tokens are process-unique), `fd_close` succeeds, and a drop's `Deregister` and `fd_close`
succeed. Neither adapter is `Clone`, so each handle has one owner and `Drop` runs once per
adapter.

`Reachable.handles` is the ownership law over every run. The driver's open and registered
handles are the initial ones plus the handles of the live adapters: a failed constructor leaked
nothing, and a dropped adapter's handle left both sets. No handle is closed twice, and no live
adapter's handle has been closed. With `Reachable.drop`, which says a drop deregisters its handle
and then closes it, this is: every handle an adapter owns is deregistered and then closed exactly
once, when the adapter is dropped.

`Reachable.calls_target_open` is the same law seen call by call, under the same contract: each
call that works on a handle names one the driver holds open at that point of the log, so no
adapter uses or closes a handle after closing it.
-/

namespace HalaIo

namespace Tcp

/-- A live adapter of `crates/net/tcp`. -/
inductive Adapter where
  | listener (l : TcpListener)
  | stream (s : TcpStream)
deriving DecidableEq

namespace Adapter

/-- The handle the adapter owns. -/
def fd : Adapter → Handle
  | listener l => l.fd
  | stream s => s.fd

/-- The poller the adapter is registered with. -/
def poller : Adapter → Handle
  | listener l => l.poller
  | stream s => s.poller

/-- The adapter's `Drop`. -/
def drop (a : Adapter) (ans : DriverAnswers) : DriverM Unit :=
  match a with
  | listener l => l.drop ans
  | stream s => s.drop ans

theorem drop_eq (a : Adapter) (ans : DriverAnswers) : a.drop ans = dropHandle ans a.fd a.poller := by
  cases a <;> rfl

end Adapter

/-- The program's live adapters and the driver they share. `issued` holds every handle the driver
has handed out, and `log` every driver call so far. -/
structure Sockets where
  driver : Driver
  adapters : List Adapter
  issued : Finset Handle
  log : List DriverCall

/-- What the program does next. -/
inductive SocketOp where
  | bind (laddrs : Except IoError (List SocketAddr)) (poller : Handle)
  | connect (getDriver : Except IoError Unit) (raddrs : Except IoError (List SocketAddr))
      (poller : Handle)
  | accept (l : TcpListener) (poller : Handle)
  | drop (a : Adapter)

namespace Sockets

/-- A program with no adapters yet, over a driver in state `d`. -/
def init (d : Driver) : Sockets := ⟨d, [], ∅, []⟩

/-- The handles the live adapters own. -/
def owned (s : Sockets) : List Handle := s.adapters.map Adapter.fd

/-- The handles in use: open, registered, or handed out before. -/
def inUse (s : Sockets) : Finset Handle := s.driver.opened ∪ s.driver.registered ∪ s.issued

/-- The state once the driver has answered `calls`. -/
def record (s : Sockets) (calls : List DriverCall) : Sockets :=
  { s with driver := s.driver.runCalls calls, issued := s.issued ∪ (obtainedBy calls).toFinset,
           log := s.log ++ calls }

/-- Runs a constructor and keeps the adapter it returns. -/
def construct (s : Sockets) (m : DriverM Adapter) : Option Sockets :=
  (m.exec []).map fun r => match r.1 with
    | .ok a => { s.record r.2 with adapters := a :: s.adapters }
    | .error _ => s.record r.2

/-- One operation, answered by `ans`; `none` is a panic, or an adapter the program does not
hold. -/
def step (s : Sockets) (ans : DriverAnswers) : SocketOp → Option Sockets
  | .bind laddrs poller => s.construct (Adapter.listener <$> TcpListener.bindWith ans laddrs poller)
  | .connect getDriver raddrs poller =>
    s.construct (Adapter.stream <$> TcpStream.connectWith ans getDriver raddrs poller)
  | .accept l poller =>
    if Adapter.listener l ∈ s.adapters then
      s.construct ((fun r => Adapter.stream r.1) <$> l.acceptWith ans poller)
    else none
  | .drop a =>
    if a ∈ s.adapters then
      ((a.drop ans).exec []).map fun r => { s.record r.2 with adapters := s.adapters.erase a }
    else none

/-- What the driver's answers satisfy: fresh handles and a successful `fd_close` for the
constructors, a successful `Deregister` and `fd_close` for a drop. -/
def Allowed (s : Sockets) (ans : DriverAnswers) : SocketOp → Prop
  | .drop a => (∃ r, ans.fdCntl a.poller (.deregister a.fd) = .ok r) ∧ ans.fdClose a.fd = .ok ()
  | _ => ans.Fresh s.inUse ∧ ans.ClosesOk

/-- The states a program reaches from `init d`. -/
inductive Reachable (d : Driver) : Sockets → Prop
  | init : Reachable d (init d)
  | step {s s' : Sockets} {ans : DriverAnswers} {op : SocketOp} :
      Reachable d s → s.Allowed ans op → s.step ans op = some s' → Reachable d s'

/-! ## The ledger -/

/-- The ownership invariant, relative to the initial driver state `d`. -/
structure Ledger (d : Driver) (s : Sockets) : Prop where
  /-- The open handles are the initial ones and those the live adapters own. -/
  opened : s.driver.opened = d.opened ∪ s.owned.toFinset
  /-- So are the registered ones. -/
  registered : s.driver.registered = d.registered ∪ s.owned.toFinset
  /-- No two live adapters own the same handle. -/
  nodup : s.owned.Nodup
  /-- Owned handles were handed out by the driver. -/
  owned_issued : ∀ h ∈ s.owned, h ∈ s.issued
  /-- Owned handles were neither open nor registered at the start. -/
  owned_fresh : ∀ h ∈ s.owned, h ∉ d.opened ∧ h ∉ d.registered
  /-- No handle has been closed twice. -/
  closed_once : ∀ h, (closedBy s.log).count h ≤ 1
  /-- No owned handle has been closed. -/
  owned_unclosed : ∀ h ∈ s.owned, h ∉ closedBy s.log
  /-- Only handles the driver handed out have been closed. -/
  issued_of_closed : ∀ h ∈ closedBy s.log, h ∈ s.issued

@[simp] theorem owned_record (s : Sockets) (calls : List DriverCall) :
    (s.record calls).owned = s.owned := rfl

theorem issued_subset_inUse {s : Sockets} {h : Handle} (hh : h ∈ s.issued) : h ∈ s.inUse :=
  Finset.mem_union_right _ hh

theorem opened_subset_inUse (s : Sockets) : s.driver.opened ⊆ s.inUse :=
  Finset.subset_union_left.trans Finset.subset_union_left

theorem registered_subset_inUse (s : Sockets) : s.driver.registered ⊆ s.inUse :=
  Finset.subset_union_right.trans Finset.subset_union_left

/-- Erasing a live adapter from a list whose handles are distinct erases exactly its handle. -/
theorem mem_map_fd_erase {l : List Adapter} {a : Adapter} (hn : (l.map Adapter.fd).Nodup)
    (ha : a ∈ l) (h : Handle) :
    h ∈ (l.erase a).map Adapter.fd ↔ h ∈ l.map Adapter.fd ∧ h ≠ a.fd := by
  simp only [List.mem_map]
  constructor
  · rintro ⟨b, hb, rfl⟩
    have hbl := List.mem_of_mem_erase hb
    refine ⟨⟨b, hbl, rfl⟩, fun hfd => ?_⟩
    have hba : b = a := List.inj_on_of_nodup_map hn hbl ha hfd
    subst hba
    exact (List.Nodup.of_map _ hn).not_mem_erase hb
  · rintro ⟨⟨b, hb, rfl⟩, hne⟩
    exact ⟨b, (List.mem_erase_of_ne fun hba => hne (congrArg Adapter.fd hba)).mpr hb, rfl⟩

namespace Ledger

variable {d : Driver} {s : Sockets}

theorem init (d : Driver) : Ledger d (Sockets.init d) where
  opened := by simp [Sockets.init, owned]
  registered := by simp [Sockets.init, owned]
  nodup := List.nodup_nil
  owned_issued := by simp [Sockets.init, owned]
  owned_fresh := by simp [Sockets.init, owned]
  closed_once := by simp [Sockets.init]
  owned_unclosed := by simp [Sockets.init, owned]
  issued_of_closed := by simp [Sockets.init]

theorem unclosed_of_inUse (hL : Ledger d s) {h : Handle} (hh : h ∉ s.inUse) :
    h ∉ closedBy s.log :=
  fun hc => hh (issued_subset_inUse (hL.issued_of_closed h hc))

theorem owned_inUse (hL : Ledger d s) {h : Handle} (hh : h ∈ s.owned) : h ∈ s.inUse :=
  issued_subset_inUse (hL.owned_issued h hh)

/-- A constructor that failed: the driver is unchanged, and it closed what it obtained. -/
theorem record_error (hL : Ledger d s) {calls : List DriverCall}
    (hrun : s.driver.runCalls calls = s.driver) (hcl : closedBy calls = obtainedBy calls)
    (hlen : (obtainedBy calls).length ≤ 1) (hfresh : ∀ h ∈ obtainedBy calls, h ∉ s.inUse) :
    Ledger d (s.record calls) where
  opened := by rw [owned_record, ← hL.opened]; exact congrArg Driver.opened hrun
  registered := by rw [owned_record, ← hL.registered]; exact congrArg Driver.registered hrun
  nodup := hL.nodup
  owned_issued h hh := Finset.mem_union_left _ (hL.owned_issued h hh)
  owned_fresh := hL.owned_fresh
  closed_once h := by
    simp only [record, closedBy_append, List.count_append, hcl]
    by_cases hh : h ∈ obtainedBy calls
    · rw [List.count_eq_zero_of_not_mem (hL.unclosed_of_inUse (hfresh h hh))]
      exact Nat.le_trans (Nat.zero_add _).le ((List.count_le_length _ _).trans hlen)
    · rw [List.count_eq_zero_of_not_mem hh]
      exact hL.closed_once h
  owned_unclosed h hh := by
    simp only [record, closedBy_append, List.mem_append, hcl, not_or]
    exact ⟨hL.owned_unclosed h hh, fun ho => hfresh h ho (hL.owned_inUse hh)⟩
  issued_of_closed h hh := by
    simp only [record, closedBy_append, List.mem_append, hcl] at hh
    rcases hh with hh | hh
    · exact Finset.mem_union_left _ (hL.issued_of_closed h hh)
    · exact Finset.mem_union_right _ (List.mem_toFinset.mpr hh)

/-- A constructor that returned the adapter `a`: it obtained `a.fd`, fresh, and the driver
holds it open and registered. -/
theorem record_ok (hL : Ledger d s) {calls : List DriverCall} {a : Adapter}
    (hrun : s.driver.runCalls calls = s.driver.acquire a.fd) (hcl : closedBy calls = [])
    (hob : obtainedBy calls = [a.fd]) (hfresh : a.fd ∉ s.inUse) :
    Ledger d { s.record calls with adapters := a :: s.adapters } where
  opened := by
    show (s.driver.runCalls calls).opened = d.opened ∪ (a.fd :: s.owned).toFinset
    rw [hrun, List.toFinset_cons, Finset.union_insert, ← hL.opened]
    rfl
  registered := by
    show (s.driver.runCalls calls).registered = d.registered ∪ (a.fd :: s.owned).toFinset
    rw [hrun, List.toFinset_cons, Finset.union_insert, ← hL.registered]
    rfl
  nodup := List.nodup_cons.mpr ⟨fun hh => hfresh (hL.owned_inUse hh), hL.nodup⟩
  owned_issued h hh := by
    rcases List.mem_cons.mp hh with rfl | hh
    · exact Finset.mem_union_right _ (by simp [hob])
    · exact Finset.mem_union_left _ (hL.owned_issued h hh)
  owned_fresh h hh := by
    rcases List.mem_cons.mp hh with rfl | hh
    · have ho : d.opened ⊆ s.driver.opened := hL.opened ▸ Finset.subset_union_left
      have hr : d.registered ⊆ s.driver.registered := hL.registered ▸ Finset.subset_union_left
      exact ⟨fun h' => hfresh (opened_subset_inUse s (ho h')),
        fun h' => hfresh (registered_subset_inUse s (hr h'))⟩
    · exact hL.owned_fresh h hh
  closed_once h := by
    simpa only [record, closedBy_append, hcl, List.append_nil] using hL.closed_once h
  owned_unclosed h hh := by
    simp only [record, closedBy_append, hcl, List.append_nil]
    rcases List.mem_cons.mp hh with rfl | hh
    · exact hL.unclosed_of_inUse hfresh
    · exact hL.owned_unclosed h hh
  issued_of_closed h hh := by
    simp only [record, closedBy_append, hcl, List.append_nil] at hh
    exact Finset.mem_union_left _ (hL.issued_of_closed h hh)

/-- Dropping the live adapter `a`, whose `Deregister` and `fd_close` succeeded. -/
theorem after_drop (hL : Ledger d s) {a : Adapter} (ha : a ∈ s.adapters) (r : CmdResp) :
    Ledger d { s.record [.fdCntl a.poller (.deregister a.fd) (.ok r), .fdClose a.fd (.ok ())] with
      adapters := s.adapters.erase a } := by
  have hmem := mem_map_fd_erase hL.nodup ha
  have hafd : a.fd ∈ s.owned := List.mem_map_of_mem _ ha
  have hfresh := hL.owned_fresh _ hafd
  have hown : s.owned.toFinset.erase a.fd = ((s.adapters.erase a).map Adapter.fd).toFinset := by
    ext h; simp [owned, hmem, and_comm]
  refine ⟨?_, ?_, hL.nodup.sublist ((List.erase_sublist a _).map _), fun h hh => ?_,
    fun h hh => hL.owned_fresh h ((hmem h).mp hh).1, fun h => ?_, fun h hh => ?_, fun h hh => ?_⟩
  · show s.driver.opened.erase a.fd = _
    rw [hL.opened, Finset.erase_union_distrib, Finset.erase_eq_of_not_mem hfresh.1, hown]
    rfl
  · show s.driver.registered.erase a.fd = _
    rw [hL.registered, Finset.erase_union_distrib, Finset.erase_eq_of_not_mem hfresh.2, hown]
    rfl
  · exact Finset.mem_union_left _ (hL.owned_issued h ((hmem h).mp hh).1)
  · simp only [record, closedBy_append, List.count_append]
    by_cases hh : h = a.fd
    · subst hh; simp [DriverCall.closed, List.count_eq_zero_of_not_mem (hL.owned_unclosed _ hafd)]
    · have h0 : List.count h [a.fd] = 0 := List.count_eq_zero_of_not_mem (by simpa using hh)
      simpa [DriverCall.closed, h0] using hL.closed_once h
  · obtain ⟨hown, hne⟩ := (hmem h).mp hh
    simp [record, DriverCall.closed, hL.owned_unclosed h hown, hne]
  · simp only [record, closedBy_append, List.mem_append] at hh
    rcases hh with hh | hh
    · exact Finset.mem_union_left _ (hL.issued_of_closed h hh)
    · simp [DriverCall.closed] at hh
      exact Finset.mem_union_left _ (hh ▸ hL.owned_issued _ hafd)

/-- Running a constructor that exits cleanly keeps the ledger. -/
theorem construct (hL : Ledger d s) {m : DriverM Adapter} {s' : Sockets}
    (hclean : s.driver.CleanExit s.inUse Adapter.fd (m.exec [])) (h : s.construct m = some s') :
    Ledger d s' := by
  unfold Sockets.construct at h
  rcases hm : m.exec [] with _ | ⟨_ | a, calls⟩ <;> rw [hm] at h hclean
  · cases h
  · cases h
    obtain ⟨hrun, hcl, hlen, hfresh⟩ := hclean
    exact hL.record_error hrun hcl hlen hfresh
  · cases h
    obtain ⟨hrun, hcl, hob, hfresh⟩ := hclean
    exact hL.record_ok hrun hcl hob hfresh

/-- Every allowed step keeps the ledger. -/
theorem step (hL : Ledger d s) {ans : DriverAnswers} {op : SocketOp} {s' : Sockets}
    (ha : s.Allowed ans op) (h : s.step ans op = some s') : Ledger d s' := by
  cases op with
  | bind laddrs poller =>
    exact hL.construct (@Driver.CleanExit.map _ _ _ _ Adapter.fd Adapter.listener _
      (TcpListener.bindWith_clean ha.1 (opened_subset_inUse s) ha.2 _ _)) h
  | connect getDriver raddrs poller =>
    exact hL.construct (@Driver.CleanExit.map _ _ _ _ Adapter.fd Adapter.stream _
      (TcpStream.connectWith_clean ha.1 (opened_subset_inUse s) ha.2 _ _ _)) h
  | accept l poller =>
    simp only [Sockets.step] at h
    split at h
    · exact hL.construct (@Driver.CleanExit.map _ _ _ _ Adapter.fd
        (fun r : TcpStream × SocketAddr => Adapter.stream r.1) _
        (TcpListener.acceptWith_clean ha.1 (opened_subset_inUse s) ha.2 _ _)) h
    · cases h
  | drop a =>
    obtain ⟨⟨r, hr⟩, hc⟩ := ha
    simp only [Sockets.step] at h
    split at h
    · rw [Adapter.drop_eq, dropHandle_exec, hr, hc] at h
      cases h
      exact hL.after_drop ‹_› r
    · cases h

end Ledger

theorem Reachable.ledger {d : Driver} {s : Sockets} (hs : Reachable d s) : Ledger d s := by
  induction hs with
  | init => exact Ledger.init d
  | step _ ha h ih => exact ih.step ha h

/-! ## The ownership law -/

/-- **The `crates/net/tcp` adapters close every handle they own exactly once.** Along every run
from a driver in state `d`: the driver's open and registered handles are those of `d` and the
handles the live adapters own, so no constructor that failed left a handle behind; no handle has
been closed twice; and no live adapter's handle has been closed. -/
theorem Reachable.handles {d : Driver} {s : Sockets} (hs : Reachable d s) :
    s.driver.opened = d.opened ∪ s.owned.toFinset ∧
      s.driver.registered = d.registered ∪ s.owned.toFinset ∧
      (∀ h, (closedBy s.log).count h ≤ 1) ∧ ∀ h ∈ s.owned, h ∉ closedBy s.log :=
  have hL := hs.ledger
  ⟨hL.opened, hL.registered, hL.closed_once, hL.owned_unclosed⟩

/-- **A drop deregisters its handle, then closes it, once.** In a reachable state, dropping a
live adapter whose `Deregister` and `fd_close` succeed appends exactly `Deregister(fd)` and then
`fd_close(fd)` to the log. Afterwards `fd` has been closed exactly once, and it is neither open
nor registered. -/
theorem Reachable.drop {d : Driver} {s : Sockets} (hs : Reachable d s) {a : Adapter}
    (ha : a ∈ s.adapters) {ans : DriverAnswers} (hall : s.Allowed ans (.drop a)) :
    ∃ s' r, s.step ans (.drop a) = some s' ∧
      s'.log = s.log ++ [.fdCntl a.poller (.deregister a.fd) (.ok r), .fdClose a.fd (.ok ())] ∧
      (closedBy s'.log).count a.fd = 1 ∧ a.fd ∉ s'.driver.opened ∧ a.fd ∉ s'.driver.registered := by
  obtain ⟨⟨r, hr⟩, hc⟩ := hall
  have hL := hs.ledger
  have hL' := hL.after_drop ha r
  have hafd : a.fd ∈ s.owned := List.mem_map_of_mem _ ha
  have hgone : a.fd ∉ (s.adapters.erase a).map Adapter.fd :=
    fun h => ((mem_map_fd_erase hL.nodup ha _).mp h).2 rfl
  refine ⟨_, r, by simp only [Sockets.step, if_pos ha, Adapter.drop_eq, dropHandle_exec, hr, hc]; rfl,
    rfl, ?_, ?_, ?_⟩
  · simp [record, DriverCall.closed, List.count_eq_zero_of_not_mem (hL.owned_unclosed _ hafd)]
  · rw [hL'.opened]
    simpa [owned, hgone] using (hL.owned_fresh _ hafd).1
  · rw [hL'.registered]
    simpa [owned, hgone] using (hL.owned_fresh _ hafd).2

/-! ## Every call works on an open handle -/

/-- The log replays to the driver, and each of its calls worked on a handle open when it was
made. -/
structure Replays (d : Driver) (s : Sockets) : Prop where
  driver_eq : s.driver = d.runCalls s.log
  onOpen : d.OnOpen s.log

namespace Replays

variable {d : Driver} {s : Sockets}

theorem record (hR : Replays d s) {calls : List DriverCall} (hc : s.driver.OnOpen calls) :
    Replays d (s.record calls) :=
  ⟨by rw [Sockets.record, Driver.runCalls_append, ← hR.driver_eq],
    (Driver.onOpen_append _ _ _).mpr ⟨hR.onOpen, hR.driver_eq ▸ hc⟩⟩

theorem construct (hR : Replays d s) {m : DriverM Adapter} {s' : Sockets}
    (hc : s.driver.CallsOnOpen (m.exec [])) (h : s.construct m = some s') : Replays d s' := by
  obtain ⟨⟨r, calls⟩, hm, rfl⟩ := Option.map_eq_some'.mp h
  have hrec := hR.record (hc _ hm)
  cases r <;> exact ⟨hrec.1, hrec.2⟩

/-- Every step keeps the replay: `accept` and a drop work on a live adapter's handle, which the
ledger keeps open. -/
theorem step (hR : Replays d s) (hL : Ledger d s) {ans : DriverAnswers} {op : SocketOp}
    {s' : Sockets} (h : s.step ans op = some s') : Replays d s' := by
  have hopen : ∀ a ∈ s.adapters, a.fd ∈ s.driver.opened := fun a ha => by
    rw [hL.opened]
    exact Finset.mem_union_right _ (List.mem_toFinset.mpr (List.mem_map_of_mem _ ha))
  cases op with
  | bind laddrs poller =>
    exact hR.construct (Driver.CallsOnOpen.map (TcpListener.bindWith_onOpen _ _)) h
  | connect getDriver raddrs poller =>
    exact hR.construct (Driver.CallsOnOpen.map (TcpStream.connectWith_onOpen _ _ _)) h
  | accept l poller =>
    simp only [Sockets.step] at h
    split at h
    · exact hR.construct
        (Driver.CallsOnOpen.map (TcpListener.acceptWith_onOpen (hopen _ ‹_›) _)) h
    · cases h
  | drop a =>
    simp only [Sockets.step] at h
    split at h
    · obtain ⟨⟨r, calls⟩, hm, rfl⟩ := Option.map_eq_some'.mp h
      rw [Adapter.drop_eq] at hm
      have hrec := hR.record (dropHandle_onOpen (hopen a ‹_›) a.poller _ hm)
      exact ⟨hrec.1, hrec.2⟩
    · cases h

end Replays

theorem Reachable.replays {d : Driver} {s : Sockets} (hs : Reachable d s) : Replays d s := by
  induction hs with
  | init => exact ⟨rfl, trivial⟩
  | step hs _ h ih => exact ih.step hs.ledger h

/-- **The adapters work only on open handles.** Along every run from a driver in state `d`
that keeps the contract of `Allowed` (fresh handles, a successful `fd_close`, and a successful
`Deregister` and `fd_close` on a drop), each call that works on a handle (the listener of
`Accept`, the source of `Register` or `Deregister`, the handle of `fd_close`) names one the
driver holds open when the call is made, the driver being `d` after the calls before it. So no
adapter uses or closes a handle it has closed, or one it never had. Freshness is needed: a driver
that hands out a handle a live adapter owns lets two drops close it. -/
theorem Reachable.calls_target_open {d : Driver} {s : Sockets} (hs : Reachable d s) :
    ∀ pre c post, s.log = pre ++ c :: post → ∀ h ∈ c.target, h ∈ (d.runCalls pre).opened := by
  intro pre c post hlog
  have hon := hs.replays.onOpen
  rw [hlog, Driver.onOpen_append] at hon
  exact hon.2.1

/-! ## A bound listener -/

/-- A driver that hands out the listener handle `⟨TcpListener, 1⟩` and accepts every command
and every close. -/
def listenerAnswers : DriverAnswers :=
  ⟨fun _ _ => .ok ⟨.tcpListener, ⟨1⟩⟩, fun _ _ => .ok .none, fun _ => .ok ()⟩

/-- The listener `bind_with` makes from these answers, registered with the poller
`⟨Poller, 0⟩`. -/
def boundListener : Adapter := .listener ⟨⟨.tcpListener, ⟨1⟩⟩, ⟨.poller, ⟨0⟩⟩⟩

theorem boundListener_reachable : ∃ s, Reachable ⟨∅, ∅⟩ s ∧ s.adapters = [boundListener] :=
  ⟨_, @Reachable.step ⟨∅, ∅⟩ _ _ listenerAnswers (.bind (.ok []) ⟨.poller, ⟨0⟩⟩) .init
    ⟨⟨fun _ _ _ _ => by simp [inUse, init], fun _ _ _ _ => by simp [inUse, init]⟩, fun _ => rfl⟩
    rfl, rfl⟩

theorem handles_of_boundListener : ∃ s, Reachable ⟨∅, ∅⟩ s ∧ s.adapters = [boundListener] ∧
    s.driver.opened = (⟨∅, ∅⟩ : Driver).opened ∪ s.owned.toFinset ∧
    s.driver.registered = (⟨∅, ∅⟩ : Driver).registered ∪ s.owned.toFinset ∧
    (∀ h, (closedBy s.log).count h ≤ 1) ∧ ∀ h ∈ s.owned, h ∉ closedBy s.log := by
  obtain ⟨s, hs, had⟩ := boundListener_reachable
  exact ⟨s, hs, had, Reachable.handles hs⟩

theorem calls_target_open_of_boundListener : ∃ s, Reachable ⟨∅, ∅⟩ s ∧
    s.adapters = [boundListener] ∧
    ∀ pre c post, s.log = pre ++ c :: post →
      ∀ h ∈ c.target, h ∈ ((⟨∅, ∅⟩ : Driver).runCalls pre).opened := by
  obtain ⟨s, hs, had⟩ := boundListener_reachable
  exact ⟨s, hs, had, Reachable.calls_target_open hs⟩

theorem drop_of_boundListener : ∃ s, Reachable ⟨∅, ∅⟩ s ∧ boundListener ∈ s.adapters ∧
    ∃ s' r, s.step listenerAnswers (.drop boundListener) = some s' ∧
      s'.log = s.log ++ [.fdCntl boundListener.poller (.deregister boundListener.fd) (.ok r),
        .fdClose boundListener.fd (.ok ())] ∧
      (closedBy s'.log).count boundListener.fd = 1 ∧ boundListener.fd ∉ s'.driver.opened ∧
      boundListener.fd ∉ s'.driver.registered := by
  obtain ⟨s, hs, had⟩ := boundListener_reachable
  have hmem : boundListener ∈ s.adapters := by rw [had]; exact List.mem_singleton_self _
  exact ⟨s, hs, hmem, Reachable.drop hs hmem ⟨⟨_, rfl⟩, rfl⟩⟩

end Sockets

end Tcp

end HalaIo
