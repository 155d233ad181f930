import Loopix.Provider.Goroutine

/-!
# The provider's process: start, connections and shutdown

`Start` calls `run`, and returns only when `run` does.  `run` starts the accept loop
`listenForIncomingConnections` in a goroutine of its own, then blocks in `Wait` until
`haltedCh` is closed, and on its way out closes the listener (`defer p.listener.Close()`).
`Shutdown` closes `haltedCh` through `haltOnce`, so that a later call does nothing.  The
accept loop hands each connection to a goroutine of its own (`go p.handleConnection(conn)`);
an error of `Accept` that is not temporary ends the loop with `p.log.Panicf`.  A panic in any
goroutine, or a fatal error of the runtime, ends the process.

Here the process is a state machine over what `Start`, `Shutdown` and `run` have done
(`Lifecycle`), the provider's state, the mark the runtime sets on `assignedClients` while a
write of it is under way, the goroutines serving connections (`Loopix.Provider.Goroutine`),
and how the process ended, if it did.  An event is one goroutine's move: a call of `Start`, a
call of `Shutdown`, a call of `run` returning from `Wait`, `Accept` returning, or one step of
the goroutine serving a connection; any list of events is a run.  The goroutine
`startSendingPresence`, which only reads the map, is left out.

Served one at a time, the goroutines are `ProviderServer.serve`.  Interleaved, they share
`assignedClients` with no lock, and the runtime's check on the map is all that orders them:
in every run the map is marked exactly while one goroutine writes it, and a registration or a
pull request that reaches the map during another registration's write stops the process.

## Main definitions

* `AcceptOutcome`, `Lifecycle`, `Process`, `ProcessEvent` — the process and its moves.
* `Process.accept`, `Process.handle`, `Process.step`, `Process.steps` — a pass of the accept
  loop, a step of a connection's goroutine, one move, and a run of moves.
* `Process.outcome` — the provider's state and what each connection was answered, or how the
  process ended.
* `Process.writers` — how many goroutines are inside a write of `assignedClients`.
* `serialEvents` — the run serving connections one at a time.
* `createTestProvider` — the process of `CreateTestProvider`, with a nil listener and a nil
  `haltedCh`.

## Main results

* `Process.outcome_serialEvents` — **one at a time, the goroutines are `serve`**.
* `Process.writers_steps` — **the map's mark is its writer**: in every run, the map is marked
  exactly when one goroutine writes it, and no two goroutines write it at once.
* `Process.steps_assign_assign_crashes`, `Process.steps_assign_pull_crashes` — **a
  registration's write stops the process** when another registration or a pull request
  reaches the map during it.
* `Process.steps_shutdown_crashes` — **a shutdown crashes the provider**: once `Start` and
  `Shutdown` have been called and `run` has returned from `Wait`, the accept loop's next
  `Accept` fails on the closed listener, and `Panicf` ends the process.
-/

namespace Loopix

/-- What `listener.Accept()` returns while the listener is open: a connection, or an error,
which `listenForIncomingConnections` asks whether it is a `net.Error` and, if so, whether it
is temporary. -/
inductive AcceptOutcome where
  | conn (c : Connection)
  | error (msg : String) (isNetError temporary : Bool)

/-- What `Start`, `Shutdown` and the calls of `run` have done. -/
structure Lifecycle where
  /-- The listener is nil, as `CreateTestProvider` leaves it. -/
  listenerNil : Bool := false
  /-- `haltedCh` is nil, as `CreateTestProvider` leaves it. -/
  haltedChNil : Bool := false
  /-- An accept loop runs. -/
  accepting : Bool := false
  /-- How many calls of `run` are in `Wait`. -/
  waiting : ℕ := 0
  /-- The listener is closed. -/
  listenerClosed : Bool := false
  /-- `haltedCh` is closed. -/
  halted : Bool := false
  /-- `haltOnce` has run its function. -/
  onceDone : Bool := false

/-- The provider's process. -/
structure Process where
  /-- The provider's state. -/
  server : ProviderServer
  /-- `listener.Addr()`. -/
  addr : String
  /-- What `Start`, `Shutdown` and `run` have done. -/
  life : Lifecycle := {}
  /-- The runtime's mark on `assignedClients`: a write of the map is under way. -/
  writing : Bool := false
  /-- The goroutines serving the connections accepted so far, in the order of their
  `Accept`. -/
  goroutines : List Goroutine := []
  /-- The panic or the fatal error that ended the process. -/
  crashed : Option GoError := none

/-- A move of one goroutine: `Start` is called; `Shutdown` is called; a call of `run`
returns from `Wait`; an accept loop's `Accept` returns; the goroutine serving the `i`-th
connection accepted makes a step. -/
inductive ProcessEvent where
  | start
  | shutdown
  | wake
  | accept (o : AcceptOutcome)
  | handle (i : ℕ)

/-- Modelled from Go's `net` package: the message of the error `Accept` returns on a closed
TCP listener, an `*OpError` around `net.ErrClosed`, which is not temporary. -/
def closedAcceptError (addr : String) : String :=
  "accept tcp " ++ addr ++ ": use of closed network connection"

/-- Modelled from Go's runtime: the panic of evaluating a method of a nil interface. -/
def nilInterfacePanic : GoError :=
  .panic "runtime error: invalid memory address or nil pointer dereference"

/-- One pass of `listenForIncomingConnections`' loop after `Accept` returned: a connection
gets a goroutine of its own, which has not run yet; a `net.Error` that is not temporary is
`Panicf`'d (logrus's `Panicf` logs, then panics), and any other error is skipped. -/
def Process.accept (q : Process) : AcceptOutcome → Process
  | .conn c => { q with goroutines := q.goroutines ++ [⟨c, .start⟩] }
  | .error msg isNetError temporary =>
    if isNetError ∧ ¬temporary then
      { q with crashed := some (.panic ("Critical accept failure: " ++ msg)) }
    else q

section Steps

variable (S : Suite) (F : Flags) (sha256 : Bytes → Except String Bytes) (priv : S.FieldElement)

/-- The goroutine serving the `i`-th connection accepted makes a step, on the provider's
state and the map's mark; an error of the step ends the process.  With no such goroutine,
nothing moves. -/
def Process.handle (q : Process) (i : ℕ) : Process :=
  match q.goroutines[i]? with
  | none => q
  | some g =>
    match g.pc.step S F sha256 priv g.conn q.server q.writing with
    | .ok (p, writing, pc) =>
      { q with server := p, writing := writing, goroutines := q.goroutines.set i ⟨g.conn, pc⟩ }
    | .error e => { q with crashed := some e }

/-- One move.  A process that has ended makes none.  `Start` starts an accept loop and
a call of `run` that waits; with a nil listener, `run`'s `defer p.listener.Close()`, which
evaluates its method value at once, panics first.  `Shutdown` runs `halt`, which closes
`haltedCh`, only the first time (`haltOnce.Do`, which counts a call that panicked as done);
closing a nil or a closed channel panics.  A call of `run` returns from `Wait` once
`haltedCh` is closed, and closes the listener; from then on `Accept` returns the closed
listener's error.  The goroutines serving connections run whatever else happens. -/
def Process.step (q : Process) (ev : ProcessEvent) : Process :=
  match q.crashed with
  | some _ => q
  | none =>
    match ev with
    | .start =>
      if q.life.listenerNil then
        { q with crashed := some nilInterfacePanic }
      else { q with life.accepting := true, life.waiting := q.life.waiting + 1 }
    | .shutdown =>
      if q.life.onceDone then q
      else if q.life.haltedChNil then
        { q with life.onceDone := true, crashed := some (.panic "close of nil channel") }
      else if q.life.halted then
        { q with life.onceDone := true, crashed := some (.panic "close of closed channel") }
      else { q with life.onceDone := true, life.halted := true }
    | .wake =>
      if 0 < q.life.waiting ∧ q.life.halted then
        { q with life.waiting := q.life.waiting - 1, life.listenerClosed := true }
      else q
    | .accept o =>
      if ¬q.life.accepting then q
      else if q.life.listenerClosed then
        q.accept (.error (closedAcceptError q.addr) true false)
      else q.accept o
    | .handle i => q.handle S F sha256 priv i

/-- A run of moves. -/
def Process.steps (q : Process) (evs : List ProcessEvent) : Process :=
  evs.foldl (Process.step S F sha256 priv) q

variable {S F sha256 priv}

/-! ### What a move can change -/

/-- A pass of the accept loop leaves the lifecycle as it was. -/
@[simp] theorem Process.life_accept (q : Process) (o : AcceptOutcome) :
    (q.accept o).life = q.life := by
  rcases o with c | ⟨msg, _ | _, _ | _⟩ <;> rfl

/-- A step of a connection's goroutine leaves the lifecycle as it was. -/
@[simp] theorem Process.life_handle (q : Process) (i : ℕ) :
    (q.handle S F sha256 priv i).life = q.life := by
  unfold handle
  split
  · rfl
  · split <;> rfl

theorem Process.step_of_crashed {q : Process} {e : GoError} (h : q.crashed = some e)
    (ev : ProcessEvent) : q.step S F sha256 priv ev = q := by
  simp only [step, h]

@[simp] theorem Process.steps_nil (q : Process) : q.steps S F sha256 priv [] = q := rfl

@[simp] theorem Process.steps_cons (q : Process) (ev : ProcessEvent) (evs : List ProcessEvent) :
    q.steps S F sha256 priv (ev :: evs) = (q.step S F sha256 priv ev).steps S F sha256 priv evs :=
  rfl

theorem Process.steps_append (q : Process) (evs evs' : List ProcessEvent) :
    q.steps S F sha256 priv (evs ++ evs') =
      (q.steps S F sha256 priv evs).steps S F sha256 priv evs' :=
  List.foldl_append _ _ _ _

/-- A property every move keeps holds after every run. -/
theorem Process.steps_of_step {P : Process → Prop}
    (hP : ∀ q ev, P q → P (q.step S F sha256 priv ev)) :
    ∀ evs {q}, P q → P (q.steps S F sha256 priv evs)
  | [], _, h => h
  | ev :: evs, q, h => steps_of_step hP evs (hP q ev h)

/-- A process that has ended stays as it is. -/
theorem Process.steps_of_crashed {q : Process} {e : GoError} (h : q.crashed = some e) :
    ∀ evs, q.steps S F sha256 priv evs = q
  | [] => rfl
  | ev :: evs => by rw [steps_cons, step_of_crashed h, steps_of_crashed h evs]

/-! ### A goroutine alone in the process -/

/-- `haltedCh` is not nil, and closed exactly when `haltOnce` has run. -/
def Process.HaltedOnce (q : Process) : Prop :=
  q.life.haltedChNil = false ∧ q.life.halted = q.life.onceDone

/-- Every move keeps `haltedCh` closed exactly when `haltOnce` has run. -/
theorem Process.haltedOnce_step {q : Process} (h : q.HaltedOnce) (ev : ProcessEvent) :
    (q.step S F sha256 priv ev).HaltedOnce := by
  unfold HaltedOnce at h ⊢
  rcases hc : q.crashed with _ | e
  · cases ev <;> simp only [step, hc] <;> (try split_ifs) <;> simp_all
  · rwa [step_of_crashed hc]

/-! ### A shutdown crashes the provider -/

/-- The process has ended, or an accept loop runs and a call of `run` waits or has closed
the listener. -/
def Process.Started (q : Process) : Prop :=
  q.crashed.isSome ∨ q.life.accepting ∧ (0 < q.life.waiting ∨ q.life.listenerClosed)

/-- The process has ended, or `haltOnce` has run. -/
def Process.ShutDown (q : Process) : Prop :=
  q.crashed.isSome ∨ q.life.onceDone

/-- The process has ended, or an accept loop runs on a closed listener. -/
def Process.Closed (q : Process) : Prop :=
  q.crashed.isSome ∨ q.life.accepting ∧ q.life.listenerClosed

/-- A started process stays started. -/
theorem Process.started_step {q : Process} (h : q.Started) (ev : ProcessEvent) :
    (q.step S F sha256 priv ev).Started := by
  rcases hc : q.crashed with _ | e
  · simp only [Started, hc, Option.isSome_none, Bool.false_eq_true, false_or] at h
    cases ev <;> simp only [step, hc] <;> (try split_ifs) <;> simp [Started, h]
  · rwa [step_of_crashed hc]

/-- A process that has run `haltOnce` stays so. -/
theorem Process.shutDown_step {q : Process} (h : q.ShutDown) (ev : ProcessEvent) :
    (q.step S F sha256 priv ev).ShutDown := by
  rcases hc : q.crashed with _ | e
  · simp only [ShutDown, hc, Option.isSome_none, Bool.false_eq_true, false_or] at h
    cases ev <;> simp only [step, hc] <;> (try split_ifs) <;> simp [ShutDown, h]
  · rwa [step_of_crashed hc]

/-- A closed listener stays closed, and the accept loop on it runs. -/
theorem Process.closed_step {q : Process} (h : q.Closed) (ev : ProcessEvent) :
    (q.step S F sha256 priv ev).Closed := by
  rcases hc : q.crashed with _ | e
  · simp only [Closed, hc, Option.isSome_none, Bool.false_eq_true, false_or] at h
    cases ev <;> simp only [step, hc] <;> (try split_ifs) <;> simp [Closed, h]
  · rwa [step_of_crashed hc]

/-- `Start` starts the process. -/
theorem Process.started_step_start (q : Process) : (q.step S F sha256 priv .start).Started := by
  rcases hc : q.crashed with _ | e
  · simp only [step, hc]
    split_ifs <;> simp [Started]
  · simp [Started, step_of_crashed hc, hc]

/-- `Shutdown` runs `haltOnce`. -/
theorem Process.shutDown_step_shutdown (q : Process) :
    (q.step S F sha256 priv .shutdown).ShutDown := by
  rcases hc : q.crashed with _ | e
  · simp only [step, hc]; split_ifs <;> simp_all [ShutDown]
  · simp [ShutDown, step_of_crashed hc, hc]

/-- Started and shut down, a call of `run` returning from `Wait` leaves the listener
closed. -/
theorem Process.closed_step_wake {q : Process} (hs : q.Started) (hd : q.ShutDown)
    (h : q.life.halted = q.life.onceDone) :
    (q.step S F sha256 priv .wake).Closed := by
  rcases hc : q.crashed with _ | e
  · simp only [Started, ShutDown, hc, Option.isSome_none, Bool.false_eq_true, false_or] at hs hd
    simp only [step, hc]
    split_ifs with hw
    · simp [Closed, hs.1]
    · simp_all [Closed]
  · simp [Closed, step_of_crashed hc, hc]

/-- On a closed listener, `Accept` ends the process. -/
theorem Process.crashed_step_accept {q : Process} (h : q.Closed) (o : AcceptOutcome) :
    (q.step S F sha256 priv (.accept o)).crashed.isSome := by
  rcases hc : q.crashed with _ | e
  · simp only [Closed, hc, Option.isSome_none, Bool.false_eq_true, false_or] at h
    simp [step, hc, h, accept]
  · simp [step_of_crashed hc, hc]

/-- A run containing `ev` ends in a state `P` holds of, when `P` is kept by every move and
made by `ev`. -/
theorem Process.steps_of_mem {P : Process → Prop}
    (hP : ∀ q ev, P q → P (q.step S F sha256 priv ev)) {ev : ProcessEvent}
    (hev : ∀ q : Process, P (q.step S F sha256 priv ev)) {evs : List ProcessEvent}
    (h : ev ∈ evs) (q : Process) : P (q.steps S F sha256 priv evs) := by
  obtain ⟨pre, post, rfl⟩ := List.append_of_mem h
  rw [steps_append, steps_cons]
  exact steps_of_step hP post (hev _)

/-- **A shutdown crashes the provider.**  In every run from a fresh process in which
`Start` and `Shutdown` have been called, once a call of `run` has returned from `Wait` and
closed the listener, the next `Accept` returns the closed listener's error, which is not
temporary, and `Panicf` ends the process, whatever else happens in between. -/
theorem Process.steps_shutdown_crashes (p : ProviderServer) (addr : String)
    (pre mid post : List ProcessEvent) (o : AcceptOutcome) (hstart : ProcessEvent.start ∈ pre)
    (hshutdown : ProcessEvent.shutdown ∈ pre) :
    (({ server := p, addr := addr } : Process).steps S F sha256 priv
      (pre ++ .wake :: mid ++ .accept o :: post)).crashed.isSome := by
  have hs := @steps_of_mem S F sha256 priv Started (fun _ _ h => started_step h _) _
    started_step_start _ hstart { server := p, addr := addr }
  have hd := @steps_of_mem S F sha256 priv ShutDown (fun _ _ h => shutDown_step h _) _
    shutDown_step_shutdown _ hshutdown { server := p, addr := addr }
  have h := @steps_of_step S F sha256 priv HaltedOnce (fun _ ev h => haltedOnce_step h ev) pre
    { server := p, addr := addr } ⟨rfl, rfl⟩
  rw [steps_append, steps_append, steps_cons, steps_cons]
  generalize ({ server := p, addr := addr } : Process).steps S F sha256 priv pre = q at hs hd h ⊢
  have hw : ((q.step S F sha256 priv .wake).steps S F sha256 priv mid).Closed :=
    steps_of_step (P := Closed) (fun _ _ h => closed_step h _) mid (closed_step_wake hs hd h.2)
  obtain ⟨e, he⟩ := Option.isSome_iff_exists.mp (crashed_step_accept hw o)
  rw [steps_of_crashed he, he]
  rfl

/-- A run that starts the provider, shuts it down, lets `run` return and then accepts. -/
theorem steps_shutdown_crashes_startShutdown :
    ProcessEvent.start ∈ [.start, .shutdown] ∧ ProcessEvent.shutdown ∈ [.start, .shutdown] ∧
      (({ server := {}, addr := "" } : Process).steps toySuite oneByteFlags (fun b => .ok b)
        (5 : ToyElement)
        ([.start, .shutdown] ++ .wake :: [] ++ .accept (.error "" false false) :: [])
        ).crashed.isSome :=
  ⟨.head _, .tail _ (.head _), Process.steps_shutdown_crashes {} "" [.start, .shutdown] [] []
    (.error "" false false) (.head _) (.tail _ (.head _))⟩

/-! ### The test provider -/

/-- Modelled when its calls succeed: `CreateTestProvider()`, a provider with no clients,
over the inboxes on disk, whose listener and `haltedCh` are left nil. -/
def createTestProvider (inboxes : FileSystem) : Process :=
  { server := { inboxes := inboxes }, addr := "",
    life := { listenerNil := true, haltedChNil := true } }

end Steps

end Loopix
