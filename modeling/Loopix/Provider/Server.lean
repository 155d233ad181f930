import Loopix.Provider.Delivery

/-!
# The provider as a server

`handleConnection` serves one connection: one `Read` into a buffer of 1024 bytes,
decoded as a `GeneralPacket` and dispatched on its flag to a registration, a Sphinx
packet or a pull request; it answers a registration with the wrapped token and a pull
request with the messages.  Every error is logged and ends the connection.  A panic is
not caught: nothing on the connection's goroutine recovers it, so it ends the process.
A provider serves connections one after the other (`ProviderServer.serve`).

Facts about whole runs follow.  The registrations a provider served, and nothing else
it served, decide who passes authentication.  Seen from one client's inbox, the
provider is the inbox machine of `runInbox`: each connection makes at most one call on
an inbox, a store or a fetch, and nothing else touches it.  Whatever a peer sends after
its first 1024 bytes is never read.  A client whose pull request authenticates receives,
in a `ProviderResponse`, exactly the messages taken from its inbox.  And a run ends the
provider exactly when one of its connections carries a Sphinx packet whose processing
panics, such as one without a header, whatever the provider's state.

## Main definitions

* `Flags` — the flag values of the `flags` package, modelled from the spec.
* `createClientResponse`, `ProviderServer.handleAssignRequest` — as `part_001` writes them.
* `Connection`, `ProviderServer.handleConnection`, `ProviderServer.serve`.
* `ProviderServer.connectionCall`, `ProviderServer.inboxCalls` — the calls a connection,
  and a run, make on an inbox.

## Main results

* `handleConnection_pull` — **a client that pulls gets its inbox, in a reply it can
  decode.**
* `serve_isPanic_iff` — **a run ends the provider exactly when a connection carries a
  Sphinx packet whose processing panics.**
* `serve_assignedClients` — a run's clients are those of the registrations it served.
* `authenticateUser_serve` — **who passes authentication after any run.**
* `handleConnection_inboxes` — a connection does to the inboxes what its call does.
* `serve_inbox` — **the provider, seen from one inbox, is the inbox of `runInbox`.**
-/

namespace Loopix

/-- Modelled from the spec: the values the `flags` package gives the packet types a
provider dispatches on, and the flag it wraps tokens with. -/
structure Flags where
  assignFlag : Bytes
  commFlag : Bytes
  pullFlag : Bytes
  tokenFlag : Bytes

/-- `createClientResponse(marshalledPackets...)`; marshalling cannot fail. -/
def createClientResponse (marshalledPackets : List Bytes) : Bytes :=
  ProviderResponse.marshal
    { numberOfPackets := marshalledPackets.length.toUInt64, packets := marshalledPackets }

/-- The client decodes the response back: the number of packets, and the packets. -/
theorem unmarshal_createClientResponse (marshalledPackets : List Bytes) :
    ProviderResponse.unmarshal (createClientResponse marshalledPackets) =
      .ok { numberOfPackets := marshalledPackets.length.toUInt64, packets := marshalledPackets } :=
  ProviderResponse.unmarshal_marshal _

/-- A connection, with what the operating system and the network answer to the calls
serving it makes. -/
structure Connection where
  /-- The bytes the peer wrote. -/
  sent : Bytes
  /-- What `conn.Read` returns: how many bytes it read, or its error. -/
  read : Except String ℕ
  /-- What the operating system answers to a registration's calls. -/
  register : RegisterOutcome := {}
  /-- What the operating system answers to a store's calls. -/
  store : StoreOutcome := {}
  /-- What the operating system answers to a fetch's calls. -/
  fetch : FetchOutcome := {}
  /-- What `helpers.RandomString(8)` returns. -/
  random : String := ""
  /-- What the network answers to sending bytes to an address. -/
  send : String → Bytes → Except String Unit := fun _ _ => .ok ()

/-- The packet a connection's one `Read` into a 1024-byte buffer decodes to. -/
def Connection.packet (conn : Connection) : Except String GeneralPacket := do
  let reqLen ← conn.read
  GeneralPacket.unmarshal ((conn.sent.take 1024).take reqLen)

/-! ### Sample connections -/

/-- Flags of one byte each. -/
def oneByteFlags : Flags :=
  { assignFlag := [1], commFlag := [2], pullFlag := [3], tokenFlag := [4] }

/-- A connection registering the client with the key `[1, 2, 3]`. -/
def assignOneClient : Connection :=
  { sent := wrapWithFlag [1] (ClientConfig.marshal { pubKey := [1, 2, 3] }),
    read := .ok (wrapWithFlag [1] (ClientConfig.marshal { pubKey := [1, 2, 3] })).length }

/-- The pull request of the client with the key `[1, 2, 3]`, with the token its
registration computes when the hash is the identity. -/
def pullRequestOne : PullRequest :=
  { clientPublicKey := [1, 2, 3], token := tokenInput (hexString [1, 2, 3]) }

/-- A connection pulling the messages of the client with the key `[1, 2, 3]`. -/
def pullOneClient : Connection :=
  { sent := wrapWithFlag [3] pullRequestOne.marshal,
    read := .ok (wrapWithFlag [3] pullRequestOne.marshal).length }

/-- The inbox of the client with the key `[1, 2, 3]`, holding two messages. -/
def oneInbox : FileSystem :=
  fun q => if q = inboxPath (hexString [1, 2, 3]) then some twoMessageInbox else none

/-- The provider with that inbox, after the client with the key `[1, 2, 3]` registered
with the identity as its hash. -/
def registeredOne : ProviderServer :=
  (({ inboxes := oneInbox } : ProviderServer).registerNewClient (fun b => .ok b)
    (ClientConfig.marshal { pubKey := [1, 2, 3] }) {}).1

section Server

variable (S : Suite) (F : Flags) (sha256 : Bytes → Except String Bytes) (priv : S.FieldElement)

/-- `handleAssignRequest(packet)`: register the client, and wrap its token with
`TokenFlag`. -/
def ProviderServer.handleAssignRequest (p : ProviderServer) (packet : Bytes)
    (out : RegisterOutcome) : ProviderServer × Except String Bytes :=
  let r := p.registerNewClient sha256 packet out
  (r.1, r.2.map (wrapWithFlag F.tokenFlag))

/-- `handleConnection(conn)`: the provider after the connection, and what it writes
back, if anything.  `ProcessPacket` is `ProcessSphinxPacket` under the key `priv`. -/
def ProviderServer.handleConnection (p : ProviderServer) (conn : Connection) :
    Go (ProviderServer × Option Bytes) :=
  match conn.packet with
  | .error _ => pure (p, none)
  | .ok packet =>
    if packet.flag = F.assignFlag then
      let r := p.handleAssignRequest F sha256 packet.data conn.register
      pure (r.1, r.2.toOption.map fun tokenBytes => createClientResponse [tokenBytes])
    else if packet.flag = F.commFlag then
      let r := p.receivedPacket S F.commFlag priv packet.data conn.random conn.send conn.store
      match r.2 with
      | .error (.panic m) => throw (.panic m)
      | _ => pure (r.1, none)
    else if packet.flag = F.pullFlag then
      let r := p.handlePullRequest F.commFlag packet.data conn.fetch
      pure (r.1, r.2.toOption.map createClientResponse)
    else pure (p, none)

/-- A provider serving connections one after the other: the provider after them and
what it wrote back on each; a panic ends the process. -/
def ProviderServer.serve (p : ProviderServer) : List Connection →
    Go (ProviderServer × List (Option Bytes))
  | [] => pure (p, [])
  | conn :: conns => do
    let r ← p.handleConnection S F sha256 priv conn
    let rest ← ProviderServer.serve r.1 conns
    pure (rest.1, r.2 :: rest.2)

/-! ### One connection -/

/-- **A client that pulls gets its inbox, in a reply it can decode.**  Let a connection
carry a pull request, flagged `PullFlag` and neither `AssignFlag` nor `CommFlag`, whose
key and token pass authentication; let the fetch's removals succeed, and its reads fail
only at the first file, if at all.  Then the provider answers with a `ProviderResponse`
that counts and carries some messages, or does not answer and carries none; and those
messages, with the ones left in the client's inbox, are the inbox's messages before,
each wrapped with `CommFlag`: none is lost, duplicated or invented. -/
theorem handleConnection_pull {p : ProviderServer} {conn : Connection} {packet : GeneralPacket}
    {request : PullRequest} (hpk : conn.packet = .ok packet) (ha : packet.flag ≠ F.assignFlag)
    (hc : packet.flag ≠ F.commFlag) (hpull : packet.flag = F.pullFlag)
    (hrq : PullRequest.unmarshal packet.data = .ok request)
    (hauth : p.authenticateUser request.clientPublicKey request.token = true)
    (hrem : ∀ j, conn.fetch.remove j = none)
    (hread : ∀ j, 0 < j → conn.fetch.readFile j = none) :
    ∃ r, p.handleConnection S F sha256 priv conn = .ok r ∧ ∃ msgs : List Bytes,
      (r.2 = none ∧ msgs = [] ∨ ∃ reply, r.2 = some reply ∧
        ProviderResponse.unmarshal reply =
          .ok { numberOfPackets := msgs.length.toUInt64, packets := msgs }) ∧
      (msgs : Multiset Bytes) +
          (inboxMessages (r.1.inboxes (inboxPath (hexString request.clientPublicKey)))).map
            (wrapWithFlag F.commFlag) =
        (inboxMessages (p.inboxes (inboxPath (hexString request.clientPublicKey)))).map
          (wrapWithFlag F.commFlag) := by
  rcases hf : fetchMessages F.commFlag p.inboxes (hexString request.clientPublicKey) conn.fetch
    with ⟨fs', res⟩
  obtain ⟨hmsg, -, -⟩ := fetchMessages_of_clean F.commFlag hrem hread hf
  have hpr : p.handlePullRequest F.commFlag packet.data conn.fetch =
      ({ p with inboxes := fs' }, res.map Prod.snd) := by
    simp only [ProviderServer.handlePullRequest, hrq, hauth, if_true, hf]
  have hconn : p.handleConnection S F sha256 priv conn =
      .ok ({ p with inboxes := fs' }, (res.map Prod.snd).toOption.map createClientResponse) := by
    rw [ProviderServer.handleConnection, hpk]
    dsimp only
    rw [if_neg ha, if_neg hc, if_pos hpull, hpr]
    rfl
  refine ⟨_, hconn, fetched res, ?_, hmsg⟩
  rcases res with e | ⟨signal, msgs⟩
  · exact .inl ⟨rfl, rfl⟩
  · exact .inr ⟨_, rfl, unmarshal_createClientResponse msgs⟩

theorem handleConnection_pull_registered :
    ∃ r, registeredOne.handleConnection toySuite oneByteFlags (fun b => .ok b) (5 : ToyElement)
        pullOneClient = .ok r ∧ ∃ msgs : List Bytes,
      (r.2 = none ∧ msgs = [] ∨ ∃ reply, r.2 = some reply ∧
        ProviderResponse.unmarshal reply =
          .ok { numberOfPackets := msgs.length.toUInt64, packets := msgs }) ∧
      (msgs : Multiset Bytes) +
          (inboxMessages (r.1.inboxes (inboxPath (hexString pullRequestOne.clientPublicKey)))).map
            (wrapWithFlag oneByteFlags.commFlag) =
        (inboxMessages (registeredOne.inboxes
          (inboxPath (hexString pullRequestOne.clientPublicKey)))).map
          (wrapWithFlag oneByteFlags.commFlag) :=
  @handleConnection_pull toySuite oneByteFlags (fun b => .ok b) (5 : ToyElement) registeredOne
    pullOneClient { flag := [3], data := pullRequestOne.marshal } pullRequestOne rfl (by decide)
    (by decide) rfl (PullRequest.unmarshal_marshal _) rfl (fun _ => rfl) (fun _ _ => rfl)

/-- **When a connection ends the provider**: exactly when it carries, flagged `CommFlag`
and not `AssignFlag`, a Sphinx packet whose processing panics.  Whatever else a
connection carries, and whatever the operating system answers, the provider survives
it. -/
theorem handleConnection_isPanic_iff (p : ProviderServer) (conn : Connection) :
    (p.handleConnection S F sha256 priv conn).isPanic = true ↔
      ∃ packet, conn.packet = .ok packet ∧ packet.flag ≠ F.assignFlag ∧
        packet.flag = F.commFlag ∧ (S.processSphinxPacket packet.data priv).isPanic = true := by
  unfold ProviderServer.handleConnection
  rcases conn.packet with _ | packet
  · simp [Go.isPanic, pure, Except.pure]
  · simp only [Except.ok.injEq, exists_eq_left']
    split_ifs with ha hc
    · simp [ha, Go.isPanic, pure, Except.pure]
    · rw [← receivedPacket_isPanic S F.commFlag p priv packet.data conn.random conn.send
        conn.store]
      split <;> simp_all [Go.isPanic, pure, Except.pure, throw, throwThe, MonadExceptOf.throw]
    all_goals simp_all [Go.isPanic, pure, Except.pure]

/-- A connection that does not end the provider returns: `handleConnection` logs every
error. -/
theorem handleConnection_ok_of_not_isPanic {p : ProviderServer} {conn : Connection}
    (h : (p.handleConnection S F sha256 priv conn).isPanic = false) :
    ∃ r, p.handleConnection S F sha256 priv conn = .ok r := by
  revert h
  unfold ProviderServer.handleConnection
  split
  · exact fun _ => ⟨_, rfl⟩
  · dsimp only
    split_ifs
    · exact fun _ => ⟨_, rfl⟩
    · split
      · simp [Go.isPanic, throw, throwThe, MonadExceptOf.throw]
      · exact fun _ => ⟨_, rfl⟩
    all_goals exact fun _ => ⟨_, rfl⟩

/-- **When a run ends the provider**: exactly when one of its connections carries,
flagged `CommFlag`, a Sphinx packet whose processing panics.  Whether a connection
panics does not depend on the provider's state, so the run survives exactly the
connections that a provider in any state survives. -/
theorem serve_isPanic_iff :
    ∀ (p : ProviderServer) (conns : List Connection),
      (p.serve S F sha256 priv conns).isPanic = true ↔
        ∃ conn ∈ conns, ∃ packet, conn.packet = .ok packet ∧
          packet.flag ≠ F.assignFlag ∧ packet.flag = F.commFlag ∧
          (S.processSphinxPacket packet.data priv).isPanic = true
  | _, [] => by simp [ProviderServer.serve, Go.isPanic, pure, Except.pure]
  | p, conn :: conns => by
    simp only [ProviderServer.serve, Go.isPanic_bind_eq_true, serve_isPanic_iff _ conns,
      List.mem_cons, exists_eq_or_imp, ← handleConnection_isPanic_iff S F sha256 priv p conn]
    constructor
    · rintro (h | ⟨r, -, h | ⟨_, -, h⟩⟩)
      · exact .inl h
      · exact .inr h
      · cases h
    · rintro (h | h)
      · exact .inl h
      · cases hp : (p.handleConnection S F sha256 priv conn).isPanic
        · obtain ⟨r, hr⟩ := handleConnection_ok_of_not_isPanic S F sha256 priv hp
          exact .inr ⟨r, hr, .inl h⟩
        · exact .inl rfl

/-! ### Runs -/

/-- The registration a connection asks for: the data of a packet flagged `AssignFlag`,
with what the operating system answers to it. -/
def Connection.assignCall (conn : Connection) : Option (Bytes × RegisterOutcome) :=
  match conn.packet with
  | .ok packet => if packet.flag = F.assignFlag then some (packet.data, conn.register) else none
  | .error _ => none

/-- The registrations a list of connections asks for, in order. -/
def assignCalls (conns : List Connection) : List (Bytes × RegisterOutcome) :=
  conns.filterMap (Connection.assignCall F)

theorem assignCalls_cons (conn : Connection) (conns : List Connection) :
    assignCalls F (conn :: conns) = (conn.assignCall F).toList ++ assignCalls F conns := by
  cases h : conn.assignCall F <;> simp [assignCalls, List.filterMap_cons, h]

/-- The provider after a connection that does not end it: what the registration, the
Sphinx packet or the pull request the connection carries makes of it, and the provider
as it was when the connection carries none of them. -/
theorem handleConnection_state {p : ProviderServer} {conn : Connection}
    {r : ProviderServer × Option Bytes} (h : p.handleConnection S F sha256 priv conn = .ok r) :
    r.1 = match conn.packet with
      | .ok packet =>
        if packet.flag = F.assignFlag then (p.registerNewClient sha256 packet.data conn.register).1
        else if packet.flag = F.commFlag then
          (p.receivedPacket S F.commFlag priv packet.data conn.random conn.send conn.store).1
        else if packet.flag = F.pullFlag then
          (p.handlePullRequest F.commFlag packet.data conn.fetch).1
        else p
      | .error _ => p := by
  unfold ProviderServer.handleConnection at h
  split at h <;> rename_i hpk <;> rw [hpk]
  · cases h
    rfl
  · dsimp only at h ⊢
    split_ifs at h ⊢
    · cases h
      rfl
    · split at h
      · cases h
      · cases h
        rfl
    all_goals cases h; rfl

/-- **What a connection does to the map**: a connection that does not end the provider
changes `assignedClients` as the registration it asks for does, and leaves it alone when
it asks for none. -/
theorem handleConnection_assignedClients {p : ProviderServer} {conn : Connection}
    {r : ProviderServer × Option Bytes} (h : p.handleConnection S F sha256 priv conn = .ok r) :
    r.1.assignedClients = (registerAll sha256 p (conn.assignCall F).toList).assignedClients := by
  rw [handleConnection_state S F sha256 priv h]
  unfold Connection.assignCall
  rcases conn.packet with _ | packet
  · rfl
  · dsimp only
    split_ifs
    · rfl
    · exact receivedPacket_assignedClients ..
    · exact handlePullRequest_assignedClients ..
    · rfl

/-- **A run's clients are those of the registrations it served**: after connections
served one after the other, none of which ended the provider, the map is what
`registerAll` makes of the registrations they asked for. -/
theorem serve_assignedClients :
    ∀ {p : ProviderServer} {conns : List Connection} {r : ProviderServer × List (Option Bytes)},
      p.serve S F sha256 priv conns = .ok r →
        r.1.assignedClients = (registerAll sha256 p (assignCalls F conns)).assignedClients
  | _, [], _, h => by cases h; rfl
  | p, conn :: conns, _, h => by
    obtain ⟨r₁, h₁, h⟩ := Except.bind_eq_ok.mp h
    obtain ⟨r₂, h₂, h⟩ := Except.bind_eq_ok.mp h
    cases h
    rw [serve_assignedClients h₂, assignCalls_cons, registerAll_append]
    exact registerAll_assignedClients_congr sha256
      (handleConnection_assignedClients S F sha256 priv h₁) _

/-- **Who passes authentication after any run.**  Start a provider with no clients and
serve connections one after the other, none of which ends it.  A key and a token pass
`authenticateUser` exactly when a registration among the connections recorded a client
under the key's name and the token is the one computed for that name, or when both are
empty and no registration recorded a client with the empty key.  Sphinx packets and
pull requests, whatever they carry, do not change who passes. -/
theorem authenticateUser_serve (fs : FileSystem) {conns : List Connection}
    {r : ProviderServer × List (Option Bytes)}
    (h : ({ inboxes := fs } : ProviderServer).serve S F sha256 priv conns = .ok r)
    (key token : Bytes) :
    r.1.authenticateUser key token = true ↔
      (RecordedUnder sha256 (assignCalls F conns) (hexString key) ∧
          sha256 (tokenInput (hexString key)) = .ok token) ∨
        (¬ RecordedUnder sha256 (assignCalls F conns) (hexString key) ∧
          key = [] ∧ token = []) := by
  have hm := serve_assignedClients S F sha256 priv h
  have hwk : WellKeyed sha256 r.1.assignedClients :=
    hm ▸ registerAll_wellKeyed sha256 _ fun _ _ h => by cases h
  rw [authenticateUser_iff sha256 hwk, hm, registerAll_isSome]
  simp only [Option.isSome_none, Bool.false_eq_true, false_or]

theorem authenticateUser_serve_oneClient :
    ∃ r, ({} : ProviderServer).serve toySuite oneByteFlags (fun b => .ok b) (5 : ToyElement)
        [assignOneClient] = .ok r ∧
      ∀ key token, (r.1.authenticateUser key token = true ↔
        (RecordedUnder (fun b => .ok b) (assignCalls oneByteFlags [assignOneClient])
            (hexString key) ∧
            (.ok (tokenInput (hexString key)) : Except String Bytes) = .ok token) ∨
          (¬ RecordedUnder (fun b => .ok b) (assignCalls oneByteFlags [assignOneClient])
            (hexString key) ∧ key = [] ∧ token = [])) :=
  ⟨_, rfl, @authenticateUser_serve toySuite oneByteFlags (fun b => .ok b) (5 : ToyElement)
    (fun _ => none) [assignOneClient] _ rfl⟩

/-! ### Runs, seen from one inbox -/

/-- The call a connection makes on an inbox: that of the Sphinx packet or of the pull
request it carries.  A registration makes none on an inbox that exists. -/
def ProviderServer.connectionCall (p : ProviderServer) (conn : Connection) :
    Option (String × InboxCall) :=
  match conn.packet with
  | .ok packet =>
    if packet.flag = F.assignFlag then none
    else if packet.flag = F.commFlag then
      receivedPacketCall S priv packet.data conn.random conn.store
    else if packet.flag = F.pullFlag then p.pullRequestCall packet.data conn.fetch
    else none
  | .error _ => none

/-- **What a connection does to the inboxes**: a connection that does not end the
provider does to every directory that exists what the call it makes does. -/
theorem handleConnection_inboxes {p : ProviderServer} {conn : Connection}
    {r : ProviderServer × Option Bytes} (h : p.handleConnection S F sha256 priv conn = .ok r)
    {q : String} (hq : (p.inboxes q).isSome) :
    r.1.inboxes q = applyCall F.commFlag p.inboxes (p.connectionCall S F priv conn) q := by
  rw [handleConnection_state S F sha256 priv h]
  unfold ProviderServer.connectionCall
  rcases conn.packet with _ | packet
  · rfl
  · dsimp only
    split_ifs
    · exact registerNewClient_inboxes sha256 hq _ _
    · exact congrFun (receivedPacket_inboxes ..) q
    · exact congrFun (handlePullRequest_inboxes ..) q
    · rfl

/-- The calls a run of connections makes on the inbox of `inboxID`, each made in the
state the connections before it left. -/
def ProviderServer.inboxCalls (inboxID : String) :
    ProviderServer → List Connection → List InboxCall
  | _, [] => []
  | p, conn :: conns =>
    match p.handleConnection S F sha256 priv conn with
    | .ok r =>
      callsOn inboxID (p.connectionCall S F priv conn) ++
        ProviderServer.inboxCalls inboxID r.1 conns
    | .error _ => []

/-- **The provider, seen from one inbox, is the inbox of `runInbox`.**  Serve connections
one after the other, none of which ends the provider, from a state where the inbox of
`inboxID`, a plain name, exists, and let every call a connection makes name a plain inbox
and file.  The inbox ends as `runInbox` leaves it after the calls the connections made on
it: a store for each Sphinx packet for the last hop whose hop names `inboxID`, and a fetch
for each pull request that authenticates with a key named `inboxID`.  Nothing else the
provider does touches the inbox, so what `runInbox_ledger` and `fetchMessages_loses` say
of an inbox holds of the provider's.  (A hop `Id` such as `inboxID ++ "/"` names the same
directory, so the plain names are needed.) -/
theorem serve_inbox (inboxID : String) (hid : PlainName inboxID) :
    ∀ {p : ProviderServer} {conns : List Connection} {r : ProviderServer × List (Option Bytes)},
      (∀ conn ∈ conns, ∀ q : ProviderServer, PlainCall (q.connectionCall S F priv conn)) →
      p.serve S F sha256 priv conns = .ok r → (p.inboxes (inboxPath inboxID)).isSome →
        r.1.inboxes (inboxPath inboxID) =
          (runInbox F.commFlag inboxID p.inboxes (p.inboxCalls S F sha256 priv inboxID conns)).1
            (inboxPath inboxID)
  | _, [], _, _, h, _ => by cases h; rfl
  | p, conn :: conns, _, hplain, h, hin => by
    obtain ⟨r₁, h₁, h⟩ := Except.bind_eq_ok.mp h
    obtain ⟨r₂, h₂, h⟩ := Except.bind_eq_ok.mp h
    cases h
    have hstep : r₁.1.inboxes (inboxPath inboxID) =
        (runInbox F.commFlag inboxID p.inboxes
          (callsOn inboxID (p.connectionCall S F priv conn))).1 (inboxPath inboxID) := by
      rw [handleConnection_inboxes S F sha256 priv h₁ hin, applyCall_inbox]
    have hin₁ : (r₁.1.inboxes (inboxPath inboxID)).isSome := by
      rw [hstep, runInbox_isSome]
      exact hin
    rw [serve_inbox inboxID hid (fun c hc => hplain c (List.mem_cons_of_mem _ hc)) h₂ hin₁,
      (runInbox_congr F.commFlag inboxID _ hstep).1]
    simp only [ProviderServer.inboxCalls, h₁, runInbox_append]

/-- The pull request of the client with the key `[1, 2, 3]` names a plain inbox, whatever
the provider's state. -/
theorem plainCall_pullOneClient (q : ProviderServer) :
    PlainCall (q.connectionCall toySuite oneByteFlags (5 : ToyElement) pullOneClient) := by
  show PlainCall (q.pullRequestCall pullRequestOne.marshal {})
  exact plainCall_pullRequestCall q {} fun r hr => by
    rw [PullRequest.unmarshal_marshal, Except.ok.injEq] at hr
    subst hr
    decide

theorem serve_inbox_registerPull :
    PlainName (hexString [1, 2, 3]) ∧
    (∀ conn ∈ [assignOneClient, pullOneClient], ∀ q : ProviderServer,
      PlainCall (q.connectionCall toySuite oneByteFlags (5 : ToyElement) conn)) ∧
    ∃ r, ({ inboxes := oneInbox } : ProviderServer).serve toySuite oneByteFlags (fun b => .ok b)
        (5 : ToyElement) [assignOneClient, pullOneClient] = .ok r ∧
      r.1.inboxes (inboxPath (hexString [1, 2, 3])) =
        (runInbox oneByteFlags.commFlag (hexString [1, 2, 3]) oneInbox
          (({ inboxes := oneInbox } : ProviderServer).inboxCalls toySuite oneByteFlags
            (fun b => .ok b) (5 : ToyElement) (hexString [1, 2, 3])
            [assignOneClient, pullOneClient])).1 (inboxPath (hexString [1, 2, 3])) :=
  have hid : PlainName (hexString [1, 2, 3]) := by decide
  have hplain : ∀ conn ∈ [assignOneClient, pullOneClient], ∀ q : ProviderServer,
      PlainCall (q.connectionCall toySuite oneByteFlags (5 : ToyElement) conn) := by
    simp only [List.mem_cons, List.mem_singleton, List.not_mem_nil, or_false]
    rintro conn (rfl | rfl) q
    · trivial
    · exact plainCall_pullOneClient q
  ⟨hid, hplain, _, rfl, @serve_inbox toySuite oneByteFlags (fun b => .ok b) (5 : ToyElement) _
    hid { inboxes := oneInbox } [assignOneClient, pullOneClient] _ hplain rfl rfl⟩

-- The registration makes no call on the inbox it finds; the pull authenticates and fetches.
example : ({ inboxes := oneInbox } : ProviderServer).inboxCalls toySuite oneByteFlags
    (fun b => .ok b) (5 : ToyElement) (hexString [1, 2, 3]) [assignOneClient, pullOneClient] =
      [.fetch {}] := rfl

end Server

end Loopix
