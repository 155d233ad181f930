import Loopix.Provider.Inbox
import Loopix.Sphinx.Suite

/-!
# Registration and authentication

`registerNewClient` decodes a client's configuration, computes its token, records it
in `assignedClients` under the hexadecimal text of its public key, and creates its
inbox.  `handlePullRequest` hands a client its messages when `authenticateUser` accepts
the key and token the request carries.

`authenticateUser` reads the map with Go's index expression, which gives the zero
record for a name nobody registered.  The zero record's key and token are empty, so
the empty key with the empty token passes, and a pull request carrying them fetches
the inbox `./inboxes/`.  Apart from that, a key passes exactly with the token computed
for it, and only once a registration recorded it.

## Main definitions

* `ClientRecord`, `ProviderServer` — the provider's state.
* `ProviderServer.registerNewClient`, `ProviderServer.authenticateUser`,
  `ProviderServer.handlePullRequest` — as `part_001` writes them.
* `registerAll` — registrations one after the other.
* `ProviderServer.pullRequestCall` — the fetch a pull request makes on an inbox.

## Main results

* `registerAll_wellKeyed` — every record sits under its key's name, with the token
  computed for that name.
* `authenticateUser_iff` — what `authenticateUser` decides on a well-keyed map.
* `authenticateUser_registerAll` — **who passes authentication after any registrations.**
* `handlePullRequest_inboxes` — a pull request does to the inboxes what its fetch does.
* `handlePullRequest_empty` — **the empty key and token pass, and fetch `./inboxes/`.**
-/

namespace Loopix

/-- `ClientRecord`: what a provider keeps about a registered client. -/
structure ClientRecord where
  id : String := ""
  host : String := ""
  port : String := ""
  pubKey : Bytes := []
  token : Bytes := []
  deriving DecidableEq, Repr

/-- The state a provider's handlers share: the `assignedClients` map, and the inboxes
on disk. -/
structure ProviderServer where
  assignedClients : String → Option ClientRecord := fun _ => none
  inboxes : FileSystem := fun _ => none

/-- `p.assignedClients[clientID]`: Go's index expression gives the zero record for a
name that is not in the map. -/
def ProviderServer.lookupClient (p : ProviderServer) (clientID : String) : ClientRecord :=
  (p.assignedClients clientID).getD {}

/-- What the operating system answers to the calls of one `registerNewClient`. -/
structure RegisterOutcome where
  /-- The error of `helpers.DirExists`, if it fails. -/
  dirExists : Option String := none
  /-- The error of `os.MkdirAll`, if it fails. -/
  mkdirAll : Option String := none

section Handlers

-- Modelled from the spec: `helpers.SHA256`, absent from the sources.
variable (sha256 : Bytes → Except String Bytes)

/-- The bytes whose hash is the token of the client named `clientID`. -/
def tokenInput (clientID : String) : Bytes := bytesOfString ("TMP_Token" ++ clientID)

/-- The record `registerNewClient` makes of a client's configuration, up to its write into
the map: the client's name, the text of its key, and the token computed for that name. -/
def newClientRecord (clientBytes : Bytes) : Except String ClientRecord := do
  let clientConf ← ClientConfig.unmarshal clientBytes
  let clientID := hexString clientConf.pubKey
  let token ← sha256 (tokenInput clientID)
  pure { id := clientID, host := clientConf.host, port := clientConf.port,
         pubKey := clientConf.pubKey, token := token }

/-- The end of `registerNewClient`: look for the client's inbox (`helpers.DirExists`), and
make it (`os.MkdirAll`) where there is none. -/
def ProviderServer.makeInbox (p : ProviderServer) (clientID : String) (out : RegisterOutcome) :
    ProviderServer × Except String Unit :=
  let path := inboxPath clientID
  match out.dirExists, p.inboxes path, out.mkdirAll with
  | some e, _, _ => (p, .error e)
  | none, some _, _ => (p, .ok ())
  | none, none, some e => (p, .error e)
  | none, none, none => ({ p with inboxes := Function.update p.inboxes path (some ∅) }, .ok ())

/-- `p.assignedClients[record.id] = record`. -/
def ProviderServer.assignClient (p : ProviderServer) (record : ClientRecord) : ProviderServer :=
  { p with assignedClients := Function.update p.assignedClients record.id (some record) }

/-- `registerNewClient(clientBytes)`: the record goes into the map before the inbox is
looked for, so a registration whose inbox cannot be made still records the client. -/
def ProviderServer.registerNewClient (p : ProviderServer) (clientBytes : Bytes)
    (out : RegisterOutcome) : ProviderServer × Except String Bytes :=
  match newClientRecord sha256 clientBytes with
  | .error e => (p, .error e)
  | .ok record =>
    let r := (p.assignClient record).makeInbox record.id out
    (r.1, r.2.map fun _ => record.token)

/-- `authenticateUser(clientKey, clientToken)`. -/
def ProviderServer.authenticateUser (p : ProviderServer) (clientKey clientToken : Bytes) :
    Bool :=
  let clientID := hexString clientKey
  decide ((p.lookupClient clientID).token = clientToken) &&
    decide ((p.lookupClient clientID).pubKey = clientKey)

/-- Registrations served one after the other, each with what the operating system
answers to it. -/
def registerAll (p : ProviderServer) : List (Bytes × RegisterOutcome) → ProviderServer
  | [] => p
  | (clientBytes, out) :: calls => registerAll (p.registerNewClient sha256 clientBytes out).1 calls

/-! ### What a registration records -/

/-- `newClientRecord`, inverted: the configuration decodes and its name's token is
computed. -/
theorem newClientRecord_eq_ok {clientBytes : Bytes} {record : ClientRecord} :
    newClientRecord sha256 clientBytes = .ok record ↔
      ∃ c token, ClientConfig.unmarshal clientBytes = .ok c ∧
        sha256 (tokenInput (hexString c.pubKey)) = .ok token ∧
        record = { id := hexString c.pubKey, host := c.host, port := c.port, pubKey := c.pubKey,
                   token := token } := by
  simp only [newClientRecord, Except.bind_eq_ok, pure, Except.pure, Except.ok.injEq]
  constructor
  · rintro ⟨c, hc, token, ht, rfl⟩
    exact ⟨c, token, hc, ht, rfl⟩
  · rintro ⟨c, token, hc, ht, rfl⟩
    exact ⟨c, hc, token, ht, rfl⟩

@[simp] theorem makeInbox_assignedClients (p : ProviderServer) (clientID : String)
    (out : RegisterOutcome) : (p.makeInbox clientID out).1.assignedClients = p.assignedClients := by
  unfold ProviderServer.makeInbox
  dsimp only
  split <;> rfl

/-- Making an inbox leaves every directory that exists as it was. -/
theorem makeInbox_inboxes {p : ProviderServer} {q : String} (hq : (p.inboxes q).isSome)
    (clientID : String) (out : RegisterOutcome) :
    (p.makeInbox clientID out).1.inboxes q = p.inboxes q := by
  unfold ProviderServer.makeInbox
  dsimp only
  split
  iterate 3 rfl
  rename_i hnone _
  refine Function.update_noteq (fun h => ?_) _ _
  rw [h, hnone] at hq
  cases hq

/-- **What one registration does to the map**: nothing, when the configuration does not
decode or its token cannot be computed; otherwise it records the client under its
key's name, with the computed token, whatever becomes of the inbox. -/
theorem registerNewClient_assignedClients (p : ProviderServer) (clientBytes : Bytes)
    (out : RegisterOutcome) :
    ((p.registerNewClient sha256 clientBytes out).1.assignedClients = p.assignedClients ∧
        ∀ c, ClientConfig.unmarshal clientBytes = .ok c →
          (sha256 (tokenInput (hexString c.pubKey))).isOk = false) ∨
      ∃ c token, ClientConfig.unmarshal clientBytes = .ok c ∧
        sha256 (tokenInput (hexString c.pubKey)) = .ok token ∧
        (p.registerNewClient sha256 clientBytes out).1.assignedClients =
          Function.update p.assignedClients (hexString c.pubKey)
            (some { id := hexString c.pubKey, host := c.host, port := c.port, pubKey := c.pubKey,
                    token := token }) := by
  unfold ProviderServer.registerNewClient
  cases hr : newClientRecord sha256 clientBytes with
  | error e =>
    refine .inl ⟨rfl, fun c hc => ?_⟩
    cases ht : sha256 (tokenInput (hexString c.pubKey)) with
    | error => rfl
    | ok token =>
      rw [(newClientRecord_eq_ok sha256).mpr ⟨c, token, hc, ht, rfl⟩] at hr
      cases hr
  | ok record =>
    obtain ⟨c, token, hc, ht, rfl⟩ := (newClientRecord_eq_ok sha256).mp hr
    exact .inr ⟨c, token, hc, ht, makeInbox_assignedClients ..⟩

/-- Every record sits under the name of its own key, with the token computed for that
name. -/
def WellKeyed (m : String → Option ClientRecord) : Prop :=
  ∀ k r, m k = some r → k = hexString r.pubKey ∧ sha256 (tokenInput k) = .ok r.token

theorem wellKeyed_registerNewClient {p : ProviderServer} (hp : WellKeyed sha256 p.assignedClients)
    (clientBytes : Bytes) (out : RegisterOutcome) :
    WellKeyed sha256 (p.registerNewClient sha256 clientBytes out).1.assignedClients := by
  rcases registerNewClient_assignedClients sha256 p clientBytes out with
    ⟨h, -⟩ | ⟨c, token, -, ht, h⟩
  · rwa [h]
  · rw [h]
    intro k r hk
    by_cases hkc : k = hexString c.pubKey
    · subst hkc
      rw [Function.update_same, Option.some_inj] at hk
      subst hk
      exact ⟨rfl, ht⟩
    · rw [Function.update_noteq hkc] at hk
      exact hp k r hk

/-- A registration among `calls` recorded a client under the name `k`. -/
def RecordedUnder (calls : List (Bytes × RegisterOutcome)) (k : String) : Prop :=
  ∃ clientBytes out c, (clientBytes, out) ∈ calls ∧
    ClientConfig.unmarshal clientBytes = .ok c ∧
    hexString c.pubKey = k ∧ (sha256 (tokenInput k)).isOk

theorem registerAll_wellKeyed :
    ∀ {p : ProviderServer} (calls : List (Bytes × RegisterOutcome)),
      WellKeyed sha256 p.assignedClients →
        WellKeyed sha256 (registerAll sha256 p calls).assignedClients
  | _, [], hp => hp
  | _, _ :: calls, hp => registerAll_wellKeyed calls (wellKeyed_registerNewClient sha256 hp _ _)

theorem recordedUnder_cons (clientBytes : Bytes) (out : RegisterOutcome)
    (calls : List (Bytes × RegisterOutcome)) (k : String) :
    RecordedUnder sha256 ((clientBytes, out) :: calls) k ↔
      (∃ c, ClientConfig.unmarshal clientBytes = .ok c ∧ hexString c.pubKey = k ∧
        (sha256 (tokenInput k)).isOk) ∨ RecordedUnder sha256 calls k := by
  simp only [RecordedUnder, List.mem_cons, Prod.mk.injEq]
  constructor
  · rintro ⟨b, o, c, (⟨rfl, rfl⟩ | hb), hc⟩
    · exact .inl ⟨c, hc⟩
    · exact .inr ⟨b, o, c, hb, hc⟩
  · rintro (⟨c, hc⟩ | ⟨b, o, c, hb, hc⟩)
    · exact ⟨clientBytes, out, c, .inl ⟨rfl, rfl⟩, hc⟩
    · exact ⟨b, o, c, .inr hb, hc⟩

/-- A name is in the map after registrations exactly when it was before, or one of them
recorded a client under it. -/
theorem registerAll_isSome :
    ∀ (p : ProviderServer) (calls : List (Bytes × RegisterOutcome)) (k : String),
      ((registerAll sha256 p calls).assignedClients k).isSome ↔
        (p.assignedClients k).isSome ∨ RecordedUnder sha256 calls k
  | p, [], k => by simp [registerAll, RecordedUnder]
  | p, (clientBytes, out) :: calls, k => by
    rw [registerAll, registerAll_isSome, recordedUnder_cons, ← or_assoc]
    refine or_congr_left ?_
    rcases registerNewClient_assignedClients sha256 p clientBytes out with
      ⟨h, hno⟩ | ⟨c, token, hc, ht, h⟩
    · rw [h]
      refine ⟨.inl, ?_⟩
      rintro (hk | ⟨c, hc, rfl, hok⟩)
      · exact hk
      · rw [hno c hc] at hok
        cases hok
    · rw [h]
      by_cases hkc : k = hexString c.pubKey
      · subst hkc
        simp [hc, ht, Except.isOk, Except.toBool]
      · rw [Function.update_noteq hkc]
        refine ⟨.inl, ?_⟩
        rintro (hk | ⟨c', hc', rfl, -⟩)
        · exact hk
        · rw [hc] at hc'
          cases hc'
          exact absurd rfl hkc

theorem registerAll_append (p : ProviderServer) (calls calls' : List (Bytes × RegisterOutcome)) :
    registerAll sha256 p (calls ++ calls') =
      registerAll sha256 (registerAll sha256 p calls) calls' := by
  induction calls generalizing p with
  | nil => rfl
  | cons call calls ih => exact ih _

/-- What a registration does to the map depends on the map alone, not on the inboxes or
on what the operating system answers. -/
theorem registerNewClient_assignedClients_congr {p q : ProviderServer}
    (h : p.assignedClients = q.assignedClients) (clientBytes : Bytes) (out out' : RegisterOutcome) :
    (p.registerNewClient sha256 clientBytes out).1.assignedClients =
      (q.registerNewClient sha256 clientBytes out').1.assignedClients := by
  rcases registerNewClient_assignedClients sha256 p clientBytes out with
    ⟨hp, hno⟩ | ⟨c, t, hc, ht, hp⟩ <;>
  rcases registerNewClient_assignedClients sha256 q clientBytes out' with
    ⟨hq, hno'⟩ | ⟨c', t', hc', ht', hq⟩
  · rw [hp, hq, h]
  · have := hno c' hc'
    rw [ht'] at this
    cases this
  · have := hno' c hc
    rw [ht] at this
    cases this
  · rw [hc] at hc'
    cases hc'
    rw [ht] at ht'
    cases ht'
    rw [hp, hq, h]

theorem registerAll_assignedClients_congr :
    ∀ {p q : ProviderServer}, p.assignedClients = q.assignedClients →
      ∀ calls, (registerAll sha256 p calls).assignedClients =
        (registerAll sha256 q calls).assignedClients
  | _, _, h, [] => h
  | _, _, h, (b, o) :: calls =>
    registerAll_assignedClients_congr (registerNewClient_assignedClients_congr sha256 h b o o) calls

/-- A registration leaves every directory that exists as it was: it makes the client's
inbox only where there is none. -/
theorem registerNewClient_inboxes {p : ProviderServer} {q : String} (hq : (p.inboxes q).isSome)
    (clientBytes : Bytes) (out : RegisterOutcome) :
    (p.registerNewClient sha256 clientBytes out).1.inboxes q = p.inboxes q := by
  unfold ProviderServer.registerNewClient
  split
  · rfl
  · exact makeInbox_inboxes (p := p.assignClient _) hq _ _

/-! ### Authentication -/

/-- What `authenticateUser` decides when every record sits under its own key's name with
its name's token: a key passes with its name's token when its name is in the map, and
the empty key passes with the empty token when its name is not. -/
theorem authenticateUser_iff {p : ProviderServer} (hwk : WellKeyed sha256 p.assignedClients)
    (key token : Bytes) :
    p.authenticateUser key token = true ↔
      ((p.assignedClients (hexString key)).isSome ∧
          sha256 (tokenInput (hexString key)) = .ok token) ∨
        (¬ (p.assignedClients (hexString key)).isSome ∧ key = [] ∧ token = []) := by
  simp only [ProviderServer.authenticateUser, ProviderServer.lookupClient, Bool.and_eq_true,
    decide_eq_true_eq]
  rcases hm : p.assignedClients (hexString key) with _ | r
  · simp only [Option.getD_none, Option.isSome_none, Bool.false_eq_true, false_and, false_or,
      not_false_eq_true, true_and]
    exact ⟨fun ⟨h1, h2⟩ => ⟨h2.symm, h1.symm⟩,
      fun ⟨h1, h2⟩ => ⟨h2.symm, h1.symm⟩⟩
  · obtain ⟨hk, ht⟩ := hwk _ _ hm
    have hkey : r.pubKey = key := (hexString_injective hk).symm
    simp only [Option.getD_some, Option.isSome_some, hkey, and_true, true_and,
      not_true_eq_false, false_and, or_false, ht, Except.ok.injEq]

/-- **Who passes authentication after any registrations.**  Start from a provider with
no clients and serve any registrations.  A key and a token pass `authenticateUser`
exactly when a registration recorded a client under the key's name and the token is
the one computed for that name, or when the key and the token are both empty and no
registration recorded a client with the empty key. -/
theorem authenticateUser_registerAll (fs : FileSystem) (calls : List (Bytes × RegisterOutcome))
    (key token : Bytes) :
    (registerAll sha256 { inboxes := fs } calls).authenticateUser key token = true ↔
      (RecordedUnder sha256 calls (hexString key) ∧
          sha256 (tokenInput (hexString key)) = .ok token) ∨
        (¬ RecordedUnder sha256 calls (hexString key) ∧ key = [] ∧ token = []) := by
  rw [authenticateUser_iff sha256 (registerAll_wellKeyed sha256 calls fun _ _ h => by cases h),
    registerAll_isSome]
  simp only [Option.isSome_none, Bool.false_eq_true, false_or]

/-- `handlePullRequest(rqsBytes)`: the client's messages when it authenticates, and the
authentication error otherwise. -/
def ProviderServer.handlePullRequest (commFlag : Bytes) (p : ProviderServer) (rqsBytes : Bytes)
    (out : FetchOutcome) : ProviderServer × Except String (List Bytes) :=
  match PullRequest.unmarshal rqsBytes with
  | .error e => (p, .error e)
  | .ok request =>
    let clientID := hexString request.clientPublicKey
    if p.authenticateUser request.clientPublicKey request.token then
      let r := fetchMessages commFlag p.inboxes clientID out
      ({ p with inboxes := r.1 }, r.2.map Prod.snd)
    else (p, .error "authentication went wrong")

/-- The call `handlePullRequest` makes on an inbox: a request that authenticates fetches
from the inbox of its key's name. -/
def ProviderServer.pullRequestCall (p : ProviderServer) (rqsBytes : Bytes) (out : FetchOutcome) :
    Option (String × InboxCall) :=
  match PullRequest.unmarshal rqsBytes with
  | .ok request =>
    if p.authenticateUser request.clientPublicKey request.token then
      some (hexString request.clientPublicKey, .fetch out)
    else none
  | .error _ => none

/-- `handlePullRequest` does to the inboxes what its call does. -/
theorem handlePullRequest_inboxes (commFlag : Bytes) (p : ProviderServer) (rqsBytes : Bytes)
    (out : FetchOutcome) :
    (p.handlePullRequest commFlag rqsBytes out).1.inboxes =
      applyCall commFlag p.inboxes (p.pullRequestCall rqsBytes out) := by
  unfold ProviderServer.handlePullRequest ProviderServer.pullRequestCall
  rcases PullRequest.unmarshal rqsBytes with _ | request
  · rfl
  · dsimp only
    split_ifs <;> rfl

/-- A pull request with a non-empty key fetches from an inbox of a plain name. -/
theorem plainCall_pullRequestCall (p : ProviderServer) {rqsBytes : Bytes} (out : FetchOutcome)
    (hkey : ∀ r, PullRequest.unmarshal rqsBytes = .ok r → r.clientPublicKey ≠ []) :
    PlainCall (p.pullRequestCall rqsBytes out) := by
  unfold ProviderServer.pullRequestCall
  split
  · rename_i r hr
    split_ifs
    · exact ⟨plainName_hexString (hkey r hr), nofun⟩
    · trivial
  · trivial

@[simp] theorem handlePullRequest_assignedClients (commFlag : Bytes) (p : ProviderServer)
    (rqsBytes : Bytes) (out : FetchOutcome) :
    (p.handlePullRequest commFlag rqsBytes out).1.assignedClients = p.assignedClients := by
  unfold ProviderServer.handlePullRequest
  split
  · rfl
  · dsimp only
    split_ifs <;> rfl

/-- **The empty key and the empty token pass, and fetch the inbox `./inboxes/`.**  Serve
any registrations, none of which decodes to a client with the empty key.  The pull
request with the empty key and the empty token (whose encoding is the empty byte
string) passes authentication: `handlePullRequest` does what `fetchMessages` does for
the name `""`, and does not return the authentication error. -/
theorem handlePullRequest_empty (commFlag : Bytes) (fs : FileSystem)
    (calls : List (Bytes × RegisterOutcome))
    (hcalls : ∀ clientBytes out c, (clientBytes, out) ∈ calls →
      ClientConfig.unmarshal clientBytes = .ok c → c.pubKey ≠ [])
    (out : FetchOutcome) :
    (registerAll sha256 { inboxes := fs } calls).authenticateUser [] [] = true ∧
      (registerAll sha256 { inboxes := fs } calls).handlePullRequest commFlag
          (PullRequest.marshal {}) out =
        ({ registerAll sha256 { inboxes := fs } calls with
            inboxes := (fetchMessages commFlag (registerAll sha256 { inboxes := fs } calls).inboxes
              "" out).1 },
          (fetchMessages commFlag (registerAll sha256 { inboxes := fs } calls).inboxes "" out).2.map
            Prod.snd) := by
  have hnone : (registerAll sha256 { inboxes := fs } calls).assignedClients (hexString []) =
      none := by
    rw [← Option.not_isSome_iff_eq_none, registerAll_isSome]
    rintro (h | ⟨b, o, c, hb, hc, hname, -⟩)
    · cases h
    · exact hcalls b o c hb hc ((hexString_eq_empty_iff _).mp hname)
  have hauth : (registerAll sha256 { inboxes := fs } calls).authenticateUser [] [] = true := by
    simp [ProviderServer.authenticateUser, ProviderServer.lookupClient, hnone]
  refine ⟨hauth, ?_⟩
  have hrq : PullRequest.marshal {} = [] := rfl
  simp only [ProviderServer.handlePullRequest, hrq, PullRequest.unmarshal, decodeMessage_nil,
    hauth, if_true]
  rfl

end Handlers

/-- One client, with a three-byte key, registered with the identity as its hash. -/
theorem handlePullRequest_empty_oneClient :
    (registerAll (fun b => .ok b) {}
        [(ClientConfig.marshal { id := "Recipient", pubKey := [1, 2, 3] }, {})]).authenticateUser
          [] [] = true ∧
      (registerAll (fun b => .ok b) {}
          [(ClientConfig.marshal { id := "Recipient", pubKey := [1, 2, 3] }, {})]).handlePullRequest
          [] (PullRequest.marshal {}) {} =
        ({ registerAll (fun b => .ok b) {}
              [(ClientConfig.marshal { id := "Recipient", pubKey := [1, 2, 3] }, {})] with
            inboxes := (fetchMessages [] (registerAll (fun b => .ok b) {}
              [(ClientConfig.marshal { id := "Recipient", pubKey := [1, 2, 3] }, {})]).inboxes
                "" {}).1 },
          (fetchMessages [] (registerAll (fun b => .ok b) {}
              [(ClientConfig.marshal { id := "Recipient", pubKey := [1, 2, 3] }, {})]).inboxes
                "" {}).2.map Prod.snd) :=
  handlePullRequest_empty (fun b => .ok b) [] (fun _ => none) _ (by
    rintro b o c hb hc
    rw [List.mem_singleton, Prod.mk.injEq] at hb
    rw [hb.1, ClientConfig.unmarshal_marshal] at hc
    cases hc
    simp) {}

end Loopix
