import Loopix.Sphinx.KeySchedule

/-!
# Building the header and the payload

`createHeader` draws the ephemeral scalar, derives the key schedule, builds one
`Commands` per node and hands them to `encapsulateHeader`, whose loop encrypts the
routing records from the innermost (the destination) outwards, each record carrying
the ciphertext and MAC of the one inside it.  `encapsulateContent` wraps the message
in one AES-CTR layer per node, innermost first.

Next to the code stands the construction §4.4 of the spec describes, written as a
recursion over the layers (`encryptLayer`, `wrapLayers`, `specHeader`): the proofs
compare the two.

## Main definitions

* `Suite.encapsulateHeader`, `Suite.encapsulateContent`, `Suite.createHeader` — the code.
* `Suite.encryptLayer`, `Suite.wrapLayers`, `Suite.specHeader` — the onion of §4.4.
* `Suite.payloadLayers` — the payload onion of §4.5.

## Main results

* `Suite.encapsulateHeaderLoop_range` — the loop computes the onion's layers.
* `Suite.encapsulateHeader_eq_specHeader` — from two nodes on, `encapsulateHeader` is
  the §4.4 header.
* `Suite.encapsulateContent_eq_payloadLayers` — `encapsulateContent` is §4.5.
-/

namespace Loopix

/-- The `Hop` a routing record names for a relay: `{Id, Host + ":" + Port, PubKey}`. -/
def MixConfig.toHop (n : MixConfig) : Hop :=
  { id := n.id, address := n.host ++ ":" ++ n.port, pubKey := n.pubKey }

/-- The `Hop` the last routing record names for the destination, with no key. -/
def ClientConfig.toHop (d : ClientConfig) : Hop :=
  { id := d.id, address := d.host ++ ":" ++ d.port, pubKey := [] }

namespace Suite

variable (S : Suite)

/-! ### The code -/

/-- The loop of `encapsulateHeader` over the indices it has left (`len(nodes) - 2`
down to `0`), with `routingCommands`, `encRouting` and `mac` as the earlier
iterations left them.  When the second `KDF` of an iteration fails, the source
returns `Header{}, nil`: an empty header and no error. -/
def encapsulateHeaderLoop (headerInitials : List HeaderInitials) (nodes : List MixConfig)
    (commands : List Commands) : List ℕ → List Bytes → Bytes → Bytes → Go Header
  | [], _, encRouting, mac => do
    let first ← goIndex headerInitials 0
    pure { alpha := first.alpha, beta := encRouting, mac := mac }
  | i :: is, routingCommands, _, mac => do
    let nextNode ← goIndex nodes (i + 1)
    let command ← goIndex commands i
    let nextHopMetaData ← goIndex routingCommands (routingCommands.length - 1)
    let routing : RoutingInfo :=
      { nextHop := some { id := nextNode.id, address := nextNode.host ++ ":" ++ nextNode.port,
                          pubKey := nextNode.pubKey },
        routingCommands := some command, nextHopMetaData := nextHopMetaData, mac := mac }
    let initials ← goIndex headerInitials i
    let encKey ← Go.ofErr (S.kdf initials.secretHash)
    let encRouting ← Go.ofErr (S.aesCtr encKey routing.marshal)
    match S.kdf initials.secretHash with
    | .error _ => pure {}
    | .ok kdfResL => do
      let mac ← Go.ofErr (S.computeMac kdfResL encRouting)
      encapsulateHeaderLoop headerInitials nodes commands is (routingCommands ++ [encRouting])
        encRouting mac

/-- `encapsulateHeader(headerInitials, nodes, commands, destination)`.  `encRouting`
starts as a nil slice. -/
def encapsulateHeader (headerInitials : List HeaderInitials) (nodes : List MixConfig)
    (commands : List Commands) (destination : ClientConfig) : Go Header := do
  let lastCommand ← goIndex commands (commands.length - 1)
  let finalHop : RoutingInfo :=
    { nextHop := some { id := destination.id,
                        address := destination.host ++ ":" ++ destination.port, pubKey := [] },
      routingCommands := some lastCommand, nextHopMetaData := [], mac := [] }
  let lastInitials ← goIndex headerInitials (headerInitials.length - 1)
  let kdfRes ← Go.ofErr (S.kdf lastInitials.secretHash)
  let encFinalHop ← Go.ofErr (S.aesCtr kdfRes finalHop.marshal)
  let mac ← Go.ofErr (S.computeMac kdfRes encFinalHop)
  S.encapsulateHeaderLoop headerInitials nodes commands (List.range (nodes.length - 1)).reverse
    [encFinalHop] [] mac

/-- The loop of `encapsulateContent` over the indices it has left. -/
def encapsulateContentLoop (headerInitials : List HeaderInitials) : List ℕ → Bytes → Go Bytes
  | [], enc => pure enc
  | i :: is, enc => do
    let initials ← goIndex headerInitials i
    let sharedKey ← Go.ofErr (S.kdf initials.secretHash)
    let enc ← Go.ofErr (S.aesCtr sharedKey enc)
    encapsulateContentLoop headerInitials is enc

/-- `encapsulateContent(headerInitials, message)`, the message given by its bytes. -/
def encapsulateContent (headerInitials : List HeaderInitials) (message : Bytes) : Go Bytes :=
  S.encapsulateContentLoop headerInitials (List.range headerInitials.length).reverse message

/-- The `Commands` `createHeader` builds for node `i` of `n`: the `i`-th delay, and the
last-hop flag for the last node only. -/
def nodeCommand (delays : List UInt64) (n i : ℕ) : Go Commands := do
  let delay ← goIndex delays i
  pure (if i = n - 1 then { delay := delay, flag := S.lastHopFlag }
    else { delay := delay, flag := S.relayFlag })

/-- `createHeader(nodes, delays, dest)`.  `random` is what `RandomElement()` returned. -/
def createHeader (nodes : List MixConfig) (delays : List UInt64) (dest : ClientConfig)
    (random : Except String S.FieldElement) : Go (List HeaderInitials × Header) := do
  let x ← Go.ofErr random
  let headerInitials ← S.getSharedSecrets nodes x
  if headerInitials.length ≠ nodes.length then
    throw (.error
      " the number of shared secrets should be the same as the number of traversed nodes")
  let commands ← (List.range nodes.length).mapM (S.nodeCommand delays nodes.length)
  let header ← S.encapsulateHeader headerInitials nodes commands dest
  pure (headerInitials, header)

/-! ### The construction of §4.4 and §4.5 -/

/-- One layer of the onion: the routing record encrypted under `KDF(secretHash)`, and
the MAC of that ciphertext under the same key. -/
def encryptLayer (secretHash : Bytes) (r : RoutingInfo) : Go (Bytes × Bytes) := do
  let key ← Go.ofErr (S.kdf secretHash)
  let enc ← Go.ofErr (S.aesCtr key r.marshal)
  let mac ← Go.ofErr (S.computeMac key enc)
  pure (enc, mac)

/-- The routing record of a relay layer: the next hop, its command, and the
ciphertext and MAC of the layer inside. -/
def relayRecord (hop : Hop) (command : Commands) (inner : Bytes × Bytes) : RoutingInfo :=
  { nextHop := some hop, routingCommands := some command, nextHopMetaData := inner.1,
    mac := inner.2 }

/-- The routing record of the final layer: the destination, the last command, nothing
inside. -/
def finalRecord (dest : ClientConfig) (command : Commands) : RoutingInfo :=
  { nextHop := some dest.toHop, routingCommands := some command }

/-- Wrap an already encrypted layer `inner` in relay layers, given outermost first as
`(secretHash, next hop, command)`. -/
def wrapLayers (inner : Bytes × Bytes) : List (Bytes × Hop × Commands) → Go (Bytes × Bytes)
  | [] => pure inner
  | l :: layers => do
    let e ← wrapLayers inner layers
    S.encryptLayer l.1 (relayRecord l.2.1 l.2.2 e)

/-- The relay layers of a path of `n` nodes: layer `i < n - 1` under the `i`-th secret
hash, naming node `i + 1`, with the `i`-th command. -/
def relayLayers (T : List HeaderInitials) (nodes : List MixConfig) (commands : List Commands)
    (i : ℕ) : Bytes × Hop × Commands :=
  ((T.getD i {}).secretHash, (nodes.getD (i + 1) {}).toHop, commands.getD i {})

/-- The header §4.4 describes for the tuples `T`, the nodes, the commands and the
destination: the final layer under the last key, wrapped in a relay layer for each
earlier node; `alpha` is the first node's. -/
def specHeader (T : List HeaderInitials) (nodes : List MixConfig) (commands : List Commands)
    (dest : ClientConfig) : Go Header := do
  let inner ← S.encryptLayer (T.getD (nodes.length - 1) {}).secretHash
    (finalRecord dest (commands.getD (nodes.length - 1) {}))
  let e ← S.wrapLayers inner ((List.range (nodes.length - 1)).map (relayLayers T nodes commands))
  pure { alpha := (T.getD 0 {}).alpha, beta := e.1, mac := e.2 }

/-- The payload of §4.5: the message under one AES-CTR layer per tuple, the last
tuple's innermost. -/
def payloadLayers (message : Bytes) : List HeaderInitials → Go Bytes
  | [] => pure message
  | t :: ts => do
    let inner ← payloadLayers message ts
    let key ← Go.ofErr (S.kdf t.secretHash)
    Go.ofErr (S.aesCtr key inner)

/-! ### The loops compute the constructions -/

theorem wrapLayers_append_singleton (inner : Bytes × Bytes)
    (layers : List (Bytes × Hop × Commands)) (l : Bytes × Hop × Commands) :
    S.wrapLayers inner (layers ++ [l]) =
      S.encryptLayer l.1 (relayRecord l.2.1 l.2.2 inner) >>= fun e => S.wrapLayers e layers := by
  induction layers with
  | nil => simp only [List.nil_append, wrapLayers, pure_bind, bind_pure]
  | cons l' layers ih => simp only [List.cons_append, wrapLayers, List.append_eq, ih, bind_assoc]

theorem goIndex_last {α : Type} {s : List α} {a : α} (h : s.getLast? = some a) :
    goIndex s (s.length - 1) = .ok a := by
  simp [goIndex, ← List.getLast?_eq_getElem?, h]

theorem goIndex_eq_getD {α : Type} {s : List α} {i : ℕ} (d : α) (h : i < s.length) :
    goIndex s i = .ok (s.getD i d) := by
  simp [goIndex, List.getElem?_eq_getElem h]

/-- **One iteration of the header loop is one layer of the onion.**  The second `KDF`
of the iteration hashes what the first hashed, so the early return never happens. -/
theorem encapsulateHeaderLoop_cons {T : List HeaderInitials} {nodes : List MixConfig}
    {commands : List Commands} {i : ℕ} (is : List ℕ) (rc : List Bytes) (enc mac e : Bytes)
    (hi : i + 1 < nodes.length) (hT : T.length = nodes.length)
    (hc : commands.length = nodes.length) (hrc : rc.getLast? = some e) :
    S.encapsulateHeaderLoop T nodes commands (i :: is) rc enc mac = (do
      let e' ← S.encryptLayer (relayLayers T nodes commands i).1
        (relayRecord (relayLayers T nodes commands i).2.1 (relayLayers T nodes commands i).2.2
          (e, mac))
      S.encapsulateHeaderLoop T nodes commands is (rc ++ [e'.1]) e'.1 e'.2) := by
  have hci : i < commands.length := by omega
  have hTi : i < T.length := by omega
  simp only [encapsulateHeaderLoop, goIndex_eq_getD {} hi, goIndex_eq_getD {} hci,
    goIndex_last hrc, goIndex_eq_getD {} hTi, Except.ok_bind,
    relayLayers, encryptLayer, relayRecord, MixConfig.toHop]
  cases S.kdf (T.getD i {}).secretHash with
  | error => rfl
  | ok k => simp only [Go.ofErr_ok, Except.ok_bind, bind_assoc, pure_bind]

/-- The header loop over `m + 1` indices wraps the layer it starts from in the relay
layers `0 .. m`, and returns them with the first node's `alpha`. -/
theorem encapsulateHeaderLoop_range {T : List HeaderInitials} {nodes : List MixConfig}
    {commands : List Commands} (hT : T.length = nodes.length)
    (hc : commands.length = nodes.length) :
    ∀ (m : ℕ) (rc : List Bytes) (enc mac e : Bytes), m + 1 < nodes.length →
      rc.getLast? = some e →
      S.encapsulateHeaderLoop T nodes commands (List.range (m + 1)).reverse rc enc mac = (do
        let e' ← S.wrapLayers (e, mac) ((List.range (m + 1)).map (relayLayers T nodes commands))
        pure { alpha := (T.getD 0 {}).alpha, beta := e'.1, mac := e'.2 })
  | 0, rc, enc, mac, e, hm, hrc => by
    have h0 : 0 < T.length := by omega
    simp only [List.range_succ, List.range_zero, List.nil_append, List.reverse_singleton,
      List.map_singleton]
    rw [S.encapsulateHeaderLoop_cons [] rc enc mac e hm hT hc hrc]
    simp only [wrapLayers, pure_bind, encapsulateHeaderLoop, goIndex_eq_getD {} h0, Except.ok_bind]
  | m + 1, rc, enc, mac, e, hm, hrc => by
    rw [List.range_succ, List.reverse_append, List.reverse_singleton, List.singleton_append,
      S.encapsulateHeaderLoop_cons _ rc enc mac e hm hT hc hrc, List.map_append,
      List.map_singleton, wrapLayers_append_singleton, bind_assoc]
    congr 1
    funext e'
    rw [encapsulateHeaderLoop_range hT hc m _ _ _ e'.1 (by omega) (by simp)]

/-- **`encapsulateHeader` builds the header of §4.4**, for every path of at least two
nodes with one tuple and one command per node. -/
theorem encapsulateHeader_eq_specHeader {T : List HeaderInitials} {nodes : List MixConfig}
    {commands : List Commands} (dest : ClientConfig) (hn : 2 ≤ nodes.length)
    (hT : T.length = nodes.length) (hc : commands.length = nodes.length) :
    S.encapsulateHeader T nodes commands dest = S.specHeader T nodes commands dest := by
  obtain ⟨m, hm⟩ : ∃ m, nodes.length = m + 1 + 1 := ⟨nodes.length - 2, by omega⟩
  have hTl : m + 1 < T.length := by omega
  have hcl : m + 1 < commands.length := by omega
  simp only [encapsulateHeader, specHeader, hT, hc, hm, Nat.add_sub_cancel,
    goIndex_eq_getD {} hTl, goIndex_eq_getD {} hcl, encryptLayer, Except.ok_bind, bind_assoc]
  cases S.kdf (T.getD (m + 1) {}).secretHash with
  | error => rfl
  | ok k =>
    simp only [Go.ofErr_ok, Except.ok_bind, bind_assoc, pure_bind]
    congr 1
    funext enc
    congr 1
    funext mac
    exact S.encapsulateHeaderLoop_range hT hc m [enc] [] mac enc (by omega) rfl

/-- `encryptLayer`, inverted: the key, the ciphertext and its MAC. -/
theorem encryptLayer_eq_ok {sh : Bytes} {r : RoutingInfo} {e : Bytes × Bytes} :
    S.encryptLayer sh r = .ok e ↔
      ∃ key, S.kdf sh = .ok key ∧ S.aesCtr key r.marshal = .ok e.1 ∧
        S.computeMac key e.1 = .ok e.2 := by
  obtain ⟨e1, e2⟩ := e
  simp only [encryptLayer, Except.bind_eq_ok, Go.ofErr_eq_ok, pure, Except.pure,
    Except.ok.injEq, Prod.mk.injEq]
  constructor
  · rintro ⟨key, hk, _, he, _, hm, rfl, rfl⟩
    exact ⟨key, hk, he, hm⟩
  · rintro ⟨key, hk, he, hm⟩
    exact ⟨key, hk, e1, he, e2, hm, rfl, rfl⟩

theorem payloadLayers_append_singleton (message : Bytes) (ts : List HeaderInitials)
    (t : HeaderInitials) :
    S.payloadLayers message (ts ++ [t]) = (do
      let key ← Go.ofErr (S.kdf t.secretHash)
      let enc ← Go.ofErr (S.aesCtr key message)
      S.payloadLayers enc ts) := by
  induction ts with
  | nil => simp only [List.nil_append, payloadLayers, pure_bind, bind_pure]
  | cons t' ts ih => simp only [List.cons_append, payloadLayers, List.append_eq, ih, bind_assoc]

/-- The content loop over `m` indices wraps the message in the first `m` tuples' layers. -/
theorem encapsulateContentLoop_range (T : List HeaderInitials) :
    ∀ (m : ℕ) (enc : Bytes), m ≤ T.length →
      S.encapsulateContentLoop T (List.range m).reverse enc = S.payloadLayers enc (T.take m)
  | 0, enc, _ => rfl
  | m + 1, enc, hm => by
    rw [List.range_succ, List.reverse_append, List.reverse_singleton, List.singleton_append,
      encapsulateContentLoop, goIndex_eq_getD {} (by omega), Except.ok_bind,
      List.take_succ, List.getElem?_eq_getElem (by omega), Option.toList_some,
      payloadLayers_append_singleton, List.getD_eq_getElem?_getD,
      List.getElem?_eq_getElem (by omega), Option.getD_some]
    congr 1
    funext key
    congr 1
    funext enc'
    exact encapsulateContentLoop_range T m enc' (by omega)

/-- **`encapsulateContent` builds the payload of §4.5.** -/
theorem encapsulateContent_eq_payloadLayers (T : List HeaderInitials) (message : Bytes) :
    S.encapsulateContent T message = S.payloadLayers message T := by
  rw [encapsulateContent, S.encapsulateContentLoop_range T T.length message le_rfl,
    List.take_length]

end Suite

end Loopix
