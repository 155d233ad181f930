import Loopix.Sphinx.Process

/-!
# A packet's run along its path

The relays of a path process a packet one after the other, each on the bytes the one
before it returned (`relayRun`).  The packet `PackForwardMessage` builds is an onion:
every relay finds under its own key exactly the layer the sender made for it, so
along the whole run the hops and commands come out in order and the last relay holds
the message.

The same induction shows what the MAC does not cover: the payload.  AES-CTR layers
commute with XOR, so a payload changed in transit passes every hop and arrives
changed by exactly the same bytes.

## Main definitions

* `Suite.relayRun` — the relays of a path processing a packet in turn.
* `Suite.fullLayers` — every layer of the §4.4 onion, the final one included.

## Main results

* `Suite.relayRun_onion` — the run lemma: relays holding the keys of an onion's layers
  peel them all.
* `Suite.packForwardMessage_relayRun` — **the end-to-end round trip.**
* `Suite.relayRun_tampered` — a payload changed in transit is delivered changed.
-/

namespace Loopix

theorem map_range_getD {α β : Type} (l : List α) (d : α) (f : α → β) :
    (List.range l.length).map (fun i => f (l.getD i d)) = l.map f :=
  List.ext_getElem (by simp) fun i _ h => by
    simp [List.getElem?_eq_getElem (by simpa using h)]

namespace Suite

variable (S : Suite)

/-- The relays holding `privs` process a packet one after the other, each on the bytes
the one before returned; the list of what each returns. -/
def relayRun : List S.FieldElement → Bytes → Go (List (Hop × Commands × Bytes))
  | [], _ => pure []
  | priv :: privs, b => do
    let (hop, cmd, b') ← S.processSphinxPacket b priv
    let rest ← relayRun privs b'
    pure ((hop, cmd, b') :: rest)

/-- Every layer of the onion §4.4 describes for `n` nodes: the relay layers, then the
final layer naming the destination. -/
def fullLayers (T : List HeaderInitials) (nodes : List MixConfig) (commands : List Commands)
    (dest : ClientConfig) : List (Bytes × Hop × Commands) :=
  (List.range (nodes.length - 1)).map (relayLayers T nodes commands) ++
    [((T.getD (nodes.length - 1) {}).secretHash, dest.toHop, commands.getD (nodes.length - 1) {})]

/-! ### Peeling, one layer at a time -/

theorem relaySchedule_cons_eq_ok {priv a : S.FieldElement} {privs : List S.FieldElement}
    {T : List HeaderInitials} :
    S.relaySchedule (priv :: privs) a = .ok T ↔
      ∃ t a' ts, S.relayDerive (fun _ => pure ()) priv a = .ok ((), t, a') ∧
        S.relaySchedule privs a' = .ok ts ∧ T = t :: ts := by
  simp only [relaySchedule, Except.bind_eq_ok, pure, Except.pure, Except.ok.injEq]
  constructor
  · rintro ⟨⟨⟨⟩, t, a'⟩, hd, ts, hts, rfl⟩
    exact ⟨t, a', ts, hd, hts, rfl⟩
  · rintro ⟨t, a', ts, hd, hts, rfl⟩
    exact ⟨((), t, a'), hd, ts, hts, rfl⟩

theorem wrapLayers_cons_eq_ok {inner e : Bytes × Bytes} {l : Bytes × Hop × Commands}
    {layers : List (Bytes × Hop × Commands)} :
    S.wrapLayers inner (l :: layers) = .ok e ↔
      ∃ e', S.wrapLayers inner layers = .ok e' ∧
        S.encryptLayer l.1 (relayRecord l.2.1 l.2.2 e') = .ok e :=
  Except.bind_eq_ok

theorem payloadLayers_cons_eq_ok {message pld : Bytes} {t : HeaderInitials}
    {ts : List HeaderInitials} :
    S.payloadLayers message (t :: ts) = .ok pld ↔
      ∃ inner key, S.payloadLayers message ts = .ok inner ∧ S.kdf t.secretHash = .ok key ∧
        S.aesCtr key inner = .ok pld := by
  simp only [payloadLayers, Except.bind_eq_ok, Go.ofErr_eq_ok]
  constructor
  · rintro ⟨inner, hi, key, hk, hp⟩
    exact ⟨inner, key, hi, hk, hp⟩
  · rintro ⟨inner, key, hi, hk, hp⟩
    exact ⟨inner, hi, key, hk, hp⟩

/-- The payload layers keep the message's length. -/
theorem length_payloadLayers {message : Bytes} :
    ∀ {T : List HeaderInitials} {pld : Bytes}, S.payloadLayers message T = .ok pld →
      pld.length = message.length
  | [], _, h => by cases h; rfl
  | _ :: _, _, h => by
    obtain ⟨_, _, hi, -, hp⟩ := S.payloadLayers_cons_eq_ok.mp h
    rw [S.length_aesCtr hp, length_payloadLayers hi]

/-- **The run lemma.**  Let the relays holding `privs`, starting from the group element
`a`, derive the tuples `T`, and let the layers `L` be encrypted under their secret
hashes, one layer per relay.  Then on the onion of `L` over an empty inner layer,
with the message under one payload layer per tuple, every relay succeeds; relay `i`
returns the hop and the command of layer `i`; every packet it hands on carries a
payload as long as the message; and the last one carries the message itself. -/
theorem relayRun_onion (message : Bytes) :
    ∀ (privs : List S.FieldElement) (a : S.FieldElement) (T : List HeaderInitials)
      (L : List (Bytes × Hop × Commands)) (e : Bytes × Bytes) (pld : Bytes),
      S.relaySchedule privs a = .ok T → L.map Prod.fst = T.map HeaderInitials.secretHash →
      S.wrapLayers ([], []) L = .ok e → S.payloadLayers message T = .ok pld →
      ∃ outs, S.relayRun privs (SphinxPacket.marshal
          { hdr := some { alpha := S.bytes a, beta := e.1, mac := e.2 }, pld := pld }) =
          .ok outs ∧
        outs.map (fun o => o.1) = L.map (fun l => l.2.1) ∧
        outs.map (fun o => o.2.1) = L.map (fun l => l.2.2) ∧
        (∀ o ∈ outs, ∃ p, SphinxPacket.unmarshal o.2.2 = .ok p ∧
          p.pld.length = message.length) ∧
        ∀ o, outs.getLast? = some o →
          ∃ p, SphinxPacket.unmarshal o.2.2 = .ok p ∧ p.pld = message
  | [], a, T, L, e, pld, hT, hL, _, _ => by
    cases hT
    rw [List.map_nil, List.map_eq_nil_iff] at hL
    subst hL
    exact ⟨[], rfl, rfl, rfl, by simp, by simp⟩
  | priv :: privs, a, T, L, e, pld, hT, hL, he, hp => by
    obtain ⟨t, a', ts, hd, hts, rfl⟩ := S.relaySchedule_cons_eq_ok.mp hT
    obtain ⟨l, L', rfl⟩ : ∃ l L', L = l :: L' := List.exists_cons_of_ne_nil (by
      rintro rfl
      simp at hL)
    simp only [List.map_cons, List.cons.injEq] at hL
    obtain ⟨e', he', hlayer⟩ := S.wrapLayers_cons_eq_ok.mp he
    obtain ⟨inner, key, hinner, hk, hpld⟩ := S.payloadLayers_cons_eq_ok.mp hp
    rw [hL.1] at hlayer
    have hstep := S.processSphinxPacket_layer hd hlayer hk hpld
    obtain ⟨outs, hrun, hhops, hcmds, hlen, hlast⟩ :=
      relayRun_onion message privs a' ts L' e' inner hts hL.2 he' hinner
    refine ⟨_ :: outs, by rw [relayRun, hstep, Except.ok_bind]; simp only [hrun]; rfl,
      by simp [hhops], by simp [hcmds], ?_, ?_⟩
    · intro o ho
      rcases List.mem_cons.mp ho with rfl | ho
      · exact ⟨_, SphinxPacket.unmarshal_marshal _, S.length_payloadLayers hinner⟩
      · exact hlen o ho
    · cases outs with
      | nil =>
        cases privs with
        | nil =>
          cases hts
          cases hinner
          rintro o ⟨⟩
          exact ⟨_, SphinxPacket.unmarshal_marshal _, rfl⟩
        | cons _ _ => simp [relayRun, Except.bind_eq_ok, pure, Except.pure] at hrun
      | cons o' outs => simpa using hlast

theorem relayRun_cons_eq_ok {priv : S.FieldElement} {privs : List S.FieldElement} {b : Bytes}
    {outs : List (Hop × Commands × Bytes)} :
    S.relayRun (priv :: privs) b = .ok outs ↔
      ∃ o rest, S.processSphinxPacket b priv = .ok o ∧ S.relayRun privs o.2.2 = .ok rest ∧
        outs = o :: rest := by
  simp only [relayRun, Except.bind_eq_ok, pure, Except.pure, Except.ok.injEq]
  constructor
  · rintro ⟨⟨hop, cmd, b'⟩, ho, rest, hr, rfl⟩
    exact ⟨_, rest, ho, hr, rfl⟩
  · rintro ⟨⟨hop, cmd, b'⟩, rest, ho, hr, rfl⟩
    exact ⟨_, ho, rest, hr, rfl⟩

/-- The last relay of a run processes what the relay before it returned, or the packet
itself when it is the only relay. -/
theorem relayRun_append_singleton {priv : S.FieldElement} :
    ∀ {privs : List S.FieldElement} {b : Bytes} {outs : List (Hop × Commands × Bytes)},
      S.relayRun (privs ++ [priv]) b = .ok outs →
      ∃ outs' o, outs = outs' ++ [o] ∧ S.relayRun privs b = .ok outs' ∧
        S.processSphinxPacket ((outs'.getLast?.map fun o => o.2.2).getD b) priv = .ok o
  | [], b, outs, h => by
    obtain ⟨o, rest, ho, hr, rfl⟩ := S.relayRun_cons_eq_ok.mp h
    cases hr
    exact ⟨[], o, rfl, rfl, ho⟩
  | p :: privs, b, outs, h => by
    obtain ⟨o₁, rest, ho₁, hr, rfl⟩ := S.relayRun_cons_eq_ok.mp h
    obtain ⟨outs', o, rfl, hr', ho⟩ := relayRun_append_singleton hr
    refine ⟨o₁ :: outs', o, rfl,
      S.relayRun_cons_eq_ok.mpr ⟨o₁, outs', ho₁, hr', rfl⟩, ?_⟩
    cases outs' with
    | nil => exact ho
    | cons o₂ outs' => simpa [List.getLast?_cons] using ho

/-! ### The packet of `PackForwardMessage` -/

/-- The header of §4.4 is the whole onion, the final layer included, over an empty
inner layer. -/
theorem specHeader_eq_wrapLayers (T : List HeaderInitials) (nodes : List MixConfig)
    (commands : List Commands) (dest : ClientConfig) :
    S.specHeader T nodes commands dest = (do
      let e ← S.wrapLayers ([], []) (fullLayers T nodes commands dest)
      pure { alpha := (T.getD 0 {}).alpha, beta := e.1, mac := e.2 }) := by
  rw [specHeader, fullLayers, wrapLayers_append_singleton, bind_assoc]
  rfl

theorem map_fst_fullLayers {T : List HeaderInitials} {nodes : List MixConfig}
    (commands : List Commands) (dest : ClientConfig) (hT : T.length = nodes.length)
    (hn : 1 ≤ nodes.length) :
    (fullLayers T nodes commands dest).map Prod.fst = T.map HeaderInitials.secretHash := by
  rw [← map_range_getD T {}, hT, fullLayers, List.map_append, List.map_map]
  conv_rhs => rw [show nodes.length = nodes.length - 1 + 1 by omega, List.range_succ]
  simp [relayLayers]

theorem map_hop_fullLayers (T : List HeaderInitials) {nodes : List MixConfig}
    (commands : List Commands) (dest : ClientConfig) (hn : 1 ≤ nodes.length) :
    (fullLayers T nodes commands dest).map (fun l => l.2.1) =
      nodes.tail.map MixConfig.toHop ++ [dest.toHop] := by
  obtain ⟨n0, rest, rfl⟩ := List.exists_cons_of_ne_nil (List.ne_nil_of_length_pos hn)
  rw [List.tail_cons, ← map_range_getD rest {} MixConfig.toHop]
  simp [fullLayers, relayLayers]

theorem map_command_fullLayers (T : List HeaderInitials) {nodes : List MixConfig}
    {commands : List Commands} (dest : ClientConfig) (hc : commands.length = nodes.length)
    (hn : 1 ≤ nodes.length) :
    (fullLayers T nodes commands dest).map (fun l => l.2.2) = commands := by
  have hrange := map_range_getD commands {} id
  rw [List.map_id, hc, show nodes.length = nodes.length - 1 + 1 by omega, List.range_succ]
    at hrange
  conv_rhs => rw [← hrange]
  simp [fullLayers, relayLayers]

/-- What a successful `PackForwardMessage` built: the onion of `fullLayers` under the
first node's group element, the payload of §4.5, and the key schedule the relays
derive. -/
theorem packForwardMessage_onion {path : E2EPath} {privs : List S.FieldElement}
    {delays : List UInt64} {message : Bytes} {random : Except String S.FieldElement}
    {P : SphinxPacket} (hkeys : path.nodes.map MixConfig.pubKey = privs.map S.publicKey)
    (hP : S.packForwardMessage path delays message random = .ok P) :
    ∃ a T e, S.relaySchedule privs a = .ok T ∧ T.length = path.nodes.length ∧
      S.wrapLayers ([], [])
          (fullLayers T path.nodes (S.pathCommands delays path.nodes.length) path.recipient) =
        .ok e ∧
      S.payloadLayers message T = .ok P.pld ∧
      P = { hdr := some { alpha := S.bytes a, beta := e.1, mac := e.2 }, pld := P.pld } := by
  obtain ⟨⟨T, h⟩, hc, hpay⟩ := Except.bind_eq_ok.mp hP
  obtain ⟨x, -, hT, -, -⟩ := S.createHeader_eq_ok.mp hc
  have hspec := S.createHeader_eq_specHeader (by simp) hc
  rw [specHeader_eq_wrapLayers] at hspec
  obtain ⟨e, he, hh⟩ := Except.bind_eq_ok.mp hspec
  obtain ⟨t, ts, rfl, ht⟩ := S.getSharedSecretsLoop_head hT (by simp [E2EPath.nodes])
  have hrun := S.relaySchedule_of_getSharedSecretsLoop hkeys hT
  simp only [S.encapsulateContent_eq_payloadLayers] at hpay
  obtain ⟨pld, hpld, hP'⟩ := Except.bind_eq_ok.mp hpay
  simp only [pure, Except.pure, Except.ok.injEq] at hh hP'
  subst hP' hh
  exact ⟨_, _, e, hrun, S.length_getSharedSecretsLoop hT, he, hpld, by simp [ht]⟩

/-- The run of a packet `PackForwardMessage` built, its payload replaced by `pld'`:
whenever `pld'` is the payload layers of a message `message'` under the key schedule
that gave `P`'s payload, every relay succeeds, the hops and commands come out in path
order, and the last relay holds `message'`. -/
theorem relayRun_packForwardMessage {path : E2EPath} {privs : List S.FieldElement}
    {delays : List UInt64} {message : Bytes} {random : Except String S.FieldElement}
    {P : SphinxPacket} (hkeys : path.nodes.map MixConfig.pubKey = privs.map S.publicKey)
    (hP : S.packForwardMessage path delays message random = .ok P) {message' pld' : Bytes}
    (hpld : ∀ T, S.payloadLayers message T = .ok P.pld →
      S.payloadLayers message' T = .ok pld') :
    ∃ outs, S.relayRun privs { P with pld := pld' }.marshal = .ok outs ∧
      outs.map (fun o => o.1) = path.nodes.tail.map MixConfig.toHop ++ [path.recipient.toHop] ∧
      outs.map (fun o => o.2.1) = S.pathCommands delays path.nodes.length ∧
      (∀ o ∈ outs, ∃ p, SphinxPacket.unmarshal o.2.2 = .ok p ∧
        p.pld.length = message'.length) ∧
      ∃ o p, outs.getLast? = some o ∧ SphinxPacket.unmarshal o.2.2 = .ok p ∧
        p.pld = message' := by
  obtain ⟨a, T, e, hrun, hT, he, hP', hPeq⟩ := S.packForwardMessage_onion hkeys hP
  have hn : 1 ≤ path.nodes.length := by simp
  obtain ⟨outs, hrelay, hhops, hcmds, hlen, hlast⟩ :=
    S.relayRun_onion message' privs a T _ e pld' hrun (map_fst_fullLayers _ _ hT hn) he
      (hpld T hP')
  rw [map_hop_fullLayers T _ _ hn] at hhops
  obtain ⟨cmd, b, ho⟩ : ∃ cmd b, outs.getLast? = some (path.recipient.toHop, cmd, b) := by
    simpa using congrArg List.getLast? hhops
  obtain ⟨p, hp, hpm⟩ := hlast _ ho
  exact ⟨outs, by rw [hPeq]; exact hrelay, hhops,
    by rw [hcmds, map_command_fullLayers T _ (S.length_pathCommands _ _) hn], hlen, _, p, ho, hp,
    hpm⟩

/-- **The end-to-end round trip.**  Let the `i`-th node of a path carry the public key
of `privs[i]`, and let there be one delay per node.  When `PackForwardMessage` returns
the packet `P`, the relays holding `privs` all process it in turn: relay `i` returns
the next node (for the last relay, the recipient, with no key) and the command with
the `i`-th delay and the relay flag (the last-hop flag for the last relay); every
packet along the way carries a payload as long as the message, and the last relay
holds the message itself.  No assumption on the delays is needed: a packet exists only
if there are enough of them, and the extra ones are never read. -/
theorem packForwardMessage_relayRun {path : E2EPath} {privs : List S.FieldElement}
    {delays : List UInt64} {message : Bytes} {random : Except String S.FieldElement}
    {P : SphinxPacket} (hkeys : path.nodes.map MixConfig.pubKey = privs.map S.publicKey)
    (hP : S.packForwardMessage path delays message random = .ok P) :
    P.pld.length = message.length ∧
      ∃ outs, S.relayRun privs P.marshal = .ok outs ∧
        outs.map (fun o => o.1) =
          path.nodes.tail.map MixConfig.toHop ++ [path.recipient.toHop] ∧
        outs.map (fun o => o.2.1) = S.pathCommands delays path.nodes.length ∧
        (∀ o ∈ outs, ∃ p, SphinxPacket.unmarshal o.2.2 = .ok p ∧
          p.pld.length = message.length) ∧
        ∃ o p, outs.getLast? = some o ∧ SphinxPacket.unmarshal o.2.2 = .ok p ∧
          p.pld = message := by
  obtain ⟨-, T, -, -, -, -, hpld, -⟩ := S.packForwardMessage_onion hkeys hP
  exact ⟨S.length_payloadLayers hpld, S.relayRun_packForwardMessage hkeys hP fun _ h => h⟩

theorem packForwardMessage_relayRun_toy :
    ∃ P, toySuite.packForwardMessage toyPath [0, 0, 0] toyMessage (.ok (7 : ToyElement)) =
        .ok P ∧
      P.pld.length = toyMessage.length ∧
      ∃ outs, toySuite.relayRun toyPrivs P.marshal = .ok outs ∧
        outs.map (fun o => o.1) =
          toyPath.nodes.tail.map MixConfig.toHop ++ [toyPath.recipient.toHop] ∧
        outs.map (fun o => o.2.1) = toySuite.pathCommands [0, 0, 0] toyPath.nodes.length ∧
        (∀ o ∈ outs, ∃ p, SphinxPacket.unmarshal o.2.2 = .ok p ∧
          p.pld.length = toyMessage.length) ∧
        ∃ o p, outs.getLast? = some o ∧ SphinxPacket.unmarshal o.2.2 = .ok p ∧
          p.pld = toyMessage :=
  ⟨_, rfl, @packForwardMessage_relayRun toySuite toyPath toyPrivs [0, 0, 0] toyMessage
    (.ok (7 : ToyElement)) _ rfl rfl⟩

/-! ### Tampering with the payload -/

/-- XORing the message with `δ` XORs every payload layer with `δ`: AES-CTR is a XOR
with a keystream from position `0`. -/
theorem payloadLayers_zipWith_xor {message : Bytes} (δ : Bytes) :
    ∀ {T : List HeaderInitials} {pld : Bytes}, S.payloadLayers message T = .ok pld →
      S.payloadLayers (List.zipWith (· ^^^ ·) message δ) T =
        .ok (List.zipWith (· ^^^ ·) pld δ)
  | [], _, h => by cases h; rfl
  | t :: ts, _, h => by
    obtain ⟨inner, key, hi, hk, hp⟩ := S.payloadLayers_cons_eq_ok.mp h
    obtain ⟨-, rfl⟩ := S.aesCtr_eq_ok.mp hp
    exact S.payloadLayers_cons_eq_ok.mpr ⟨_, key, payloadLayers_zipWith_xor δ hi, hk,
      by rw [S.aesCtr_of_ok hp, xorKeyStream_zipWith_xor]⟩

/-- **A payload changed in transit is delivered changed.**  The MAC covers `Beta` only.
When the payload of a packet `PackForwardMessage` built is XORed with any `δ` on its
way to the first relay, every relay still succeeds, and the last one holds the message
XORed with `δ`. -/
theorem relayRun_tampered {path : E2EPath} {privs : List S.FieldElement}
    {delays : List UInt64} {message : Bytes} {random : Except String S.FieldElement}
    {P : SphinxPacket} (hkeys : path.nodes.map MixConfig.pubKey = privs.map S.publicKey)
    (hP : S.packForwardMessage path delays message random = .ok P) (δ : Bytes) :
    ∃ outs, S.relayRun privs { P with pld := List.zipWith (· ^^^ ·) P.pld δ }.marshal =
        .ok outs ∧
      ∃ o p, outs.getLast? = some o ∧ SphinxPacket.unmarshal o.2.2 = .ok p ∧
        p.pld = List.zipWith (· ^^^ ·) message δ :=
  have ⟨outs, hrun, _, _, _, hlast⟩ :=
    S.relayRun_packForwardMessage hkeys hP fun _ h => S.payloadLayers_zipWith_xor δ h
  ⟨outs, hrun, hlast⟩

theorem relayRun_tampered_toy :
    ∃ P, toySuite.packForwardMessage toyPath [0, 0, 0] toyMessage (.ok (7 : ToyElement)) =
        .ok P ∧
      ∃ outs, toySuite.relayRun toyPrivs
          { P with pld := List.zipWith (· ^^^ ·) P.pld [1, 0, 0, 0, 0] }.marshal = .ok outs ∧
        ∃ o p, outs.getLast? = some o ∧ SphinxPacket.unmarshal o.2.2 = .ok p ∧
          p.pld = List.zipWith (· ^^^ ·) toyMessage [1, 0, 0, 0, 0] :=
  ⟨_, rfl, @relayRun_tampered toySuite toyPath toyPrivs [0, 0, 0] toyMessage
    (.ok (7 : ToyElement)) _ rfl rfl [1, 0, 0, 0, 0]⟩

end Suite

end Loopix
