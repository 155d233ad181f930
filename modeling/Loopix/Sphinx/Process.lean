import Loopix.Sphinx.Pack

/-!
# Processing a packet

A relay decodes the packet, recomputes the shared secret from the header's group
element and its private key, checks the MAC of `Beta`, decrypts `Beta` to its routing
record, and peels one layer off the payload.

`ProcessSphinxPacket` dereferences `packet.Hdr` and, in `readBeta`, the record's
`NextHop` and `RoutingCommands`, all of which a hostile input can leave nil; and it
never looks at the command's flag, which its caller `receivedPacket` dispatches on.

## Main definitions

* `Suite.processSphinxPacket`, `Suite.processSphinxHeader`, `readBeta`,
  `Suite.processSphinxPayload` — the code.
* `Suite.openHeader` — the part of `ProcessSphinxHeader` before `readBeta`: the key
  derivation `Suite.relayDerive`, with `Suite.checkMac` as its check.
* `Suite.forgeHeader` — a header built from a relay's public key alone.

## Main results

* `Suite.processSphinxPacket_isPanic_iff` — exactly which inputs make a relay panic.
* `Suite.processSphinxPacket_total` — on every other input it returns an error or a
  result, and the result carries the decrypted command whatever its flag.
* `Suite.processSphinxPacket_layer` — a relay peels the layer built for it: the step
  of the multi-hop run.
-/

namespace Loopix

/-- `readBeta(beta)`: the record's fields, its two pointers dereferenced. -/
def readBeta (beta : RoutingInfo) : Go (Hop × Commands × Bytes × Bytes) := do
  let nextHop ← deref beta.nextHop
  let commands ← deref beta.routingCommands
  pure (nextHop, commands, beta.nextHopMetaData, beta.mac)

theorem readBeta_eq_ok {r : RoutingInfo} {hop : Hop} {cmd : Commands} {nb nm : Bytes} :
    readBeta r = .ok (hop, cmd, nb, nm) ↔
      r.nextHop = some hop ∧ r.routingCommands = some cmd ∧ nb = r.nextHopMetaData ∧
        nm = r.mac := by
  obtain ⟨h, c, _, _⟩ := r
  cases h <;> cases c <;> simp [readBeta, deref, pure, Except.pure, eq_comm]

theorem isPanic_readBeta (r : RoutingInfo) :
    (readBeta r).isPanic = (r.nextHop.isNone || r.routingCommands.isNone) := by
  obtain ⟨h, c, _, _⟩ := r
  cases h <;> cases c <;> rfl

namespace Suite

variable (S : Suite)

/-! ### The code -/

/-- The MAC check of `ProcessSphinxHeader`, run on the secret's hash `aesS`: the key
`KDF(aesS)`, once the MAC it computes over `Beta` is the header's. -/
def checkMac (packet : Header) (aesS : Bytes) : Go Bytes := do
  let encKey ← Go.ofErr (S.kdf aesS)
  let recomputedMac ← Go.ofErr (S.computeMac encKey packet.beta)
  if recomputedMac ≠ packet.mac then
    throw (.error "packet processing error: MACs are not matching")
  pure encKey

/-- The first part of `ProcessSphinxHeader(packet, privKey)`, up to `readBeta`: the
keys and the MAC check, in the order of the source, the next group element and the
decrypted routing record.  The private key is given as its field element,
`privKey.ToFieldElement()`. -/
def openHeader (packet : Header) (privKey : S.FieldElement) :
    Go (RoutingInfo × S.FieldElement) := do
  let alpha := S.bytesToFieldElement packet.alpha
  let (encKey, _, newAlpha) ← S.relayDerive (S.checkMac packet) privKey alpha
  let decBeta ← Go.ofErr (S.aesCtr encKey packet.beta)
  let routingInfo ← Go.ofErr (RoutingInfo.unmarshal decBeta)
  pure (routingInfo, newAlpha)

/-- `ProcessSphinxHeader(packet, privKey)`. -/
def processSphinxHeader (packet : Header) (privKey : S.FieldElement) :
    Go (Hop × Commands × Header) := do
  let (routingInfo, newAlpha) ← S.openHeader packet privKey
  let (nextHop, commands, nextBeta, nextMac) ← readBeta routingInfo
  pure (nextHop, commands, { alpha := S.bytes newAlpha, beta := nextBeta, mac := nextMac })

/-- `ProcessSphinxPayload(alpha, payload, privKey)`. -/
def processSphinxPayload (alpha payload : Bytes) (privKey : S.FieldElement) : Go Bytes := do
  let sharedSecret := S.scalarMult privKey (S.bytesToFieldElement alpha)
  let aesS ← Go.ofErr (S.kdf (S.bytes sharedSecret))
  let decKey ← Go.ofErr (S.kdf aesS)
  Go.ofErr (S.aesCtr decKey payload)

/-- `ProcessSphinxPacket(packetBytes, privKey)`.  `packet.Hdr` is dereferenced for the
header, and again for its `Alpha`. -/
def processSphinxPacket (packetBytes : Bytes) (privKey : S.FieldElement) :
    Go (Hop × Commands × Bytes) := do
  let packet ← Go.ofErr (SphinxPacket.unmarshal packetBytes)
  let hdr ← deref packet.hdr
  let (hop, commands, newHeader) ← S.processSphinxHeader hdr privKey
  let hdr' ← deref packet.hdr
  let newPayload ← S.processSphinxPayload hdr'.alpha packet.pld privKey
  let newPacket : SphinxPacket := { hdr := some newHeader, pld := newPayload }
  pure (hop, commands, newPacket.marshal)

/-! ### What a relay computes -/

/-- The MAC check, inverted: the key, and a MAC that matches. -/
theorem checkMac_eq_ok {packet : Header} {aesS encKey : Bytes} :
    S.checkMac packet aesS = .ok encKey ↔
      S.kdf aesS = .ok encKey ∧ S.computeMac encKey packet.beta = .ok packet.mac := by
  cases hk : S.kdf aesS with
  | error => simp [checkMac, hk]
  | ok k =>
    cases hm : S.computeMac k packet.beta with
    | error =>
      simp only [checkMac, hk, hm, Go.ofErr_ok, Go.ofErr_error, Except.ok_bind,
        Except.error_bind, Except.ok.injEq, reduceCtorEq, false_iff, not_and]
      rintro rfl
      simp [hm]
    | ok mac =>
      by_cases heq : mac = packet.mac
      · subst heq
        simp only [checkMac, hk, hm, Go.ofErr_ok, Except.ok_bind, ne_eq, not_true_eq_false,
          if_false, pure_bind, pure, Except.pure, Except.ok.injEq, iff_self_and]
        rintro rfl
        exact hm
      · simp only [checkMac, hk, hm, heq, Go.ofErr_ok, Except.ok_bind, ne_eq,
          not_false_eq_true, if_true, throw, throwThe, MonadExceptOf.throw, Except.error_bind,
          Except.ok.injEq, reduceCtorEq, false_iff, not_and]
        rintro rfl
        simpa [hm] using heq

/-- The MAC check never panics. -/
theorem isPanic_checkMac (packet : Header) (aesS : Bytes) :
    (S.checkMac packet aesS).isPanic = false := by
  unfold checkMac
  refine Go.isPanic_bind (Go.isPanic_ofErr _) fun _ => Go.isPanic_bind (Go.isPanic_ofErr _)
    fun _ => ?_
  split <;> rfl

/-- `openHeader`, inverted: the keys, a matching MAC, the blinding factor, the
decryption and a record that decodes. -/
theorem openHeader_eq_ok {packet : Header} {priv : S.FieldElement} {r : RoutingInfo}
    {a : S.FieldElement} :
    S.openHeader packet priv = .ok (r, a) ↔
      ∃ aesS encKey blinder decBeta,
        S.kdf (S.bytes (S.scalarMult priv (S.bytesToFieldElement packet.alpha))) = .ok aesS ∧
        S.kdf aesS = .ok encKey ∧ S.computeMac encKey packet.beta = .ok packet.mac ∧
        S.computeBlindingFactor aesS = .ok blinder ∧ S.aesCtr encKey packet.beta = .ok decBeta ∧
        RoutingInfo.unmarshal decBeta = .ok r ∧
        a = S.scalarMult blinder (S.bytesToFieldElement packet.alpha) := by
  constructor
  · intro h
    obtain ⟨⟨encKey, t, a'⟩, hd, h⟩ := Except.bind_eq_ok.mp h
    obtain ⟨aesS, blinder, ha, hc, hb, -, rfl⟩ := S.relayDerive_eq_ok.mp hd
    obtain ⟨decBeta, hdec, h⟩ := Except.bind_eq_ok.mp h
    obtain ⟨r', hr, h⟩ := Except.bind_eq_ok.mp h
    cases h
    exact ⟨aesS, encKey, blinder, decBeta, ha, (S.checkMac_eq_ok.mp hc).1,
      (S.checkMac_eq_ok.mp hc).2, hb, Go.ofErr_eq_ok.mp hdec, Go.ofErr_eq_ok.mp hr, rfl⟩
  · rintro ⟨aesS, encKey, blinder, decBeta, ha, hk, hmac, hb, hd, hr, rfl⟩
    have hderive := S.relayDerive_eq_ok.mpr
      ⟨aesS, blinder, ha, S.checkMac_eq_ok.mpr ⟨hk, hmac⟩, hb, rfl, rfl⟩
    simp only [openHeader, hderive, hd, hr, Go.ofErr_ok, Except.ok_bind]
    rfl

/-- `openHeader` never panics. -/
theorem isPanic_openHeader (packet : Header) (priv : S.FieldElement) :
    (S.openHeader packet priv).isPanic = false :=
  Go.isPanic_bind (S.isPanic_relayDerive (S.isPanic_checkMac packet) _ _) fun _ =>
    Go.isPanic_bind (Go.isPanic_ofErr _) fun _ => Go.isPanic_bind (Go.isPanic_ofErr _) fun _ => rfl

/-- A relay whose header opens hands on the group element a relay of `relaySchedule`
derives from the header's: the schedule's steps are those of `ProcessSphinxHeader`. -/
theorem relayDerive_of_openHeader {packet : Header} {priv : S.FieldElement} {r : RoutingInfo}
    {a : S.FieldElement} (h : S.openHeader packet priv = .ok (r, a)) :
    ∃ t, S.relayDerive (fun _ => pure ()) priv (S.bytesToFieldElement packet.alpha) =
      .ok ((), t, a) := by
  obtain ⟨⟨encKey, t, a'⟩, hd, h⟩ := Except.bind_eq_ok.mp h
  obtain ⟨decBeta, -, h⟩ := Except.bind_eq_ok.mp h
  obtain ⟨r', -, h⟩ := Except.bind_eq_ok.mp h
  cases h
  exact ⟨t, S.relayDerive_of_check hd⟩

/-- `ProcessSphinxPayload` never panics. -/
theorem isPanic_processSphinxPayload (alpha payload : Bytes) (priv : S.FieldElement) :
    (S.processSphinxPayload alpha payload priv).isPanic = false :=
  Go.isPanic_bind (Go.isPanic_ofErr _) fun _ =>
    Go.isPanic_bind (Go.isPanic_ofErr _) fun _ => Go.isPanic_ofErr _

/-- `ProcessSphinxPacket` on bytes that decode to a packet with a header: open the
header, read the record, peel the payload, and encode the next packet. -/
theorem processSphinxPacket_eq {b : Bytes} {priv : S.FieldElement} {p : SphinxPacket}
    {h : Header} (hb : SphinxPacket.unmarshal b = .ok p) (hh : p.hdr = some h) :
    S.processSphinxPacket b priv = (do
      let (r, a) ← S.openHeader h priv
      let (hop, cmd, nb, nm) ← readBeta r
      let pld ← S.processSphinxPayload h.alpha p.pld priv
      pure (hop, cmd, SphinxPacket.marshal
        { hdr := some { alpha := S.bytes a, beta := nb, mac := nm }, pld := pld })) := by
  simp only [processSphinxPacket, processSphinxHeader, hb, hh, Go.ofErr_ok, deref_some,
    Except.ok_bind, bind_assoc]
  cases S.openHeader h priv with
  | error => rfl
  | ok ra =>
    cases readBeta ra.1 with
    | error => rfl
    | ok x => rfl

/-- When the header opens, the payload key is the header key, so peeling the payload
succeeds. -/
theorem processSphinxPayload_of_openHeader {h : Header} {priv : S.FieldElement}
    {r : RoutingInfo} {a : S.FieldElement} (ho : S.openHeader h priv = .ok (r, a))
    (payload : Bytes) : ∃ pld, S.processSphinxPayload h.alpha payload priv = .ok pld := by
  obtain ⟨aesS, encKey, _, _, h1, h2, -, -, hd, -, -⟩ := S.openHeader_eq_ok.mp ho
  exact ⟨xorKeyStream (S.keyStream encKey S.aesCtrIV) 0 payload,
    by simp [processSphinxPayload, h1, h2, S.aesCtr_of_ok hd payload]⟩

/-- A relay whose header opens to a record with both pointers set returns that
record's hop and command. -/
theorem processSphinxPacket_of_openHeader {b : Bytes} {priv : S.FieldElement} {p : SphinxPacket}
    {h : Header} {r : RoutingInfo} {a : S.FieldElement} {hop : Hop} {cmd : Commands}
    (hb : SphinxPacket.unmarshal b = .ok p) (hh : p.hdr = some h)
    (ho : S.openHeader h priv = .ok (r, a)) (hhop : r.nextHop = some hop)
    (hcmd : r.routingCommands = some cmd) :
    ∃ out, S.processSphinxPacket b priv = .ok (hop, cmd, out) := by
  obtain ⟨pld, hpld⟩ := S.processSphinxPayload_of_openHeader ho p.pld
  have hr : readBeta r = .ok (hop, cmd, r.nextHopMetaData, r.mac) :=
    readBeta_eq_ok.mpr ⟨hhop, hcmd, rfl, rfl⟩
  exact ⟨_, by simp only [S.processSphinxPacket_eq hb hh, ho, hr, hpld, Except.ok_bind]; rfl⟩

/-- What a relay panics on: bytes that decode to a packet without a header, or to one
whose header passes the MAC check and decrypts to a record lacking its next hop or its
commands. -/
theorem exists_of_isPanic_processSphinxPacket {b : Bytes} {priv : S.FieldElement}
    (hpanic : (S.processSphinxPacket b priv).isPanic = true) :
    ∃ p, SphinxPacket.unmarshal b = .ok p ∧
      (p.hdr = none ∨ ∃ h r a, p.hdr = some h ∧ S.openHeader h priv = .ok (r, a) ∧
        (r.nextHop = none ∨ r.routingCommands = none)) := by
  cases hb : SphinxPacket.unmarshal b with
  | error e => simp [processSphinxPacket, hb, Go.ofErr, Go.isPanic] at hpanic
  | ok p =>
    refine ⟨p, rfl, ?_⟩
    cases hh : p.hdr with
    | none => exact .inl rfl
    | some h =>
      rw [S.processSphinxPacket_eq hb hh, Go.isPanic_bind_eq_true, S.isPanic_openHeader] at hpanic
      rcases hpanic with hpanic | ⟨⟨r, a⟩, ho, hp⟩
      · cases hpanic
      dsimp only at hp
      rw [Go.isPanic_bind_eq_true, isPanic_readBeta] at hp
      refine .inr ⟨h, r, a, rfl, ho, ?_⟩
      rcases hp with hp | ⟨⟨hop, cmd, nb, nm⟩, -, hp⟩
      · simpa [Option.isNone_iff_eq_none] using hp
      · obtain ⟨pld, hpld⟩ := S.processSphinxPayload_of_openHeader ho p.pld
        simp [hpld, Go.isPanic] at hp

/-- **Exactly which inputs make a relay panic**: bytes that decode to a packet without
a header, or to one whose header passes the MAC check and decrypts to a record
lacking its next hop or its commands. -/
theorem processSphinxPacket_isPanic_iff (b : Bytes) (priv : S.FieldElement) :
    (S.processSphinxPacket b priv).isPanic = true ↔
      ∃ p, SphinxPacket.unmarshal b = .ok p ∧
        (p.hdr = none ∨ ∃ h r a, p.hdr = some h ∧ S.openHeader h priv = .ok (r, a) ∧
          (r.nextHop = none ∨ r.routingCommands = none)) := by
  refine ⟨S.exists_of_isPanic_processSphinxPacket, ?_⟩
  rintro ⟨p, hb, hnone | ⟨h, r, a, hh, ho, hr⟩⟩
  · simp [processSphinxPacket, hb, hnone, deref, Go.isPanic]
  · rw [S.processSphinxPacket_eq hb hh]
    refine Go.isPanic_bind_eq_true.mpr
      (.inr ⟨(r, a), ho, Go.isPanic_bind_eq_true.mpr (.inl ?_)⟩)
    rw [isPanic_readBeta]
    rcases hr with hr | hr <;> simp [hr]

/-- **A relay never panics on a packet that has a header and whose MAC-valid header
decrypts to a record with both pointers set; it returns an error or a result.**  It
does not check the flag: whenever the header opens to such a record, the relay
returns the record's hop and command, whatever the command's flag. -/
theorem processSphinxPacket_total (b : Bytes) (priv : S.FieldElement)
    (hhdr : ∀ p, SphinxPacket.unmarshal b = .ok p → p.hdr ≠ none)
    (hrec : ∀ p h r a, SphinxPacket.unmarshal b = .ok p → p.hdr = some h →
      S.openHeader h priv = .ok (r, a) → r.nextHop ≠ none ∧ r.routingCommands ≠ none) :
    (S.processSphinxPacket b priv).isPanic = false ∧
      ∀ p h r a, SphinxPacket.unmarshal b = .ok p → p.hdr = some h →
        S.openHeader h priv = .ok (r, a) →
        ∃ hop cmd out, r.nextHop = some hop ∧ r.routingCommands = some cmd ∧
          S.processSphinxPacket b priv = .ok (hop, cmd, out) := by
  refine ⟨?_, fun p h r a hb hh ho => ?_⟩
  · rw [← Bool.not_eq_true]
    intro hpanic
    obtain ⟨p, hb, hnone | ⟨h, r, a, hh, ho, hr⟩⟩ :=
      S.exists_of_isPanic_processSphinxPacket hpanic
    · exact hhdr p hb hnone
    · have := hrec p h r a hb hh ho
      tauto
  · obtain ⟨hop, hhop⟩ := Option.ne_none_iff_exists'.mp (hrec p h r a hb hh ho).1
    obtain ⟨cmd, hcmd⟩ := Option.ne_none_iff_exists'.mp (hrec p h r a hb hh ho).2
    obtain ⟨out, hout⟩ := S.processSphinxPacket_of_openHeader hb hh ho hhop hcmd
    exact ⟨hop, cmd, out, hhop, hcmd, hout⟩

/-! ### The layer made for a relay -/

/-- **A relay peels the layer made for it.**  Let the relay derive the tuple `t` and
the next group element `a'` from the group element `a` and its key.  When `Beta` and
`Mac` are the record `relayRecord hop cmd inner` encrypted and authenticated under
the key of `t`'s secret hash, and the payload is `innerPld` under one more layer of
that key, the relay returns the hop, the command, and the packet whose header is
`inner` under `a'` and whose payload is `innerPld`. -/
theorem processSphinxPacket_layer {priv a a' : S.FieldElement} {t : HeaderInitials}
    (hd : S.relayDerive (fun _ => pure ()) priv a = .ok ((), t, a')) {hop : Hop} {cmd : Commands}
    {inner e : Bytes × Bytes}
    (he : S.encryptLayer t.secretHash (relayRecord hop cmd inner) = .ok e)
    {key pld innerPld : Bytes} (hk : S.kdf t.secretHash = .ok key)
    (hp : S.aesCtr key innerPld = .ok pld) :
    S.processSphinxPacket (SphinxPacket.marshal
        { hdr := some { alpha := S.bytes a, beta := e.1, mac := e.2 }, pld := pld }) priv =
      .ok (hop, cmd, SphinxPacket.marshal
        { hdr := some { alpha := S.bytes a', beta := inner.1, mac := inner.2 },
          pld := innerPld }) := by
  obtain ⟨aesS, blinder, ha, -, hb, rfl, rfl⟩ := S.relayDerive_eq_ok.mp hd
  obtain ⟨key', hk', henc, hmac⟩ := S.encryptLayer_eq_ok.mp he
  rw [hk] at hk'
  cases hk'
  have ho : S.openHeader { alpha := S.bytes a, beta := e.1, mac := e.2 } priv =
      .ok (relayRecord hop cmd inner, S.scalarMult blinder a) :=
    S.openHeader_eq_ok.mpr ⟨aesS, key, blinder, _, by simpa using ha, hk, hmac, hb,
      S.aesCtr_aesCtr henc, RoutingInfo.unmarshal_marshal _, by simp⟩
  have hr : readBeta (relayRecord hop cmd inner) = .ok (hop, cmd, inner.1, inner.2) := rfl
  have hpld : S.processSphinxPayload (S.bytes a) pld priv = .ok innerPld := by
    simp [processSphinxPayload, ha, hk, S.aesCtr_aesCtr hp]
  rw [S.processSphinxPacket_eq (SphinxPacket.unmarshal_marshal _) rfl, ho, Except.ok_bind]
  simp only [hr, hpld, Except.ok_bind]
  rfl

/-! ### Packets anyone can build -/

/-- A header for the relay whose public key is `pub`, built from that key alone: the
group element of a scalar `x` of the builder's choosing, and the record `r` encrypted
and authenticated under the secret `x · pub`. -/
def forgeHeader (pub : Bytes) (x : S.FieldElement) (r : RoutingInfo) : Go Header := do
  let aesS ← Go.ofErr (S.kdf (S.bytes (S.scalarMult x (S.bytesToFieldElement pub))))
  let e ← S.encryptLayer aesS r
  pure { alpha := S.bytes (S.scalarMult x S.basePoint), beta := e.1, mac := e.2 }

/-- **A relay opens every header built from its public key**, to the record it was
built with, as long as the key derivation returns AES keys: the MAC proves only that
the builder knew the relay's public key. -/
theorem openHeader_forgeHeader {priv x : S.FieldElement} {r : RoutingInfo} {h : Header}
    (hf : S.forgeHeader (S.publicKey priv) x r = .ok h)
    (hkdf : ∀ b k, S.kdf b = .ok k → aesNewCipher k = .ok ()) :
    ∃ a, S.openHeader h priv = .ok (r, a) := by
  simp only [forgeHeader, Except.bind_eq_ok, Go.ofErr_eq_ok, pure, Except.pure,
    Except.ok.injEq] at hf
  obtain ⟨aesS, ha, e, he, rfl⟩ := hf
  obtain ⟨key, hk, henc, hmac⟩ := S.encryptLayer_eq_ok.mp he
  have hshared : S.scalarMult priv (S.bytesToFieldElement (S.bytes (S.scalarMult x S.basePoint))) =
      S.scalarMult x (S.bytesToFieldElement (S.publicKey priv)) := by
    rw [publicKey, bytesToFieldElement_bytes, bytesToFieldElement_bytes, S.scalarMult_comm]
  exact ⟨_, S.openHeader_eq_ok.mpr ⟨aesS, key, _, _, by rw [hshared]; exact ha, hk, hmac,
    S.computeBlindingFactor_of_aesNewCipher (hkdf _ _ ha), S.aesCtr_aesCtr henc,
    RoutingInfo.unmarshal_marshal r, rfl⟩⟩

/-- **Anyone who knows a relay's public key can make it output any hop and command.**
Build a header from the relay's public key for a record naming a next hop and carrying
commands.  When the key derivation returns AES keys, the relay accepts the packet,
whatever its payload, and returns that hop and those commands. -/
theorem processSphinxPacket_forged {priv x : S.FieldElement} {r : RoutingInfo} {h : Header}
    {hop : Hop} {cmd : Commands} (hhop : r.nextHop = some hop)
    (hcmd : r.routingCommands = some cmd) (hf : S.forgeHeader (S.publicKey priv) x r = .ok h)
    (hkdf : ∀ b k, S.kdf b = .ok k → aesNewCipher k = .ok ()) (pld : Bytes) :
    ∃ out, S.processSphinxPacket (SphinxPacket.marshal { hdr := some h, pld := pld }) priv =
      .ok (hop, cmd, out) :=
  have ⟨_, ho⟩ := S.openHeader_forgeHeader hf hkdf
  S.processSphinxPacket_of_openHeader (SphinxPacket.unmarshal_marshal _) rfl ho hhop hcmd

theorem processSphinxPacket_forged_toy :
    ∃ h, toySuite.forgeHeader (toySuite.publicKey (3 : ToyElement)) (2 : ToyElement)
        (relayRecord { id := "Mix" } { flag := [7] } ([], [])) = .ok h ∧
      ∃ out, toySuite.processSphinxPacket (SphinxPacket.marshal { hdr := some h, pld := [] })
        (3 : ToyElement) = .ok ({ id := "Mix" }, { flag := [7] }, out) :=
  ⟨_, rfl, processSphinxPacket_forged toySuite rfl rfl rfl toySuite_kdf_aesNewCipher []⟩

/-- A packet for the toy relay with private key `3`, built from its public key alone
with the scalar `2`: its record names the hop `Mix` and carries the flag `[7]`, which is
neither the relay flag nor the last-hop flag. -/
def toyForgedPacket : Bytes :=
  SphinxPacket.marshal { hdr := (toySuite.forgeHeader (toySuite.publicKey (3 : ToyElement))
    (2 : ToyElement) (relayRecord { id := "Mix" } { flag := [7] } ([], []))).toOption }

theorem processSphinxPacket_total_toy :
    (toySuite.processSphinxPacket toyForgedPacket (3 : ToyElement)).isPanic = false ∧
      ∀ p h r a, SphinxPacket.unmarshal toyForgedPacket = .ok p → p.hdr = some h →
        toySuite.openHeader h (3 : ToyElement) = .ok (r, a) →
        ∃ hop cmd out, r.nextHop = some hop ∧ r.routingCommands = some cmd ∧
          toySuite.processSphinxPacket toyForgedPacket (3 : ToyElement) = .ok (hop, cmd, out) := by
  obtain ⟨H, hH⟩ : ∃ H, toySuite.forgeHeader (toySuite.publicKey (3 : ToyElement))
      (2 : ToyElement) (relayRecord { id := "Mix" } { flag := [7] } ([], [])) = .ok H :=
    ⟨_, rfl⟩
  have hb : SphinxPacket.unmarshal toyForgedPacket = .ok { hdr := some H } := by
    rw [toyForgedPacket, hH]
    exact SphinxPacket.unmarshal_marshal _
  refine processSphinxPacket_total toySuite _ _ (fun p hp => ?_) (fun p h r a hp hh ho => ?_)
  · rw [hb, Except.ok.injEq] at hp
    simp [← hp]
  · rw [hb, Except.ok.injEq] at hp
    subst hp
    cases hh
    obtain ⟨a', ho'⟩ := toySuite.openHeader_forgeHeader hH toySuite_kdf_aesNewCipher
    rw [ho'] at ho
    cases ho
    exact ⟨by simp [relayRecord], by simp [relayRecord]⟩

/-- A relay panics on the empty input, and accepts a packet built from its public key
alone whose command carries the flag `[7]`, neither the relay nor the last-hop flag. -/
theorem processSphinxPacket_flag_unchecked :
    (toySuite.processSphinxPacket [] (3 : ToyElement)).isPanic = true ∧
      ∃ out, toySuite.processSphinxPacket toyForgedPacket (3 : ToyElement) =
        .ok ({ id := "Mix" }, { flag := [7] }, out) :=
  ⟨rfl, _, rfl⟩

/-! ### The size of the header -/

/-- **Every hop shrinks `Beta`.**  Whenever a relay returns a packet, the bytes it was
given decode to a packet with a header, and the packet it returns has a header whose
`Beta` is strictly shorter: the next hop's `Beta` is carried inside the decrypted
record, which is as long as the received `Beta`.  This holds of every input. -/
theorem processSphinxPacket_beta_shrinks {b : Bytes} {priv : S.FieldElement} {hop : Hop}
    {cmd : Commands} {out : Bytes} (hout : S.processSphinxPacket b priv = .ok (hop, cmd, out)) :
    ∃ p h p' h', SphinxPacket.unmarshal b = .ok p ∧ p.hdr = some h ∧
      SphinxPacket.unmarshal out = .ok p' ∧ p'.hdr = some h' ∧
      h'.beta.length < h.beta.length := by
  cases hb : SphinxPacket.unmarshal b with
  | error e => simp [processSphinxPacket, hb, Go.ofErr] at hout
  | ok p =>
    cases hh : p.hdr with
    | none => simp [processSphinxPacket, hb, hh, deref] at hout
    | some h =>
      rw [S.processSphinxPacket_eq hb hh] at hout
      obtain ⟨⟨r, a⟩, ho, hout⟩ := Except.bind_eq_ok.mp hout
      obtain ⟨⟨hop', cmd', nb, nm⟩, hr, hout⟩ := Except.bind_eq_ok.mp hout
      obtain ⟨pld, -, hout⟩ := Except.bind_eq_ok.mp hout
      simp only [pure, Except.pure, Except.ok.injEq, Prod.mk.injEq] at hout
      obtain ⟨-, -, rfl⟩ := hout
      obtain ⟨hhop, -, rfl, rfl⟩ := readBeta_eq_ok.mp hr
      obtain ⟨_, _, _, decBeta, -, -, -, -, hdec, hun, -⟩ := S.openHeader_eq_ok.mp ho
      refine ⟨p, h, _, _, rfl, hh, SphinxPacket.unmarshal_marshal _, rfl, ?_⟩
      rw [← S.length_aesCtr hdec]
      exact RoutingInfo.length_nextHopMetaData_lt_of_unmarshal hun (by simp [hhop])

theorem processSphinxPacket_beta_shrinks_toy :
    ∃ hop cmd out, toySuite.processSphinxPacket toyForgedPacket (3 : ToyElement) =
        .ok (hop, cmd, out) ∧
      ∃ p h p' h', SphinxPacket.unmarshal toyForgedPacket = .ok p ∧ p.hdr = some h ∧
        SphinxPacket.unmarshal out = .ok p' ∧ p'.hdr = some h' ∧
        h'.beta.length < h.beta.length :=
  ⟨_, _, _, rfl, @processSphinxPacket_beta_shrinks toySuite toyForgedPacket (3 : ToyElement) _ _ _
    rfl⟩

set_option maxRecDepth 8000 in
/-- Headers grow with the path: the header for the toy path without its mix has a
shorter `Beta` than the one for the toy path. -/
theorem packForwardMessage_beta_length_toy :
    ∃ P₀ P₁ h₀ h₁,
      toySuite.packForwardMessage { toyPath with mixes := [] } [0, 0] toyMessage
          (.ok (7 : ToyElement)) = .ok P₀ ∧
        toySuite.packForwardMessage toyPath [0, 0, 0] toyMessage (.ok (7 : ToyElement)) =
          .ok P₁ ∧
        P₀.hdr = some h₀ ∧ P₁.hdr = some h₁ ∧ h₀.beta.length < h₁.beta.length :=
  ⟨_, _, _, _, rfl, rfl, rfl, rfl, by decide⟩

end Suite

end Loopix
