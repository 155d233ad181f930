import Loopix.Provider.Clients
import Loopix.Sphinx.Route

/-!
# Delivery: from the last relay to a client's inbox

A provider hands every Sphinx packet it receives to `receivedPacket`, which processes
it under the provider's key and looks at the flag of the command it finds: a relay
packet is forwarded, wrapped with `CommFlag`, to the next hop's address; a last-hop
packet is stored in the inbox named by the next hop's `Id`; any other packet is
dropped.

The last hop of a packet `PackForwardMessage` built names the recipient by its `Id`
(`encapsulateHeader`'s final record), so the egress provider stores the packet in
`./inboxes/<Id>`.  Registration and pull requests name a client's inbox by the
hexadecimal text of its key instead, so the two meet only when a client's `Id` is that
text.

## Main definitions

* `forwardPacket`, `ProviderServer.receivedPacket` — as `part_001` writes them, with
  `ProcessPacket` taken to be `ProcessSphinxPacket` under the provider's key.
* `receivedPacketCall` — the store a Sphinx packet for the last hop makes on an inbox.

## Main results

* `receivedPacket_inboxes` — a Sphinx packet does to the inboxes what its store does.
* `receivedPacket_of_unknownFlag` — a record whose flag is neither relay nor last hop is
  dropped.
* `receivedPacket_lastHop` — **the egress provider stores a packet under the
  recipient's `Id`, and leaves the recipient's inbox alone when that `Id` is not the
  text of its key.**
-/

namespace Loopix

section Delivery

variable (S : Suite) (commFlag : Bytes)

/-- `forwardPacket(sphinxPacket, address)`: wrap the packet with `CommFlag` and send it;
`send` is what the network answers to sending those bytes to that address. -/
def forwardPacket (send : String → Bytes → Except String Unit) (sphinxPacket : Bytes)
    (address : String) : Except String Unit :=
  send address (wrapWithFlag commFlag sphinxPacket)

/-- `receivedPacket(packet)`, where `ProcessPacket` is `ProcessSphinxPacket` under the
provider's private key, and `helpers.RandomString(8)` gave `random`. -/
def ProviderServer.receivedPacket (p : ProviderServer) (priv : S.FieldElement) (packet : Bytes)
    (random : String) (send : String → Bytes → Except String Unit) (out : StoreOutcome) :
    ProviderServer × Go Unit :=
  match S.processSphinxPacket packet priv with
  | .error e => (p, .error e)
  | .ok (nextHop, cmd, dePacket) =>
    if cmd.flag = S.relayFlag then
      (p, Go.ofErr (forwardPacket commFlag send dePacket nextHop.address))
    else if cmd.flag = S.lastHopFlag then
      let tmpMsgID := "TMP_MESSAGE_" ++ random
      let r := storeMessage p.inboxes dePacket nextHop.id tmpMsgID out
      ({ p with inboxes := r.1 }, Go.ofErr r.2)
    else (p, .ok ())

@[simp] theorem receivedPacket_assignedClients (p : ProviderServer) (priv : S.FieldElement)
    (packet : Bytes) (random : String) (send : String → Bytes → Except String Unit)
    (out : StoreOutcome) :
    (p.receivedPacket S commFlag priv packet random send out).1.assignedClients =
      p.assignedClients := by
  unfold ProviderServer.receivedPacket
  split
  · rfl
  · split_ifs <;> rfl

/-- The call `receivedPacket` makes on an inbox: a packet for the last hop is stored, under
a name made of `random`, in the inbox of the `Id` its hop names. -/
def receivedPacketCall (priv : S.FieldElement) (packet : Bytes) (random : String)
    (out : StoreOutcome) : Option (String × InboxCall) :=
  match S.processSphinxPacket packet priv with
  | .ok (nextHop, cmd, dePacket) =>
    if cmd.flag = S.lastHopFlag then
      some (nextHop.id, .store dePacket ("TMP_MESSAGE_" ++ random) out)
    else none
  | .error _ => none

/-- `receivedPacket` does to the inboxes what its call does. -/
theorem receivedPacket_inboxes (p : ProviderServer) (priv : S.FieldElement) (packet : Bytes)
    (random : String) (send : String → Bytes → Except String Unit) (out : StoreOutcome) :
    (p.receivedPacket S commFlag priv packet random send out).1.inboxes =
      applyCall commFlag p.inboxes (receivedPacketCall S priv packet random out) := by
  unfold ProviderServer.receivedPacket receivedPacketCall
  rcases S.processSphinxPacket packet priv with _ | ⟨nextHop, cmd, dePacket⟩
  · rfl
  · dsimp only
    by_cases hl : cmd.flag = S.lastHopFlag
    · rw [if_neg (hl ▸ S.relayFlag_ne_lastHopFlag.symm), if_pos hl, if_pos hl]
      rfl
    · rw [if_neg hl, if_neg hl]
      split_ifs <;> rfl

/-- `receivedPacket` panics exactly when processing the packet does: forwarding and
storing return errors, never panics. -/
@[simp] theorem receivedPacket_isPanic (p : ProviderServer) (priv : S.FieldElement)
    (packet : Bytes) (random : String) (send : String → Bytes → Except String Unit)
    (out : StoreOutcome) :
    (p.receivedPacket S commFlag priv packet random send out).2.isPanic =
      (S.processSphinxPacket packet priv).isPanic := by
  unfold ProviderServer.receivedPacket
  rcases S.processSphinxPacket packet priv with e | ⟨nextHop, cmd, dePacket⟩
  · cases e <;> rfl
  · dsimp only
    split_ifs <;> simp only [Go.isPanic_ofErr] <;> rfl

/-- A last-hop packet is stored under the `Id` of the hop it names. -/
theorem receivedPacket_of_lastHopFlag {p : ProviderServer} {priv : S.FieldElement}
    {packet dePacket : Bytes} {hop : Hop} {cmd : Commands}
    (h : S.processSphinxPacket packet priv = .ok (hop, cmd, dePacket))
    (hflag : cmd.flag = S.lastHopFlag) (random : String)
    (send : String → Bytes → Except String Unit) (out : StoreOutcome) :
    p.receivedPacket S commFlag priv packet random send out =
      ({ p with inboxes := (storeMessage p.inboxes dePacket hop.id ("TMP_MESSAGE_" ++ random)
          out).1 },
        Go.ofErr (storeMessage p.inboxes dePacket hop.id ("TMP_MESSAGE_" ++ random) out).2) := by
  simp [ProviderServer.receivedPacket, h, hflag, S.relayFlag_ne_lastHopFlag.symm]

/-- **A record of any other flag is dropped**: `ProcessSphinxPacket` returns whatever flag
the record carries, and `receivedPacket` logs one that is neither the relay nor the last-hop
flag, leaves the provider as it was and returns nil. -/
theorem receivedPacket_of_unknownFlag {p : ProviderServer} {priv : S.FieldElement}
    {packet dePacket : Bytes} {hop : Hop} {cmd : Commands}
    (h : S.processSphinxPacket packet priv = .ok (hop, cmd, dePacket))
    (hrelay : cmd.flag ≠ S.relayFlag) (hlast : cmd.flag ≠ S.lastHopFlag) (random : String)
    (send : String → Bytes → Except String Unit) (out : StoreOutcome) :
    p.receivedPacket S commFlag priv packet random send out = (p, .ok ()) := by
  simp [ProviderServer.receivedPacket, h, hrelay, hlast]

/-- **The egress provider stores a message under the recipient's `Id`.**  Let the
`i`-th node of a path carry the public key of `privs[i]`, with the egress provider's
key `priv` last, and let `PackForwardMessage` build the packet `P`.  The relays before
the egress provider process `P` in turn; on what the last of them returns, the egress
provider finds the recipient's hop and the last-hop flag, and its `receivedPacket`
stores the packet with `storeMessage` under the recipient's `Id`.  When that `Id` is a
plain name other than `hex(PubKey)`, the inbox `registerNewClient` made for the recipient,
which its pull requests read, stays as it was. -/
theorem receivedPacket_lastHop {path : E2EPath} {privs : List S.FieldElement}
    {priv : S.FieldElement} {delays : List UInt64} {message : Bytes}
    {random : Except String S.FieldElement} {P : SphinxPacket}
    (hkeys : path.nodes.map MixConfig.pubKey = (privs ++ [priv]).map S.publicKey)
    (hP : S.packForwardMessage path delays message random = .ok P) :
    ∃ outs, S.relayRun privs P.marshal = .ok outs ∧
      ∃ cmd dePacket,
        S.processSphinxPacket ((outs.getLast?.map fun o => o.2.2).getD P.marshal) priv =
          .ok (path.recipient.toHop, cmd, dePacket) ∧ cmd.flag = S.lastHopFlag ∧
        ∀ (p : ProviderServer) (rnd : String) (send : String → Bytes → Except String Unit)
          (out : StoreOutcome),
          (p.receivedPacket S commFlag priv ((outs.getLast?.map fun o => o.2.2).getD P.marshal)
              rnd send out).1.inboxes =
            (storeMessage p.inboxes dePacket path.recipient.id ("TMP_MESSAGE_" ++ rnd) out).1 ∧
          (PlainName path.recipient.id → path.recipient.id ≠ hexString path.recipient.pubKey →
            (p.receivedPacket S commFlag priv ((outs.getLast?.map fun o => o.2.2).getD P.marshal)
                rnd send out).1.inboxes (inboxPath (hexString path.recipient.pubKey)) =
              p.inboxes (inboxPath (hexString path.recipient.pubKey))) := by
  obtain ⟨outsAll, hrelay, hhops, hcmds, -, -⟩ :=
    S.relayRun_packForwardMessage hkeys hP fun _ h => h
  obtain ⟨outs, ⟨hop, cmd, dePacket⟩, rfl, hfirst, hlast⟩ :=
    S.relayRun_append_singleton hrelay
  rw [List.map_append] at hhops hcmds
  have hhop : hop = path.recipient.toHop := by
    simpa using congrArg List.getLast? hhops
  have hflag : cmd.flag = S.lastHopFlag := by
    have := congrArg List.getLast? hcmds
    rw [S.getLast?_pathCommands _ (by simp)] at this
    simp at this
    rw [this]
  subst hhop
  refine ⟨outs, hfirst, cmd, dePacket, hlast, hflag, fun p rnd send out => ?_⟩
  have hstore := receivedPacket_of_lastHopFlag S commFlag (p := p) hlast hflag rnd send out
  refine ⟨by rw [hstore]; rfl, fun _ hid => ?_⟩
  rw [hstore]
  exact storeMessage_frame _ _ _ _ _ fun h => hid (inboxPath_inj.mp h).symm

end Delivery

/-- The toy path's recipient, `Recipient`, is not the text of its key: the egress provider
stores the message under `Recipient` and leaves the recipient's inbox alone. -/
theorem receivedPacket_lastHop_toy :
    ∃ P, toySuite.packForwardMessage toyPath [0, 0, 0] toyMessage (.ok (7 : ToyElement)) =
        .ok P ∧
      ∃ outs, toySuite.relayRun [(3 : ToyElement), (11 : ToyElement)] P.marshal = .ok outs ∧
        ∃ cmd dePacket,
          toySuite.processSphinxPacket ((outs.getLast?.map fun o => o.2.2).getD P.marshal)
              (5 : ToyElement) = .ok (toyPath.recipient.toHop, cmd, dePacket) ∧
            cmd.flag = toySuite.lastHopFlag ∧
          ∀ (p : ProviderServer) (rnd : String) (send : String → Bytes → Except String Unit)
            (out : StoreOutcome),
            (p.receivedPacket toySuite [] (5 : ToyElement)
                ((outs.getLast?.map fun o => o.2.2).getD P.marshal) rnd send out).1.inboxes =
              (storeMessage p.inboxes dePacket "Recipient" ("TMP_MESSAGE_" ++ rnd) out).1 ∧
            (p.receivedPacket toySuite [] (5 : ToyElement)
                ((outs.getLast?.map fun o => o.2.2).getD P.marshal) rnd send out).1.inboxes
                (inboxPath (hexString toyPath.recipient.pubKey)) =
              p.inboxes (inboxPath (hexString toyPath.recipient.pubKey)) := by
  obtain ⟨outs, hrun, cmd, dePacket, hlast, hflag, hinbox⟩ :=
    @receivedPacket_lastHop toySuite [] toyPath [(3 : ToyElement), (11 : ToyElement)]
      (5 : ToyElement) [0, 0, 0] toyMessage (.ok (7 : ToyElement)) _ rfl rfl
  exact ⟨_, rfl, outs, hrun, cmd, dePacket, hlast, hflag, fun p rnd send out =>
    ⟨(hinbox p rnd send out).1, (hinbox p rnd send out).2 (by decide) (by decide)⟩⟩

end Loopix
