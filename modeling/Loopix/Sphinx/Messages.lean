import Loopix.Proto

/-!
# The messages of the Sphinx core

The records the Sphinx core builds and reads: the relays of a path (`MixConfig`), the
destination (`ClientConfig`), the per-hop routing record (`RoutingInfo` with its
`Hop` and `Commands`), and the packet itself (`Header`, `SphinxPacket`).  Go pointers
that may be nil are `Option`s; every field has Go's zero value as its default, so
`{}` is the zero record.

A float64 delay is carried as its IEEE-754 bit pattern: the wire format sends those
eight bytes, so `Suite.packForwardMessage_relayRun` compares the delay a relay reads with
the one the sender chose bit for bit.

Field numbers follow the order in which the spec's §6.2 lists the fields, since the
`.proto` schemas are not in the sources; the schemas are taken to be proto3.  Each
`setField` is what the runtime does with one decoded field: a declared field of its own
wire type sets the record's field (a `string` only when it is UTF-8), an embedded message
is merged into the one the field already holds, and every other field, a declared one of
another wire type included, is skipped as unknown.

## Main definitions

* `Hop`, `Commands`, `RoutingInfo`, `Header`, `SphinxPacket`, with `marshal` and
  `unmarshal` (`proto.Marshal`, `proto.Unmarshal`).
* `MixConfig`, `ClientConfig`, `E2EPath`, `HeaderInitials`.

## Main results

* `RoutingInfo.unmarshal_marshal`, `SphinxPacket.unmarshal_marshal` — the round trips.
* `RoutingInfo.setField_nextHopMetaData` — what one decoded field can do to the header
  a routing record carries for the next hop.
* `RoutingInfo.length_nextHopMetaData_lt` — an encoded routing record is longer than
  the next hop's header it carries.
* `SphinxPacket.unmarshal_nil` — the empty input is a packet without a header.
-/

namespace Loopix

/-- `config.MixConfig`: a relay's identity, its address and its public key. -/
structure MixConfig where
  id : String := ""
  host : String := ""
  port : String := ""
  pubKey : Bytes := []
  deriving DecidableEq, Repr

/-- `config.ClientConfig`: a client's identity, address and public key.  Its
`Provider` field is read by no modelled function. -/
structure ClientConfig where
  id : String := ""
  host : String := ""
  port : String := ""
  pubKey : Bytes := []
  deriving DecidableEq, Repr

/-- `config.E2EPath`: the providers at both ends, the mixes between them, and the
recipient behind the egress provider. -/
structure E2EPath where
  ingressProvider : MixConfig
  mixes : List MixConfig
  egressProvider : MixConfig
  recipient : ClientConfig
  deriving DecidableEq, Repr

/-- `sphinx.Hop`: where a relay forwards the packet. -/
structure Hop where
  id : String := ""
  address : String := ""
  pubKey : Bytes := []
  deriving DecidableEq, Repr

/-- `sphinx.Commands`: the delay (a float64, as its bits) and the flag for one hop. -/
structure Commands where
  delay : UInt64 := 0
  flag : Bytes := []
  deriving DecidableEq, Repr

/-- `sphinx.RoutingInfo`: one decrypted layer of the header. -/
structure RoutingInfo where
  nextHop : Option Hop := none
  routingCommands : Option Commands := none
  nextHopMetaData : Bytes := []
  mac : Bytes := []
  deriving DecidableEq, Repr

/-- `sphinx.Header`: the group element, the encrypted routing layers, their MAC. -/
structure Header where
  alpha : Bytes := []
  beta : Bytes := []
  mac : Bytes := []
  deriving DecidableEq, Repr

/-- `sphinx.SphinxPacket`. -/
structure SphinxPacket where
  hdr : Option Header := none
  pld : Bytes := []
  deriving DecidableEq, Repr

/-- `sphinx.HeaderInitials`: what the sender derives for one hop. -/
structure HeaderInitials where
  alpha : Bytes := []
  secret : Bytes := []
  blinder : Bytes := []
  secretHash : Bytes := []
  deriving DecidableEq, Repr

/-! ### Hop -/

/-- The fields of an encoded `Hop`. -/
def Hop.toFields (h : Hop) : List Field :=
  stringField 1 h.id ++ stringField 2 h.address ++ bytesField 3 h.pubKey

/-- How one field updates a partly decoded `Hop`. -/
def Hop.setField (h : Hop) : Field → Except String Hop
  | ⟨1, .bytes b⟩ => (decodeString b).map fun s => { h with id := s }
  | ⟨2, .bytes b⟩ => (decodeString b).map fun s => { h with address := s }
  | ⟨3, .bytes b⟩ => .ok { h with pubKey := b }
  | _ => .ok h

/-- `proto.Marshal` of a `Hop`. -/
def Hop.marshal (h : Hop) : Bytes := encodeFields h.toFields

/-- `proto.Unmarshal` into a `Hop`. -/
def Hop.unmarshal : Bytes → Except String Hop := decodeMessage {} Hop.setField

theorem Hop.valid_toFields (h : Hop) : ∀ f ∈ h.toFields, f.Valid :=
  valid_of_mem_append (valid_of_mem_append (valid_of_mem_stringField (by decide) _)
    (valid_of_mem_stringField (by decide) _)) (valid_of_mem_bytesField (by decide) _)

@[simp] theorem Hop.unmarshal_marshal (h : Hop) : Hop.unmarshal h.marshal = .ok h := by
  rw [Hop.unmarshal, Hop.marshal, decodeMessage_encodeFields _ _ h.valid_toFields, Hop.toFields,
    List.foldlM_append,
    List.foldlM_append,
    foldlM_stringField Hop.setField 1 (fun r s => { r with id := s }) (fun _ _ => rfl),
    Except.ok_bind,
    foldlM_stringField Hop.setField 2 (fun r s => { r with address := s }) (fun _ _ => rfl),
    Except.ok_bind,
    foldlM_bytesField Hop.setField 3 (fun r b => { r with pubKey := b }) (fun _ _ => rfl)]
  all_goals rfl

/-! ### Commands -/

/-- The fields of encoded `Commands`. -/
def Commands.toFields (c : Commands) : List Field :=
  fixed64Field 1 c.delay ++ bytesField 2 c.flag

/-- How one field updates partly decoded `Commands`. -/
def Commands.setField (c : Commands) : Field → Except String Commands
  | ⟨1, .fixed64 w⟩ => .ok { c with delay := w }
  | ⟨2, .bytes b⟩ => .ok { c with flag := b }
  | _ => .ok c

/-- `proto.Marshal` of `Commands`. -/
def Commands.marshal (c : Commands) : Bytes := encodeFields c.toFields

/-- `proto.Unmarshal` into `Commands`. -/
def Commands.unmarshal : Bytes → Except String Commands := decodeMessage {} Commands.setField

theorem Commands.valid_toFields (c : Commands) : ∀ f ∈ c.toFields, f.Valid :=
  valid_of_mem_append (valid_of_mem_fixed64Field (by decide) _)
    (valid_of_mem_bytesField (by decide) _)

@[simp] theorem Commands.unmarshal_marshal (c : Commands) :
    Commands.unmarshal c.marshal = .ok c := by
  rw [Commands.unmarshal, Commands.marshal, decodeMessage_encodeFields _ _ c.valid_toFields,
    Commands.toFields,
    List.foldlM_append,
    foldlM_fixed64Field Commands.setField 1 (fun r w => { r with delay := w }) (fun _ _ => rfl),
    Except.ok_bind,
    foldlM_bytesField Commands.setField 2 (fun r b => { r with flag := b }) (fun _ _ => rfl)]
  all_goals rfl

/-! ### RoutingInfo -/

/-- The fields of an encoded `RoutingInfo`. -/
def RoutingInfo.toFields (r : RoutingInfo) : List Field :=
  messageField 1 (r.nextHop.map Hop.marshal) ++
    messageField 2 (r.routingCommands.map Commands.marshal) ++
      bytesField 3 r.nextHopMetaData ++ bytesField 4 r.mac

/-- How one field updates a partly decoded `RoutingInfo`. -/
def RoutingInfo.setField (r : RoutingInfo) : Field → Except String RoutingInfo
  | ⟨1, .bytes b⟩ =>
    (decodeMessage (r.nextHop.getD {}) Hop.setField b).map fun h => { r with nextHop := some h }
  | ⟨2, .bytes b⟩ =>
    (decodeMessage (r.routingCommands.getD {}) Commands.setField b).map fun c =>
      { r with routingCommands := some c }
  | ⟨3, .bytes b⟩ => .ok { r with nextHopMetaData := b }
  | ⟨4, .bytes b⟩ => .ok { r with mac := b }
  | _ => .ok r

/-- `proto.Marshal` of a `RoutingInfo`. -/
def RoutingInfo.marshal (r : RoutingInfo) : Bytes := encodeFields r.toFields

/-- `proto.Unmarshal` into a `RoutingInfo`. -/
def RoutingInfo.unmarshal : Bytes → Except String RoutingInfo :=
  decodeMessage {} RoutingInfo.setField

theorem RoutingInfo.valid_toFields (r : RoutingInfo) : ∀ f ∈ r.toFields, f.Valid :=
  valid_of_mem_append (valid_of_mem_append (valid_of_mem_append
    (valid_of_mem_messageField (by decide) _) (valid_of_mem_messageField (by decide) _))
    (valid_of_mem_bytesField (by decide) _)) (valid_of_mem_bytesField (by decide) _)

@[simp] theorem RoutingInfo.unmarshal_marshal (r : RoutingInfo) :
    RoutingInfo.unmarshal r.marshal = .ok r := by
  rw [RoutingInfo.unmarshal, RoutingInfo.marshal, decodeMessage_encodeFields _ _ r.valid_toFields,
    RoutingInfo.toFields, List.foldlM_append, List.foldlM_append, List.foldlM_append,
    foldlM_messageField RoutingInfo.setField 1 Hop.marshal (decodeMessage · Hop.setField) {}
      Hop.unmarshal_marshal RoutingInfo.nextHop (fun r h => { r with nextHop := h })
      (fun _ _ => rfl),
    Except.ok_bind,
    foldlM_messageField RoutingInfo.setField 2 Commands.marshal
      (decodeMessage · Commands.setField) {} Commands.unmarshal_marshal
      RoutingInfo.routingCommands (fun r c => { r with routingCommands := c }) (fun _ _ => rfl),
    Except.ok_bind,
    foldlM_bytesField RoutingInfo.setField 3 (fun r b => { r with nextHopMetaData := b })
      (fun _ _ => rfl),
    Except.ok_bind,
    foldlM_bytesField RoutingInfo.setField 4 (fun r b => { r with mac := b }) (fun _ _ => rfl)]
  all_goals rfl

/-- One decoded field leaves `NextHopMetaData` as it was, or is the field that sets it. -/
theorem RoutingInfo.setField_nextHopMetaData {r r' : RoutingInfo} {f : Field}
    (h : r.setField f = .ok r') :
    r'.nextHopMetaData = r.nextHopMetaData ∨ f.val = .bytes r'.nextHopMetaData := by
  unfold RoutingInfo.setField at h
  split at h
  iterate 2
    · unfold Except.map at h
      split at h
      · cases h
      · cases h
        exact .inl rfl
  · cases h
    exact .inr rfl
  all_goals
    cases h
    exact .inl rfl

/-- A decoded record's `NextHopMetaData` is its initial value or one of the fields. -/
theorem RoutingInfo.foldlM_setField_nextHopMetaData :
    ∀ {fs : List Field} {r r' : RoutingInfo}, fs.foldlM RoutingInfo.setField r = .ok r' →
      r'.nextHopMetaData = r.nextHopMetaData ∨ ∃ f ∈ fs, f.val = .bytes r'.nextHopMetaData
  | [], _, _, h => by
    cases h
    exact .inl rfl
  | f :: fs, r, r', h => by
    rw [List.foldlM_cons] at h
    obtain ⟨r1, h1, h2⟩ := Except.bind_eq_ok.mp h
    rcases foldlM_setField_nextHopMetaData h2 with h3 | ⟨g, hg, hv⟩
    · rcases RoutingInfo.setField_nextHopMetaData h1 with h4 | h4
      · exact .inl (h3.trans h4)
      · exact .inr ⟨f, List.mem_cons_self _ _, h3 ▸ h4⟩
    · exact .inr ⟨g, List.mem_cons_of_mem _ hg, hv⟩

/-- **What a decoded routing record carries for the next hop is shorter than the bytes
it was decoded from**, as soon as the record names a next hop.  This holds of every
input, not only of encoded records. -/
theorem RoutingInfo.length_nextHopMetaData_lt_of_unmarshal {bs : Bytes} {r : RoutingInfo}
    (h : RoutingInfo.unmarshal bs = .ok r) (hhop : r.nextHop ≠ none) :
    r.nextHopMetaData.length < bs.length := by
  obtain ⟨fs, hfs, hfold⟩ := Except.bind_eq_ok.mp h
  rcases RoutingInfo.foldlM_setField_nextHopMetaData hfold with h0 | ⟨f, hf, hv⟩
  · cases bs with
    | nil =>
      rw [RoutingInfo.unmarshal, decodeMessage_nil] at h
      cases h
      exact absurd rfl hhop
    | cons => simp [h0]
  · exact length_lt_of_decodeFieldsAux hfs f hf _ hv

/-! ### Header and SphinxPacket -/

/-- The fields of an encoded `Header`. -/
def Header.toFields (h : Header) : List Field :=
  bytesField 1 h.alpha ++ bytesField 2 h.beta ++ bytesField 3 h.mac

/-- How one field updates a partly decoded `Header`. -/
def Header.setField (h : Header) : Field → Except String Header
  | ⟨1, .bytes b⟩ => .ok { h with alpha := b }
  | ⟨2, .bytes b⟩ => .ok { h with beta := b }
  | ⟨3, .bytes b⟩ => .ok { h with mac := b }
  | _ => .ok h

/-- `proto.Marshal` of a `Header`. -/
def Header.marshal (h : Header) : Bytes := encodeFields h.toFields

/-- `proto.Unmarshal` into a `Header`. -/
def Header.unmarshal : Bytes → Except String Header := decodeMessage {} Header.setField

theorem Header.valid_toFields (h : Header) : ∀ f ∈ h.toFields, f.Valid :=
  valid_of_mem_append (valid_of_mem_append (valid_of_mem_bytesField (by decide) _)
    (valid_of_mem_bytesField (by decide) _)) (valid_of_mem_bytesField (by decide) _)

@[simp] theorem Header.unmarshal_marshal (h : Header) : Header.unmarshal h.marshal = .ok h := by
  rw [Header.unmarshal, Header.marshal, decodeMessage_encodeFields _ _ h.valid_toFields,
    Header.toFields,
    List.foldlM_append, List.foldlM_append,
    foldlM_bytesField Header.setField 1 (fun r b => { r with alpha := b }) (fun _ _ => rfl),
    Except.ok_bind,
    foldlM_bytesField Header.setField 2 (fun r b => { r with beta := b }) (fun _ _ => rfl),
    Except.ok_bind,
    foldlM_bytesField Header.setField 3 (fun r b => { r with mac := b }) (fun _ _ => rfl)]
  all_goals rfl

/-- The fields of an encoded `SphinxPacket`. -/
def SphinxPacket.toFields (p : SphinxPacket) : List Field :=
  messageField 1 (p.hdr.map Header.marshal) ++ bytesField 2 p.pld

/-- How one field updates a partly decoded `SphinxPacket`. -/
def SphinxPacket.setField (p : SphinxPacket) : Field → Except String SphinxPacket
  | ⟨1, .bytes b⟩ =>
    (decodeMessage (p.hdr.getD {}) Header.setField b).map fun h => { p with hdr := some h }
  | ⟨2, .bytes b⟩ => .ok { p with pld := b }
  | _ => .ok p

/-- `proto.Marshal` of a `SphinxPacket`. -/
def SphinxPacket.marshal (p : SphinxPacket) : Bytes := encodeFields p.toFields

/-- `proto.Unmarshal` into a `SphinxPacket`. -/
def SphinxPacket.unmarshal : Bytes → Except String SphinxPacket :=
  decodeMessage {} SphinxPacket.setField

@[simp] theorem SphinxPacket.unmarshal_marshal (p : SphinxPacket) :
    SphinxPacket.unmarshal p.marshal = .ok p := by
  have hfs : ∀ f ∈ p.toFields, f.Valid := valid_of_mem_append
    (valid_of_mem_messageField (by decide) _) (valid_of_mem_bytesField (by decide) _)
  rw [SphinxPacket.unmarshal, SphinxPacket.marshal, decodeMessage_encodeFields _ _ hfs,
    SphinxPacket.toFields, List.foldlM_append,
    foldlM_messageField SphinxPacket.setField 1 Header.marshal (decodeMessage · Header.setField)
      {} Header.unmarshal_marshal SphinxPacket.hdr (fun r h => { r with hdr := h })
      (fun _ _ => rfl),
    Except.ok_bind,
    foldlM_bytesField SphinxPacket.setField 2 (fun r b => { r with pld := b }) (fun _ _ => rfl)]
  all_goals rfl

/-- The empty input decodes, to a packet whose header pointer is nil. -/
@[simp] theorem SphinxPacket.unmarshal_nil : SphinxPacket.unmarshal [] = .ok {} := rfl

end Loopix
