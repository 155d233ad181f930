import Loopix.Sphinx.Messages

/-!
# What a provider reads and writes on the wire

A provider names a client by the hexadecimal text of its public key, and decodes and
encodes four messages of the `config` package: the `ClientConfig` of a registration,
the `PullRequest` of a client fetching its messages, the `GeneralPacket` that
`config.WrapWithFlag` puts around whatever the provider sends back, and the
`ProviderResponse` that carries it.  The `.proto`
schemas are not in the sources; field numbers follow the order of the Go fields, and the
fields are decoded as `Loopix.Sphinx.Messages` decodes those of the Sphinx core.

## Main definitions

* `hexString` — `fmt.Sprintf("%x", b)`.
* `MixConfig.unmarshal`, `ClientConfig.unmarshal`, `PullRequest`, `GeneralPacket`,
  `ProviderResponse` — the codecs.
* `wrapWithFlag` — `config.WrapWithFlag`.

## Main results

* `hexString_eq_empty_iff` — only the empty key is named by the empty text.
* `hexString_injective` — two keys with one name are one key.
* `ClientConfig.unmarshal_marshal`, `PullRequest.unmarshal_marshal`,
  `GeneralPacket.unmarshal_marshal`, `ProviderResponse.unmarshal_marshal` — the round
  trips.
-/

namespace Loopix

/-! ### Hexadecimal names -/

/-- One lower-case hexadecimal digit, for a number below 16. -/
def hexDigit (n : ℕ) : Char := if n < 10 then Char.ofNat (n + 48) else Char.ofNat (n + 87)

/-- The digits `%x` prints for a byte string: two per byte, the high half first. -/
def hexChars : Bytes → List Char
  | [] => []
  | b :: bs => hexDigit (b.toNat / 16) :: hexDigit (b.toNat % 16) :: hexChars bs

/-- `fmt.Sprintf("%x", b)`. -/
def hexString (b : Bytes) : String := ⟨hexChars b⟩

theorem hexString_eq_empty_iff (b : Bytes) : hexString b = "" ↔ b = [] := by
  cases b <;> simp [hexString, hexChars, String.ext_iff]

theorem hexDigit_injective : ∀ m < 16, ∀ n < 16, hexDigit m = hexDigit n → m = n := by
  decide

theorem hexChars_injective : ∀ {a b : Bytes}, hexChars a = hexChars b → a = b
  | [], [], _ => rfl
  | [], _ :: _, h | _ :: _, [], h => by simp [hexChars] at h
  | x :: xs, y :: ys, h => by
    simp only [hexChars, List.cons.injEq] at h
    have hx : x.toNat < 256 := x.val.isLt
    have hy : y.toNat < 256 := y.val.isLt
    have hdiv := hexDigit_injective _ (by omega) _ (by omega) h.1
    have hmod := hexDigit_injective _ (by omega) _ (by omega) h.2.1
    rw [UInt8.toNat.inj (by omega : x.toNat = y.toNat), hexChars_injective h.2.2]

/-- Two public keys with the same name are the same key. -/
theorem hexString_injective {a b : Bytes} (h : hexString a = hexString b) : a = b :=
  hexChars_injective (congrArg String.data h)

/-! ### MixConfig and ClientConfig -/

/-- How one field updates a partly decoded `MixConfig`. -/
def MixConfig.setField (m : MixConfig) : Field → Except String MixConfig
  | ⟨1, .bytes b⟩ => (decodeString b).map fun s => { m with id := s }
  | ⟨2, .bytes b⟩ => (decodeString b).map fun s => { m with host := s }
  | ⟨3, .bytes b⟩ => (decodeString b).map fun s => { m with port := s }
  | ⟨4, .bytes b⟩ => .ok { m with pubKey := b }
  | _ => .ok m

/-- `proto.Unmarshal` into a `MixConfig`. -/
def MixConfig.unmarshal : Bytes → Except String MixConfig := decodeMessage {} MixConfig.setField

/-- The fields of an encoded `ClientConfig` whose `Provider` pointer is nil. -/
def ClientConfig.toFields (c : ClientConfig) : List Field :=
  stringField 1 c.id ++ stringField 2 c.host ++ stringField 3 c.port ++ bytesField 4 c.pubKey

/-- How one field updates a partly decoded `ClientConfig`.  The `Provider` field, a
`MixConfig` no modelled function reads, is decoded and dropped: it can only make the
decoding fail.  Whether a `MixConfig` decodes does not depend on the value it is merged
into, so it is decoded from the zero value. -/
def ClientConfig.setField (c : ClientConfig) : Field → Except String ClientConfig
  | ⟨1, .bytes b⟩ => (decodeString b).map fun s => { c with id := s }
  | ⟨2, .bytes b⟩ => (decodeString b).map fun s => { c with host := s }
  | ⟨3, .bytes b⟩ => (decodeString b).map fun s => { c with port := s }
  | ⟨4, .bytes b⟩ => .ok { c with pubKey := b }
  | ⟨5, .bytes b⟩ => (MixConfig.unmarshal b).map fun _ => c
  | _ => .ok c

/-- `proto.Marshal` of a `ClientConfig`. -/
def ClientConfig.marshal (c : ClientConfig) : Bytes := encodeFields c.toFields

/-- `proto.Unmarshal` into a `ClientConfig`. -/
def ClientConfig.unmarshal : Bytes → Except String ClientConfig :=
  decodeMessage {} ClientConfig.setField

theorem ClientConfig.valid_toFields (c : ClientConfig) : ∀ f ∈ c.toFields, f.Valid :=
  valid_of_mem_append (valid_of_mem_append (valid_of_mem_append
    (valid_of_mem_stringField (by decide) _) (valid_of_mem_stringField (by decide) _))
    (valid_of_mem_stringField (by decide) _)) (valid_of_mem_bytesField (by decide) _)

@[simp] theorem ClientConfig.unmarshal_marshal (c : ClientConfig) :
    ClientConfig.unmarshal c.marshal = .ok c := by
  rw [ClientConfig.unmarshal, ClientConfig.marshal, decodeMessage_encodeFields _ _
      c.valid_toFields,
    ClientConfig.toFields, List.foldlM_append, List.foldlM_append, List.foldlM_append,
    foldlM_stringField ClientConfig.setField 1 (fun r s => { r with id := s }) (fun _ _ => rfl),
    Except.ok_bind,
    foldlM_stringField ClientConfig.setField 2 (fun r s => { r with host := s }) (fun _ _ => rfl),
    Except.ok_bind,
    foldlM_stringField ClientConfig.setField 3 (fun r s => { r with port := s }) (fun _ _ => rfl),
    Except.ok_bind,
    foldlM_bytesField ClientConfig.setField 4 (fun r b => { r with pubKey := b }) (fun _ _ => rfl)]
  all_goals rfl

/-! ### PullRequest -/

/-- `config.PullRequest`: the key a client pulls for, and the token it was issued. -/
structure PullRequest where
  clientPublicKey : Bytes := []
  token : Bytes := []
  deriving DecidableEq, Repr

/-- The fields of an encoded `PullRequest`. -/
def PullRequest.toFields (r : PullRequest) : List Field :=
  bytesField 1 r.clientPublicKey ++ bytesField 2 r.token

/-- How one field updates a partly decoded `PullRequest`. -/
def PullRequest.setField (r : PullRequest) : Field → Except String PullRequest
  | ⟨1, .bytes b⟩ => .ok { r with clientPublicKey := b }
  | ⟨2, .bytes b⟩ => .ok { r with token := b }
  | _ => .ok r

/-- `proto.Marshal` of a `PullRequest`. -/
def PullRequest.marshal (r : PullRequest) : Bytes := encodeFields r.toFields

/-- `proto.Unmarshal` into a `PullRequest`. -/
def PullRequest.unmarshal : Bytes → Except String PullRequest :=
  decodeMessage {} PullRequest.setField

@[simp] theorem PullRequest.unmarshal_marshal (r : PullRequest) :
    PullRequest.unmarshal r.marshal = .ok r := by
  have hfs : ∀ f ∈ r.toFields, f.Valid :=
    valid_of_mem_append (valid_of_mem_bytesField (by decide) _)
      (valid_of_mem_bytesField (by decide) _)
  rw [PullRequest.unmarshal, PullRequest.marshal, decodeMessage_encodeFields _ _ hfs,
    PullRequest.toFields, List.foldlM_append,
    foldlM_bytesField PullRequest.setField 1 (fun r b => { r with clientPublicKey := b })
      (fun _ _ => rfl),
    Except.ok_bind,
    foldlM_bytesField PullRequest.setField 2 (fun r b => { r with token := b }) (fun _ _ => rfl)]
  all_goals rfl

/-! ### GeneralPacket -/

/-- `config.GeneralPacket`: a flag saying what the data is, and the data. -/
structure GeneralPacket where
  flag : Bytes := []
  data : Bytes := []
  deriving DecidableEq, Repr

/-- The fields of an encoded `GeneralPacket`. -/
def GeneralPacket.toFields (p : GeneralPacket) : List Field :=
  bytesField 1 p.flag ++ bytesField 2 p.data

/-- How one field updates a partly decoded `GeneralPacket`. -/
def GeneralPacket.setField (p : GeneralPacket) : Field → Except String GeneralPacket
  | ⟨1, .bytes b⟩ => .ok { p with flag := b }
  | ⟨2, .bytes b⟩ => .ok { p with data := b }
  | _ => .ok p

/-- `proto.Marshal` of a `GeneralPacket`. -/
def GeneralPacket.marshal (p : GeneralPacket) : Bytes := encodeFields p.toFields

/-- `proto.Unmarshal` into a `GeneralPacket`. -/
def GeneralPacket.unmarshal : Bytes → Except String GeneralPacket :=
  decodeMessage {} GeneralPacket.setField

@[simp] theorem GeneralPacket.unmarshal_marshal (p : GeneralPacket) :
    GeneralPacket.unmarshal p.marshal = .ok p := by
  have hfs : ∀ f ∈ p.toFields, f.Valid :=
    valid_of_mem_append (valid_of_mem_bytesField (by decide) _)
      (valid_of_mem_bytesField (by decide) _)
  rw [GeneralPacket.unmarshal, GeneralPacket.marshal, decodeMessage_encodeFields _ _ hfs,
    GeneralPacket.toFields, List.foldlM_append,
    foldlM_bytesField GeneralPacket.setField 1 (fun r b => { r with flag := b }) (fun _ _ => rfl),
    Except.ok_bind,
    foldlM_bytesField GeneralPacket.setField 2 (fun r b => { r with data := b }) (fun _ _ => rfl)]
  all_goals rfl

/-! ### ProviderResponse -/

/-- `config.ProviderResponse`: the packets a provider sends back, and their number. -/
structure ProviderResponse where
  numberOfPackets : UInt64 := 0
  packets : List Bytes := []
  deriving DecidableEq, Repr

/-- The fields of an encoded `ProviderResponse`. -/
def ProviderResponse.toFields (r : ProviderResponse) : List Field :=
  uint64Field 1 r.numberOfPackets ++ repeatedBytesField 2 r.packets

/-- How one field updates a partly decoded `ProviderResponse`: a packet is appended. -/
def ProviderResponse.setField (r : ProviderResponse) : Field → Except String ProviderResponse
  | ⟨1, .varint n⟩ => .ok { r with numberOfPackets := n.toUInt64 }
  | ⟨2, .bytes b⟩ => .ok { r with packets := r.packets ++ [b] }
  | _ => .ok r

/-- `proto.Marshal` of a `ProviderResponse`. -/
def ProviderResponse.marshal (r : ProviderResponse) : Bytes := encodeFields r.toFields

/-- `proto.Unmarshal` into a `ProviderResponse`. -/
def ProviderResponse.unmarshal : Bytes → Except String ProviderResponse :=
  decodeMessage {} ProviderResponse.setField

theorem ProviderResponse.foldl_appendPacket (r : ProviderResponse) (bs : List Bytes) :
    bs.foldl (fun r b => { r with packets := r.packets ++ [b] }) r =
      { r with packets := r.packets ++ bs } := by
  induction bs generalizing r with
  | nil => simp
  | cons b bs ih => simp [ih]

@[simp] theorem ProviderResponse.unmarshal_marshal (r : ProviderResponse) :
    ProviderResponse.unmarshal r.marshal = .ok r := by
  have hfs : ∀ f ∈ r.toFields, f.Valid :=
    valid_of_mem_append (valid_of_mem_uint64Field (by decide) _)
      (valid_of_mem_repeatedBytesField (by decide) _)
  rw [ProviderResponse.unmarshal, ProviderResponse.marshal, decodeMessage_encodeFields _ _ hfs,
    ProviderResponse.toFields, List.foldlM_append,
    foldlM_uint64Field ProviderResponse.setField 1 (fun r w => { r with numberOfPackets := w })
      (fun _ _ => rfl) _ rfl,
    Except.ok_bind,
    foldlM_repeatedBytesField ProviderResponse.setField 2
      (fun r b => { r with packets := r.packets ++ [b] }) (fun _ _ => rfl),
    ProviderResponse.foldl_appendPacket]
  rfl

/-- Modelled from the spec: `config.WrapWithFlag(flag, data)`, absent from the sources,
marshals the `GeneralPacket` of the two.  Marshalling such a message cannot fail, so
the error it returns is always nil. -/
def wrapWithFlag (flag data : Bytes) : Bytes := GeneralPacket.marshal { flag := flag, data := data }

/-- The receiver gets the data back, and so tells wrapped messages apart. -/
theorem unmarshal_wrapWithFlag (flag data : Bytes) :
    GeneralPacket.unmarshal (wrapWithFlag flag data) = .ok { flag := flag, data := data } :=
  GeneralPacket.unmarshal_marshal _

end Loopix
