import Loopix.Go
import Mathlib.Data.Nat.Defs
import Mathlib.Algebra.Group.Nat.Basic

/-!
# The protobuf wire format

Sphinx packets, their routing records and the provider's requests travel as
protocol buffers (`proto.Marshal` and `proto.Unmarshal` of `github.com/golang/protobuf`,
which from its version 1.4 on runs `google.golang.org/protobuf`).  The code generated from
the repository's `.proto` schemas is not in the sources, so this module models the wire
format and the runtime's decoder: a message is a sequence of fields, each a varint key
`number * 8 + wireType` followed by a varint (wire type 0), eight little-endian bytes (1),
a length-prefixed byte string (2), a group of fields closed by an end tag (3 and 4), or
four little-endian bytes (5).

Decoding reads the fields in any order.  It refuses a field number outside
`1 .. 2^29 - 1`, the wire types 6 and 7, an end tag outside its group, and a truncated
payload; it skips the fields a message does not declare, and a declared field of another
wire type, which the runtime takes for an unknown field.  A later scalar field overrides an
earlier one, and a later embedded message is merged into the earlier one.  A `string`
field must hold UTF-8.  The empty input is the message with every field at its default.

## Main definitions

* `encodeVarint`, `decodeVarint` — base-128 varints.
* `leBytes`, `leValue` — little-endian fixed-width integers.
* `Field`, `encodeFields`, `decodeFields` — the field sequence of a message.
* `skipGroup` — how a group is skipped.
* `bytesField`, `stringField`, `messageField`, `fixed64Field`, `uint64Field` — proto3
  fields, omitted at their default value; `repeatedBytesField`.
* `decodeMessage` — a message decoder from the value it starts from and a field setter.

## Main results

* `decodeVarint_encodeVarint`, `leValue_leBytes`, `decodeString_bytesOfString` and
  `decodeFields_encodeFields` — the round trips.
* `length_lt_of_decodeFieldsAux` — a decoded byte field is shorter than its message.
* `foldlM_bytesField`, `foldlM_messageField`, ... — how one field of an encoded
  message is read back, used for every message type of the model.
-/

namespace Loopix

/-- The error `proto.Unmarshal` returns for input that is not a well-formed message. -/
def decodeError : String := "proto: cannot parse invalid wire-format data"

/-! ### Varints -/

/-- The varint of `n`, given `fuel ≥ n` more bytes than it needs. -/
def varintAux : ℕ → ℕ → Bytes
  | 0, n => [n.toUInt8]
  | fuel + 1, n =>
    if n < 128 then [n.toUInt8] else (n % 128 + 128).toUInt8 :: varintAux fuel (n / 128)

/-- `protowire.AppendVarint`: seven bits a byte, least significant first, with the high
bit set on every byte but the last. -/
def encodeVarint (n : ℕ) : Bytes := varintAux n n

/-- The base-128 digits at the front of the input, up to the first byte without the high
bit: their value, and the bytes after them. -/
def readVarint : Bytes → Except String (ℕ × Bytes)
  | [] => .error decodeError
  | b :: bs =>
    if b.toNat < 128 then .ok (b.toNat, bs)
    else do
      let (n, rest) ← readVarint bs
      pure (b.toNat - 128 + 128 * n, rest)

/-- `protowire.ConsumeVarint`, which reads at most ten bytes and refuses a value of `2^64`
or more.  The varint is read whole and refused when it runs over ten bytes with a value
below `2^64`.  A larger value is returned, and every caller refuses it as
`ConsumeVarint` does: it is no field number, no varint field's value, and a length beyond
the input, so the two agree on every input shorter than `2^64` bytes. -/
def decodeVarint (bs : Bytes) : Except String (ℕ × Bytes) := do
  let (n, rest) ← readVarint bs
  if 10 < bs.length - rest.length ∧ n < 2 ^ 64 then .error decodeError else pure (n, rest)

theorem readVarint_varintAux (rest : Bytes) :
    ∀ fuel n, n ≤ fuel → readVarint (varintAux fuel n ++ rest) = .ok (n, rest)
  | 0, n, h => by
    obtain rfl : n = 0 := by omega
    rfl
  | fuel + 1, n, h => by
    by_cases hn : n < 128
    · simp [varintAux, readVarint, hn, show n < 256 by omega]
    · have ih := readVarint_varintAux rest fuel (n / 128) (by omega)
      have hb : (n % 128 + 128).toUInt8.toNat = n % 128 + 128 :=
        Nat.toUInt8_toNat_of_lt (by omega)
      simp only [varintAux, hn, if_false, List.cons_append, readVarint, hb, ih]
      simp only [show ¬ n % 128 + 128 < 128 by omega, if_false, Except.ok_bind]
      congr 2
      omega

/-- A value below `128 ^ (k + 1)` takes at most `k + 1` bytes. -/
theorem length_varintAux_le : ∀ fuel n k, n < 128 ^ (k + 1) → (varintAux fuel n).length ≤ k + 1
  | 0, _, _, _ => by simp [varintAux]
  | fuel + 1, n, k, h => by
    unfold varintAux
    split
    · simp
    · cases k with
      | zero => omega
      | succ k =>
        have := length_varintAux_le fuel (n / 128) k
          (Nat.div_lt_of_lt_mul (by rw [← pow_succ']; exact h))
        simp only [List.length_cons]
        omega

@[simp] theorem decodeVarint_encodeVarint (n : ℕ) (rest : Bytes) :
    decodeVarint (encodeVarint n ++ rest) = .ok (n, rest) := by
  rw [decodeVarint, encodeVarint, readVarint_varintAux rest n n le_rfl, Except.ok_bind]
  refine if_neg fun ⟨hlen, hn⟩ => ?_
  have := length_varintAux_le n n 9 (lt_of_lt_of_le hn (by decide))
  rw [List.length_append, Nat.add_sub_cancel] at hlen
  omega

theorem varintAux_ne_nil : ∀ fuel n, varintAux fuel n ≠ []
  | 0, _ => by simp [varintAux]
  | _ + 1, n => by unfold varintAux; split <;> simp

theorem encodeVarint_ne_nil (n : ℕ) : encodeVarint n ≠ [] := varintAux_ne_nil n n

/-! ### Little-endian integers -/

/-- The `k` low bytes of `n`, least significant first. -/
def leBytes : ℕ → ℕ → Bytes
  | 0, _ => []
  | k + 1, n => (n % 256).toUInt8 :: leBytes k (n / 256)

/-- The value of little-endian bytes. -/
def leValue : Bytes → ℕ
  | [] => 0
  | b :: bs => b.toNat + 256 * leValue bs

@[simp] theorem length_leBytes : ∀ k n, (leBytes k n).length = k
  | 0, _ => rfl
  | k + 1, n => by simp [leBytes, length_leBytes k]

theorem leValue_leBytes : ∀ k n, leValue (leBytes k n) = n % 256 ^ k
  | 0, n => by simp [leBytes, leValue, Nat.mod_one]
  | k + 1, n => by
    rw [leBytes, leValue, leValue_leBytes k, Nat.toUInt8_toNat_of_lt (Nat.mod_lt _ (by omega)),
      Nat.pow_succ', Nat.mod_mul]

theorem UInt64.toUInt64_toNat (w : UInt64) : w.toNat.toUInt64 = w := by
  simp [Nat.toUInt64, UInt64.ofNat, UInt64.toNat]

theorem UInt32.toUInt32_toNat (w : UInt32) : w.toNat.toUInt32 = w := by
  simp [Nat.toUInt32, UInt32.ofNat, UInt32.toNat]

/-! ### Strings -/

/-- A `string` field's value: its bytes, which must be UTF-8. -/
def decodeString (b : Bytes) : Except String String :=
  match stringOfBytes? b with
  | some s => .ok s
  | none => .error "string field contains invalid UTF-8"

@[simp] theorem decodeString_bytesOfString (s : String) :
    decodeString (bytesOfString s) = .ok s := by
  rw [decodeString, stringOfBytes?_eq_some_iff.mpr rfl]

/-- A byte that starts no UTF-8 sequence, a surrogate, and an overlong `/` are refused. -/
example : decodeString [0xff] = .error "string field contains invalid UTF-8" ∧
    decodeString [0xed, 0xa0, 0x80] = .error "string field contains invalid UTF-8" ∧
    decodeString [0xc0, 0xaf] = .error "string field contains invalid UTF-8" ∧
    decodeString [0xc3, 0xa9] = .ok "é" := ⟨rfl, rfl, rfl, rfl⟩

/-! ### Fields -/

/-- The payload of a field, by wire type: `0` varint, `1` fixed 64-bit, `2`
length-delimited, `5` fixed 32-bit. -/
inductive WireValue where
  | varint (n : ℕ)
  | fixed64 (w : UInt64)
  | bytes (b : Bytes)
  | fixed32 (w : UInt32)
  deriving DecidableEq, Repr

/-- One field of an encoded message. -/
structure Field where
  num : ℕ
  val : WireValue
  deriving DecidableEq, Repr

/-- The wire type of a payload. -/
def WireValue.wireType : WireValue → ℕ
  | .varint _ => 0
  | .fixed64 _ => 1
  | .bytes _ => 2
  | .fixed32 _ => 5

/-- The bytes of a payload after the field's key. -/
def WireValue.encode : WireValue → Bytes
  | .varint n => encodeVarint n
  | .fixed64 w => leBytes 8 w.toNat
  | .bytes b => encodeVarint b.length ++ b
  | .fixed32 w => leBytes 4 w.toNat

/-- A field: its key, then its payload. -/
def Field.encode (f : Field) : Bytes :=
  encodeVarint (f.num * 8 + f.val.wireType) ++ f.val.encode

/-- The bytes of a message, one field after the other. -/
def encodeFields : List Field → Bytes
  | [] => []
  | f :: fs => f.encode ++ encodeFields fs

/-- The field numbers a message may use: `protowire.MinValidNumber` to `MaxValidNumber`. -/
def ValidNumber (num : ℕ) : Prop := 1 ≤ num ∧ num < 2 ^ 29

instance : DecidablePred ValidNumber := fun num =>
  inferInstanceAs (Decidable (1 ≤ num ∧ num < 2 ^ 29))

/-- A payload the runtime reads back: a varint below `2^64`, or any other. -/
def WireValue.Valid : WireValue → Prop
  | .varint n => n < 2 ^ 64
  | _ => True

/-- A field the runtime reads back: a valid number and a payload it reads back.  Every
field the encoders below write is one. -/
def Field.Valid (f : Field) : Prop := ValidNumber f.num ∧ f.val.Valid

/-- Read the payload of a field of the given wire type, as `protowire.ConsumeVarint`,
`ConsumeFixed64`, `ConsumeBytes` and `ConsumeFixed32` do.  The end tag of a group (`4`)
carries no payload of its own, and `6` and `7` are no wire type. -/
def decodeValue (wireType : ℕ) (bs : Bytes) : Except String (WireValue × Bytes) :=
  match wireType with
  | 0 => do
    let (n, rest) ← decodeVarint bs
    if n < 2 ^ 64 then pure (.varint n, rest) else .error decodeError
  | 1 =>
    if bs.length < 8 then .error decodeError
    else .ok (.fixed64 (leValue (bs.take 8)).toUInt64, bs.drop 8)
  | 2 => do
    let (len, rest) ← decodeVarint bs
    if rest.length < len then .error decodeError
    else pure (.bytes (rest.take len), rest.drop len)
  | 5 =>
    if bs.length < 4 then .error decodeError
    else .ok (.fixed32 (leValue (bs.take 4)).toUInt32, bs.drop 4)
  | _ => .error decodeError

/-- `protowire.ConsumeFieldValue` on a group, after its start tag: the fields up to the
end tag of the group's number `num`, each read as its wire type says, and a group among
them skipped the same way.  Inside a group a field number may reach `2^31 - 1`.  Groups
nest `levels - 1` deep at most: the runtime's recursion limit is 10000, and `levels` is
one more.  `fuel` bounds the number of fields. -/
def skipGroup : ℕ → ℕ → ℕ → Bytes → Except String Bytes
  | 0, _, _, _ | _, 0, _, _ => .error decodeError
  | fuel + 1, levels + 1, num, bs => do
    let (key, rest) ← decodeVarint bs
    if key / 8 = 0 ∨ 2 ^ 31 ≤ key / 8 then .error decodeError
    else if key % 8 = 4 then
      if key / 8 = num then pure rest else .error decodeError
    else if key % 8 = 3 then do
      let rest ← skipGroup fuel levels (key / 8) rest
      skipGroup fuel (levels + 1) num rest
    else do
      let (_, rest) ← decodeValue (key % 8) rest
      skipGroup fuel (levels + 1) num rest

/-- Read one field of a message: its key, then its payload.  A group, which no message of
the repository declares, is skipped, and gives no field. -/
def decodeField (bs : Bytes) : Except String (Option Field × Bytes) := do
  let (key, rest) ← decodeVarint bs
  if ¬ValidNumber (key / 8) then .error decodeError
  else if key % 8 = 3 then do
    let rest ← skipGroup rest.length 10001 (key / 8) rest
    pure (none, rest)
  else do
    let (v, rest) ← decodeValue (key % 8) rest
    pure (some ⟨key / 8, v⟩, rest)

/-- Read fields until the input ends; `fuel` bounds the number of fields. -/
def decodeFieldsAux : ℕ → Bytes → Except String (List Field)
  | _, [] => .ok []
  | 0, _ :: _ => .error decodeError
  | fuel + 1, b :: bs => do
    let (f, rest) ← decodeField (b :: bs)
    let fs ← decodeFieldsAux fuel rest
    pure (f.toList ++ fs)

/-- The fields of an encoded message.  Every field takes at least one byte, so the
input's length is enough fuel. -/
def decodeFields (bs : Bytes) : Except String (List Field) := decodeFieldsAux bs.length bs

/-- Field number 0 and wire type 7 are refused; group 1, holding a varint, is skipped; a
varint field of eleven bytes is refused. -/
example : decodeFields [0x00, 0x00] = .error decodeError ∧
    decodeFields [0x0f] = .error decodeError ∧
    decodeFields [0x0b, 0x08, 0x01, 0x0c, 0x10, 0x02] = .ok [⟨2, .varint 2⟩] ∧
    decodeFields (0x08 :: List.replicate 10 0x80 ++ [0x00]) = .error decodeError :=
  ⟨rfl, rfl, rfl, rfl⟩

theorem WireValue.wireType_lt (v : WireValue) : v.wireType < 8 := by
  cases v <;> simp [WireValue.wireType]

theorem WireValue.wireType_ne_three (v : WireValue) : v.wireType ≠ 3 := by
  cases v <;> simp [WireValue.wireType]

theorem decodeValue_encode {v : WireValue} (hv : v.Valid) (rest : Bytes) :
    decodeValue v.wireType (v.encode ++ rest) = .ok (v, rest) := by
  cases v with
  | varint n =>
    have hn : n < 2 ^ 64 := hv
    simp only [decodeValue, WireValue.wireType, WireValue.encode, decodeVarint_encodeVarint,
      Except.ok_bind, if_pos hn]
    rfl
  | fixed64 w =>
    have hw : w.toNat % 256 ^ 8 = w.toNat := Nat.mod_eq_of_lt w.toBitVec.isLt
    have hw' : w.toNat % 18446744073709551616 = w.toNat := hw
    simp [decodeValue, WireValue.wireType, WireValue.encode, List.take_left',
      List.drop_left', leValue_leBytes, hw, hw', UInt64.toUInt64_toNat]
  | bytes b =>
    have hlen : ¬ (b ++ rest).length < b.length := by simp
    simp [decodeValue, WireValue.wireType, WireValue.encode, List.take_left',
      List.drop_left', hlen, pure, Except.pure]
  | fixed32 w =>
    have hw : w.toNat % 256 ^ 4 = w.toNat := Nat.mod_eq_of_lt w.toBitVec.isLt
    have hw' : w.toNat % 4294967296 = w.toNat := hw
    simp [decodeValue, WireValue.wireType, WireValue.encode, List.take_left',
      List.drop_left', leValue_leBytes, hw, hw', UInt32.toUInt32_toNat]

theorem decodeField_encode {f : Field} (hf : f.Valid) (rest : Bytes) :
    decodeField (f.encode ++ rest) = .ok (some f, rest) := by
  have hlt := f.val.wireType_lt
  have h3 := f.val.wireType_ne_three
  have hmod : (f.num * 8 + f.val.wireType) % 8 = f.val.wireType := by omega
  have hdiv : (f.num * 8 + f.val.wireType) / 8 = f.num := by omega
  simp only [decodeField, Field.encode, List.append_assoc, decodeVarint_encodeVarint,
    Except.ok_bind, hmod, hdiv, hf.1, not_true_eq_false, if_false, h3, decodeValue_encode hf.2]
  rfl

theorem Field.encode_ne_nil (f : Field) : f.encode ≠ [] := by
  simp [Field.encode, encodeVarint_ne_nil]

theorem le_length_encodeFields : ∀ fs : List Field, fs.length ≤ (encodeFields fs).length
  | [] => le_rfl
  | f :: fs => by
    have h1 := le_length_encodeFields fs
    have h2 : 0 < f.encode.length := List.length_pos.mpr f.encode_ne_nil
    simp only [encodeFields, List.length_cons, List.length_append]
    omega

theorem decodeFieldsAux_encodeFields :
    ∀ (fs : List Field), (∀ f ∈ fs, f.Valid) → ∀ fuel, fs.length ≤ fuel →
      decodeFieldsAux fuel (encodeFields fs) = .ok fs
  | [], _, fuel, _ => by cases fuel <;> rfl
  | f :: fs, hfs, fuel + 1, h => by
    obtain ⟨b, bs, hbs⟩ := List.exists_cons_of_ne_nil f.encode_ne_nil
    have hcons : encodeFields (f :: fs) = b :: (bs ++ encodeFields fs) := by
      simp [encodeFields, hbs]
    have hf : decodeField (b :: (bs ++ encodeFields fs)) = .ok (some f, encodeFields fs) := by
      rw [← List.cons_append, ← hbs, decodeField_encode (hfs f (List.mem_cons_self _ _))]
    simp [hcons, decodeFieldsAux, hf, pure, Except.pure,
      decodeFieldsAux_encodeFields fs (fun g hg => hfs g (List.mem_cons_of_mem _ hg)) fuel
        (by simpa using h)]

@[simp] theorem decodeFields_encodeFields {fs : List Field} (hfs : ∀ f ∈ fs, f.Valid) :
    decodeFields (encodeFields fs) = .ok fs :=
  decodeFieldsAux_encodeFields fs hfs _ (le_length_encodeFields fs)

theorem length_lt_of_readVarint :
    ∀ {bs rest : Bytes} {n : ℕ}, readVarint bs = .ok (n, rest) → rest.length < bs.length
  | [], _, _, h => by cases h
  | b :: bs, rest, n, h => by
    unfold readVarint at h
    split at h
    · cases h
      simp
    · obtain ⟨⟨n', r'⟩, h', hp⟩ := Except.bind_eq_ok.mp h
      cases hp
      have := length_lt_of_readVarint h'
      simp only [List.length_cons]
      omega

theorem length_lt_of_decodeVarint {bs rest : Bytes} {n : ℕ}
    (h : decodeVarint bs = .ok (n, rest)) : rest.length < bs.length := by
  obtain ⟨⟨n', r'⟩, h', hp⟩ := Except.bind_eq_ok.mp h
  dsimp only at hp
  split_ifs at hp
  cases hp
  exact length_lt_of_readVarint h'

/-- A payload is read from the front of the input: what is left is no longer, and a
`bytes` payload together with what is left is shorter. -/
theorem length_of_decodeValue {wt : ℕ} {bs rest : Bytes} {v : WireValue}
    (h : decodeValue wt bs = .ok (v, rest)) :
    rest.length ≤ bs.length ∧ ∀ b, v = .bytes b → b.length + rest.length < bs.length := by
  unfold decodeValue at h
  split at h
  · obtain ⟨⟨n, r⟩, hv, hp⟩ := Except.bind_eq_ok.mp h
    dsimp only at hp
    split_ifs at hp
    cases hp
    exact ⟨(length_lt_of_decodeVarint hv).le, fun b hb => by cases hb⟩
  · split at h
    · cases h
    · cases h
      exact ⟨by simp, fun b hb => by cases hb⟩
  · obtain ⟨⟨len, r⟩, hv, hp⟩ := Except.bind_eq_ok.mp h
    have hr := length_lt_of_decodeVarint hv
    by_cases hlt : r.length < len
    · simp [hlt] at hp
    · simp only [hlt, if_false, pure, Except.pure, Except.ok.injEq, Prod.mk.injEq] at hp
      obtain ⟨rfl, rfl⟩ := hp
      refine ⟨by simp only [List.length_drop]; omega, fun b hb => ?_⟩
      cases hb
      simp only [List.length_take, List.length_drop]
      omega
  · split at h
    · cases h
    · cases h
      exact ⟨by simp, fun b hb => by cases hb⟩
  · cases h

/-- Skipping a group reads at least its end tag. -/
theorem length_lt_of_skipGroup :
    ∀ {fuel levels num : ℕ} {bs rest : Bytes}, skipGroup fuel levels num bs = .ok rest →
      rest.length < bs.length
  | 0, _, _, _, _, h | _ + 1, 0, _, _, _, h => by simp [skipGroup] at h
  | fuel + 1, levels + 1, num, bs, rest, h => by
    obtain ⟨⟨key, r⟩, hk, h⟩ := Except.bind_eq_ok.mp h
    have hr := length_lt_of_decodeVarint hk
    dsimp only at h
    split_ifs at h
    · cases h
      exact hr
    · obtain ⟨r', hg, h⟩ := Except.bind_eq_ok.mp h
      have := length_lt_of_skipGroup hg
      have := length_lt_of_skipGroup h
      omega
    · obtain ⟨⟨v, r'⟩, hv, h⟩ := Except.bind_eq_ok.mp h
      dsimp only at h
      have := (length_of_decodeValue hv).1
      have := length_lt_of_skipGroup h
      omega

theorem length_of_decodeField {bs rest : Bytes} {o : Option Field}
    (h : decodeField bs = .ok (o, rest)) :
    rest.length < bs.length ∧
      ∀ f ∈ o, ∀ b, f.val = .bytes b → b.length + rest.length < bs.length := by
  obtain ⟨⟨key, r⟩, hk, h⟩ := Except.bind_eq_ok.mp h
  have h1 := length_lt_of_decodeVarint hk
  dsimp only at h
  split_ifs at h
  · obtain ⟨r', hg, hp⟩ := Except.bind_eq_ok.mp h
    cases hp
    exact ⟨(length_lt_of_skipGroup hg).trans h1, nofun⟩
  · obtain ⟨⟨v, r'⟩, hv, hp⟩ := Except.bind_eq_ok.mp h
    simp only [pure, Except.pure, Except.ok.injEq, Prod.mk.injEq] at hp
    obtain ⟨rfl, rfl⟩ := hp
    have h2 := length_of_decodeValue hv
    refine ⟨by omega, fun f hf b hb => ?_⟩
    cases hf
    have := h2.2 b hb
    omega

/-- **Every `bytes` field of a decoded message is shorter than the message.** -/
theorem length_lt_of_decodeFieldsAux :
    ∀ {fuel : ℕ} {bs : Bytes} {fs : List Field}, decodeFieldsAux fuel bs = .ok fs →
      ∀ f ∈ fs, ∀ b, f.val = .bytes b → b.length < bs.length
  | fuel, [], _, h => by
    cases fuel <;>
    · simp only [decodeFieldsAux, Except.ok.injEq] at h
      subst h
      simp
  | 0, _ :: _, _, h => by cases h
  | fuel + 1, b :: bs, fs, h => by
    obtain ⟨⟨o, rest⟩, hf, h⟩ := Except.bind_eq_ok.mp h
    obtain ⟨fs', hfs, hp⟩ := Except.bind_eq_ok.mp h
    cases hp
    have hlen := length_of_decodeField hf
    intro g hg c hc
    rcases List.mem_append.mp hg with hg | hg
    · have := hlen.2 g (Option.mem_toList.mp hg) c hc
      omega
    · have := length_lt_of_decodeFieldsAux hfs g hg c hc
      omega

/-! ### Messages -/

/-- The decoder of a message type, from the value it starts from and from how one field
updates a partly decoded message.  `proto.Unmarshal` starts from the zero value; a message
embedded in another is merged into the value the field already has. -/
def decodeMessage {α : Type} (start : α) (setField : α → Field → Except String α)
    (bs : Bytes) : Except String α := do
  let fs ← decodeFields bs
  fs.foldlM setField start

@[simp] theorem decodeMessage_encodeFields {α : Type} (start : α)
    (setField : α → Field → Except String α) {fs : List Field} (hfs : ∀ f ∈ fs, f.Valid) :
    decodeMessage start setField (encodeFields fs) = fs.foldlM setField start := by
  simp [decodeMessage, decodeFields_encodeFields hfs]

/-- The empty input decodes to the value decoding starts from: every field is absent. -/
@[simp] theorem decodeMessage_nil {α : Type} (start : α)
    (setField : α → Field → Except String α) :
    decodeMessage start setField [] = .ok start := rfl

/-- A proto3 `bytes` field: omitted when empty. -/
def bytesField (num : ℕ) (b : Bytes) : List Field :=
  if b = [] then [] else [⟨num, .bytes b⟩]

/-- A proto3 `string` field: its UTF-8 bytes, omitted when empty. -/
def stringField (num : ℕ) (s : String) : List Field := bytesField num (bytesOfString s)

/-- A field holding a message, already encoded: present exactly when the pointer is
not nil, even when the message is empty. -/
def messageField (num : ℕ) : Option Bytes → List Field
  | none => []
  | some b => [⟨num, .bytes b⟩]

/-- A proto3 `double` field, as its bit pattern: omitted when the bits are zero. -/
def fixed64Field (num : ℕ) (w : UInt64) : List Field :=
  if w = 0 then [] else [⟨num, .fixed64 w⟩]

/-- A proto3 `uint64` field: omitted when zero. -/
def uint64Field (num : ℕ) (w : UInt64) : List Field :=
  if w = 0 then [] else [⟨num, .varint w.toNat⟩]

/-- A `repeated bytes` field: one field per element, an empty element included. -/
def repeatedBytesField (num : ℕ) (bs : List Bytes) : List Field :=
  bs.map fun b => ⟨num, .bytes b⟩

section Valid

variable {num : ℕ} (hnum : ValidNumber num)
include hnum

theorem valid_of_mem_bytesField (b : Bytes) : ∀ f ∈ bytesField num b, f.Valid := by
  unfold bytesField
  split <;> simp [Field.Valid, WireValue.Valid, hnum]

theorem valid_of_mem_stringField (s : String) : ∀ f ∈ stringField num s, f.Valid :=
  valid_of_mem_bytesField hnum _

theorem valid_of_mem_messageField (o : Option Bytes) : ∀ f ∈ messageField num o, f.Valid := by
  cases o <;> simp [messageField, Field.Valid, WireValue.Valid, hnum]

theorem valid_of_mem_fixed64Field (w : UInt64) : ∀ f ∈ fixed64Field num w, f.Valid := by
  unfold fixed64Field
  split <;> simp [Field.Valid, WireValue.Valid, hnum]

theorem valid_of_mem_uint64Field (w : UInt64) : ∀ f ∈ uint64Field num w, f.Valid := by
  unfold uint64Field
  split
  · simp
  · simpa [Field.Valid, WireValue.Valid, hnum] using w.toBitVec.isLt

theorem valid_of_mem_repeatedBytesField (bs : List Bytes) :
    ∀ f ∈ repeatedBytesField num bs, f.Valid := by
  simp [repeatedBytesField, Field.Valid, WireValue.Valid, hnum]

end Valid

theorem valid_of_mem_append {fs gs : List Field} (hfs : ∀ f ∈ fs, f.Valid)
    (hgs : ∀ f ∈ gs, f.Valid) : ∀ f ∈ fs ++ gs, f.Valid := fun f hf =>
  (List.mem_append.mp hf).elim (hfs f) (hgs f)

section ReadBack

variable {α : Type} (setField : α → Field → Except String α) (num : ℕ)

/-- Reading back a `bytes` field into a message whose field still has its default. -/
theorem foldlM_bytesField (upd : α → Bytes → α)
    (hset : ∀ r b, setField r ⟨num, .bytes b⟩ = .ok (upd r b))
    (r : α) (hr : upd r [] = r) (b : Bytes) :
    (bytesField num b).foldlM setField r = .ok (upd r b) := by
  unfold bytesField
  split
  · subst b; exact congrArg _ hr.symm
  · simp [hset]

/-- Reading back a `string` field, whose setter decodes the string. -/
theorem foldlM_stringField (upd : α → String → α)
    (hset : ∀ r b, setField r ⟨num, .bytes b⟩ = (decodeString b).map (upd r))
    (r : α) (hr : upd r "" = r) (s : String) :
    (stringField num s).foldlM setField r = .ok (upd r s) := by
  unfold stringField bytesField
  split
  · rename_i h
    rw [(bytesOfString_eq_nil_iff s).mp h]
    exact congrArg _ hr.symm
  · simp [hset, Except.map]

/-- Reading back an optional message field into a message where it is still nil.  Its
setter merges the embedded message into the value the field has, here the zero value
`zero`, from which the embedded encoding decodes. -/
theorem foldlM_messageField {β : Type} (enc : β → Bytes) (merge : β → Bytes → Except String β)
    (zero : β) (hdec : ∀ m, merge zero (enc m) = .ok m) (get : α → Option β)
    (upd : α → Option β → α)
    (hset : ∀ r b, setField r ⟨num, .bytes b⟩ = (merge ((get r).getD zero) b).map
      fun m => upd r (some m))
    (r : α) (hget : get r = none) (hr : upd r none = r) (o : Option β) :
    (messageField num (o.map enc)).foldlM setField r = .ok (upd r o) := by
  cases o with
  | none => exact congrArg _ hr.symm
  | some m => simp [messageField, hset, hget, hdec, Except.map]

/-- Reading back a `double` field. -/
theorem foldlM_fixed64Field (upd : α → UInt64 → α)
    (hset : ∀ r w, setField r ⟨num, .fixed64 w⟩ = .ok (upd r w))
    (r : α) (hr : upd r 0 = r) (w : UInt64) :
    (fixed64Field num w).foldlM setField r = .ok (upd r w) := by
  unfold fixed64Field
  split
  · subst w; exact congrArg _ hr.symm
  · simp [hset]

/-- Reading back a `uint64` field. -/
theorem foldlM_uint64Field (upd : α → UInt64 → α)
    (hset : ∀ r n, setField r ⟨num, .varint n⟩ = .ok (upd r n.toUInt64))
    (r : α) (hr : upd r 0 = r) (w : UInt64) :
    (uint64Field num w).foldlM setField r = .ok (upd r w) := by
  unfold uint64Field
  split
  · subst w; exact congrArg _ hr.symm
  · simp [hset, UInt64.toUInt64_toNat]

/-- Reading back a `repeated bytes` field: each element in turn, in order. -/
theorem foldlM_repeatedBytesField (app : α → Bytes → α)
    (hset : ∀ r b, setField r ⟨num, .bytes b⟩ = .ok (app r b)) :
    ∀ (r : α) (bs : List Bytes),
      (repeatedBytesField num bs).foldlM setField r = .ok (bs.foldl app r)
  | _, [] => rfl
  | r, b :: bs => by
    simp only [repeatedBytesField, List.map_cons, List.foldlM_cons, hset, Except.ok_bind,
      List.foldl_cons]
    exact foldlM_repeatedBytesField app hset _ bs

end ReadBack

end Loopix
