import Loopix.Sphinx.Suite
import Mathlib.Data.ZMod.Defs

/-!
# A suite small enough to evaluate

The theorems of the development hold for every `Suite`.  To run the model on concrete
inputs (the witnesses of the theorems with hypotheses, and the counterexamples) it
needs one suite whose primitives compute.  `toySuite` is such a suite: its field
elements are the integers modulo `2 ^ 256` in 32 little-endian bytes, "scalar
multiplication" is multiplication (commutative, as X25519's is), and the key
derivation, keystream and MAC are cheap arithmetic on the value of their input.
It is a stand-in for evaluation, not a cipher.
-/

namespace Loopix

/-- The toy field elements: integers modulo `2 ^ 256`. -/
abbrev ToyElement := Fin (2 ^ 256)

/-- The toy encoding of a field element: its 32 little-endian bytes. -/
def toyBytes (e : ToyElement) : Bytes := leBytes 32 e.val

/-- The toy decoding: the value of the bytes, modulo `2 ^ 256`. -/
def toyDecode (b : Bytes) : ToyElement :=
  ⟨leValue b % 2 ^ 256, Nat.mod_lt _ (Nat.two_pow_pos 256)⟩

theorem toyDecode_toyBytes (e : ToyElement) : toyDecode (toyBytes e) = e := by
  have h : (256 : ℕ) ^ 32 = 2 ^ 256 := by decide
  apply Fin.ext
  simp [toyDecode, toyBytes, leValue_leBytes, h, Nat.mod_eq_of_lt e.isLt]

/-- A suite whose primitives compute. -/
def toySuite : Suite where
  FieldElement := ToyElement
  scalarMult a p := a * p
  basePoint := 9
  bytes := toyBytes
  bytesToFieldElement := toyDecode
  kdf b := .ok (leBytes 32 (5 * leValue b + 1))
  computeMac key data := .ok (leBytes 32 (leValue key + 3 * leValue data))
  keyStream key iv i := ((leValue key + leValue iv + 7 * i) % 256).toUInt8
  aesCtrIV := bytesOfString "0000000000000000"
  relayFlag := [1]
  lastHopFlag := [2]
  bytesToFieldElement_bytes := toyDecode_toyBytes
  length_bytes _ := length_leBytes 32 _
  scalarMult_comm := mul_left_comm
  relayFlag_ne_lastHopFlag := by decide

/-- A path of the toy suite: an ingress provider, one mix and an egress provider with
the private keys `3`, `11` and `5`, and a recipient. -/
def toyPath : E2EPath where
  ingressProvider :=
    { id := "Ingress", host := "10.0.0.1", port := "9000",
      pubKey := toySuite.publicKey (3 : ToyElement) }
  mixes :=
    [{ id := "Mix", host := "10.0.0.2", port := "9001",
       pubKey := toySuite.publicKey (11 : ToyElement) }]
  egressProvider :=
    { id := "Egress", host := "10.0.0.3", port := "9002",
      pubKey := toySuite.publicKey (5 : ToyElement) }
  recipient :=
    { id := "Recipient", host := "10.0.0.4", port := "9003",
      pubKey := toySuite.publicKey (13 : ToyElement) }

/-- The private keys of `toyPath`'s nodes, in path order. -/
def toyPrivs : List ToyElement := [3, 11, 5]

/-- A message: the bytes of `"hello"`. -/
def toyMessage : Bytes := bytesOfString "hello"

end Loopix
