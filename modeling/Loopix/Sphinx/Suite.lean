import Loopix.Sphinx.Messages

/-!
# The primitives of the Sphinx core

`sphinx.go` calls primitives defined in files of its package that are not in the
sources: Curve25519 arithmetic on 32-byte field elements, the key derivation
function `KDF`, the stream cipher `AesCtr` and the MAC `computeMac`; it also reads
the flag constants of the `flags` package.  A `Suite` bundles them, together with
the laws the proofs use and nothing more:

* decoding the bytes of a field element gives it back, and those bytes are 32;
* two scalar multiplications commute (the only fact about X25519 that Sphinx needs);
* the relay flag and the last-hop flag differ.

The stream cipher is not abstract: AES-CTR XORs its input with a keystream, and what a
tampered payload becomes (`Suite.relayRun_tampered`) depends on exactly that, so a suite
supplies the keystream and `aesCtr` is defined from it.  Every theorem of the development
holds for every suite.

## Main definitions

* `Suite` — the primitives and their laws.
* `Suite.aesCtr`, `Suite.expo`, `Suite.expoGroupBase`, `Suite.publicKey` — the
  missing helpers, modelled from the spec.
* `Suite.computeSharedSecretHash`, `Suite.computeBlindingFactor` — from `sphinx.go`.

## Main results

* `Suite.aesCtr_aesCtr` — decrypting with `aesCtr` undoes encrypting with it.
* `Suite.scalarMult_expo` — a scalar multiplication commutes with a whole chain.
-/

namespace Loopix

/-- The primitives the Sphinx core calls, and the laws its proofs rely on. -/
structure Suite where
  /-- `FieldElement`: a 32-byte Curve25519 value, used for scalars and points alike. -/
  FieldElement : Type
  /-- `curve25519.ScalarMult(dst, scalar, point)`. -/
  scalarMult : FieldElement → FieldElement → FieldElement
  /-- The group's base point. -/
  basePoint : FieldElement
  /-- `FieldElement.Bytes()`. -/
  bytes : FieldElement → Bytes
  /-- `BytesToFieldElement`. -/
  bytesToFieldElement : Bytes → FieldElement
  /-- `KDF`: a shared secret to a symmetric key. -/
  kdf : Bytes → Except String Bytes
  /-- `computeMac(key, data)`. -/
  computeMac : Bytes → Bytes → Except String Bytes
  /-- The AES-CTR keystream of a key under an IV, by position. -/
  keyStream : Bytes → Bytes → ℕ → UInt8
  /-- The fixed IV of `AesCtr`. -/
  aesCtrIV : Bytes
  /-- `flags.RelayFlag.Bytes()`. -/
  relayFlag : Bytes
  /-- `flags.LastHopFlag.Bytes()`. -/
  lastHopFlag : Bytes
  bytesToFieldElement_bytes : ∀ e, bytesToFieldElement (bytes e) = e
  length_bytes : ∀ e, (bytes e).length = 32
  scalarMult_comm : ∀ a b p, scalarMult a (scalarMult b p) = scalarMult b (scalarMult a p)
  relayFlag_ne_lastHopFlag : relayFlag ≠ lastHopFlag

/-- Modelled from the spec: `PublicKeySize`, the length of a Curve25519 public key. -/
def PublicKeySize : ℕ := 32

/-- `aes.NewCipher(key)`: AES takes 16-, 24- or 32-byte keys. -/
def aesNewCipher (key : Bytes) : Except String Unit :=
  if key.length = 16 ∨ key.length = 24 ∨ key.length = 32 then .ok ()
  else .error ("crypto/aes: invalid key size " ++ toString key.length)

/-- The IV `computeBlindingFactor` passes to `computeSharedSecretHash`. -/
def blindingIV : Bytes := bytesOfString "initialvector000"

/-- The plaintext `computeSharedSecretHash` encrypts. -/
def sharedSecretHashPlaintext : Bytes := bytesOfString "0000000000000000"

@[simp] theorem length_blindingIV : blindingIV.length = 16 := rfl

namespace Suite

variable (S : Suite)

attribute [simp] bytesToFieldElement_bytes length_bytes

/-- Modelled from the spec: `AesCtr(key, input)` — AES-CTR under the fixed IV, which
fails only when the key is not an AES key. -/
def aesCtr (key input : Bytes) : Except String Bytes := do
  aesNewCipher key
  pure (xorKeyStream (S.keyStream key S.aesCtrIV) 0 input)

/-- `computeSharedSecretHash(key, iv)`: the first block of the AES-CTR keystream of
`key` under `iv`, XORed with the sixteen bytes `"0000000000000000"`.  `cipher.NewCTR`
panics on an IV that is not one block long. -/
def computeSharedSecretHash (key iv : Bytes) : Go Bytes := do
  Go.ofErr (aesNewCipher key)
  if iv.length ≠ 16 then throw (.panic "cipher.NewCTR: IV length must equal block size")
  pure (xorKeyStream (S.keyStream key iv) 0 sharedSecretHashPlaintext)

/-- `computeBlindingFactor(key)`: the blinding factor derived from a shared secret's
hash. -/
def computeBlindingFactor (key : Bytes) : Go S.FieldElement := do
  let blinderBytes ← S.computeSharedSecretHash key blindingIV
  pure (S.bytesToFieldElement blinderBytes)

/-- Modelled from the spec: `expo(point, [s1, ..., sn])` is `((point·s1)·s2)…·sn`,
the scalars applied one at a time, in list order. -/
def expo (point : S.FieldElement) : List S.FieldElement → S.FieldElement
  | [] => point
  | s :: ss => expo (S.scalarMult s point) ss

/-- Modelled from the spec: `expoGroupBase(exps)` is `expo` from the base point. -/
def expoGroupBase (exps : List S.FieldElement) : S.FieldElement := S.expo S.basePoint exps

/-- Modelled from the spec: the bytes of the public key of a private key, its scalar
times the base point. -/
def publicKey (priv : S.FieldElement) : Bytes := S.bytes (S.scalarMult priv S.basePoint)

@[simp] theorem expo_nil (p : S.FieldElement) : S.expo p [] = p := rfl

@[simp] theorem expo_cons (p s : S.FieldElement) (ss : List S.FieldElement) :
    S.expo p (s :: ss) = S.expo (S.scalarMult s p) ss := rfl

/-- Appending a scalar to the chain multiplies the result by it. -/
theorem expo_append_singleton (p s : S.FieldElement) (ss : List S.FieldElement) :
    S.expo p (ss ++ [s]) = S.scalarMult s (S.expo p ss) := by
  induction ss generalizing p <;> simp [*]

/-- A scalar multiplication commutes with a whole chain: this is how the relay's
`priv · alpha` meets the sender's `expo(pub, blinders)`. -/
theorem scalarMult_expo (q p : S.FieldElement) (ss : List S.FieldElement) :
    S.scalarMult q (S.expo p ss) = S.expo (S.scalarMult q p) ss := by
  induction ss generalizing p with
  | nil => rfl
  | cons s ss ih => rw [expo_cons, ih, expo_cons, S.scalarMult_comm]

@[simp] theorem length_publicKey (priv : S.FieldElement) : (S.publicKey priv).length = 32 :=
  S.length_bytes _

/-! ### The stream cipher -/

theorem aesCtr_eq_ok {key input out : Bytes} :
    S.aesCtr key input = .ok out ↔
      aesNewCipher key = .ok () ∧ out = xorKeyStream (S.keyStream key S.aesCtrIV) 0 input := by
  unfold aesCtr
  cases h : aesNewCipher key <;> simp [pure, Except.pure, eq_comm]

/-- **Decrypting undoes encrypting**: `AesCtr` is its own inverse under a key it
accepted once. -/
theorem aesCtr_aesCtr {key input out : Bytes} (h : S.aesCtr key input = .ok out) :
    S.aesCtr key out = .ok input := by
  obtain ⟨hk, rfl⟩ := S.aesCtr_eq_ok.mp h
  exact S.aesCtr_eq_ok.mpr ⟨hk, by simp⟩

/-- `AesCtr` preserves lengths. -/
theorem length_aesCtr {key input out : Bytes} (h : S.aesCtr key input = .ok out) :
    out.length = input.length := by
  obtain ⟨-, rfl⟩ := S.aesCtr_eq_ok.mp h
  simp

/-- A key `AesCtr` accepted once, it accepts for every input. -/
theorem aesCtr_of_ok {key input out : Bytes} (h : S.aesCtr key input = .ok out)
    (input' : Bytes) :
    S.aesCtr key input' = .ok (xorKeyStream (S.keyStream key S.aesCtrIV) 0 input') :=
  S.aesCtr_eq_ok.mpr ⟨(S.aesCtr_eq_ok.mp h).1, rfl⟩

/-- `computeSharedSecretHash` under one of the literal IVs of the source never panics. -/
theorem computeSharedSecretHash_eq (key iv : Bytes) (hiv : iv.length = 16) :
    S.computeSharedSecretHash key iv =
      Go.ofErr ((aesNewCipher key).map
        fun _ => xorKeyStream (S.keyStream key iv) 0 sharedSecretHashPlaintext) := by
  unfold computeSharedSecretHash
  cases aesNewCipher key <;> simp [hiv, Except.map, Go.ofErr, pure, Except.pure]

/-- `computeBlindingFactor` succeeds on every key AES accepts. -/
theorem computeBlindingFactor_of_aesNewCipher {key : Bytes} (h : aesNewCipher key = .ok ()) :
    S.computeBlindingFactor key = .ok (S.bytesToFieldElement
      (xorKeyStream (S.keyStream key blindingIV) 0 sharedSecretHashPlaintext)) := by
  rw [computeBlindingFactor, S.computeSharedSecretHash_eq key blindingIV length_blindingIV, h]
  rfl

/-- `computeBlindingFactor` fails only with an error. -/
theorem computeBlindingFactor_eq_error {key : Bytes} {e : GoError}
    (h : S.computeBlindingFactor key = .error e) : ∃ msg, e = .error msg := by
  rw [computeBlindingFactor, S.computeSharedSecretHash_eq key blindingIV length_blindingIV] at h
  cases hk : aesNewCipher key with
  | ok => simp [hk, Except.map] at h
  | error msg =>
    simp only [hk, Except.map, Go.ofErr_error, Except.error_bind, Except.error.injEq] at h
    exact ⟨msg, h.symm⟩

/-- `computeBlindingFactor` never panics. -/
theorem isPanic_computeBlindingFactor (key : Bytes) :
    (S.computeBlindingFactor key).isPanic = false := by
  unfold computeBlindingFactor
  rw [S.computeSharedSecretHash_eq key blindingIV length_blindingIV]
  cases aesNewCipher key <;> rfl

end Suite

end Loopix
