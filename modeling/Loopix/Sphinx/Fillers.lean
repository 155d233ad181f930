import Loopix.Sphinx.ToySuite

/-!
# The fillers of `computeFillers`

A Sphinx sender appends a *filler* to the routing information so that each relay,
after it strips its own layer, still sees a header of one length.  `sphinx.go` has a
function for it, `computeFillers`, marked `TODO: computeFillers needs to be fixed`;
no function of the sources calls it.

Its loop makes one round `i` per node after the first.  A round appends `K` zero bytes
to the filler, puts `minLen` zero bytes in front, encrypts the whole with `AesCtr`
under the key `computeSharedSecretHash(tuples[i-1].SecretHash, "hrhohrhohrhohrho")`,
and keeps what follows the first `minLen` bytes.  `minLen` starts at
`headerLength - 32 = 160` and shrinks by `K = 16` a round, so round `i` encrypts
at keystream offset `headerLength - K - K·i`, and in round 12 it is negative.

## Main definitions

* `Suite.computeFillersLoop`, `Suite.computeFillers` — the code.
* `Suite.fillerKeyStream` — the keystream of round `i`.
* `fillerByte` — a byte of the filler in closed form.

## Main results

* `Suite.computeFillers_eq_ok` — **up to 12 nodes, the filler has `K` bytes per node
  after the first, and byte `j` is the XOR, over the rounds `i` from `j / K + 1` on, of
  byte `headerLength - K - K·i + j` of round `i`'s keystream.**
* `Suite.computeFillers_negative_repeat` — **from 13 nodes, `computeFillers` panics in
  `strings.Repeat`.**
-/

namespace Loopix

/-- `K`, the padding quantum of `sphinx.go`. -/
def K : ℕ := 16

/-- `headerLength`. -/
def headerLength : ℕ := 192

/-- The IV `computeFillers` passes to `computeSharedSecretHash`. -/
def fillerIV : Bytes := bytesOfString "hrhohrhohrhohrho"

@[simp] theorem length_fillerIV : fillerIV.length = 16 := rfl

/-- Byte `j` of the filler after `m` rounds, in closed form: every round `i` from the
first that reaches byte `j` (round `j / K + 1`) to round `m` XORs in byte
`headerLength - K - K·i + j` of its keystream `ks i`. -/
def fillerByte (ks : ℕ → ℕ → UInt8) (m j : ℕ) : UInt8 :=
  ((List.range' (j / K + 1) (m - j / K)).map fun i => ks i (headerLength - K - K * i + j)).foldl
    (· ^^^ ·) 0

/-- Before round `m + 1`, no round has reached the bytes it appends. -/
theorem fillerByte_of_le (ks : ℕ → ℕ → UInt8) {m j : ℕ} (hj : K * m ≤ j) :
    fillerByte ks m j = 0 := by
  have : m - j / K = 0 := by unfold K at *; omega
  simp [fillerByte, this]

/-- Round `m + 1` XORs its keystream byte into every byte it covers. -/
theorem fillerByte_succ (ks : ℕ → ℕ → UInt8) {m j : ℕ} (hj : j < K * (m + 1)) :
    fillerByte ks (m + 1) j =
      fillerByte ks m j ^^^ ks (m + 1) (headerLength - K - K * (m + 1) + j) := by
  have hlen : m + 1 - j / K = m - j / K + 1 := by unfold K at *; omega
  have hlast : j / K + 1 + 1 * (m - j / K) = m + 1 := by unfold K at *; omega
  rw [fillerByte, hlen, List.range'_concat, hlast, List.map_append, List.foldl_append]
  rfl

namespace Suite

variable (S : Suite)

/-! ### The code -/

/-- The loop of `computeFillers` over the rounds it has left, with `minLen` and the
filler as the earlier rounds left them.  `BytesToString` is Go's `string(b)`, which
keeps the bytes. -/
def computeFillersLoop (tuples : List HeaderInitials) : List ℕ → ℤ → Bytes → Go Bytes
  | [], _, filler => pure filler
  | i :: rounds, minLen, filler => do
    let base := filler ++ (← stringsRepeat 0 K)
    let tuple ← goIndex tuples (i - 1)
    let kx ← S.computeSharedSecretHash tuple.secretHash fillerIV
    let mx := (← stringsRepeat 0 minLen) ++ base
    let xorVal ← Go.ofErr (S.aesCtr kx mx)
    let filler ← goSliceFrom xorVal minLen
    computeFillersLoop tuples rounds (minLen - K) filler

/-- `computeFillers(nodes, tuples)`: rounds `1` to `len(nodes) - 1`, from the empty
filler and `minLen = headerLength - 32`. -/
def computeFillers (nodes : List MixConfig) (tuples : List HeaderInitials) : Go Bytes :=
  S.computeFillersLoop tuples (List.range' 1 (nodes.length - 1)) (headerLength - 32) []

/-! ### One round -/

/-- The keystream of round `i`: AES-CTR under the key `computeSharedSecretHash` derives
from the secret hash of `tuples[i-1]` and the IV `"hrhohrhohrhohrho"`. -/
def fillerKeyStream (tuples : List HeaderInitials) (i : ℕ) : ℕ → UInt8 :=
  S.keyStream
    (xorKeyStream (S.keyStream (tuples.getD (i - 1) {}).secretHash fillerIV) 0
      sharedSecretHashPlaintext)
    S.aesCtrIV

/-- Round `i` on the filler, when its calls succeed: the filler and `K` zero bytes,
XORed with round `i`'s keystream from offset `headerLength - K - K·i`. -/
def fillerRound (tuples : List HeaderInitials) (filler : Bytes) (i : ℕ) : Bytes :=
  xorKeyStream (S.fillerKeyStream tuples i) (headerLength - K - K * i)
    (filler ++ List.replicate K 0)

/-- Dropping the encryption of a prefix leaves the rest, encrypted from where the prefix
stopped. -/
theorem goSliceFrom_xorKeyStream (ks : ℕ → UInt8) (pre rest : Bytes) :
    goSliceFrom (xorKeyStream ks 0 (pre ++ rest)) pre.length =
      .ok (xorKeyStream ks pre.length rest) := by
  rw [xorKeyStream_append]
  simpa using goSliceFrom_append (xorKeyStream ks 0 pre) (xorKeyStream ks (0 + pre.length) rest)

/-- The key `computeSharedSecretHash` returns, one AES block, is a key `AesCtr` accepts. -/
theorem aesNewCipher_sharedSecretHash (ks : ℕ → UInt8) :
    aesNewCipher (xorKeyStream ks 0 sharedSecretHashPlaintext) = .ok () := by
  rw [aesNewCipher, length_xorKeyStream]
  rfl

/-- A round whose tuple is there, with a secret hash AES accepts, and whose `minLen`
is not negative, is `fillerRound`. -/
theorem computeFillersLoop_cons {tuples : List HeaderInitials} {i : ℕ} {t : HeaderInitials}
    (ht : tuples[i - 1]? = some t) (hkey : aesNewCipher t.secretHash = .ok ())
    (hi : K * i ≤ headerLength - K) (rounds : List ℕ) (filler : Bytes) :
    S.computeFillersLoop tuples (i :: rounds) (headerLength - K - K * i) filler =
      S.computeFillersLoop tuples rounds (headerLength - K - K * (i + 1 : ℕ))
        (S.fillerRound tuples filler i) := by
  have hmin : ((headerLength - K - K * i : ℕ) : ℤ) = headerLength - K - K * i := by
    simp only [headerLength, K] at hi ⊢
    omega
  have hslice := goSliceFrom_xorKeyStream (S.fillerKeyStream tuples i)
    (List.replicate (headerLength - K - K * i) 0) (filler ++ List.replicate K 0)
  rw [List.length_replicate, fillerKeyStream, List.getD_eq_getElem?_getD, ht,
    Option.getD_some] at hslice
  rw [computeFillersLoop, ← hmin]
  simp only [stringsRepeat_natCast, Except.ok_bind, goIndex, ht,
    S.computeSharedSecretHash_eq _ _ length_fillerIV, hkey, Except.map, Go.ofErr_ok, aesCtr,
    aesNewCipher_sharedSecretHash]
  dsimp only [bind, Except.bind, pure, Except.pure, Go.ofErr]
  have hnext : (headerLength - K - K * i - K : ℤ) = headerLength - K - K * (i + 1 : ℕ) := by
    simp only [headerLength, K]
    omega
  rw [hslice, hmin]
  dsimp only
  rw [hnext, fillerRound, fillerKeyStream, List.getD_eq_getElem?_getD, ht, Option.getD_some]

/-! ### Every round -/

/-- Rounds `a` to `a + r - 1` whose tuples are there, with secret hashes AES accepts, and
whose `minLen` stays non-negative, run `fillerRound` one after the other; the rounds after
them start from the filler they leave. -/
theorem computeFillersLoop_range'_append (tuples : List HeaderInitials) :
    ∀ (r a : ℕ) (filler : Bytes) (rest : List ℕ),
      (∀ i, a ≤ i → i < a + r →
        ∃ t, tuples[i - 1]? = some t ∧ aesNewCipher t.secretHash = .ok ()) →
      K * (a + r - 1) ≤ headerLength - K →
      S.computeFillersLoop tuples (List.range' a r ++ rest) (headerLength - K - K * a) filler =
        S.computeFillersLoop tuples rest (headerLength - K - K * (a + r : ℕ))
          ((List.range' a r).foldl (S.fillerRound tuples) filler)
  | 0, _, _, _, _, _ => rfl
  | r + 1, a, filler, rest, htuples, hlast => by
    obtain ⟨t, ht, hkey⟩ := htuples a le_rfl (by omega)
    have ha : K * a ≤ headerLength - K := le_trans (Nat.mul_le_mul_left K (by omega)) hlast
    rw [List.range'_succ, List.cons_append, S.computeFillersLoop_cons ht hkey ha, List.foldl_cons,
      computeFillersLoop_range'_append tuples r (a + 1) _ rest
        (fun i hi hi' => htuples i (by omega) (by omega)) (by rwa [Nat.add_right_comm]),
      show a + 1 + r = a + (r + 1) by omega]

/-- The rounds from the empty filler, in closed form: after `m` rounds the filler has
`K·m` bytes, byte `j` of which is `fillerByte`. -/
theorem foldl_fillerRound (tuples : List HeaderInitials) :
    ∀ m, (List.range' 1 m).foldl (S.fillerRound tuples) [] =
      (List.range (K * m)).map (fillerByte (S.fillerKeyStream tuples) m)
  | 0 => rfl
  | m + 1 => by
    rw [List.range'_concat, List.foldl_append, foldl_fillerRound tuples m, List.foldl_cons,
      List.foldl_nil, fillerRound, show 1 + 1 * m = m + 1 by omega]
    refine List.ext_getElem? fun j => ?_
    rw [getElem?_xorKeyStream, List.getElem?_map]
    rcases lt_or_le j (K * (m + 1)) with hj | hj
    · rw [List.getElem?_range hj, Option.map_some', fillerByte_succ _ hj]
      rcases lt_or_le j (K * m) with hjm | hjm
      · rw [List.getElem?_append_left (by simpa using hjm), List.getElem?_map,
          List.getElem?_range hjm]
        rfl
      · rw [List.getElem?_append_right (by simpa using hjm), List.getElem?_replicate,
          if_pos (by simp only [List.length_map, List.length_range]; unfold K at *; omega),
          fillerByte_of_le _ hjm]
        rfl
    · rw [List.getElem?_eq_none (by simpa using hj), List.getElem?_eq_none (by
        simp only [List.length_append, List.length_map, List.length_range,
          List.length_replicate]; unfold K at *; omega)]
      rfl

/-- **What `computeFillers` returns.**  For at most 12 nodes, given a tuple with a secret
hash AES accepts for each round, `computeFillers` succeeds with a filler of `K` bytes per
node after the first, byte `j` of which is the XOR, over the rounds `i` from `j / K + 1`
to `len(nodes) - 1`, of byte `headerLength - K - K·i + j` of round `i`'s keystream. -/
theorem computeFillers_eq_ok {nodes : List MixConfig} {tuples : List HeaderInitials}
    (hnodes : nodes.length ≤ 12)
    (htuples : ∀ i < nodes.length - 1,
      ∃ t, tuples[i]? = some t ∧ aesNewCipher t.secretHash = .ok ()) :
    S.computeFillers nodes tuples =
      .ok ((List.range (K * (nodes.length - 1))).map
        (fillerByte (S.fillerKeyStream tuples) (nodes.length - 1))) := by
  have hstart : (headerLength - 32 : ℤ) = headerLength - K - K * (1 : ℕ) := rfl
  rw [computeFillers, hstart, ← List.append_nil (List.range' 1 _),
    S.computeFillersLoop_range'_append tuples _ 1 [] []
      (fun i hi hi' => by simpa using htuples (i - 1) (by omega))
      (by simp only [headerLength, K]; omega),
    ← foldl_fillerRound]
  rfl

theorem computeFillers_eq_ok_toy :
    toySuite.computeFillers [{}, {}] [{ secretHash := List.replicate 16 0 }] =
      .ok ((List.range (K * 1)).map
        (fillerByte (toySuite.fillerKeyStream [{ secretHash := List.replicate 16 0 }]) 1)) :=
  computeFillers_eq_ok toySuite (by decide) fun i hi => by
    obtain rfl : i = 0 := by simpa using hi
    exact ⟨_, rfl, rfl⟩

/-- **From 13 nodes, `computeFillers` panics.**  Given tuples with secret hashes AES
accepts for the first twelve rounds, round 12 finds `minLen` negative, and
`strings.Repeat` panics. -/
theorem computeFillers_negative_repeat {nodes : List MixConfig} {tuples : List HeaderInitials}
    (hnodes : 13 ≤ nodes.length)
    (htuples : ∀ i < 12, ∃ t, tuples[i]? = some t ∧ aesNewCipher t.secretHash = .ok ()) :
    S.computeFillers nodes tuples = .error (.panic "strings: negative Repeat count") := by
  have hstart : (headerLength - 32 : ℤ) = headerLength - K - K * (1 : ℕ) := rfl
  have hrounds : List.range' 1 (nodes.length - 1) =
      List.range' 1 11 ++ 12 :: List.range' 13 (nodes.length - 13) := by
    rw [← List.range'_succ 12 _ 1, List.range'_append 1 11 _ 1]
    congr 1
    omega
  obtain ⟨t, ht, hkey⟩ := htuples 11 (by omega)
  rw [computeFillers, hstart, hrounds, S.computeFillersLoop_range'_append tuples 11 1 []
      _ (fun i hi hi' => by simpa using htuples (i - 1) (by omega)) le_rfl]
  simp [computeFillersLoop, goIndex, ht, S.computeSharedSecretHash_eq _ _ length_fillerIV, hkey,
    Except.map, stringsRepeat, headerLength, K]

theorem computeFillers_negative_repeat_toy :
    toySuite.computeFillers (List.replicate 13 {})
        (List.replicate 12 { secretHash := List.replicate 16 0 }) =
      .error (.panic "strings: negative Repeat count") :=
  computeFillers_negative_repeat toySuite (by decide) fun i hi =>
    ⟨_, List.getElem?_replicate_of_lt hi, rfl⟩

end Suite

end Loopix
