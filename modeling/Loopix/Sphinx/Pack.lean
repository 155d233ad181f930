import Loopix.Sphinx.Header

/-!
# Packing a message

`PackForwardMessage` lines up the nodes of a path (the ingress provider, the mixes,
the egress provider), has `createHeader` build the header for them and
`encapsulateContent` the payload.  This module says what the two return: which inputs
make them fail, which make them panic, and which header they build.

Nothing compares the number of delays with the number of nodes: the commands loop
of `createHeader` reads `delays[i]` for every node, so short delays panic and extra
ones are ignored.  The only check on the nodes is the length of their keys, inside
`getSharedSecrets`.

## Main definitions

* `E2EPath.nodes`, `Suite.packForwardMessage` — the code.
* `Suite.pathCommands` — the commands §4.4 gives a path: each node's delay, and the
  relay flag on all nodes but the last.
* `Suite.SymmetricTotal` — the key derivation and the MAC never fail.

## Main results

* `Suite.createHeader_eq_ok` — what a successful `createHeader` computed.
* `Suite.createHeader_eq_ok_iff_specHeader` — from two nodes on, `createHeader` succeeds
  exactly when its inputs allow, and the header is the §4.4 onion.
* `Suite.createHeader_single_beta` — on one node it is not: its `Beta` is empty.
* `Suite.packForwardMessage_outcome` — when `PackForwardMessage` errs, panics, or
  returns a packet.
-/

namespace Loopix

/-- The nodes a packet traverses: `[IngressProvider] ++ Mixes ++ [EgressProvider]`. -/
def E2EPath.nodes (path : E2EPath) : List MixConfig :=
  [path.ingressProvider] ++ path.mixes ++ [path.egressProvider]

@[simp] theorem E2EPath.length_nodes (path : E2EPath) :
    path.nodes.length = path.mixes.length + 2 := by
  simp [E2EPath.nodes]

namespace Suite

variable (S : Suite)

/-- `PackForwardMessage(path, delays, message)`; `random` is the outcome of the
`RandomElement()` call inside `createHeader`. -/
def packForwardMessage (path : E2EPath) (delays : List UInt64) (message : Bytes)
    (random : Except String S.FieldElement) : Go SphinxPacket := do
  let (headerInitials, header) ← S.createHeader path.nodes delays path.recipient random
  let payload ← S.encapsulateContent headerInitials message
  pure { hdr := some header, pld := payload }

/-- The commands of a path of `n` nodes in §4.4: the `i`-th delay, with the last-hop
flag on the last node and the relay flag on the others. -/
def pathCommands (delays : List UInt64) (n : ℕ) : List Commands :=
  (List.range n).map fun i =>
    { delay := delays.getD i 0, flag := if i = n - 1 then S.lastHopFlag else S.relayFlag }

/-- The symmetric primitives never fail: `KDF` always returns a key that AES accepts,
and `computeMac` always returns a MAC. -/
def SymmetricTotal : Prop :=
  (∀ b, ∃ k, S.kdf b = .ok k ∧ aesNewCipher k = .ok ()) ∧
    ∀ k d, ∃ m, S.computeMac k d = .ok m

@[simp] theorem length_pathCommands (delays : List UInt64) (n : ℕ) :
    (S.pathCommands delays n).length = n := by
  simp [pathCommands]

/-- The last command of a path's commands carries the last-hop flag. -/
theorem getLast?_pathCommands (delays : List UInt64) {n : ℕ} (hn : 1 ≤ n) :
    (S.pathCommands delays n).getLast? =
      some { delay := delays.getD (n - 1) 0, flag := S.lastHopFlag } := by
  rw [pathCommands, show n = n - 1 + 1 by omega, List.range_succ, List.map_append]
  simp

/-! ### The key schedule -/

/-- `getSharedSecrets` fails only with an error: it neither panics nor stops the process. -/
theorem getSharedSecretsLoop_eq_error :
    ∀ {bf : List S.FieldElement} {i : ℕ} {nodes : List MixConfig} {e : GoError},
      S.getSharedSecretsLoop bf i nodes = .error e → ∃ msg, e = .error msg
  | _, _, [], _, h => by cases h
  | bf, i, n :: nodes, e, h => by
    simp only [getSharedSecretsLoop] at h
    split at h
    · simp only [throw, throwThe, MonadExceptOf.throw, Except.error_bind,
        Except.error.injEq] at h
      exact ⟨_, h.symm⟩
    rw [pure_bind] at h
    rcases Except.bind_eq_error.mp h with h | ⟨aesS, -, h⟩
    · exact Go.ofErr_eq_error h
    rcases Except.bind_eq_error.mp h with h | ⟨_, -, h⟩
    · exact S.computeBlindingFactor_eq_error h
    rcases Except.bind_eq_error.mp h with h | ⟨_, -, h⟩
    · exact getSharedSecretsLoop_eq_error h
    · cases h

/-- A key schedule that succeeded saw only keys of the right length. -/
theorem length_pubKey_of_getSharedSecretsLoop :
    ∀ {bf : List S.FieldElement} {i : ℕ} {nodes : List MixConfig} {T : List HeaderInitials},
      S.getSharedSecretsLoop bf i nodes = .ok T → ∀ n ∈ nodes, n.pubKey.length = PublicKeySize
  | _, _, [], _, _ => by simp
  | _, _, _ :: _, _, h => by
    obtain ⟨_, _, _, hlen, -, -, ht, -⟩ := S.getSharedSecretsLoop_cons_eq_ok.mp h
    simpa [hlen] using length_pubKey_of_getSharedSecretsLoop ht

/-- With total primitives, the key schedule succeeds on keys of the right length. -/
theorem getSharedSecretsLoop_ok (htot : S.SymmetricTotal) :
    ∀ (bf : List S.FieldElement) (i : ℕ) (nodes : List MixConfig),
      (∀ n ∈ nodes, n.pubKey.length = PublicKeySize) →
        ∃ T, S.getSharedSecretsLoop bf i nodes = .ok T
  | _, _, [], _ => ⟨[], rfl⟩
  | bf, i, n :: nodes, hkeys => by
    rw [List.forall_mem_cons] at hkeys
    obtain ⟨aesS, haesS, hcipher⟩ :=
      htot.1 (S.bytes (S.expo (S.bytesToFieldElement n.pubKey) bf))
    obtain ⟨tuples, ht⟩ := getSharedSecretsLoop_ok htot _ (i + 1) nodes hkeys.2
    exact ⟨_, S.getSharedSecretsLoop_cons_eq_ok.mpr
      ⟨aesS, _, tuples, hkeys.1, haesS, S.computeBlindingFactor_of_aesNewCipher hcipher, ht,
        rfl⟩⟩

/-! ### The commands loop -/

theorem nodeCommand_of_lt {delays : List UInt64} {n i : ℕ} (h : i < delays.length) :
    S.nodeCommand delays n i = .ok
      { delay := delays.getD i 0, flag := if i = n - 1 then S.lastHopFlag else S.relayFlag } := by
  rw [nodeCommand, goIndex_eq_getD 0 h, Except.ok_bind]
  split <;> rfl

/-- The commands loop over indices within `delays` builds their commands. -/
theorem mapM_nodeCommand_of_lt (delays : List UInt64) (n : ℕ) :
    ∀ l : List ℕ, (∀ i ∈ l, i < delays.length) →
      l.mapM (S.nodeCommand delays n) = .ok (l.map fun i =>
        { delay := delays.getD i 0, flag := if i = n - 1 then S.lastHopFlag else S.relayFlag })
  | [], _ => rfl
  | i :: l, h => by
    rw [List.forall_mem_cons] at h
    rw [List.mapM_cons, S.nodeCommand_of_lt h.1, Except.ok_bind,
      mapM_nodeCommand_of_lt delays n l h.2]
    rfl

/-- The commands loop panics as soon as one index is past the end of `delays`. -/
theorem mapM_nodeCommand_of_le (delays : List UInt64) (n : ℕ) :
    ∀ l : List ℕ, (∃ i ∈ l, delays.length ≤ i) →
      l.mapM (S.nodeCommand delays n) = .error (.panic "runtime error: index out of range")
  | [], h => by simp at h
  | i :: l, h => by
    rw [List.mapM_cons]
    by_cases hi : i < delays.length
    · have hl : ∃ j ∈ l, delays.length ≤ j := by
        simpa [Nat.not_le.mpr hi] using h
      rw [S.nodeCommand_of_lt hi, Except.ok_bind, mapM_nodeCommand_of_le delays n l hl]
      rfl
    · rw [nodeCommand, goIndex_of_le (Nat.le_of_not_lt hi)]
      rfl

/-! ### `createHeader` -/

/-- **What a successful `createHeader` computed**: the random scalar, the key schedule,
enough delays, and the header `encapsulateHeader` built from the §4.4 commands. -/
theorem createHeader_eq_ok {nodes : List MixConfig} {delays : List UInt64}
    {dest : ClientConfig} {random : Except String S.FieldElement} {T : List HeaderInitials}
    {h : Header} :
    S.createHeader nodes delays dest random = .ok (T, h) ↔
      ∃ x, random = .ok x ∧ S.getSharedSecrets nodes x = .ok T ∧
        nodes.length ≤ delays.length ∧
        S.encapsulateHeader T nodes (S.pathCommands delays nodes.length) dest = .ok h := by
  cases random with
  | error => simp [createHeader, Go.ofErr]
  | ok x =>
    cases hT : S.getSharedSecrets nodes x with
    | error => simp [createHeader, hT]
    | ok T' =>
      rw [createHeader, Go.ofErr_ok, Except.ok_bind, hT, Except.ok_bind,
        if_neg (not_not.mpr (S.length_getSharedSecretsLoop hT)), pure_bind]
      by_cases hd : nodes.length ≤ delays.length
      · rw [S.mapM_nodeCommand_of_lt delays nodes.length (List.range nodes.length)
          (fun i hi => by rw [List.mem_range] at hi; omega), Except.ok_bind]
        change (S.encapsulateHeader T' nodes (S.pathCommands delays nodes.length) dest >>= _) =
          _ ↔ _
        constructor
        · intro hok
          obtain ⟨h', he, hpure⟩ := Except.bind_eq_ok.mp hok
          simp only [pure, Except.pure, Except.ok.injEq, Prod.mk.injEq] at hpure
          obtain ⟨rfl, rfl⟩ := hpure
          exact ⟨x, rfl, hT, hd, he⟩
        · rintro ⟨_, ⟨⟩, hT', -, he⟩
          rw [hT] at hT'
          cases hT'
          rw [he]
          rfl
      · rw [S.mapM_nodeCommand_of_le delays nodes.length (List.range nodes.length)
          ⟨delays.length, List.mem_range.mpr (by omega), le_rfl⟩]
        simp [hd]

/-- **From two nodes on, `createHeader` builds the header of §4.4.** -/
theorem createHeader_eq_specHeader {nodes : List MixConfig} {delays : List UInt64}
    {dest : ClientConfig} {random : Except String S.FieldElement} {T : List HeaderInitials}
    {h : Header} (hn : 2 ≤ nodes.length)
    (heq : S.createHeader nodes delays dest random = .ok (T, h)) :
    S.specHeader T nodes (S.pathCommands delays nodes.length) dest = .ok h := by
  obtain ⟨x, -, hT, -, hh⟩ := S.createHeader_eq_ok.mp heq
  rwa [← S.encapsulateHeader_eq_specHeader dest hn (S.length_getSharedSecretsLoop hT)
    (S.length_pathCommands _ _)]

theorem encryptLayer_ok (htot : S.SymmetricTotal) (sh : Bytes) (r : RoutingInfo) :
    ∃ e, S.encryptLayer sh r = .ok e := by
  obtain ⟨k, hk, hc⟩ := htot.1 sh
  obtain ⟨m, hm⟩ := htot.2 k (xorKeyStream (S.keyStream k S.aesCtrIV) 0 r.marshal)
  exact ⟨(xorKeyStream (S.keyStream k S.aesCtrIV) 0 r.marshal, m),
    by simp [encryptLayer, hk, S.aesCtr_eq_ok.mpr ⟨hc, rfl⟩, hm, pure, Except.pure]⟩

theorem wrapLayers_ok (htot : S.SymmetricTotal) (inner : Bytes × Bytes) :
    ∀ layers : List (Bytes × Hop × Commands), ∃ e, S.wrapLayers inner layers = .ok e
  | [] => ⟨inner, rfl⟩
  | l :: layers => by
    obtain ⟨e, he⟩ := wrapLayers_ok htot inner layers
    obtain ⟨e', he'⟩ := S.encryptLayer_ok htot l.1 (relayRecord l.2.1 l.2.2 e)
    exact ⟨e', by rw [wrapLayers, he, Except.ok_bind, he']⟩

theorem payloadLayers_ok (htot : S.SymmetricTotal) (message : Bytes) :
    ∀ T : List HeaderInitials, ∃ p, S.payloadLayers message T = .ok p
  | [] => ⟨message, rfl⟩
  | t :: T => by
    obtain ⟨p, hp⟩ := payloadLayers_ok htot message T
    obtain ⟨k, hk, hc⟩ := htot.1 t.secretHash
    exact ⟨xorKeyStream (S.keyStream k S.aesCtrIV) 0 p,
      by simp [payloadLayers, hp, hk, S.aesCtr_eq_ok.mpr ⟨hc, rfl⟩]⟩

theorem specHeader_ok (htot : S.SymmetricTotal) (T : List HeaderInitials)
    (nodes : List MixConfig) (commands : List Commands) (dest : ClientConfig) :
    ∃ h, S.specHeader T nodes commands dest = .ok h := by
  obtain ⟨inner, hi⟩ := S.encryptLayer_ok htot (T.getD (nodes.length - 1) {}).secretHash
    (finalRecord dest (commands.getD (nodes.length - 1) {}))
  obtain ⟨e, he⟩ := S.wrapLayers_ok htot inner
    ((List.range (nodes.length - 1)).map (relayLayers T nodes commands))
  exact ⟨_, by rw [specHeader, hi, Except.ok_bind, he, Except.ok_bind]; rfl⟩

/-- `PackForwardMessage` on a successful header: the payload of §4.5 under it. -/
theorem packForwardMessage_eq {path : E2EPath} {delays : List UInt64} {message : Bytes}
    {random : Except String S.FieldElement} {T : List HeaderInitials} {h : Header}
    (heq : S.createHeader path.nodes delays path.recipient random = .ok (T, h)) :
    S.packForwardMessage path delays message random =
      (fun p => { hdr := some h, pld := p }) <$> S.payloadLayers message T := by
  simp only [packForwardMessage, heq, Except.ok_bind, encapsulateContent_eq_payloadLayers]
  cases S.payloadLayers message T <;> rfl

/-- **What `PackForwardMessage` returns.**  It never compares the number of delays with
the number of nodes.  A node key of the wrong length makes it return an error, never
panic.  With keys of the right length, a random scalar and symmetric primitives that
do not fail, it panics with an index out of range when there are fewer delays than
nodes, and returns a packet otherwise, ignoring the extra delays. -/
theorem packForwardMessage_outcome (path : E2EPath) (delays : List UInt64) (message : Bytes)
    (random : Except String S.FieldElement) :
    ((∃ n ∈ path.nodes, n.pubKey.length ≠ PublicKeySize) →
      ∃ e, S.packForwardMessage path delays message random = .error (.error e)) ∧
    (∀ x, random = .ok x → S.SymmetricTotal →
      (∀ n ∈ path.nodes, n.pubKey.length = PublicKeySize) →
      (delays.length < path.nodes.length → S.packForwardMessage path delays message random =
          .error (.panic "runtime error: index out of range")) ∧
      (path.nodes.length ≤ delays.length →
        ∃ p, S.packForwardMessage path delays message random = .ok p)) := by
  refine ⟨fun ⟨n, hn, hlen⟩ => ?_, fun x hx htot hkeys => ⟨fun hd => ?_, fun hd => ?_⟩⟩
  · cases random with
    | error e => exact ⟨e, rfl⟩
    | ok x =>
      cases hT : S.getSharedSecrets path.nodes x with
      | ok T => exact absurd (S.length_pubKey_of_getSharedSecretsLoop hT n hn) hlen
      | error e =>
        obtain ⟨msg, rfl⟩ := S.getSharedSecretsLoop_eq_error hT
        exact ⟨msg, by simp [packForwardMessage, createHeader, hT]⟩
  · subst hx
    obtain ⟨T, hT⟩ := S.getSharedSecretsLoop_ok htot [x] 0 path.nodes hkeys
    rw [packForwardMessage, createHeader, Go.ofErr_ok, Except.ok_bind, getSharedSecrets, hT,
      Except.ok_bind, if_neg (not_not.mpr (S.length_getSharedSecretsLoop hT)), pure_bind,
      S.mapM_nodeCommand_of_le delays path.nodes.length (List.range path.nodes.length)
        ⟨delays.length, List.mem_range.mpr hd, le_rfl⟩]
    rfl
  · subst hx
    obtain ⟨T, hT⟩ := S.getSharedSecretsLoop_ok htot [x] 0 path.nodes hkeys
    have hn : 2 ≤ path.nodes.length := by simp
    obtain ⟨h, hh⟩ :=
      S.specHeader_ok htot T path.nodes (S.pathCommands delays path.nodes.length) path.recipient
    have hc : S.createHeader path.nodes delays path.recipient (.ok x) = .ok (T, h) :=
      S.createHeader_eq_ok.mpr ⟨x, rfl, hT, hd, by
        rwa [S.encapsulateHeader_eq_specHeader _ hn (S.length_getSharedSecretsLoop hT)
          (S.length_pathCommands _ _)]⟩
    obtain ⟨p, hp⟩ := S.payloadLayers_ok htot message T
    exact ⟨_, by rw [S.packForwardMessage_eq hc, hp]; rfl⟩

theorem toySuite_symmetricTotal : toySuite.SymmetricTotal :=
  ⟨fun _ => ⟨_, rfl, by simp [aesNewCipher]⟩, fun _ _ => ⟨_, rfl⟩⟩

theorem toySuite_kdf_aesNewCipher : ∀ b k, toySuite.kdf b = .ok k → aesNewCipher k = .ok () :=
  fun b k hk => by
    obtain ⟨k', hk', hc⟩ := toySuite_symmetricTotal.1 b
    rw [hk] at hk'
    cases hk'
    exact hc

theorem packForwardMessage_outcome_toy :
    (∃ e, toySuite.packForwardMessage { toyPath with mixes := [{}] } [0, 0, 0] toyMessage
        (.ok (7 : ToyElement)) = .error (.error e)) ∧
      ∃ p, toySuite.packForwardMessage toyPath [0, 0, 0] toyMessage (.ok (7 : ToyElement)) =
        .ok p :=
  ⟨(packForwardMessage_outcome toySuite _ [0, 0, 0] toyMessage _).1
      ⟨{}, by simp [E2EPath.nodes], by decide⟩,
    ((packForwardMessage_outcome toySuite toyPath [0, 0, 0] toyMessage _).2 (7 : ToyElement) rfl
      toySuite_symmetricTotal (by simp [toyPath, E2EPath.nodes, PublicKeySize])).2
      (by simp [toyPath, E2EPath.nodes])⟩

/-- The number of delays is never checked: too few panic, too many are ignored. -/
theorem packForwardMessage_delays_unchecked :
    toySuite.packForwardMessage toyPath [0] toyMessage (.ok (7 : ToyElement)) =
        .error (.panic "runtime error: index out of range") ∧
      ∃ p, toySuite.packForwardMessage toyPath [0, 0, 0, 0] toyMessage (.ok (7 : ToyElement)) =
        .ok p :=
  ⟨rfl, _, rfl⟩

end Suite

end Loopix
