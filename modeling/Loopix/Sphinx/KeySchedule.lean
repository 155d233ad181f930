import Loopix.Sphinx.ToySuite

/-!
# The key schedule: the sender's batch and the relays' increments

`getSharedSecrets` derives, for every node of the path at once, the group element the
node will receive, the secret it shares with the sender, the hash of that secret, and
its blinding factor.  A relay derives the same values for itself alone, from the group
element of the header it receives and its private key, and hands the next relay that
group element multiplied by its blinding factor.  The two derivations have to agree
bit for bit, or no relay could decrypt its layer.

## Main definitions

* `Suite.getSharedSecrets` — the sender's loop, as `sphinx.go` writes it.
* `Suite.relayDerive` — what one relay derives: the key part of `ProcessSphinxHeader`,
  which `Suite.openHeader` calls with the MAC check.
* `Suite.relaySchedule` — what the relays of a path derive, one after the other, when
  their checks pass.

## Main results

* `Suite.length_getSharedSecretsLoop` — one tuple per node, so the count check of
  `createHeader` never fires.
* `Suite.relaySchedule_eq_getSharedSecrets` — **the relays' incremental schedule is
  the sender's batch one.**
-/

namespace Loopix

namespace Suite

variable (S : Suite)

/-- The loop of `getSharedSecrets` from node `i` on, given the blinding factors
gathered so far (the ephemeral scalar first). -/
def getSharedSecretsLoop (blindFactors : List S.FieldElement) :
    ℕ → List MixConfig → Go (List HeaderInitials)
  | _, [] => pure []
  | i, n :: nodes => do
    let alpha := S.expoGroupBase blindFactors
    if n.pubKey.length ≠ PublicKeySize then
      throw (.error ("invalid public key provided for node " ++ toString i))
    let s := S.expo (S.bytesToFieldElement n.pubKey) blindFactors
    let aesS ← Go.ofErr (S.kdf (S.bytes s))
    let blinder ← S.computeBlindingFactor aesS
    let tuples ← getSharedSecretsLoop (blindFactors ++ [blinder]) (i + 1) nodes
    pure ({ alpha := S.bytes alpha, secret := S.bytes s, blinder := S.bytes blinder,
            secretHash := aesS } :: tuples)

/-- `getSharedSecrets(nodes, initialVal)`. -/
def getSharedSecrets (nodes : List MixConfig) (initialVal : S.FieldElement) :
    Go (List HeaderInitials) :=
  S.getSharedSecretsLoop [initialVal] 0 nodes

/-- What a relay derives from the group element `alpha` of its header and its
private key, as `ProcessSphinxHeader` does: the tuple `getSharedSecrets` computed for
it, and the group element for the next relay.  `ProcessSphinxHeader` checks the
header's MAC between the secret's hash and the blinding factor; `check` is that step,
run on the hash, and what it returns comes first in the result. -/
def relayDerive {α : Type} (check : Bytes → Go α) (priv alpha : S.FieldElement) :
    Go (α × HeaderInitials × S.FieldElement) := do
  let sharedSecret := S.scalarMult priv alpha
  let aesS ← Go.ofErr (S.kdf (S.bytes sharedSecret))
  let checked ← check aesS
  let blinder ← S.computeBlindingFactor aesS
  pure (checked,
    { alpha := S.bytes alpha, secret := S.bytes sharedSecret, blinder := S.bytes blinder,
      secretHash := aesS },
    S.scalarMult blinder alpha)

/-- What the relays holding `privs` derive, one after the other, from the group
element `alpha` the first of them receives, each one's check passing. -/
def relaySchedule : List S.FieldElement → S.FieldElement → Go (List HeaderInitials)
  | [], _ => pure []
  | priv :: privs, alpha => do
    let ((), t, alpha') ← S.relayDerive (fun _ => pure ()) priv alpha
    let ts ← relaySchedule privs alpha'
    pure (t :: ts)

/-- `relayDerive`, inverted: the secret's hash, the check, and the blinding factor. -/
theorem relayDerive_eq_ok {α : Type} {check : Bytes → Go α} {priv alpha alpha' : S.FieldElement}
    {x : α} {t : HeaderInitials} :
    S.relayDerive check priv alpha = .ok (x, t, alpha') ↔
      ∃ aesS blinder, S.kdf (S.bytes (S.scalarMult priv alpha)) = .ok aesS ∧
        check aesS = .ok x ∧ S.computeBlindingFactor aesS = .ok blinder ∧
        t = { alpha := S.bytes alpha, secret := S.bytes (S.scalarMult priv alpha),
              blinder := S.bytes blinder, secretHash := aesS } ∧
        alpha' = S.scalarMult blinder alpha := by
  simp only [relayDerive, Except.bind_eq_ok, Go.ofErr_eq_ok, pure, Except.pure,
    Except.ok.injEq, Prod.mk.injEq]
  constructor
  · rintro ⟨aesS, ha, x, hx, blinder, hb, rfl, rfl, rfl⟩
    exact ⟨aesS, blinder, ha, hx, hb, rfl, rfl⟩
  · rintro ⟨aesS, blinder, ha, hx, hb, rfl, rfl⟩
    exact ⟨aesS, ha, x, hx, blinder, hb, rfl, rfl, rfl⟩

/-- The derivation panics only where its check does. -/
theorem isPanic_relayDerive {α : Type} {check : Bytes → Go α}
    (hc : ∀ b, (check b).isPanic = false) (priv alpha : S.FieldElement) :
    (S.relayDerive check priv alpha).isPanic = false :=
  Go.isPanic_bind (Go.isPanic_ofErr _) fun aesS => Go.isPanic_bind (hc aesS) fun _ =>
    Go.isPanic_bind (S.isPanic_computeBlindingFactor aesS) fun _ => rfl

/-- A check that passes changes nothing of what is derived: a relay whose header opens
advances the group element as a relay of `relaySchedule` does. -/
theorem relayDerive_of_check {α : Type} {check : Bytes → Go α} {priv alpha alpha' : S.FieldElement}
    {x : α} {t : HeaderInitials} (h : S.relayDerive check priv alpha = .ok (x, t, alpha')) :
    S.relayDerive (fun _ => pure ()) priv alpha = .ok ((), t, alpha') := by
  obtain ⟨aesS, blinder, ha, -, hb, rfl, rfl⟩ := S.relayDerive_eq_ok.mp h
  exact S.relayDerive_eq_ok.mpr ⟨aesS, blinder, ha, rfl, hb, rfl, rfl⟩

/-- One step of the sender's loop, inverted: the node's key has the right length,
its secret hashes, and its blinding factor is computed. -/
theorem getSharedSecretsLoop_cons_eq_ok {bf : List S.FieldElement} {i : ℕ} {n : MixConfig}
    {nodes : List MixConfig} {T : List HeaderInitials} :
    S.getSharedSecretsLoop bf i (n :: nodes) = .ok T ↔
      ∃ aesS blinder tuples, n.pubKey.length = PublicKeySize ∧
        S.kdf (S.bytes (S.expo (S.bytesToFieldElement n.pubKey) bf)) = .ok aesS ∧
        S.computeBlindingFactor aesS = .ok blinder ∧
        S.getSharedSecretsLoop (bf ++ [blinder]) (i + 1) nodes = .ok tuples ∧
        T = { alpha := S.bytes (S.expoGroupBase bf),
              secret := S.bytes (S.expo (S.bytesToFieldElement n.pubKey) bf),
              blinder := S.bytes blinder, secretHash := aesS } :: tuples := by
  simp only [getSharedSecretsLoop]
  by_cases hlen : n.pubKey.length = PublicKeySize
  · simp only [hlen, ne_eq, not_true_eq_false, if_false, pure, Except.pure, Except.ok_bind,
      Except.bind_eq_ok, Go.ofErr_eq_ok, Except.ok.injEq]
    constructor
    · rintro ⟨aesS, haesS, blinder, hb, tuples, ht, rfl⟩
      exact ⟨aesS, blinder, tuples, trivial, haesS, hb, ht, rfl⟩
    · rintro ⟨aesS, blinder, tuples, -, haesS, hb, ht, rfl⟩
      exact ⟨aesS, haesS, blinder, hb, tuples, ht, rfl⟩
  · simp [hlen, throw, throwThe, MonadExceptOf.throw]

/-- The loop returns one tuple per node. -/
theorem length_getSharedSecretsLoop :
    ∀ {bf : List S.FieldElement} {i : ℕ} {nodes : List MixConfig} {T : List HeaderInitials},
      S.getSharedSecretsLoop bf i nodes = .ok T → T.length = nodes.length
  | _, _, [], T, h => by
    simp only [getSharedSecretsLoop, pure, Except.pure, Except.ok.injEq] at h
    simp [← h]
  | _, _, _ :: _, _, h => by
    obtain ⟨_, _, _, -, -, -, ht, rfl⟩ := S.getSharedSecretsLoop_cons_eq_ok.mp h
    simp [length_getSharedSecretsLoop ht]

/-- The first tuple carries the group element of the chain so far. -/
theorem getSharedSecretsLoop_head {bf : List S.FieldElement} {i : ℕ} {nodes : List MixConfig}
    {T : List HeaderInitials} (h : S.getSharedSecretsLoop bf i nodes = .ok T)
    (hne : nodes ≠ []) :
    ∃ t ts, T = t :: ts ∧ t.alpha = S.bytes (S.expoGroupBase bf) := by
  obtain ⟨n, nodes, rfl⟩ := List.exists_cons_of_ne_nil hne
  obtain ⟨_, _, tuples, -, -, -, -, rfl⟩ := S.getSharedSecretsLoop_cons_eq_ok.mp h
  exact ⟨_, tuples, rfl, rfl⟩

/-- The relays derive what the sender's loop derived, from the group element of the
chain so far.  The induction follows the nodes: at each one the relay's
`priv · alpha` is the sender's `expo(pub, blinders)`, by `scalarMult_expo`. -/
theorem relaySchedule_of_getSharedSecretsLoop :
    ∀ {nodes : List MixConfig} {privs bf : List S.FieldElement} {i : ℕ}
      {T : List HeaderInitials},
      nodes.map MixConfig.pubKey = privs.map S.publicKey →
      S.getSharedSecretsLoop bf i nodes = .ok T →
      S.relaySchedule privs (S.expoGroupBase bf) = .ok T
  | [], [], _, _, T, _, h => by
    simp only [getSharedSecretsLoop, pure, Except.pure, Except.ok.injEq] at h
    simp [← h, relaySchedule, pure, Except.pure]
  | n :: nodes, priv :: privs, bf, i, T, hkeys, h => by
    simp only [List.map_cons, List.cons.injEq] at hkeys
    obtain ⟨aesS, blinder, tuples, -, haesS, hb, ht, rfl⟩ :=
      S.getSharedSecretsLoop_cons_eq_ok.mp h
    have hs : S.scalarMult priv (S.expoGroupBase bf) =
        S.expo (S.bytesToFieldElement n.pubKey) bf := by
      rw [hkeys.1, publicKey, bytesToFieldElement_bytes, expoGroupBase, scalarMult_expo]
    have hnext : S.scalarMult blinder (S.expoGroupBase bf) = S.expoGroupBase (bf ++ [blinder]) := by
      rw [expoGroupBase, expoGroupBase, expo_append_singleton]
    have ih := relaySchedule_of_getSharedSecretsLoop hkeys.2 ht
    simp [relaySchedule, relayDerive, hs, haesS, hb, hnext, ih, pure, Except.pure]
  | [], _ :: _, _, _, _, hkeys, _ => by simp at hkeys
  | _ :: _, [], _, _, _, hkeys, _ => by simp at hkeys

/-- **The relays' incremental key schedule is the sender's batch one.**  Let the
`i`-th node of a non-empty path carry the public key of `privs[i]`, and let
`getSharedSecrets` succeed with the tuples `T`.  The relays, starting from the group
element the header carries (`T[0].Alpha`) and each advancing it by the blinding
factor it derives, derive exactly `T`: the same group elements, shared secrets,
hashes and blinding factors, so the same keys `KDF(T[i].SecretHash)`. -/
theorem relaySchedule_eq_getSharedSecrets {nodes : List MixConfig}
    {privs : List S.FieldElement} {x : S.FieldElement} {T : List HeaderInitials}
    (hkeys : nodes.map MixConfig.pubKey = privs.map S.publicKey)
    (hT : S.getSharedSecrets nodes x = .ok T) (hne : nodes ≠ []) :
    ∃ t ts, T = t :: ts ∧ S.relaySchedule privs (S.bytesToFieldElement t.alpha) = .ok T := by
  obtain ⟨t, ts, rfl, ht⟩ := S.getSharedSecretsLoop_head hT hne
  exact ⟨t, ts, rfl, by rw [ht, bytesToFieldElement_bytes]; exact
    S.relaySchedule_of_getSharedSecretsLoop hkeys hT⟩

end Suite

/-- Two relays of the toy suite, with private keys `3` and `5`. -/
def toyNodes : List MixConfig :=
  [{ id := "N0", host := "h0", port := "1", pubKey := toySuite.publicKey (3 : ToyElement) },
   { id := "N1", host := "h1", port := "2", pubKey := toySuite.publicKey (5 : ToyElement) }]

theorem relaySchedule_eq_getSharedSecrets_toy :
    ∃ T, toySuite.getSharedSecrets toyNodes (7 : ToyElement) = .ok T ∧
      ∃ t ts, T = t :: ts ∧
        toySuite.relaySchedule [(3 : ToyElement), (5 : ToyElement)]
            (toySuite.bytesToFieldElement t.alpha) =
          .ok T :=
  ⟨_, rfl, @Suite.relaySchedule_eq_getSharedSecrets toySuite toyNodes _ _ _ rfl rfl
    (by simp [toyNodes])⟩

end Loopix
