import AuthorityLedger.Proofs.Consensus.History

/-!
# What holds of every stored proposal

A proposal is revised in three places: when it is opened, when a signature is
taken in, and when it is opened again because it has expired.  Validators come
and go all the while.  Whatever the order, the state in which a stored proposal
was opened fixes the validators it waits for and the number of signatures it
needs, and the operations since then account for its signatures
(`proposal_invariant`).

The number of signatures needed lies between the floor and the ceiling of the
configuration; it exceeds the number of captured validators where the floor does
and only there (`requiredSignatures_le_iff`).
-/

namespace AuthorityLedger

namespace Consensus.Config

theorem requiredSignatures_le_initialRequired {config : Config} (h : config.validate = .ok ())
    (active : Nat) : config.requiredSignatures active ≤ config.initialRequired := by
  obtain ⟨_, hordered, _⟩ := (validate_eq_ok_iff config).mp h
  exact max_le hordered (min_le_left _ _)

/-- As many signatures as there are active validators are enough, if they reach the floor. -/
theorem requiredSignatures_le_iff (config : Config) (active : Nat) :
    config.requiredSignatures active ≤ active ↔ config.minimumRequired ≤ active := by
  unfold requiredSignatures
  rw [max_le_iff]
  exact and_iff_left (min_le_right _ _)

end Consensus.Config

namespace Engine

/-- **The invariant of proposals.**  Whatever is asked of an engine that was started anew, at
whatever times, every proposal that it holds

* is filed under its identifier, which is that of its block hash, and the block hash is not empty;
* has signatures of different validators, which are those it counts as having signed;
* was opened by an operation that was carried out, and has been held ever since;
* waits for the validators that were active before that operation and have not signed;
* needs as many signatures as the configuration asks for with that many active validators, which
  lies between the floor and the ceiling and is within reach of those validators if the floor is;
* has taken in each signature since then, from a validator that was registered and active, in time,
  and so that it verifies over the block hash under a key with the identifier of the validator. -/
theorem proposal_invariant {config : Consensus.Config} {start : Engine}
    (hnew : new config = .ok start) (ops : List Operation) {pid : String} {p : Proposal}
    (hp : (start.run ops).proposals.get? pid = some p) :
    pid = p.id ∧ p.id = proposalId p.blockHash ∧ p.blockHash ≠ "" ∧
      (p.signatures.map BlockSignature.validator).Nodup ∧
      (∀ id, p.signed.contains id = true ↔ id ∈ p.signatures.map BlockSignature.validator) ∧
      ∃ (front back : List Operation) (captured : NameSet),
        ops = front ++ p.opening :: back ∧
        (start.run front).accepts p.opening = true ∧
        (∀ mid, mid <+: back → Holds (((start.run front).step p.opening).run mid) p) ∧
        (∀ id, captured.contains id = true ↔
          ∃ v, (start.run front).validators.get? id = some v ∧ v.status = .active) ∧
        (∀ id, p.pending.contains id = true ↔
          captured.contains id = true ∧ p.signed.contains id = false) ∧
        p.required = max config.minimumRequired (min config.initialRequired captured.size) ∧
        1 ≤ config.minimumRequired ∧ config.minimumRequired ≤ p.required ∧
        p.required ≤ config.initialRequired ∧
        (p.required ≤ captured.size ↔ config.minimumRequired ≤ captured.size) ∧
        ∀ s ∈ p.signatures, ∃ before source after v,
          back = before ++ .submitSignature p.id s.validator source s.signedAt :: after ∧
            (((start.run front).step p.opening).run before).accepts
              (.submitSignature p.id s.validator source s.signedAt) = true ∧
            (((start.run front).step p.opening).run before).validators.get? s.validator =
              some v ∧
            v.status = .active ∧ v.identity.id = s.validator ∧
            v.identity.verify (Bytes.ofText p.blockHash) s.signature = true ∧
            s.signedAt - p.createdAt ≤ config.signatureTimeout := by
  obtain ⟨hvalid, hstart⟩ := new_eq_ok_iff.mp hnew
  obtain ⟨hfiled, front, back, hops, htraced⟩ := traced_run hnew ops hp
  have hkeyed : (start.run front).Keyed := by
    rw [hstart]
    exact (keyed_empty _ _).run front
  have hconfig : start.config = config := by rw [hstart]
  have hrequired : p.required = config.requiredSignatures (start.run front).activeIds.size := by
    rw [htraced.required_eq, hconfig, hkeyed.size_activeIds]
  obtain ⟨hfloor, _, _⟩ := (Consensus.Config.validate_eq_ok_iff config).mp hvalid
  refine ⟨hfiled, htraced.id_eq, htraced.blockHash_ne, htraced.tallied.nodup, ?_, front, back,
    (start.run front).activeIds, hops, htraced.carried, htraced.held, ?_, ?_, hrequired, hfloor,
    ?_, ?_, ?_, ?_⟩
  · intro id
    rw [htraced.tallied.signed_iff, decide_eq_true_iff]
  · intro id
    rw [hkeyed.contains_activeIds]
    simp only [Validator.canSign, beq_iff_eq]
  · intro id
    rw [htraced.pending_iff, Bool.and_eq_true, Bool.not_eq_true']
  · rw [hrequired]
    exact config.minimumRequired_le_requiredSignatures _
  · rw [hrequired]
    exact Consensus.Config.requiredSignatures_le_initialRequired hvalid _
  · rw [hrequired]
    exact config.requiredSignatures_le_iff _
  · intro s hs
    obtain ⟨before, source, after, v, hback, hcarried, hregistered, hactive, _, hkey, hverifies,
      htime⟩ := htraced.taken_in s hs
    have hsame : ((start.run front).step p.opening).config = config := by
      rw [(transition _ _).config_eq, config_run, hconfig]
    exact ⟨before, source, after, v, hback, hcarried, hregistered, beq_iff_eq.mp hactive, hkey,
      hverifies, hsame ▸ htime⟩

/-- The key of a validator. -/
def founderKey : Key :=
  Key.ofSeed (List.replicate 32 9)

/-- A validator joins, proposes a hash, signs it while the clock is behind, and goes offline. -/
def founding : List Operation := [
  .addValidator "ada" founderKey 1 0,
  .createProposal "hash" founderKey.id 5,
  .submitSignature (proposalId "hash") founderKey.id .held 3,
  .markOffline founderKey.id 9]

/-- A signed proposal outlasts the activity of its only validator. -/
theorem proposal_invariant_founding :
    ∃ (start : Engine) (p : Proposal), new .standard = .ok start ∧
      (start.run founding).proposals.get? (proposalId "hash") = some p ∧
      p.signatures.length = 1 ∧ p.required ≤ Consensus.Config.standard.initialRequired ∧
      ∀ s ∈ p.signatures, ∃ key : Key,
        key.id = s.validator ∧ key.verify (Bytes.ofText p.blockHash) s.signature = true := by
  let start : Engine := ⟨.standard, SortedMap.empty, SortedMap.empty, SortedMap.empty⟩
  have hvalid : Consensus.Config.standard.validate = .ok () :=
    (Consensus.Config.validate_eq_ok_iff _).mpr (by decide)
  have hnew : new .standard = .ok start := new_eq_ok_iff.mpr ⟨hvalid, rfl⟩
  have hsigned : ((start.run founding).proposals.get? (proposalId "hash")).any
      (fun p => p.signatures.length == 1) = true := by
    decide +kernel
  obtain ⟨p, hp, hone⟩ := (Option.any_eq_true _ _).mp hsigned
  obtain ⟨_, _, _, _, _, _, _, _, _, _, _, _, _, _, _, _, hceiling, _, hsignatures⟩ :=
    proposal_invariant hnew founding hp
  refine ⟨start, p, hnew, hp, beq_iff_eq.mp hone, hceiling, ?_⟩
  intro s hs
  obtain ⟨_, _, _, v, _, _, _, _, hkey, hverifies, _⟩ := hsignatures s hs
  exact ⟨v.identity, hkey, hverifies⟩

end Engine

end AuthorityLedger
