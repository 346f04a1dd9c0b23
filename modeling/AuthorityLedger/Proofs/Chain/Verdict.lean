import AuthorityLedger.Proofs.Chain.History
import AuthorityLedger.Proofs.Chain.Relinking

/-!
# What becomes of a block that is offered

A chain links a block behind its tip before it looks at it, so that the header
with which the block came makes no difference (`on_addBlock_congr`).  What is
left to be refused is in its transactions, and `Verdict` says which fault is
reported, in terms of these alone: an identifier that is used or comes twice,
then the lack of transactions, then a transaction that is refused by itself.

That no fault of the header is ever reported needs to be known of the tip: it
has a hash, and an index that tells its place (`validate_prepare`).  Indexes are
words of 64 bits with a sign, and behind the last one that is not negative there
is none left; the statements are about chains that are shorter than that.
-/

namespace AuthorityLedger.Chain

variable {α : Type} [Payload α]

/-- What offering a block to a chain answers, and the chain afterwards. -/
inductive Verdict (chain : Chain α) (candidate : Block α) :
    Except Error (Block α) × Chain α → Prop
  /-- An identifier is used or comes twice: the first one is blamed. -/
  | repeated {front back : List String} {id : String} :
      candidate.transactions.map Transaction.id = front ++ id :: back →
      chain.registry.Fresh front → chain.registry.isUsed id = true ∨ id ∈ front →
      Verdict chain candidate (.error (.duplicateTransaction id), chain)
  /-- There is no transaction. -/
  | empty :
      candidate.transactions = [] →
      Verdict chain candidate (.error (.invalidBlock (.empty (Int64.ofNat chain.size))), chain)
  /-- A transaction is refused by itself: the first one is blamed, at its position. -/
  | invalid {front back : List (Transaction α)} {tx : Transaction α}
      {reason : Transaction.Error} :
      chain.registry.Fresh (candidate.transactions.map Transaction.id) →
      candidate.transactions = front ++ tx :: back →
      (∀ earlier ∈ front, earlier.validate = .ok ()) → tx.validate = .error reason →
      Verdict chain candidate
        (.error (.invalidBlock (.invalidTransaction (Int64.ofNat chain.size) front.length reason)),
          chain)
  /-- Nothing is wrong: a valid block with these transactions is appended behind the tip. -/
  | admitted {block : Block α} :
      chain.registry.Fresh (candidate.transactions.map Transaction.id) →
      Block.Holds candidate.transactions →
      block.transactions = candidate.transactions → block.nonce = candidate.nonce →
      block.timestamp = candidate.timestamp → block.index = Int64.ofNat chain.size →
      block.previousHash = chain.tip.hash → block.validate = .ok () →
      Verdict chain candidate (.ok block, chain.append block)

/-- Offering a block takes nothing from it but its transactions, its nonce and its time. -/
theorem on_addBlock_congr (chain : Chain α) {b c : Block α}
    (htransactions : b.transactions = c.transactions) (hnonce : b.nonce = c.nonce)
    (htime : b.timestamp = c.timestamp) : (addBlock b).on chain = (addBlock c).on chain := by
  rw [on_addBlock, on_addBlock, prepare_congr chain htransactions hnonce htime]

section Offered

variable {chain : Chain α} {candidate : Block α}

/-- A block that has been linked behind the tip can only be at fault in its transactions. -/
theorem validate_prepare (hvalid : chain.validate = .ok ()) (hroom : chain.size < Nat.pow 2 63)
    (candidate : Block α) :
    (chain.prepare candidate).validate =
      if candidate.transactions.isEmpty then .error (.empty (Int64.ofNat chain.size))
      else Block.validateTransactions (Int64.ofNat chain.size) 0 candidate.transactions := by
  have hindex : 0 ≤ Int64.ofNat chain.size := by
    rw [Int64.le_iff_toInt_le, Int64.toInt_ofNat_of_lt hroom]
    exact Int.natCast_nonneg _
  have hprevious : chain.tip.hash ≠ "" :=
    ((Block.validate_eq_ok_iff _).mp (validate_tip hvalid)).2.1
  unfold prepare
  rw [index_tip hvalid]
  exact Block.validate_stamp hindex hprevious candidate

/-- Where no identifier is a duplicate, what is offered is judged by itself. -/
theorem on_addBlock_of_fresh (hvalid : chain.validate = .ok ())
    (hroom : chain.size < Nat.pow 2 63)
    (hfresh : chain.registry.Fresh (candidate.transactions.map Transaction.id)) :
    (addBlock candidate).on chain =
      match (if candidate.transactions.isEmpty then .error (.empty (Int64.ofNat chain.size))
        else Block.validateTransactions (Int64.ofNat chain.size) 0 candidate.transactions) with
      | .ok () => (.ok (chain.prepare candidate), chain.append (chain.prepare candidate))
      | .error cause => (.error (.invalidBlock cause), chain) := by
  rw [on_addBlock, check_prepare, (firstDuplicate?_empty_iff _ _).mpr hfresh,
    ← validate_prepare hvalid hroom]
  cases (chain.prepare candidate).validate <;> rfl

/-- What is offered gets the answer that it is due. -/
theorem Verdict.eq {outcome : Except Error (Block α) × Chain α}
    (h : chain.Verdict candidate outcome) (hvalid : chain.validate = .ok ())
    (hroom : chain.size < Nat.pow 2 63) : (addBlock candidate).on chain = outcome := by
  cases h with
  | @repeated front back id hids hfront hid =>
      have hfirst : firstDuplicate? chain.registry (candidate.transactions.map Transaction.id)
          SortedMap.empty = some id := by
        refine (firstDuplicate?_eq_some_iff _ _ _ _).mpr ⟨front, back, hids, ?_, ?_⟩
        · exact (firstDuplicate?_empty_iff _ _).mpr hfront
        · exact hid.imp_right Or.inr
      rw [on_addBlock, check_prepare, hfirst]
  | empty hnone =>
      have hfresh : chain.registry.Fresh (candidate.transactions.map Transaction.id) := by
        rw [hnone]
        exact Registry.fresh_nil _
      rw [on_addBlock_of_fresh hvalid hroom hfresh, hnone]
      rfl
  | @invalid front back tx reason hfresh hsplit hearlier htx =>
      have hsome : candidate.transactions.isEmpty = false := by simp [hsplit]
      have hblamed := (Block.validateTransactions_eq_error_iff (Int64.ofNat chain.size) 0
        candidate.transactions _).mpr ⟨front, tx, back, reason, hsplit, hearlier, htx, rfl⟩
      rw [Nat.zero_add] at hblamed
      rw [on_addBlock_of_fresh hvalid hroom hfresh, hsome, hblamed]
      rfl
  | @admitted block hfresh _ htransactions hnonce htime hindex hprevious hblock =>
      have hsame : chain.prepare candidate = block := by
        rw [← prepare_congr chain htransactions hnonce htime]
        exact prepare_eq_self (hindex.trans (index_tip hvalid).symm) hprevious hblock
      have hcheck : chain.check (chain.prepare candidate) = .ok () := by
        rw [check_eq_ok_iff, hsame, htransactions]
        exact ⟨⟨hindex.trans (index_tip hvalid).symm, hprevious⟩, hfresh, hblock⟩
      rw [on_addBlock, hcheck, hsame]

/-- There is an answer to whatever is offered. -/
theorem exists_verdict (hvalid : chain.validate = .ok ()) (hroom : chain.size < Nat.pow 2 63)
    (candidate : Block α) : ∃ outcome, chain.Verdict candidate outcome := by
  cases hfirst : firstDuplicate? chain.registry (candidate.transactions.map Transaction.id)
      SortedMap.empty with
  | some id =>
      obtain ⟨front, back, hids, hnone, hid⟩ := (firstDuplicate?_eq_some_iff _ _ _ _).mp hfirst
      have hseen : (SortedMap.empty : NameSet).contains id = false := rfl
      rw [hseen] at hid
      exact ⟨_, .repeated hids ((firstDuplicate?_empty_iff _ _).mp hnone) (by simpa using hid)⟩
  | none =>
      have hfresh := (firstDuplicate?_empty_iff _ _).mp hfirst
      by_cases hsome : candidate.transactions = []
      · exact ⟨_, .empty hsome⟩
      · cases htransactions : Block.validateTransactions (Int64.ofNat chain.size) 0
            candidate.transactions with
        | error cause =>
            obtain ⟨front, tx, back, reason, hsplit, hearlier, htx, _⟩ :=
              (Block.validateTransactions_eq_error_iff _ _ _ _).mp htransactions
            exact ⟨_, .invalid hfresh hsplit hearlier htx⟩
        | ok =>
            have hholds : Block.Holds candidate.transactions :=
              ⟨hsome, (Block.validateTransactions_eq_ok_iff _ _ _).mp htransactions⟩
            have hblock : (chain.prepare candidate).validate = .ok () := by
              rw [validate_prepare hvalid hroom, if_neg (by simpa using hsome), htransactions]
            have hdue : chain.Verdict candidate
                (.ok (chain.prepare candidate), chain.append (chain.prepare candidate)) :=
              .admitted hfresh hholds rfl rfl rfl (index_tip hvalid) rfl hblock
            exact ⟨_, hdue⟩

end Offered

/-- **What becomes of a block that is offered, exactly.**  A chain that was valid has been changed by
a run of operations.  Whatever block is offered to it,

* the answer and the chain afterwards are the same as for any other block with these transactions,
  this nonce and this time;
* as long as there is an index left, which there is unless the chain is of the greatest length that a
  valid chain can have, they are what `Verdict` says, and nothing else;
* a refusal leaves the chain as it was, and blames a duplicate identifier, the lack of transactions
  or a transaction that is invalid by itself;
* a block that is admitted stands last, has the index of its place, and names the hash of the block
  that was last before. -/
theorem addBlock_judged {chain : Chain α} (hvalid : chain.validate = .ok ())
    (ops : List (Operation α)) (candidate : Block α) :
    let reached := chain.run ops
    let outcome := (addBlock candidate).on reached
    (∀ other : Block α, other.transactions = candidate.transactions →
        other.nonce = candidate.nonce → other.timestamp = candidate.timestamp →
          (addBlock other).on reached = outcome) ∧
      reached.size ≤ Nat.pow 2 63 ∧
      (reached.size < Nat.pow 2 63 →
        (∀ result, outcome = result ↔ reached.Verdict candidate result) ∧
        (∀ cause after, outcome = (.error cause, after) → after = reached ∧
          ((∃ id, cause = .duplicateTransaction id) ∨
            (∃ index, cause = .invalidBlock (.empty index)) ∨
            ∃ index position reason,
              cause = .invalidBlock (.invalidTransaction index position reason))) ∧
        ∀ block after, outcome = (.ok block, after) →
          after.blocks = reached.blocks ++ [block] ∧
            block.index.toInt = (after.size : Int) - 1 ∧
            block.previousHash = reached.tip.hash) := by
  intro reached outcome
  have hreached : reached.validate = .ok () := validate_run hvalid ops
  refine ⟨fun other => on_addBlock_congr reached, size_le_of_validate hreached, ?_⟩
  intro hroom
  obtain ⟨due, hdue⟩ := exists_verdict hreached hroom candidate
  have houtcome : outcome = due := hdue.eq hreached hroom
  refine ⟨?_, ?_, ?_⟩
  · intro result
    constructor
    · rintro rfl
      exact houtcome ▸ hdue
    · exact fun hresult => hresult.eq hreached hroom
  · rintro cause after hrefused
    rw [hrefused] at houtcome
    subst houtcome
    cases hdue with
    | repeated => exact ⟨rfl, Or.inl ⟨_, rfl⟩⟩
    | empty => exact ⟨rfl, Or.inr (Or.inl ⟨_, rfl⟩)⟩
    | invalid => exact ⟨rfl, Or.inr (Or.inr ⟨_, _, _, rfl⟩)⟩
  · rintro block after hadmitted
    rw [hadmitted] at houtcome
    subst houtcome
    cases hdue with
    | admitted _ _ _ _ _ hindex hprevious _ =>
        refine ⟨rfl, ?_, hprevious⟩
        rw [hindex, Int64.toInt_ofNat_of_lt hroom, size, size, blocks_append, List.length_append]
        simp

/-- The seedling has admitted a note; a block that brings it once more is refused for it, although
another note comes first. -/
theorem addBlock_judged_seedling :
    let ops : List (Operation String) := [.addBlock (Block.new ⟨0, 0⟩ [note "a"])]
    let candidate : Block String := Block.new ⟨0, 0⟩ [note "b", note "a"]
    seedling.validate = .ok () ∧ (seedling.run ops).size < Nat.pow 2 63 ∧
      (addBlock candidate).on (seedling.run ops) =
        (.error (.duplicateTransaction "a"), seedling.run ops) := by
  intro ops candidate
  have hvalid := founded_seedling.validate_eq_ok
  obtain ⟨hroom, hnew, hused⟩ : (seedling.run ops).size < Nat.pow 2 63 ∧
      (seedling.run ops).registry.isUsed "b" = false ∧
      (seedling.run ops).registry.isUsed "a" = true := by decide +kernel
  have hdue : (seedling.run ops).Verdict candidate
      (.error (.duplicateTransaction "a"), seedling.run ops) :=
    .repeated rfl ((Registry.fresh_singleton _ "b").mpr hnew) (Or.inl hused)
  obtain ⟨hexact, _⟩ := (addBlock_judged hvalid ops candidate).2.2 hroom
  exact ⟨hvalid, hroom, (hexact _).mpr hdue⟩

end AuthorityLedger.Chain
