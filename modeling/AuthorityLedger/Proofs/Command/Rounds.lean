import Mathlib
import AuthorityLedger.Command.Demo
import AuthorityLedger.Proofs.Command.Site
import AuthorityLedger.Proofs.Ledger.Operations

/-!
# The rounds of a demonstration

A round takes the size of the chain as the number of its block and makes
identifiers of that number (`entryId`).  The block that it commits then stands at
that place.  So the place of a block can be read off its identifiers
(`Numbered`), the identifiers for the next place are fresh in any chain where
this is so (`Tended.fresh`), and a round that succeeds leads to such a chain
again (`Tended.append`).

What a round does is put together from its steps: transactions are made, a block
of them is parked, perhaps at the second attempt, signing leaves the ledger alone,
and committing appends the parked block (`exists_of_commitBlock`).
-/

namespace AuthorityLedger.Command

/-! ## Identifiers -/

theorem not_mem_digits (n : Nat) : '-' ∉ (toString n).toList := by
  intro h
  have hdigits : (toString n).toList = Nat.toDigits 10 n := Nat.toList_repr
  rw [hdigits] at h
  exact absurd (Nat.isDigit_of_mem_toDigits (by decide) (by decide) h) (by decide)

/-- The index and the number can be read off an identifier. -/
theorem entryId_inj {i j k l : Nat} (h : entryId i j = entryId k l) : i = k ∧ j = l := by
  have hlists := congrArg String.toList h
  simp only [entryId, String.toList_append, List.append_assoc] at hlists
  have hbehind := List.append_cancel_left hlists
  obtain ⟨hindex, _, hnumber⟩ :=
    (List.append_cons_inj_of_notMem (not_mem_digits i) (not_mem_digits j)).mp hbehind
  exact ⟨Nat.repr_injective (String.toList_inj.mp hindex),
    Nat.repr_injective (String.toList_inj.mp hnumber)⟩

theorem entryId_ne_genesis (index number : Nat) : entryId index number ≠ genesisTransactionId := by
  intro h
  have hlists := congrArg String.toList h
  simp only [entryId, String.toList_append, List.append_assoc] at hlists
  cases hlists

/-- The identifiers of the transactions that are made for the block at an index. -/
def entryIds (index count : Nat) : List String :=
  (List.range count).map (entryId index)

theorem nodup_entryIds (index count : Nat) : (entryIds index count).Nodup :=
  List.nodup_range.map fun _ _ h => (entryId_inj h).2

/-- What stands somewhere in a list that was continued stood there before or is the last. -/
theorem place_cases {α : Type} {front : List α} {last a : α} {i : Nat}
    (h : (front ++ [last])[i]? = some a) : front[i]? = some a ∨ i = front.length ∧ a = last := by
  by_cases hold : i < front.length
  · exact Or.inl (by rwa [List.getElem?_append_left hold] at h)
  · rw [List.getElem?_append_right (Nat.not_lt.mp hold)] at h
    obtain ⟨hplace, hlast⟩ := List.getElem?_eq_some_iff.mp h
    rw [List.length_singleton] at hplace
    exact Or.inr ⟨by omega, by simpa using hlast.symm⟩

/-- Each identifier in some blocks is that of a first transaction, or was made for the place where
it stands. -/
def Numbered (blocks : List (Block String)) : Prop :=
  ∀ (i : Nat) (block : Block String), blocks[i]? = some block →
    ∀ id ∈ block.transactions.map Transaction.id, id = genesisTransactionId ∨ ∃ j, id = entryId i j

theorem numbered_nil : Numbered [] := nofun

theorem Numbered.concat {blocks : List (Block String)} {block : Block String} {count : Nat}
    (h : Numbered blocks)
    (hids : block.transactions.map Transaction.id = entryIds blocks.length count) :
    Numbered (blocks ++ [block]) := by
  intro i other hi id hid
  rcases place_cases hi with hold | ⟨rfl, rfl⟩
  · exact h i other hold id hid
  · rw [hids] at hid
    obtain ⟨j, _, rfl⟩ := List.mem_map.mp hid
    exact Or.inr ⟨j, rfl⟩

/-- A chain that has only seen rounds of the demonstration: it is valid, its identifiers tell their
places, and no others are used. -/
structure Tended (chain : Chain String) : Prop where
  valid : chain.validate = .ok ()
  numbered : Numbered chain.blocks
  isUsed_iff : ∀ id, chain.registry.isUsed id = true ↔ id ∈ Chain.transactionIds chain.blocks

namespace Tended

variable {chain : Chain String}

/-- **The identifiers for the next place are fresh.** -/
theorem fresh (h : Tended chain) (count : Nat) :
    chain.registry.Fresh (entryIds chain.size count) := by
  refine ⟨nodup_entryIds _ _, ?_⟩
  intro id hid
  obtain ⟨j, _, rfl⟩ := List.mem_map.mp hid
  by_contra hused
  rw [Bool.not_eq_false, h.isUsed_iff] at hused
  obtain ⟨block, hblock, hid⟩ := List.mem_flatMap.mp hused
  obtain ⟨i, hi⟩ := List.mem_iff_getElem?.mp hblock
  have hplace : i < chain.size := (List.getElem?_eq_some_iff.mp hi).1
  rcases h.numbered i block hi _ hid with hgenesis | ⟨k, hk⟩
  · exact entryId_ne_genesis _ _ hgenesis
  · have hsame := (entryId_inj hk).1
    omega

/-- An admissible block with the identifiers for the next place can be appended. -/
theorem append (h : Tended chain) {block : Block String} {count : Nat}
    (hcheck : chain.check block = .ok ())
    (hids : block.transactions.map Transaction.id = entryIds chain.size count) :
    Tended (chain.append block) where
  valid := Chain.validate_append h.valid hcheck
  numbered := h.numbered.concat hids
  isUsed_iff id := by
    rw [Chain.registry_append, Registry.isUsed_markUsed, Chain.blocks_append,
      Chain.transactionIds_append, Chain.transactionIds_singleton, List.mem_append,
      ← h.isUsed_iff id, Bool.or_eq_true, decide_eq_true_iff, or_comm]

end Tended

/-! ## The steps of a round -/

section Steps

variable {site next : Site}

/-- Transactions that are made from some number on are numbered from there. -/
theorem ids_of_demoTransactions {client : Key} {index number count : Nat}
    {txs : List (Transaction String)}
    (h : (demoTransactions client index number count).on site = (.ok txs, next)) :
    txs.map Transaction.id = (List.range' number count).map (entryId index) := by
  induction count generalizing site next number txs with
  | zero =>
      obtain rfl := Except.ok.inj (congrArg Prod.fst h)
      rfl
  | succ count ih =>
      obtain ⟨now, _, _, h⟩ := Action.on_bind_eq_ok_iff.mp h
      obtain ⟨tx, _, htx, h⟩ := Action.on_bind_eq_ok_iff.mp h
      obtain ⟨rest, _, hrest, h⟩ := Action.on_bind_eq_ok_iff.mp h
      obtain ⟨hsign, _⟩ := Job.on_expect_eq_ok_iff.mp htx
      have hid : tx.id = entryId index number := by rw [(Transaction.eq_of_sign hsign).1]; rfl
      obtain rfl := Except.ok.inj (congrArg Prod.fst h)
      rw [List.map_cons, hid, ih hrest]
      rfl

/-- The transactions that are made for a block have the identifiers for its place. -/
theorem entryIds_of_demoTransactions {client : Key} {index count : Nat}
    {txs : List (Transaction String)}
    (h : (demoTransactions client index 0 count).on site = (.ok txs, next)) :
    txs.map Transaction.id = entryIds index count := by
  rw [entryIds, List.range_eq_range']
  exact ids_of_demoTransactions h

/-- An attempt answers what comes of proposing when the clock shows what it does, and at some times
after that.  It prints nothing. -/
theorem on_attempt (g : GatedLedger String) (block : Block String) (proposer : String)
    (site : Site) : ∃ opened recorded next, (attempt g block proposer).on site =
        (.ok ((GatedLedger.proposeAt block proposer site.shown opened recorded).on g), next) ∧
      next.output = site.output :=
  ⟨_, _, _, rfl, rfl⟩

/-- What an attempt answers is what comes of proposing at some times. -/
theorem exists_of_attempt {g : GatedLedger String} {block : Block String} {proposer : String}
    {answer : Except Ledger.Error String × GatedLedger String}
    (h : (attempt g block proposer).on site = (.ok answer, next)) :
    ∃ checked opened recorded,
      (GatedLedger.proposeAt block proposer checked opened recorded).on g = answer := by
  obtain ⟨opened, recorded, _, hon, _⟩ := on_attempt g block proposer site
  exact ⟨site.shown, opened, recorded, Except.ok.inj (Prod.mk.inj (hon.symm.trans h)).1⟩

/-- Whether at once or after waiting, what is parked was proposed to the ledger as it was. -/
theorem exists_of_proposePatiently {g proposed : GatedLedger String} {block : Block String}
    {proposer pid : String}
    (h : (proposePatiently g block proposer).on site = (.ok (pid, proposed), next)) :
    ∃ checked opened recorded,
      (GatedLedger.proposeAt block proposer checked opened recorded).on g = (.ok pid, proposed) := by
  obtain ⟨first, _, hfirst, h⟩ := Action.on_bind_eq_ok_iff.mp h
  obtain ⟨_, _, _, hon⟩ := exists_of_attempt hfirst
  split at h
  next refused =>
    obtain ⟨_, _, _, h⟩ := Action.on_bind_eq_ok_iff.mp h
    obtain ⟨_, _, _, h⟩ := Action.on_bind_eq_ok_iff.mp h
    obtain ⟨second, _, hsecond, h⟩ := Action.on_bind_eq_ok_iff.mp h
    obtain ⟨hok, rfl⟩ := Job.eq_of_expect_beside h
    -- The attempt that was refused has left the ledger as it was.
    have hsame := GatedLedger.eq_of_proposeAt_error (congrArg Prod.fst hon)
    rw [hon] at hsame
    obtain ⟨checked, opened, recorded, hagain⟩ := exists_of_attempt hsecond
    exact ⟨checked, opened, recorded, hsame ▸ hagain.trans (Prod.ext hok rfl)⟩
  · obtain ⟨hok, rfl⟩ := Job.eq_of_expect_beside h
    exact ⟨_, _, _, hon.trans (Prod.ext hok rfl)⟩

theorem eq_of_onLedger {α : Type} {g final : GatedLedger String}
    {action : Action (GatedLedger String) Ledger.Error α} {a : α}
    (h : (onLedger g action).on site = (.ok (a, final), next)) : action.on g = (.ok a, final) := by
  obtain ⟨hok, hfinal⟩ := Job.eq_of_expect_beside h
  exact Prod.ext hok hfinal

/-- Signing leaves the ledger alone. -/
theorem ledger_of_signInTurn {g signed : GatedLedger String} {pid : String}
    {validators : List String}
    (h : (signInTurn g pid validators).on site = (.ok signed, next)) :
    signed.ledger = g.ledger := by
  induction validators generalizing g site with
  | nil =>
      obtain rfl := Except.ok.inj (Prod.mk.inj h).1
      rfl
  | cons validator rest ih =>
      obtain ⟨now, _, _, h⟩ := Action.on_bind_eq_ok_iff.mp h
      obtain ⟨⟨completed, middle⟩, _, hsign, h⟩ := Action.on_bind_eq_ok_iff.mp h
      have hmiddle : ((GatedLedger.sign pid validator now).on g).2.ledger = g.ledger := rfl
      rw [eq_of_onLedger hsign] at hmiddle
      cases completed with
      | true =>
          obtain rfl := Except.ok.inj (Prod.mk.inj h).1
          exact hmiddle
      | false => exact (ih h).trans hmiddle

/-- **A round that succeeds** appends one admissible block, which has the identifiers for its place,
and changes neither validators nor client. -/
theorem exists_of_commitBlock {stage final : Stage} {transactions round : Nat}
    (h : (commitBlock stage transactions round).on site = (.ok final, next)) :
    ∃ block, stage.gated.ledger.chain.check block = .ok () ∧
      block.transactions.map Transaction.id =
        entryIds stage.gated.ledger.chain.size transactions ∧
      final.gated.ledger.chain = stage.gated.ledger.chain.append block ∧
      final.validators = stage.validators ∧ final.client = stage.client := by
  obtain ⟨_, _, _, h⟩ := Action.on_bind_eq_ok_iff.mp h
  obtain ⟨txs, _, htxs, h⟩ := Action.on_bind_eq_ok_iff.mp h
  obtain ⟨built, _, _, h⟩ := Action.on_bind_eq_ok_iff.mp h
  obtain ⟨⟨pid, proposed⟩, _, hpropose, h⟩ := Action.on_bind_eq_ok_iff.mp h
  obtain ⟨signed, _, hsign, h⟩ := Action.on_bind_eq_ok_iff.mp h
  obtain ⟨⟨signatures, committed⟩, _, hcommit, h⟩ := Action.on_bind_eq_ok_iff.mp h
  obtain ⟨_, _, _, h⟩ := Action.on_bind_eq_ok_iff.mp h
  obtain rfl := Except.ok.inj (Prod.mk.inj h).1
  -- What is committed is the only block that was parked under its proposal since.
  obtain ⟨checked, opened, recorded, hparked⟩ := exists_of_proposePatiently hpropose
  rcases GatedLedger.proposeAt_cases (Block.new built txs) _ checked opened recorded
      stage.gated with
    ⟨cause, hrefused⟩ | ⟨id, engine, _, hcheck, _, _, hon⟩
  · cases hparked.symm.trans hrefused
  · obtain ⟨hid, rfl⟩ := Prod.mk.inj (hparked.symm.trans hon)
    obtain rfl := Except.ok.inj hid
    have hledger := ledger_of_signInTurn hsign
    rcases GatedLedger.commit_cases pid signed with
      ⟨cause, ledger, _, _, hrefused⟩ | hstale | ⟨parked, p, hfound, _, _, _, _, hdone⟩
    · cases (eq_of_onLedger hcommit).symm.trans hrefused
    · cases (eq_of_onLedger hcommit).symm.trans hstale
    · rw [hledger, SortedMap.get?_insert_eq, if_pos rfl, Option.some.injEq] at hfound
      obtain ⟨_, rfl⟩ := Prod.mk.inj ((eq_of_onLedger hcommit).symm.trans hdone)
      refine ⟨_, hcheck, entryIds_of_demoTransactions htxs, ?_, rfl, rfl⟩
      dsimp only
      rw [hledger, ← hfound, Chain.prepare_prepare]

/-- **No round is refused as a repetition**, at whatever time its block is proposed.  A refusal for
any other reason changes nothing. -/
theorem Tended.attempt_ne_duplicate {stage : Stage} (h : Tended stage.gated.ledger.chain)
    {transactions : Nat} {txs : List (Transaction String)}
    (htxs : (demoTransactions stage.client stage.gated.ledger.chain.size 0 transactions).on site =
      (.ok txs, next))
    {built : Timestamp} {proposer : String} {later after : Site}
    {outcome : Except Ledger.Error String} {proposed : GatedLedger String}
    (hattempt : (attempt stage.gated (Block.new built txs) proposer).on later =
      (.ok (outcome, proposed), after)) :
    (∀ id, outcome ≠ .error (.chain (.duplicateTransaction id))) ∧
      ∀ cause, outcome = .error cause → proposed = stage.gated := by
  obtain ⟨checked, opened, recorded, hon⟩ := exists_of_attempt hattempt
  have hids : (Block.new built txs).transactions.map Transaction.id =
      entryIds stage.gated.ledger.chain.size transactions := entryIds_of_demoTransactions htxs
  have hnever := GatedLedger.proposeAt_ne_duplicateTransaction (hids ▸ h.fresh transactions)
    proposer checked opened recorded
  rw [hon] at hnever
  refine ⟨hnever, fun cause hcause => ?_⟩
  have hsame := GatedLedger.eq_of_proposeAt_error ((congrArg Prod.fst hon).trans hcause)
  rwa [hon] at hsame

end Steps

/-! ## Round after round -/

/-- Blocks behind others, each with the index of its place and with identifiers that were made for
it. -/
def Placed (transactions : Nat) (previous added : List (Block String)) : Prop :=
  ∀ (j : Nat) (block : Block String), added[j]? = some block →
    block.index = Int64.ofNat (previous.length + j) ∧
      block.transactions.map Transaction.id = entryIds (previous.length + j) transactions

theorem Placed.concat {transactions : Nat} {previous added : List (Block String)}
    {block : Block String} (h : Placed transactions previous added)
    (hindex : block.index = Int64.ofNat (previous.length + added.length))
    (hids : block.transactions.map Transaction.id =
      entryIds (previous.length + added.length) transactions) :
    Placed transactions previous (added ++ [block]) := by
  intro j other hj
  rcases place_cases hj with hold | ⟨rfl, rfl⟩
  · exact h j other hold
  · exact ⟨hindex, hids⟩

/-- A stage to which a number of rounds led from some blocks. -/
structure Led (transactions rounds : Nat) (previous : List (Block String)) (stage : Stage) :
    Prop where
  tended : Tended stage.gated.ledger.chain
  /-- The client has a private key. -/
  signs : stage.client.canSign = true
  blocks : ∃ added, stage.gated.ledger.chain.blocks = previous ++ added ∧
    added.length = rounds ∧ Placed transactions previous added

/-- **One more round that succeeds** adds one more block. -/
theorem Led.round {transactions rounds number : Nat} {previous : List (Block String)}
    {stage final : Stage} {site next : Site} (h : Led transactions rounds previous stage)
    (hround : (commitBlock stage transactions number).on site = (.ok final, next)) :
    Led transactions (rounds + 1) previous final := by
  obtain ⟨block, hcheck, hids, hchain, _, hclient⟩ := exists_of_commitBlock hround
  obtain ⟨added, hblocks, hlength, hplaced⟩ := h.blocks
  have hsize : stage.gated.ledger.chain.size = previous.length + added.length := by
    rw [Chain.size, hblocks, List.length_append]
  have hindex : block.index = Int64.ofNat (previous.length + added.length) := by
    rw [((Chain.check_eq_ok_iff _ _).mp hcheck).1.1, Chain.index_tip h.tended.valid, hsize]
  refine ⟨hchain ▸ h.tended.append hcheck hids, hclient ▸ h.signs, added ++ [block], ?_, ?_, ?_⟩
  · rw [hchain, Chain.blocks_append, hblocks, List.append_assoc]
  · rw [List.length_append, hlength, List.length_singleton]
  · exact hplaced.concat hindex (hsize ▸ hids)

end AuthorityLedger.Command
