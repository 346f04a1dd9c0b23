import AuthorityLedger.Proofs.Chain.History
import AuthorityLedger.Proofs.Chain.Persistence
import AuthorityLedger.Proofs.Chain.Relinking
import AuthorityLedger.Proofs.Command.Frame
import AuthorityLedger.Proofs.Command.Rounds

/-!
# Demonstrations in one data directory

Whoever starts with an empty ledger and runs the demonstration again and again,
with whatever configuration, keys, numbers and clock, and whether or not the runs
succeed, has a ledger whose identifiers tell their places (`Kept`).  A run that
finds such a ledger goes on from the chain in it, or from a new one if there is
none (`exists_of_demoLedger`).  All its rounds find the identifiers that they make
fresh, the replay finds its identifier used (`on_replay`), and storing the chain
puts the new blocks behind the old ones or changes nothing (`persistChain_cases`).
-/

namespace AuthorityLedger.Command

open Job (Keeps KeepsFiles Reachable)
open Storage (Database Store)

/-! ## The ledger between two runs -/

/-- A database that holds the given blocks of a valid chain, in which identifiers tell their
places.  It may hold none. -/
structure Kept (database : Database) (blocks : List (Block String)) : Prop where
  stored : Chain.Stored (Store.ofDatabase database) blocks
  numbered : Numbered blocks
  valid : ∀ chain : Chain String, chain.blocks = blocks → chain.validate = .ok ()

theorem kept_empty : Kept SortedMap.empty [] where
  stored := Chain.stored_empty
  numbered := numbered_nil
  valid _ hblocks := nomatch hblocks

/-- What a run goes on from: the blocks that a store holds, or the first block of a new chain if it
holds none. -/
inductive Origin (store : Store) : List (Block String) → Prop where
  | stored {chain : Chain String} :
      Chain.load demoChainId store = .ok chain → Origin store chain.blocks
  | fresh {written built : Timestamp} {client : Key} {chain : Chain String} :
      store.height? = .ok none → Chain.newAt written built demoChainId "init" client = .ok chain →
        Origin store [chain.genesis]

theorem Origin.ne_nil {store : Store} {blocks : List (Block String)} (h : Origin store blocks) :
    blocks ≠ [] := by
  cases h with
  | stored _ => exact List.cons_ne_nil _ _
  | fresh _ _ => exact List.cons_ne_nil _ _

/-- A chain that has just been created for the demonstration. -/
theorem tended_of_newAt {written built : Timestamp} {client : Key} {chain : Chain String}
    (h : Chain.newAt written built demoChainId "init" client = .ok chain) :
    Tended chain ∧ chain.blocks = [chain.genesis] := by
  have hid : genesisTransactionId ≠ "" := by decide
  have hpayload : Payload.canonical "init" ≠ "" := by decide
  have hlow : Transaction.minPriority ≤ (0 : Int16) := by decide
  have hhigh : (0 : Int16) ≤ Transaction.maxPriority := by decide
  obtain ⟨signature, hsigned, rfl⟩ := Chain.exists_of_newAt h
  refine ⟨⟨?_, ?_, ?_⟩, rfl⟩
  · refine (Chain.validate_eq_ok_iff _).mpr ⟨rfl, ?_, trivial⟩
    refine (Block.validate_genesis_iff _ _).mpr ⟨List.cons_ne_nil _ _, ?_⟩
    refine List.forall_mem_singleton.mpr ((Transaction.validate_eq_ok_iff _).mpr ?_)
    exact ⟨hid, hpayload, by simpa [Transaction.isSigned] using hsigned, hlow, hhigh⟩
  · intro i block hi id hmem
    obtain rfl := List.mem_singleton.mp (List.mem_of_getElem? hi)
    exact Or.inl (List.mem_singleton.mp hmem)
  · intro id
    rw [Registry.isUsed_markUsed, Registry.isUsed_empty, Bool.or_false, decide_eq_true_iff]
    exact Iff.rfl

/-- The blocks that are kept, if there are some, are those of a chain that is loaded. -/
theorem Kept.exists_load {database : Database} {kept : List (Block String)}
    (h : Kept database kept) (hsome : kept ≠ []) :
    ∃ chain : Chain String, Chain.load demoChainId (Store.ofDatabase database) = .ok chain ∧
      chain.blocks = kept ∧ Tended chain := by
  obtain ⟨genesis, later, rfl⟩ := List.exists_cons_of_ne_nil hsome
  have hvalid (registry : Registry) :
      (⟨demoChainId, genesis, later, registry⟩ : Chain String).validate = .ok () := h.valid _ rfl
  obtain ⟨chain, hload, hblocks, hused⟩ :=
    Chain.exists_load_of_stored h.stored (hvalid Registry.empty) demoChainId
  exact ⟨chain, hload, hblocks, h.valid chain hblocks, hblocks ▸ h.numbered, hblocks ▸ hused⟩

/-- **What a run goes on from.**  It is the chain that the ledger holds, or a new one if the ledger
is empty. -/
theorem exists_of_demoLedger {database : Database} {kept : List (Block String)} {client : Key}
    {ledger : Ledger String} {site next : Site} (hkept : Kept database kept)
    (h : (demoLedger (Store.ofDatabase database) client).on site = (.ok ledger, next)) :
    Tended ledger.chain ∧ kept <+: ledger.chain.blocks ∧
      Origin (Store.ofDatabase database) ledger.chain.blocks := by
  obtain ⟨height?, _, hheight, h⟩ := Action.on_bind_eq_ok_iff.mp h
  have hfound := (Job.on_expect_eq_ok_iff.mp hheight).1
  rcases Chain.height?_of_storedCount hkept.stored.count with
    ⟨hempty, hnone⟩ | ⟨height, hsome, hcount⟩
  · obtain rfl := Except.ok.inj (hfound.symm.trans hnone)
    obtain ⟨written, _, _, h⟩ := Action.on_bind_eq_ok_iff.mp h
    obtain ⟨built, _, _, h⟩ := Action.on_bind_eq_ok_iff.mp h
    obtain ⟨chain, _, hnew, h⟩ := Action.on_bind_eq_ok_iff.mp h
    obtain rfl := Except.ok.inj (Prod.mk.inj h).1
    have hcreated := (Job.on_expect_eq_ok_iff.mp hnew).1
    obtain ⟨htended, hblocks⟩ := tended_of_newAt hcreated
    refine ⟨htended, ?_, ?_⟩
    · rw [List.length_eq_zero_iff.mp hempty]
      exact List.nil_prefix
    · rw [Ledger.ofChain, hblocks]
      exact .fresh hnone hcreated
  · obtain rfl := Except.ok.inj (hfound.symm.trans hsome)
    have hmore : kept ≠ [] := List.ne_nil_of_length_pos (by omega)
    obtain ⟨chain, hload, hblocks, htended⟩ := hkept.exists_load hmore
    have hledger := (Job.on_expect_eq_ok_iff.mp (Job.on_about_eq_ok_iff.mp h)).1
    rw [Ledger.load, hload] at hledger
    obtain rfl := Except.ok.inj hledger
    exact ⟨htended, hblocks ▸ List.prefix_refl _, .stored hload⟩

/-! ## Up to a round -/

/-- Admitting the writer changes neither blocks nor used identifiers. -/
theorem tended_admitWriter {ledger : Ledger String} (h : Tended ledger.chain) :
    Tended (admitWriter ledger).chain := by
  refine ⟨h.valid, h.numbered, fun id => ?_⟩
  have hused : (admitWriter ledger).chain.registry.used = ledger.chain.registry.used :=
    Registry.used_grant _ _ _
  rw [Registry.isUsed_congr hused]
  exact h.isUsed_iff id

/-- A stage that is opened has seen no round yet. -/
theorem exists_of_openStage {database : Database} {kept : List (Block String)}
    {validators : List String} {engine : Engine} {stage : Stage} {transactions : Nat}
    {site next : Site} (hkept : Kept database kept)
    (h : (openStage (Store.ofDatabase database) validators engine).on site = (.ok stage, next)) :
    ∃ previous, Origin (Store.ofDatabase database) previous ∧ kept <+: previous ∧
      Led transactions 0 previous stage := by
  obtain ⟨client, _, hclient, h⟩ := Action.on_bind_eq_ok_iff.mp h
  obtain ⟨ledger, _, hledger, h⟩ := Action.on_bind_eq_ok_iff.mp h
  obtain ⟨_, _, _, h⟩ := Action.on_bind_eq_ok_iff.mp h
  obtain rfl := Except.ok.inj (Prod.mk.inj h).1
  obtain ⟨htended, hfront, horigin⟩ := exists_of_demoLedger hkept hledger
  have hsigns : client.canSign = true := by
    rw [← Except.ok.inj (Prod.mk.inj hclient).1]
    rfl
  refine ⟨ledger.chain.blocks, horigin, hfront, tended_admitWriter htended, hsigns, [], ?_, rfl, ?_⟩
  · exact (List.append_nil _).symm
  · nofun

/-- What is known of a stage that was set: its store is that of the ledger, and the way to the
ledger is open. -/
theorem exists_of_setStage {options : DemoOptions} {config? : Option String} {store : Store}
    {stage : Stage} {site next : Site}
    (h : (setStage options config?).on site = (.ok (store, stage), next)) :
    store = Store.ofDatabase (site.ledger options.dataDir) ∧ Reachable next options.dataDir ∧
      ∃ validators engine before,
        (openStage store validators engine).on before = (.ok stage, next) := by
  obtain ⟨⟨validators, engine⟩, assembled, hassemble, h⟩ := Action.on_bind_eq_ok_iff.mp h
  obtain ⟨_, made, hmake, h⟩ := Action.on_bind_eq_ok_iff.mp h
  obtain ⟨found, opened, hopen, h⟩ := Action.on_bind_eq_ok_iff.mp h
  obtain ⟨raised, _, hraise, h⟩ := Action.on_bind_eq_ok_iff.mp h
  obtain ⟨hpair, rfl⟩ := Prod.mk.inj h
  obtain ⟨rfl, rfl⟩ := Prod.mk.inj (Except.ok.inj hpair)
  have hsame : made.ledger options.dataDir = site.ledger options.dataDir := by
    have hfirst := (keepsFiles_assemble options config?).ledger options.dataDir site
    have hsecond := Job.keeps_makeDataDirectory options.dataDir options.dataDir assembled
    rw [hassemble] at hfirst
    rw [hmake] at hsecond
    exact hsecond.trans hfirst
  rw [Job.on_about_eq_ok_iff] at hopen
  rcases Job.on_openStore_cases made options.dataDir with
    ⟨causes, _, hfailed, _⟩ | ⟨_, hfound, _, hreachable⟩
  · cases hopen.symm.trans hfailed
  · obtain ⟨hstore, rfl⟩ := Prod.mk.inj (hopen.symm.trans hfound)
    refine ⟨(Except.ok.inj hstore).trans (congrArg Store.ofDatabase hsame), ?_, _, _, _, hraise⟩
    exact hreachable.of_keepsFiles (keepsFiles_openStage _ _ _) hraise

/-- A loop of one more round ends with that round. -/
theorem commitBlocks_succ (transactions round count : Nat) (stage : Stage) :
    commitBlocks transactions round (count + 1) stage =
      commitBlocks transactions round count stage >>= fun reached =>
        commitBlock reached transactions (round + count) := by
  induction count generalizing round stage with
  | zero => simp [commitBlocks]
  | succ count ih =>
      have hround : round + 1 + count = round + (count + 1) := by omega
      calc commitBlocks transactions round (count + 1 + 1) stage
          = commitBlock stage transactions round >>= fun next =>
              commitBlocks transactions (round + 1) (count + 1) next := rfl
        _ = commitBlock stage transactions round >>= fun next =>
              commitBlocks transactions (round + 1) count next >>= fun reached =>
                commitBlock reached transactions (round + (count + 1)) := by simp only [ih, hround]
        _ = commitBlocks transactions round (count + 1) stage >>= fun reached =>
              commitBlock reached transactions (round + (count + 1)) := (bind_assoc _ _ _).symm

/-- A round begins at the stage to which the rounds before it led. -/
theorem stageAfter_succ (options : DemoOptions) (config? : Option String) (rounds : Nat) :
    stageAfter options config? (rounds + 1) =
      stageAfter options config? rounds >>= fun (store, stage) => do
        return (store, ← commitBlock stage options.transactions rounds) := by
  simp [stageAfter, commitBlocks_succ]

/-- **What is known of the stage before a round**, wherever the ledger came from. -/
theorem exists_of_stageAfter {options : DemoOptions} {config? : Option String} {rounds : Nat}
    {kept : List (Block String)} {store : Store} {stage : Stage} {site next : Site}
    (hkept : Kept (site.ledger options.dataDir) kept)
    (h : (stageAfter options config? rounds).on site = (.ok (store, stage), next)) :
    store = Store.ofDatabase (site.ledger options.dataDir) ∧ Reachable next options.dataDir ∧
      ∃ previous, Origin store previous ∧ kept <+: previous ∧
        Led options.transactions rounds previous stage := by
  induction rounds generalizing store stage next with
  | zero =>
      obtain ⟨⟨found, start⟩, _, hset, h⟩ := Action.on_bind_eq_ok_iff.mp h
      obtain ⟨_, _, hprint, h⟩ := Action.on_bind_eq_ok_iff.mp h
      obtain ⟨_, _, hprint', h⟩ := Action.on_bind_eq_ok_iff.mp h
      obtain ⟨hpair, rfl⟩ := Prod.mk.inj h
      obtain ⟨rfl, rfl⟩ := Prod.mk.inj (Except.ok.inj hpair)
      obtain ⟨rfl, hreachable, _, _, _, hopen⟩ := exists_of_setStage hset
      refine ⟨rfl, ?_, exists_of_openStage hkept hopen⟩
      exact (hreachable.of_keepsFiles (Job.keepsFiles_print _) hprint).of_keepsFiles
        (Job.keepsFiles_print _) hprint'
  | succ rounds ih =>
      rw [stageAfter_succ] at h
      obtain ⟨⟨found, reached⟩, _, hreached, h⟩ := Action.on_bind_eq_ok_iff.mp h
      obtain ⟨final, _, hround, h⟩ := Action.on_bind_eq_ok_iff.mp h
      obtain ⟨hpair, rfl⟩ := Prod.mk.inj h
      obtain ⟨rfl, rfl⟩ := Prod.mk.inj (Except.ok.inj hpair)
      obtain ⟨hstore, hreachable, previous, horigin, hfront, hled⟩ := ih hreached
      refine ⟨hstore, ?_, previous, horigin, hfront, hled.round hround⟩
      exact hreachable.of_keepsFiles (keepsFiles_commitBlock _ _ _) hround

/-! ## The replay -/

/-- The last block of a tended chain has a transaction, and its identifier is used. -/
theorem Tended.exists_last {chain : Chain String} (h : Tended chain) :
    ∃ last rest, chain.tip.transactions = last :: rest ∧ chain.registry.isUsed last.id = true := by
  have hholds := ((Block.validate_eq_ok_iff _).mp (Chain.validate_tip h.valid)).2.2.2.2.2
  obtain ⟨last, rest, htip⟩ := List.exists_cons_of_ne_nil hholds.1
  refine ⟨last, rest, htip, (h.isUsed_iff _).mpr ?_⟩
  have hmem : chain.tip ∈ chain.blocks := List.getLastD_mem_cons
  refine List.mem_flatMap.mpr ⟨chain.tip, hmem, ?_⟩
  rw [htip]
  exact List.mem_cons_self

/-- **The replay is refused**: whatever holds a transaction with the identifier that is replayed, and
nothing else, is refused as a repetition; the replay leaves the stage as it was and reports this. -/
theorem on_replay {stage : Stage} (h : Tended stage.gated.ledger.chain)
    (hsigns : stage.client.canSign = true) (site : Site) :
    ∃ last rest final, stage.gated.ledger.chain.tip.transactions = last :: rest ∧
      (∀ (block : Block String) (proposer : String) (checked opened recorded : Nat),
        block.transactions.map Transaction.id = [last.id] →
          (GatedLedger.proposeAt block proposer checked opened recorded).on stage.gated =
            (.error (.chain (.duplicateTransaction last.id)), stage.gated)) ∧
      (replay stage).on site = (.ok stage, final) ∧
      final.output = site.output ++ ("✓  Replay of " ++ last.id ++ " rejected: " ++
        (Ledger.Error.chain (.duplicateTransaction last.id)).message) ++ "\n" := by
  obtain ⟨last, rest, htip, hused⟩ := h.exists_last
  have hrefused (block : Block String) (proposer : String) (checked opened recorded : Nat)
      (hids : block.transactions.map Transaction.id = [last.id]) :=
    GatedLedger.on_proposeAt_of_isUsed hids hused proposer checked opened recorded
  -- The job, step by step: the time, the transaction, the time again, and the attempt.
  obtain ⟨written, atWriting, hwritten, hsilent⟩ := Job.on_now site
  obtain ⟨tx, hsign⟩ : ∃ tx, (Transaction.new written last.id "replay" 1).sign stage.client =
      .ok tx := Transaction.exists_sign hsigns rfl
  have htx : (Job.expect ((Transaction.new written last.id "replay" 1).sign stage.client)).on
      atWriting = (.ok tx, atWriting) := Job.on_expect_eq_ok_iff.mpr ⟨hsign, rfl⟩
  have hid : tx.id = last.id := by rw [(Transaction.eq_of_sign hsign).1]; rfl
  obtain ⟨built, atBuilding, hbuilt, hsilent'⟩ := Job.on_now atWriting
  have hids : (Block.new built [tx]).transactions.map Transaction.id = [last.id] :=
    congrArg (fun id => [id]) hid
  obtain ⟨_, _, after, hattempt, hsilent''⟩ :=
    on_attempt stage.gated (Block.new built [tx]) (stage.validators.headD "") atBuilding
  rw [hrefused _ _ _ _ _ hids] at hattempt
  refine ⟨last, rest, { after with output := site.output ++ ("✓  Replay of " ++ last.id ++
    " rejected: " ++ (Ledger.Error.chain (.duplicateTransaction last.id)).message) ++ "\n" }, htip,
    hrefused, ?_, rfl⟩
  unfold replay
  rw [htip, List.head?_cons, ← hsilent, ← hsilent', ← hsilent'']
  simp only [Action.on_bind, hwritten, htx, hbuilt, hattempt]
  rfl

/-! ## Storing the chain -/

/-- What is kept of a store are the records in it. -/
theorem kept_of_stored {chain : Chain String} {store : Store} (h : Tended chain)
    (hstored : Chain.Stored store chain.blocks) : Kept store.database chain.blocks where
  stored := by
    have hclosed : Store.ofDatabase store.database = store := by
      rw [Store.ofDatabase, ← hstored.closed]
    rwa [hclosed]
  numbered := h.numbered
  valid other hblocks := by
    obtain ⟨hgenesis, hlater⟩ := List.cons.inj hblocks
    rw [Chain.validate, hgenesis, hlater]
    exact h.valid

/-- **Storing the chain** makes the ledger hold all its blocks, if they begin with those that were
there; or it fails and leaves the ledger as it was. -/
theorem persistChain_cases {database : Database} {kept : List (Block String)}
    {ledger : Ledger String} {dataDir : String} {site : Site} (hkept : Kept database kept)
    (htended : Tended ledger.chain) (hfront : kept <+: ledger.chain.blocks)
    (hreachable : Reachable site dataDir) :
    (∃ next, (persistChain dataDir (Store.ofDatabase database) ledger).on site = (.ok (), next) ∧
        Kept (next.ledger dataDir) ledger.chain.blocks) ∨
      ∃ causes next, (persistChain dataDir (Store.ofDatabase database) ledger).on site =
          (.error causes, next) ∧ next.ledger dataDir = database := by
  have hwhole : kept ++ ledger.chain.blocks.drop kept.length = ledger.chain.blocks :=
    List.prefix_iff_eq_append.mp hfront
  unfold persistChain Ledger.persist
  rw [Action.on_wrapping]
  rcases Chain.persist_of_stored hkept.stored htended.valid with
    ⟨_, store, hon, hstored⟩ | ⟨_, cause, hon⟩
  · rw [hon]
    rw [hwhole] at hstored
    refine Or.inl ⟨_, rfl, ?_⟩
    exact (Job.ledger_keepStore hreachable store).symm ▸ kept_of_stored htended hstored
  · rw [hon]
    exact Or.inr ⟨_, _, rfl, Job.ledger_keepStore hreachable (Store.ofDatabase database)⟩

/-! ## One run -/

variable {options : DemoOptions} {config? : Option String} {kept : List (Block String)}
  {site next : Site}

/-- What is known when the chain is to be stored: the replay has changed nothing. -/
theorem exists_of_rehearse {store : Store} {stage : Stage}
    (hkept : Kept (site.ledger options.dataDir) kept)
    (h : (rehearse options config?).on site = (.ok (store, stage), next)) :
    store = Store.ofDatabase (site.ledger options.dataDir) ∧ Reachable next options.dataDir ∧
      ∃ previous, Origin store previous ∧ kept <+: previous ∧
        Led options.transactions options.blocks previous stage := by
  obtain ⟨⟨found, reached⟩, before, hreached, h⟩ := Action.on_bind_eq_ok_iff.mp h
  obtain ⟨final, _, hreplay, h⟩ := Action.on_bind_eq_ok_iff.mp h
  obtain ⟨_, _, hprint, h⟩ := Action.on_bind_eq_ok_iff.mp h
  obtain ⟨hpair, rfl⟩ := Prod.mk.inj h
  obtain ⟨rfl, rfl⟩ := Prod.mk.inj (Except.ok.inj hpair)
  obtain ⟨hstore, hreachable, previous, horigin, hfront, hled⟩ :=
    exists_of_stageAfter hkept hreached
  obtain ⟨_, _, _, _, _, hon, _⟩ := on_replay hled.tended hled.signs before
  obtain rfl := Except.ok.inj (Prod.mk.inj (hon.symm.trans hreplay)).1
  refine ⟨hstore, ?_, previous, horigin, hfront, hled⟩
  exact (hreachable.of_keepsFiles (keepsFiles_replay _) hreplay).of_keepsFiles
    (Job.keepsFiles_print _) hprint

theorem keeps_exportChain (chain : Chain String) (file dataDir : String) :
    Keeps (·.ledger dataDir) (exportChain chain file) :=
  ((Job.keeps_write _ _ _).about _).bind fun _ => (Job.keepsFiles_print _).ledger _

/-- **What a run does to the ledger.**  It leaves it alone and fails, or it puts as many blocks as it
was asked for behind those that it went on from, and whatever it does afterwards keeps them. -/
theorem demo_cases (hkept : Kept (site.ledger options.dataDir) kept) :
    (∃ causes next, (demo options config?).on site = (.error causes, next) ∧
        next.ledger options.dataDir = site.ledger options.dataDir) ∨
      ∃ previous added, Origin (Store.ofDatabase (site.ledger options.dataDir)) previous ∧
        added.length = options.blocks ∧ Placed options.transactions previous added ∧
        Kept (((demo options config?).on site).2.ledger options.dataDir) (previous ++ added) := by
  have hledger := keeps_rehearse options config? site
  unfold demo
  rw [Action.on_bind]
  cases hrehearse : (rehearse options config?).on site with
  | mk outcome ready =>
      rw [hrehearse] at hledger
      cases outcome with
      | error causes => exact Or.inl ⟨causes, ready, rfl, hledger⟩
      | ok found =>
          obtain ⟨store, stage⟩ := found
          obtain ⟨rfl, hreachable, previous, horigin, hfront, hled⟩ :=
            exists_of_rehearse hkept hrehearse
          obtain ⟨added, hblocks, hlength, hplaced⟩ := hled.blocks
          have hbegins : kept <+: stage.gated.ledger.chain.blocks := by
            rw [hblocks]
            exact hfront.trans (List.prefix_append _ _)
          dsimp only
          rw [Action.on_bind]
          rcases persistChain_cases hkept hled.tended hbegins hreachable with
            ⟨written, hon, hstored⟩ | ⟨causes, failed, hon, hsame⟩
          · right
            refine ⟨previous, added, horigin, hlength, hplaced, ?_⟩
            rw [← hblocks, hon]
            cases options.exportPath? with
            | none => exact hstored
            | some file =>
                have hexport : ((exportChain stage.gated.ledger.chain file).on written).2.ledger
                    options.dataDir = written.ledger options.dataDir := keeps_exportChain _ _ _ _
                rw [← hexport] at hstored
                exact hstored
          · rw [hon]
            exact Or.inl ⟨causes, failed, rfl, hsame⟩

/-! ## One run after another -/

/-- The ledgers that demonstrations leave one after another, of an empty one.  Each run may have
other options and another configuration, and may find other keys and another clock, as long as it
finds the ledger that the run before it has left. -/
inductive Reached : Database → Prop where
  | empty : Reached SortedMap.empty
  | run {site : Site} {options : DemoOptions} {config? : Option String} :
      Reached (site.ledger options.dataDir) →
        Reached (((demo options config?).on site).2.ledger options.dataDir)

theorem exists_kept_of_reached {database : Database} (h : Reached database) :
    ∃ kept, Kept database kept := by
  induction h with
  | empty => exact ⟨[], kept_empty⟩
  | run _ ih =>
      obtain ⟨kept, hkept⟩ := ih
      rcases demo_cases hkept with ⟨causes, next, hon, hsame⟩ | ⟨previous, added, _, _, _, hnext⟩
      · rw [hon]
        exact ⟨kept, hsame.symm ▸ hkept⟩
      · exact ⟨previous ++ added, hnext⟩

/-- What is expected of a run of the demonstration. -/
structure Orderly (site : Site) (options : DemoOptions) (config? : Option String) : Prop where
  /-- If it fails before the chain is stored, the ledger is what it was. -/
  failed : ∀ causes next, (rehearse options config?).on site = (.error causes, next) →
    (demo options config?).on site = (.error causes, next) ∧
      next.ledger options.dataDir = site.ledger options.dataDir
  /-- If it succeeds, the ledger holds a chain of the blocks that the run went on from and as many
  more as it was asked for, each with the transactions that were made for its place. -/
  finished : ∀ next, (demo options config?).on site = (.ok (), next) →
    ∃ chain previous added,
      Chain.load demoChainId (Store.ofDatabase (next.ledger options.dataDir)) = .ok chain ∧
        Origin (Store.ofDatabase (site.ledger options.dataDir)) previous ∧
        chain.blocks = previous ++ added ∧ added.length = options.blocks ∧
        Placed options.transactions previous added
  /-- In no round is the block refused as a repetition, at whatever time it is proposed; and a
  refusal for any other reason changes nothing, so that the same holds when it is proposed again. -/
  fresh : ∀ rounds store stage before,
    (stageAfter options config? rounds).on site = (.ok (store, stage), before) → ∀ txs made,
      (demoTransactions stage.client stage.gated.ledger.chain.size 0 options.transactions).on
          before = (.ok txs, made) → ∀ built proposer later outcome proposed after,
        (attempt stage.gated (Block.new built txs) proposer).on later =
            (.ok (outcome, proposed), after) →
          (∀ id, outcome ≠ .error (.chain (.duplicateTransaction id))) ∧
            ∀ cause, outcome = .error cause → proposed = stage.gated
  /-- When all rounds have succeeded, the replay is refused as a repetition and says so. -/
  replayed : ∀ store stage before,
    (stageAfter options config? options.blocks).on site = (.ok (store, stage), before) →
      ∃ last rest final, stage.gated.ledger.chain.tip.transactions = last :: rest ∧
        (∀ (block : Block String) (proposer : String) (checked opened recorded : Nat),
          block.transactions.map Transaction.id = [last.id] →
            (GatedLedger.proposeAt block proposer checked opened recorded).on stage.gated =
              (.error (.chain (.duplicateTransaction last.id)), stage.gated)) ∧
        (replay stage).on before = (.ok stage, final) ∧
        final.output = before.output ++ ("✓  Replay of " ++ last.id ++ " rejected: " ++
          (Ledger.Error.chain (.duplicateTransaction last.id)).message) ++ "\n"

/-- **Repeated demonstrations grow one ledger.**  Whatever runs there have been since the ledger was
empty, the next one leaves it alone if it fails before the chain is stored.  If it succeeds, the
ledger holds what it held, or a first block, and then as many blocks as were asked for, each with
transactions that are numbered by its place.  No block of the run is refused because an identifier
was used before; the replay always is. -/
theorem orderly_of_reached {site : Site} {options : DemoOptions}
    (h : Reached (site.ledger options.dataDir)) (config? : Option String) :
    Orderly site options config? := by
  obtain ⟨kept, hkept⟩ := exists_kept_of_reached h
  refine ⟨?_, ?_, ?_, ?_⟩
  · intro causes next hfailed
    have hledger := keeps_rehearse options config? site
    rw [hfailed] at hledger
    refine ⟨?_, hledger⟩
    rw [demo, Action.on_bind, hfailed]
  · intro next hdone
    rcases demo_cases hkept with
      ⟨causes, _, hon, _⟩ | ⟨previous, added, horigin, hlength, hplaced, hnext⟩
    · cases hdone.symm.trans hon
    · rw [hdone] at hnext
      have hsome : previous ++ added ≠ [] := List.append_ne_nil_of_left_ne_nil horigin.ne_nil _
      obtain ⟨chain, hload, hblocks, _⟩ := hnext.exists_load hsome
      exact ⟨chain, previous, added, hload, horigin, hblocks, hlength, hplaced⟩
  · intro rounds store stage before hreached txs made htxs built proposer later outcome proposed
      after hattempt
    obtain ⟨_, _, _, _, _, hled⟩ := exists_of_stageAfter hkept hreached
    exact hled.tended.attempt_ne_duplicate htxs hattempt
  · intro store stage before hreached
    obtain ⟨_, _, _, _, _, hled⟩ := exists_of_stageAfter hkept hreached
    exact on_replay hled.tended hled.signs before

/-- One block of one transaction, in a directory that holds the key of a validator. -/
def single : DemoOptions where
  dataDir := "data"
  blocks := 1
  transactions := 1
  exportPath? := none

/-- A site with such a directory. -/
def workshop : Site where
  files := {
    items := SortedMap.ofList [
      (["data"], .directory none),
      (["data", "keys"], .directory none),
      (["data", "keys", "a.json"],
        .text ("\x7b\"private_key\": \"" ++ Hex.encode (List.replicate 32 1) ++ "\"\x7d"))]
    here := [] }
  clock := ⟨0, 0⟩
  seeds _ := List.replicate 32 7
  drawn := 0
  output := ""

theorem ledger_workshop : workshop.ledger single.dataDir = SortedMap.empty := by
  decide +kernel

theorem exists_on_workshop : ∃ next, (demo single none).on workshop = (.ok (), next) := by
  have hok : ((demo single none).on workshop).1.isOk = true := by decide +kernel
  obtain ⟨_, hdone⟩ := Except.exists_eq_ok_of_isOk hok
  exact ⟨_, Prod.ext hdone rfl⟩

/-- A first run there succeeds, the ledger holds a first block and one more, and a second run is
as orderly. -/
theorem orderly_of_reached_workshop :
    Reached (workshop.ledger single.dataDir) ∧
      ∃ (next : Site) (chain : Chain String), (demo single none).on workshop = (.ok (), next) ∧
        Chain.load demoChainId (Store.ofDatabase (next.ledger single.dataDir)) = .ok chain ∧
        Chain.transactionIds chain.blocks = [genesisTransactionId, "tx-1-0"] ∧
        Reached (next.ledger single.dataDir) ∧ Orderly next single none := by
  have hfirst : Reached (workshop.ledger single.dataDir) := ledger_workshop ▸ .empty
  obtain ⟨next, hdone⟩ := exists_on_workshop
  have hsecond : Reached (next.ledger single.dataDir) := by
    have hrun : Reached (((demo single none).on workshop).2.ledger single.dataDir) := .run hfirst
    rwa [hdone] at hrun
  obtain ⟨chain, previous, added, hload, horigin, hblocks, hlength, hplaced⟩ :=
    (orderly_of_reached hfirst none).finished next hdone
  refine ⟨hfirst, next, chain, hdone, hload, ?_, hsecond, orderly_of_reached hsecond none⟩
  obtain ⟨block, rfl⟩ := List.length_eq_one_iff.mp hlength
  have hempty : (Chain.load demoChainId (Store.ofDatabase SortedMap.empty) :
      Except Chain.Error (Chain String)) = .error .emptyStore := rfl
  rw [ledger_workshop] at horigin
  cases horigin with
  | stored hstored => cases hempty.symm.trans hstored
  | fresh _ hnew =>
      have hids : block.transactions.map Transaction.id = entryIds 1 1 := (hplaced 0 block rfl).2
      have hnumbers : entryIds 1 1 = ["tx-1-0"] := by decide
      obtain ⟨_, _, rfl⟩ := Chain.exists_of_newAt hnew
      rw [hblocks, Chain.transactionIds_append, Chain.transactionIds_singleton,
        Chain.transactionIds_singleton, hids, hnumbers]
      rfl

end AuthorityLedger.Command
